import GridPattern.Proofs.Pattern.Soundness

/-!
# What has a derivation is read

A reader takes the tokens that the grammar derives a value from and leaves the rest alone, whatever the
rest is. For suffixes and lists the rest matters: no suffix may follow a statement, and what follows a
list has to close it.

**The law** (`Program.ofTokens_iff`). Together with what was shown of the values that are read, the
parser reads the programs of the grammar and no other token lists. Every derivation of a token list is
then of one tree (`IsProgram.unique`).

Depth never runs out. A statement is given three levels for each of its tokens, a list one more and the
brackets around it two.
-/

namespace GridPattern

/-- **What is taken** for a value, where the rest is left and nothing is noted. -/
def Reader.Takes {α : Type} (r : Reader α) (tokens : List Token) (a : α) (rest : List Token) : Prop :=
  ∀ finish notes, r ⟨tokens ++ rest, finish, notes⟩ = .read a ⟨rest, finish, notes⟩

namespace Reader

variable {α β : Type} {rest : List Token}

namespace Takes

theorem pure (a : α) : (pure a : Reader α).Takes [] a rest := fun _ _ => rfl

theorem bind {r : Reader α} {f : α → Reader β} {ts us : List Token} {a : α} {b : β}
    (hr : r.Takes ts a (us ++ rest)) (hf : (f a).Takes us b rest) :
    (r >>= f).Takes (ts ++ us) b rest := by
  intro finish notes
  rw [bind_apply, List.append_assoc, hr finish notes]
  exact hf finish notes

theorem cons {r : Reader α} {f : α → Reader β} {t : Token} {us : List Token} {a : α} {b : β}
    (hr : r.Takes [t] a (us ++ rest)) (hf : (f a).Takes us b rest) :
    (r >>= f).Takes (t :: us) b rest := hr.bind hf

theorem skip {r : Reader α} {f : α → Reader β} {us : List Token} {a : α} {b : β}
    (hr : r.Takes [] a (us ++ rest)) (hf : (f a).Takes us b rest) : (r >>= f).Takes us b rest :=
  hr.bind hf

theorem map {r : Reader α} {f : α → β} {ts : List Token} {a : α} (hr : r.Takes ts a rest) :
    (r >>= fun a => Pure.pure (f a)).Takes ts (f a) rest := by
  intro finish notes
  rw [bind_apply, hr finish notes]
  rfl

/-- A look at the next token takes nothing. -/
theorem look {test : Token → Bool} {f : Bool → Reader β} {ts : List Token} {b : β}
    (h : (f ((ts ++ rest).head?.any test)).Takes ts b rest) : (nextIs test >>= f).Takes ts b rest :=
  fun finish notes => h finish notes

theorem look_of_pos {test : Token → Bool} {f : Bool → Reader β} {t : Token} {ts : List Token} {b : β}
    (ht : test t = true) (h : (f true).Takes (t :: ts) b rest) :
    (nextIs test >>= f).Takes (t :: ts) b rest := by
  apply look
  rwa [List.cons_append, List.head?_cons, Option.any_some, ht]

theorem look_of_neg {test : Token → Bool} {f : Bool → Reader β} {ts : List Token} {b : β}
    (ht : ∀ t ∈ (ts ++ rest).head?, test t = false) (h : (f false).Takes ts b rest) :
    (nextIs test >>= f).Takes ts b rest := by
  apply look
  have hnone : (ts ++ rest).head?.any test = false := by
    cases hhead : (ts ++ rest).head? with
    | none => rfl
    | some t => exact ht t hhead
  rwa [hnone]

end Takes

theorem next_takes (what : Expectation) (t : Token) : (next what).Takes [t] t rest := fun _ _ => rfl

theorem require_takes {what : Expectation} {test : Token → Bool} {t : Token} (ht : test t = true) :
    (require what test).Takes [t] t rest := by
  refine (next_takes .token t).cons ?_
  rw [if_pos ht]
  exact .pure t

theorem mark_takes {c : Char} {t : Token} (ht : t.isSpecial c = true) : (mark c).Takes [t] () rest := by
  refine (next_takes (.mark c) t).cons ?_
  rw [if_pos ht]
  exact .pure ()

theorem string_takes {what : Expectation} {t : Token} (ht : t.isString = true) :
    (string what).Takes [t] t.text rest := (require_takes ht).map

theorem note_takes (t : Token) : (note t []).Takes [] () rest := by
  intro finish notes
  simp [note]

end Reader

namespace Parser

open Reader Grammar

variable {rest : List Token}

/-! ## Directions -/

theorem Turned.eq_of_nil {before after : Direction} (h : Turned before [] after) : after = before := by
  obtain ⟨_, habsolute, hturns⟩ := h
  obtain ⟨turns, absolute⟩ := after
  have : absolute = before.absolute := Bool.eq_iff_iff.mpr (by simpa using habsolute)
  simp_all

/-- The first token of a direction is a turn or a dot, and the others go on from there. -/
theorem Turned.of_cons {before after : Direction} {t : Token} {tokens : List Token}
    (h : Turned before (t :: tokens) after) :
    (IsTurn t ∧ Turned { before with turns := before.turns ++ t.text } tokens after) ∨
      (t.isSpecial '.' = true ∧ Turned { before with absolute := true } tokens after) := by
  obtain ⟨each, habsolute, hturns⟩ := h
  obtain ⟨ht, each⟩ := List.forall_mem_cons.mp each
  obtain ht | ht := ht
  · exact .inl ⟨ht, each, by simpa [isDot_eq_false ht] using habsolute,
      by simpa [isDot_eq_false ht] using hturns⟩
  · exact .inr ⟨ht, each, by simpa [ht] using habsolute, by simpa [ht] using hturns⟩

theorem isMark_eq_false {t : Token} {c : Char} {marks : List Char} (ht : t.isSpecial c = true)
    (hc : c ∉ marks) : marks.any t.isSpecial = false := by
  rw [List.any_eq_false]
  intro d hd
  rw [isSpecial_eq_false ht (ne_of_mem_of_not_mem hd hc).symm]
  exact Bool.false_ne_true

theorem directionOver_takes {way way' : Direction} {s : Source} {ts : List Token} {r : Token}
    (h : Turned way ts way') (hr : r.isSpecial '>' = true) :
    directionOver way s (ts ++ r :: rest) = .read way' { s with tokens := rest } := by
  induction ts generalizing way with
  | nil =>
    rw [h.eq_of_nil, List.nil_append, directionOver, isString_eq_false hr,
      isSpecial_eq_false hr (by decide), isMark_eq_false hr (by decide), hr]
    rfl
  | cons t ts ih =>
    rw [List.cons_append, directionOver]
    obtain ⟨ht, h⟩ | ⟨ht, h⟩ := h.of_cons
    · rw [ih h, isDot_eq_false ht]
      obtain hletters | hmark := isTurn_iff.mp ht
      · rw [if_pos hletters]
      · rw [if_pos hmark]
        split <;> rfl
    · rw [ih h, isString_eq_false ht, ht]
      rfl

theorem direction_takes {ts : List Token} {way : Direction} {r : Token} (h : IsDirection ts way)
    (hr : r.isSpecial '>' = true) : direction.Takes (ts ++ [r]) way rest := by
  obtain ⟨each, habsolute, hturns⟩ := h
  obtain ⟨turns, absolute⟩ := way
  generalize hwritten : (ts.filter fun t => !t.isSpecial '.').flatMap (·.text) = written at hturns
  have turned : Turned ⟨[], false⟩ ts ⟨written, absolute⟩ :=
    ⟨each, by simpa using habsolute, hwritten.symm⟩
  have turnsTaken : Takes (fun s => directionOver ⟨[], false⟩ s s.tokens) (ts ++ [r])
      ⟨written, absolute⟩ rest := by
    intro finish notes
    rw [List.append_assoc]
    exact directionOver_takes turned hr
  have hway : (⟨turns, absolute⟩ : Direction) =
      if written.isEmpty then ⟨['F'], absolute⟩ else ⟨written, absolute⟩ := by
    by_cases hnil : written = [] <;> simp_all
  rw [hway]
  exact turnsTaken.map

/-! ## Calls and suffixes -/

theorem params_takes {t : Token} {p : Params} (h : IsParams t.text p) : params.Takes [t] p rest := by
  have hletters := Params.isParams_iff.mp h
  refine (next_takes .token t).cons ?_
  simp only [hletters]
  exact (note_takes t).skip (.pure p)

theorem call_takes {o : Token} {ts : List Token} {target : Call} (h : IsCall (o :: ts) target) :
    call.Takes ts target rest := by
  cases h with
  | @plain _ name l r c tokens way _ hname hl isWay hr hc =>
    refine (string_takes hname).cons ((mark_takes hl).cons ?_)
    rw [List.append_cons tokens r [c]]
    refine (direction_takes isWay hr).bind ?_
    refine .look_of_neg (by simpa using isString_eq_false hc) ?_
    exact (mark_takes hc).map
  | @withParams _ name l r letters c tokens way p _ hname hl isWay hr hletters isParams hc =>
    refine (string_takes hname).cons ((mark_takes hl).cons ?_)
    rw [List.append_cons tokens r [letters, c]]
    refine (direction_takes isWay hr).bind ?_
    refine .look_of_pos hletters ?_
    exact (params_takes isParams).cons (mark_takes hc).map

theorem bounds_takes {o written c : Token} {b : Bounds} (ho : o.isSpecial '{' = true)
    (hwritten : written.isString = true) (isBounds : IsBounds written.text b)
    (hc : c.isSpecial '}' = true) : bounds.Takes [o, written, c] b rest := by
  have hbounds := Bounds.isBounds_iff.mp isBounds
  refine (mark_takes ho).cons ((require_takes hwritten).cons ?_)
  simp only [hbounds]
  exact (note_takes written).skip (mark_takes hc).map

/-- The special characters that begin suffixes. -/
def suffixMarks : List Char := ['*', '+', '?', '%']

theorem suffix_takes {ts : List Token} {count : Repeat} (h : IsSuffix ts count) :
    suffix?.Takes ts (some count) rest := by
  cases h with
  | star ht => exact .look_of_pos ht (next_takes .token _).map
  | plus ht =>
    refine .look_of_neg (by simpa using isSpecial_eq_false ht (by decide)) ?_
    exact .look_of_pos ht (next_takes .token _).map
  | option ht =>
    refine .look_of_neg (by simpa using isSpecial_eq_false ht (by decide)) ?_
    refine .look_of_neg (by simpa using isSpecial_eq_false ht (by decide)) ?_
    exact .look_of_pos ht (next_takes .token _).map
  | bounded ht ho hwritten isBounds hc =>
    refine .look_of_neg (by simpa using isSpecial_eq_false ht (by decide)) ?_
    refine .look_of_neg (by simpa using isSpecial_eq_false ht (by decide)) ?_
    refine .look_of_neg (by simpa using isSpecial_eq_false ht (by decide)) ?_
    refine .look_of_pos ht ((next_takes .token _).cons ?_)
    exact (bounds_takes ho hwritten isBounds hc).map

/-- Where what is left begins with no suffix. -/
def Unsuffixed (rest : List Token) : Prop :=
  ∀ t ∈ rest.head?, ∀ c ∈ suffixMarks, t.isSpecial c = false

theorem suffix_takes_none (h : Unsuffixed rest) : suffix?.Takes [] none rest := by
  refine .look_of_neg (fun t ht => h t ht '*' (by decide)) ?_
  refine .look_of_neg (fun t ht => h t ht '+' (by decide)) ?_
  refine .look_of_neg (fun t ht => h t ht '?' (by decide)) ?_
  refine .look_of_neg (fun t ht => h t ht '%' (by decide)) ?_
  exact .pure none

theorem suffix_length {ts : List Token} {count : Repeat} (h : IsSuffix ts count) : 1 ≤ ts.length := by
  cases h <;> simp

theorem suffixes_takes {depth : Nat} {ts : List Token} {inner node : Node} (h : Suffixed ts inner node)
    (hd : ts.length < depth) (hrest : Unsuffixed rest) : (suffixes depth inner).Takes ts node rest := by
  induction h generalizing depth with
  | none =>
    obtain ⟨depth, rfl⟩ := Nat.exists_eq_add_one_of_ne_zero (Nat.ne_zero_of_lt hd)
    exact (suffix_takes_none hrest).skip (.pure _)
  | @more tokens others count inner node isSuffix _ ih =>
    obtain ⟨depth, rfl⟩ := Nat.exists_eq_add_one_of_ne_zero (Nat.ne_zero_of_lt hd)
    have hlength := suffix_length isSuffix
    rw [List.length_append] at hd
    have hothers : others.length < depth := by omega
    exact (suffix_takes isSuffix).bind (ih hothers)

/-! ## Statements -/

/-- The special characters that begin statements. -/
def openers : List Char := ['(', '[', '<', '{', '$', '.', '!', '~', '\x60']

/-- A token that begins a statement. -/
def Begins (t : Token) : Prop := t.isString = true ∨ ∃ c ∈ openers, t.isSpecial c = true

theorem Begins.isSpecial_eq_false {t : Token} (h : Begins t) {c : Char} (hc : c ∉ openers) :
    t.isSpecial c = false := by
  obtain hstring | ⟨d, hd, ht⟩ := h
  · exact isSpecial_eq_false_of_isString hstring c
  · exact Parser.isSpecial_eq_false ht (ne_of_mem_of_not_mem hd hc)

theorem Begins.isMark_eq_false {t : Token} (h : Begins t) {marks : List Char}
    (hmarks : ∀ c ∈ marks, c ∉ openers) : marks.any t.isSpecial = false := by
  rw [List.any_eq_false]
  intro c hc
  rw [h.isSpecial_eq_false (hmarks c hc)]
  exact Bool.false_ne_true

theorem atom_begins {ts : List Token} {node : Node} (h : IsAtom ts node) :
    ∃ t us, ts = t :: us ∧ Begins t := by
  cases h with
  | string ht => exact ⟨_, _, rfl, .inl ht⟩
  | call isCall =>
    cases isCall with
    | plain ho | withParams ho => exact ⟨_, _, rfl, .inr ⟨_, by decide, ho⟩⟩
  | group ht | choice ht | direction ht | outside ht | inside ht =>
    exact ⟨_, _, rfl, .inr ⟨_, by decide, ht⟩⟩

theorem statement_begins {ts : List Token} {node : Node} (h : IsStatement ts node) :
    ∃ t us, ts = t :: us ∧ Begins t := by
  cases h with
  | atom isAtom _ =>
    obtain ⟨t, us, rfl, begins⟩ := atom_begins isAtom
    exact ⟨t, _, rfl, begins⟩
  | look isLook _ =>
    cases isLook with
    | absent ht | unmarked ht | retraced ht => exact ⟨_, _, rfl, .inr ⟨_, by decide, ht⟩⟩

theorem statements_begin {ts : List Token} {nodes : List Node} (h : AreStatements ts nodes) :
    ∀ t ∈ ts.head?, Begins t := by
  cases h with
  | nil => simp
  | cons isStatement _ =>
    obtain ⟨t, us, rfl, begins⟩ := statement_begins isStatement
    simpa using begins

/-- Where what is left closes a list. -/
def Closes (rest : List Token) : Prop := ∃ t us, rest = t :: us ∧ ∃ c ∈ closers, t.isSpecial c = true

theorem closes_cons {t : Token} {c : Char} (ht : t.isSpecial c = true) (hc : c ∈ closers) :
    Closes (t :: rest) := ⟨t, rest, rfl, c, hc, ht⟩

theorem Closes.unsuffixed (h : Closes rest) : Unsuffixed rest := by
  obtain ⟨t, us, rfl, c, hc, ht⟩ := h
  have apart : ∀ c ∈ closers, c ∉ suffixMarks := by simp [closers, suffixMarks]
  intro t' ht' d hd
  cases ht'
  exact isSpecial_eq_false ht (ne_of_mem_of_not_mem hd (apart c hc)).symm

/-- Neither the statements of a list nor what closes it begin with a suffix. -/
theorem unsuffixed_append {ts : List Token} {nodes : List Node} (h : AreStatements ts nodes)
    (hrest : Closes rest) : Unsuffixed (ts ++ rest) := by
  cases ts with
  | nil => exact hrest.unsuffixed
  | cons t ts =>
    have begins := statements_begin h t rfl
    have apart : ∀ c ∈ suffixMarks, c ∉ openers := by simp [suffixMarks, openers]
    intro t' ht' c hc
    cases ht'
    exact begins.isSpecial_eq_false (apart c hc)

theorem listEnds_takes {β : Type} {f : Bool → Reader β} {b : β} {t : Token} {ts us : List Token}
    (h : ts ++ rest = t :: us) (hf : (f (closers.any t.isSpecial)).Takes ts b rest) :
    (listEnds >>= f).Takes ts b rest := by
  intro finish notes
  rw [← hf finish notes, h]
  rfl

/-- **What is derived is read** where the depth allows it: lists, statements and single statements. -/
structure Readable (depth : Nat) : Prop where
  ofList : ∀ {kind : ListKind} {ts : List Token} {node : Node} {rest : List Token},
    IsList kind ts node → 3 * ts.length + 2 ≤ depth → Closes rest → (list depth kind).Takes ts node rest
  ofStatements : ∀ {before nodes : List Node} {ts rest : List Token}, AreStatements ts nodes →
    3 * ts.length + 1 ≤ depth → Closes rest →
      (statements depth before).Takes ts (before.reverse ++ nodes) rest
  ofStatement : ∀ {ts : List Token} {node : Node} {rest : List Token}, IsStatement ts node →
    3 * ts.length ≤ depth → Unsuffixed rest → (statement depth).Takes ts node rest

theorem group_takes {depth : Nat} (ih : Readable depth) {kind : ListKind} {ts : List Token} {node : Node}
    {c : Token} {close : Char} (h : IsList kind ts node) (hd : 3 * ts.length + 2 ≤ depth)
    (hclose : close ∈ closers) (hc : c.isSpecial close = true) :
    (list depth kind >>= fun node => mark close >>= fun _ => pure node).Takes (ts ++ [c]) node rest :=
  (ih.ofList h hd (closes_cons hc hclose)).bind (mark_takes hc).map

theorem atom_takes {depth : Nat} (ih : Readable depth) {t : Token} {ts : List Token} {node : Node}
    (h : IsAtom (t :: ts) node) (hd : 3 * ts.length ≤ depth + 1) :
    (statementHead depth t).Takes ts node rest := by
  cases h with
  | string ht =>
    rw [statementHead_eq (.literal ht)]
    exact .pure _
  | group ht isList hc =>
    rw [statementHead_eq (.group ht)]
    rw [List.length_append, List.length_singleton] at hd
    exact group_takes ih isList (by omega) (by decide) hc
  | choice ht isList hc =>
    rw [statementHead_eq (.choice ht)]
    rw [List.length_append, List.length_singleton] at hd
    exact group_takes ih isList (by omega) (by decide) hc
  | direction ht isWay hr =>
    rw [statementHead_eq (.direction ht)]
    exact (direction_takes isWay hr).map
  | call isCall =>
    have ho : t.isSpecial '{' = true := by
      cases isCall with
      | plain ho | withParams ho => exact ho
    rw [statementHead_eq (.call ho)]
    exact (call_takes isCall).map
  | outside ht =>
    rw [statementHead_eq (.outside ht)]
    exact .pure _
  | inside ht =>
    rw [statementHead_eq (.inside ht)]
    exact .pure _

theorem list_readable {depth : Nat} (ih : Readable depth) {kind : ListKind} {ts : List Token}
    {node : Node} (h : IsList kind ts node) (hd : 3 * ts.length + 2 ≤ depth + 1) (hrest : Closes rest) :
    (list (depth + 1) kind).Takes ts node rest := by
  rw [list]
  cases h with
  | negated ht hchars =>
    exact .look_of_pos ht ((next_takes .token _).cons (string_takes hchars).map)
  | @statements _ _ parts _ areStatements builds =>
    have caret : ∀ t ∈ (ts ++ rest).head?, t.isSpecial '^' = false := by
      intro t ht
      cases ts with
      | nil =>
        obtain ⟨t', us, rfl, c, hc, hspecial⟩ := hrest
        have apart : '^' ∉ closers := by decide
        cases ht
        exact isSpecial_eq_false hspecial (ne_of_mem_of_not_mem hc apart)
      | cons t' ts =>
        cases ht
        exact (statements_begin areStatements t rfl).isSpecial_eq_false (by decide)
    rw [builds_iff.mp builds]
    have hparts : (statements depth []).Takes ts parts rest :=
      ih.ofStatements areStatements (by omega) hrest
    exact .look_of_neg caret hparts.map

theorem statements_readable {depth : Nat} (ih : Readable depth) {before nodes : List Node}
    {ts : List Token} (h : AreStatements ts nodes) (hd : 3 * ts.length + 1 ≤ depth + 1)
    (hrest : Closes rest) : (statements (depth + 1) before).Takes ts (before.reverse ++ nodes) rest := by
  rw [statements]
  cases h with
  | nil =>
    obtain ⟨t, us, rfl, c, hc, ht⟩ := hrest
    have ends : closers.any t.isSpecial = true := List.any_eq_true.mpr ⟨c, hc, ht⟩
    refine listEnds_takes rfl ?_
    rw [ends, List.append_nil]
    exact .pure _
  | @cons tokens others node nodes isStatement areStatements =>
    obtain ⟨t, us, rfl, begins⟩ := statement_begins isStatement
    have apart : ∀ c ∈ closers, c ∉ openers := by simp [closers, openers]
    have goesOn : closers.any t.isSpecial = false := begins.isMark_eq_false apart
    -- The statement has a token, so what it leaves of the tokens is worth three levels less.
    have hsplit : before.reverse ++ node :: nodes = (node :: before).reverse ++ nodes := by simp
    rw [List.length_append, List.length_cons] at hd
    have hfirst : 3 * (t :: us).length ≤ depth := by
      rw [List.length_cons]
      omega
    have first := ih.ofStatement isStatement hfirst (unsuffixed_append areStatements hrest)
    have others : (statements depth (node :: before)).Takes others _ rest :=
      ih.ofStatements areStatements (by omega) hrest
    refine listEnds_takes rfl ?_
    rw [goesOn, hsplit]
    exact first.bind others

theorem statement_readable {depth : Nat} (ih : Readable depth) {ts : List Token} {node : Node}
    (h : IsStatement ts node) (hd : 3 * ts.length ≤ depth + 1) (hrest : Unsuffixed rest) :
    (statement (depth + 1)).Takes ts node rest := by
  rw [statement_succ]
  cases h with
  | @atom tokens marks inner _ isAtom suffixed =>
    obtain ⟨t, us, rfl, _⟩ := atom_begins isAtom
    rw [List.length_append, List.length_cons] at hd
    have head : (statementHead depth t).Takes us inner (marks ++ rest) :=
      atom_takes ih isAtom (by omega)
    exact (next_takes .token t).cons (head.bind (suffixes_takes suffixed (by omega) hrest))
  | @look t kind tokens inner isLook isStatement =>
    rw [List.length_cons] at hd
    have inner := (ih.ofStatement isStatement (by omega) hrest).map (f := Node.look kind)
    refine (next_takes .token t).cons ?_
    rw [statementHead_eq (.look isLook), ← List.append_nil tokens]
    exact inner.bind (suffixes_takes .none (by rw [List.length_nil]; omega) hrest)

theorem readable (depth : Nat) : Readable depth := by
  induction depth with
  | zero =>
    constructor
    · intro _ _ _ _ _ hd
      omega
    · intro _ _ _ _ _ hd
      omega
    · intro ts _ _ isStatement hd
      obtain ⟨t, us, rfl, _⟩ := statement_begins isStatement
      rw [List.length_cons] at hd
      omega
  | succ depth ih =>
    exact ⟨list_readable ih, statements_readable ih, statement_readable ih⟩

/-! ## Declarations -/

theorem declarationBody_takes {depth : Nat} {name : List Char} {p : Params} {colon newline : Token}
    {ts : List Token} {body : Node} (hcolon : colon.isSpecial ':' = true) (isList : IsList .all ts body)
    (hnewline : newline.isSpecial '\n' = true) (hd : 3 * ts.length + 2 ≤ depth) :
    (declarationBody depth name p).Takes (colon :: (ts ++ [newline])) ⟨String.ofList name, p, body⟩
      rest := by
  have closes : Closes ([newline] ++ rest) := closes_cons hnewline (by decide)
  have list := (readable depth).ofList isList hd closes
  exact (mark_takes hcolon).cons (list.bind (mark_takes hnewline).map)

theorem declaration_takes {depth : Nat} {ts : List Token} {d : Declaration} (h : IsDeclaration ts d)
    (hd : 3 * ts.length ≤ depth) : (declaration depth).Takes ts d rest := by
  rw [declaration_eq]
  cases h with
  | plain hname hcolon isList hnewline =>
    simp only [List.length_cons, List.length_append] at hd
    refine (string_takes hname).cons ?_
    refine .look_of_neg (by simpa using isSpecial_eq_false hcolon (by decide)) ?_
    exact declarationBody_takes hcolon isList hnewline (by omega)
  | withParams hname ho isParams hc hcolon isList hnewline =>
    simp only [List.length_cons, List.length_append] at hd
    refine (string_takes hname).cons (.look_of_pos ho ?_)
    refine (next_takes .token _).cons ((params_takes isParams).cons ((mark_takes hc).cons ?_))
    exact declarationBody_takes hcolon isList hnewline (by omega)

theorem declaration_length {ts : List Token} {d : Declaration} (h : IsDeclaration ts d) :
    1 ≤ ts.length := by
  cases h <;> simp

theorem declarations_eq {left : Nat} {before ds : List Declaration} {tokens : List Token}
    {finish : Place} (h : IsProgram tokens ds) (hleft : tokens.length ≤ left) :
    declarations left before ⟨tokens, finish, []⟩ = .ok (before.reverse ++ ds) := by
  induction h generalizing left before with
  | nil =>
    unfold declarations
    rw [List.append_nil]
    rfl
  | @cons tokens others d ds isDeclaration _ ih =>
    have hlength := declaration_length isDeclaration
    rw [List.length_append] at hleft
    obtain ⟨left, rfl⟩ : ∃ n, left = n + 1 := ⟨left - 1, by omega⟩
    have hread : declaration (depthFor (tokens ++ others).length) ⟨tokens ++ others, finish, []⟩ =
        .read d ⟨others, finish, []⟩ := by
      refine declaration_takes isDeclaration ?_ finish []
      rw [depthFor, List.length_append]
      omega
    have hne : (tokens ++ others).isEmpty = false := by
      cases tokens with
      | nil => simp at hlength
      | cons t tokens => rfl
    unfold declarations
    simp only [hne, hread, Bool.false_eq_true, if_false, List.isEmpty_nil, if_true]
    rw [ih (by omega), List.reverse_cons, List.append_assoc]
    rfl

end Parser

/-- What the parser reads as a program, the grammar derives as this program. -/
theorem Program.isProgram_of_ofTokens {tokens : List Token} {p : Program}
    (h : Program.ofTokens tokens = .ok p) : Grammar.IsProgram tokens p.declarations := by
  unfold Program.ofTokens at h
  cases hds : Parser.declarations tokens.length [] (.ofTokens tokens) with
  | error faults =>
    rw [hds] at h
    cases h
  | ok ds =>
    rw [hds] at h
    cases h
    obtain ⟨parts, rfl, isProgram⟩ := Parser.declarations_read hds
    exact isProgram

/-- What the grammar derives as a program, the parser reads as this program. -/
theorem Grammar.IsProgram.ofTokens_eq {tokens : List Token} {ds : List Declaration}
    (h : IsProgram tokens ds) : Program.ofTokens tokens = .ok ⟨ds⟩ := by
  unfold Program.ofTokens Source.ofTokens
  rw [Parser.declarations_eq h le_rfl]
  rfl

/-- **The parser reads the programs of the grammar**: a token list is read as a program exactly if the
grammar derives the program from it. -/
theorem Program.ofTokens_iff {tokens : List Token} {p : Program} :
    Program.ofTokens tokens = .ok p ↔ Grammar.IsProgram tokens p.declarations := by
  constructor
  · intro h
    exact Program.isProgram_of_ofTokens h
  · intro h
    exact h.ofTokens_eq

/-- A token list is derived as one program at most. -/
theorem Grammar.IsProgram.unique {tokens : List Token} {ds ds' : List Declaration}
    (h : IsProgram tokens ds) (h' : IsProgram tokens ds') : ds = ds' := by
  have hread : Program.ofTokens tokens = .ok ⟨ds⟩ := h.ofTokens_eq
  have hread' : Program.ofTokens tokens = .ok ⟨ds'⟩ := h'.ofTokens_eq
  rw [hread] at hread'
  cases hread'
  rfl

end GridPattern
