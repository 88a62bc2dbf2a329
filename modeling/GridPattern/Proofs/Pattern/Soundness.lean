import GridPattern.Proofs.Pattern.ShortForms

/-!
# What is read has a derivation

A reader that reads a value without a note has taken tokens that the grammar derives the value from.
Notes are only ever added, so where there is none at the end there was none on the way.

**The law** (`declaration_read`). Lists, statements and atoms are read by functions that call each other,
so what is said of them is said of all three at once, by induction on the depth.
-/

namespace GridPattern

/-- **What was taken** between two sources, and that no note was lost. -/
def Source.Took (s : Source) (tokens : List Token) (s' : Source) : Prop :=
  s.tokens = tokens ++ s'.tokens ∧ (s'.notes = [] → s.notes = [])

namespace Source.Took

theorem refl (s : Source) : s.Took [] s := ⟨rfl, id⟩

theorem trans {s₁ s₂ s₃ : Source} {ts us : List Token} (h : s₁.Took ts s₂) (h' : s₂.Took us s₃) :
    s₁.Took (ts ++ us) s₃ :=
  ⟨by rw [h.1, h'.1, List.append_assoc], fun hn => h.2 (h'.2 hn)⟩

theorem cons {s₁ s₂ s₃ : Source} {t : Token} {us : List Token} (h : s₁.Took [t] s₂)
    (h' : s₂.Took us s₃) : s₁.Took (t :: us) s₃ := h.trans h'

/-- What is taken after a look at the next token begins with that token. -/
theorem passes {s s' : Source} {t : Token} {ts : List Token} {test : Token → Bool}
    (took : s.Took (t :: ts) s') (h : s.tokens.head?.any test = true) : test t = true := by
  rw [took.1] at h
  exact h

end Source.Took

namespace Reader

variable {α β : Type} {s s' : Source}

/-- Two readers in a row read a value if both do. -/
theorem of_bind {r : Reader α} {f : α → Reader β} {b : β} (h : (r >>= f) s = .read b s') :
    ∃ a s₁, r s = .read a s₁ ∧ f a s₁ = .read b s' := by
  rw [bind_apply] at h
  cases hr : r s with
  | read a s₁ =>
    rw [hr] at h
    exact ⟨a, s₁, rfl, h⟩
  | failed fault notes =>
    rw [hr] at h
    cases h

theorem next_read {what : Expectation} {t : Token} (h : next what s = .read t s') : s.Took [t] s' := by
  unfold next at h
  split at h
  · cases h
  · next tokens htokens =>
    cases h
    exact ⟨htokens, id⟩

theorem require_read {what : Expectation} {test : Token → Bool} {t : Token}
    (h : require what test s = .read t s') : test t = true ∧ s.Took [t] s' := by
  obtain ⟨t', s₁, hnext, h⟩ := of_bind h
  split at h
  · next htest =>
    cases h
    exact ⟨htest, next_read hnext⟩
  · cases h

theorem mark_read {c : Char} (h : mark c s = .read () s') :
    ∃ t : Token, t.isSpecial c = true ∧ s.Took [t] s' := by
  obtain ⟨t, s₁, hnext, h⟩ := of_bind h
  split at h
  · next hc =>
    cases h
    exact ⟨t, hc, next_read hnext⟩
  · cases h

theorem string_read {what : Expectation} {text : List Char} (h : string what s = .read text s') :
    ∃ t : Token, t.isString = true ∧ t.text = text ∧ s.Took [t] s' := by
  obtain ⟨t, s₁, hrequire, h⟩ := of_bind h
  cases h
  obtain ⟨hstring, took⟩ := require_read hrequire
  exact ⟨t, hstring, rfl, took⟩

/-- A note that is none takes nothing. -/
theorem note_read {t : Token} {faults : List ParseFault} (h : note t faults s = .read () s')
    (hn : s'.notes = []) : faults = [] ∧ s.Took [] s' := by
  cases h
  obtain ⟨hnotes, hfaults⟩ := List.append_eq_nil_iff.mp hn
  exact ⟨List.map_eq_nil_iff.mp hfaults, rfl, fun _ => hnotes⟩

end Reader

namespace Parser

open Reader Grammar

variable {s s' : Source}

/-! ## Directions -/

/-- Tokens of a direction, on top of what was read of it. -/
structure Turned (before : Direction) (tokens : List Token) (after : Direction) : Prop where
  each : ∀ t ∈ tokens, IsTurn t ∨ t.isSpecial '.' = true
  absolute : after.absolute = true ↔
    before.absolute = true ∨ ∃ t ∈ tokens, t.isSpecial '.' = true
  turns : after.turns =
    before.turns ++ (tokens.filter fun t => !t.isSpecial '.').flatMap (·.text)

theorem isSpecial_iff {t : Token} {c : Char} :
    t.isSpecial c = true ↔ t.kind = .special ∧ t.text = [c] := by
  simp [Token.isSpecial]

/-- A token is the special character of its text, and of no other. -/
theorem isSpecial_eq_false {t : Token} {c d : Char} (h : t.isSpecial c = true) (hne : c ≠ d) :
    t.isSpecial d = false := by
  rw [isSpecial_iff] at h
  simp [Token.isSpecial, h.2, hne]

theorem isString_eq_false {t : Token} {c : Char} (h : t.isSpecial c = true) : t.isString = false := by
  rw [isSpecial_iff] at h
  simp [Token.isString, h.1]

theorem isSpecial_eq_false_of_isString {t : Token} (h : t.isString = true) (c : Char) :
    t.isSpecial c = false := by
  cases hc : t.isSpecial c with
  | false => rfl
  | true => rw [isString_eq_false hc] at h; cases h

theorem isTurn_iff {t : Token} : IsTurn t ↔
    (t.isString && t.text.all turnLetters.contains) = true ∨ turnMarks.any t.isSpecial = true := by
  simp [IsTurn, turnLetters, turnMarks]

/-- A turn is no dot. -/
theorem isDot_eq_false {t : Token} (h : IsTurn t) : t.isSpecial '.' = false := by
  obtain ⟨hstring, _⟩ | h | h | h := h
  · exact isSpecial_eq_false_of_isString hstring '.'
  · exact isSpecial_eq_false h (by decide)
  · exact isSpecial_eq_false h (by decide)
  · exact isSpecial_eq_false h (by decide)

theorem Turned.turn {before after : Direction} {t : Token} {tokens : List Token} (ht : IsTurn t)
    (h : Turned { before with turns := before.turns ++ t.text } tokens after) :
    Turned before (t :: tokens) after where
  each := List.forall_mem_cons.mpr ⟨.inl ht, h.each⟩
  absolute := by simp [h.absolute, isDot_eq_false ht]
  turns := by simp [h.turns, isDot_eq_false ht]

theorem Turned.dot {before after : Direction} {t : Token} {tokens : List Token}
    (ht : t.isSpecial '.' = true) (h : Turned { before with absolute := true } tokens after) :
    Turned before (t :: tokens) after where
  each := List.forall_mem_cons.mpr ⟨.inr ht, h.each⟩
  absolute := by simp [h.absolute, ht]
  turns := by simp [h.turns, ht]

theorem directionOver_read {way way' : Direction} {tokens : List Token}
    (h : directionOver way s tokens = .read way' s') : ∃ ts r, tokens = ts ++ r :: s'.tokens ∧
      s'.notes = s.notes ∧ r.isSpecial '>' = true ∧ Turned way ts way' := by
  induction tokens generalizing way with
  | nil => cases h
  | cons t tokens ih =>
    rw [directionOver] at h
    split at h
    · next hletters =>
      obtain ⟨ts, r, rfl, hnotes, hr, turned⟩ := ih h
      exact ⟨t :: ts, r, rfl, hnotes, hr, turned.turn (isTurn_iff.mpr (.inl hletters))⟩
    · split at h
      · next hdot =>
        obtain ⟨ts, r, rfl, hnotes, hr, turned⟩ := ih h
        exact ⟨t :: ts, r, rfl, hnotes, hr, turned.dot hdot⟩
      · split at h
        · next hmark =>
          obtain ⟨ts, r, rfl, hnotes, hr, turned⟩ := ih h
          exact ⟨t :: ts, r, rfl, hnotes, hr, turned.turn (isTurn_iff.mpr (.inr hmark))⟩
        · split at h
          · next hr =>
            cases h
            exact ⟨[], t, rfl, rfl, hr, by simp, by simp, by simp⟩
          · cases h

/-- What was read of a direction is all of it, but that without turns it is straight on. -/
theorem Turned.isDirection {ts : List Token} {way : Direction} (h : Turned ⟨[], false⟩ ts way) :
    IsDirection ts (if way.turns.isEmpty then { way with turns := ['F'] } else way) := by
  refine ⟨h.each, ?_, ?_⟩
  · have habsolute := h.absolute
    split <;> simpa using habsolute
  · have hturns := h.turns
    rw [List.nil_append] at hturns
    rw [← hturns]
    by_cases hnil : way.turns = []
    · simp [hnil]
    · simp [hnil]

theorem direction_read {way : Direction} (h : direction s = .read way s') :
    ∃ ts r, IsDirection ts way ∧ r.isSpecial '>' = true ∧ s.Took (ts ++ [r]) s' := by
  obtain ⟨way', s₁, hover, h⟩ := of_bind h
  cases h
  obtain ⟨ts, r, htokens, hnotes, hr, turned⟩ := directionOver_read hover
  refine ⟨ts, r, turned.isDirection, hr, ?_, fun hn => hnotes ▸ hn⟩
  rw [htokens, List.append_assoc]
  rfl

/-! ## Calls and suffixes -/

theorem params_read {p : Params} (h : params s = .read p s') (hn : s'.notes = []) :
    ∃ t : Token, IsParams t.text p ∧ s.Took [t] s' := by
  obtain ⟨t, s₁, hnext, h⟩ := of_bind h
  obtain ⟨_, s₂, hnote, h⟩ := of_bind h
  cases h
  obtain ⟨hfaults, took⟩ := note_read hnote hn
  have hletters : Params.ofLetters t.text = ((Params.ofLetters t.text).1, []) :=
    Prod.ext rfl (List.map_eq_nil_iff.mp hfaults)
  exact ⟨t, Params.isParams_iff.mpr hletters, (next_read hnext).trans took⟩

theorem call_read {target : Call} {o : Token} (ho : o.isSpecial '{' = true)
    (h : call s = .read target s') (hn : s'.notes = []) :
    ∃ ts, IsCall (o :: ts) target ∧ s.Took ts s' := by
  obtain ⟨text, s₁, hname, h⟩ := of_bind h
  obtain ⟨_, s₂, hl, h⟩ := of_bind h
  obtain ⟨way, s₃, hway, h⟩ := of_bind h
  obtain ⟨name, isName, rfl, tookName⟩ := string_read hname
  obtain ⟨l, isL, tookL⟩ := mark_read hl
  obtain ⟨ts, r, isWay, isR, tookWay⟩ := direction_read hway
  have tookFront := tookName.cons (tookL.cons tookWay)
  obtain ⟨more, s₄, hmore, h⟩ := of_bind h
  cases hmore
  split at h
  · next hstring =>
    obtain ⟨p, s₄, hparams, h⟩ := of_bind h
    obtain ⟨_, s₅, hc, h⟩ := of_bind h
    cases h
    obtain ⟨c, isC, tookC⟩ := mark_read hc
    obtain ⟨letters, isLetters, tookLetters⟩ := params_read hparams (tookC.2 hn)
    refine ⟨_, .withParams ho isName isL isWay isR (tookLetters.passes hstring) isLetters isC, ?_⟩
    have took := tookFront.trans (tookLetters.cons tookC)
    rwa [List.cons_append, List.cons_append, List.append_assoc] at took
  · obtain ⟨_, s₄, hempty, h⟩ := of_bind h
    cases hempty
    obtain ⟨_, s₅, hc, h⟩ := of_bind h
    cases h
    obtain ⟨c, isC, tookC⟩ := mark_read hc
    refine ⟨_, .plain ho isName isL isWay isR isC, ?_⟩
    have took := tookFront.trans tookC
    rwa [List.cons_append, List.cons_append, List.append_assoc] at took

theorem bounds_read {b : Bounds} (h : bounds s = .read b s') (hn : s'.notes = []) :
    ∃ o written c : Token, o.isSpecial '{' = true ∧ written.isString = true ∧
      IsBounds written.text b ∧ c.isSpecial '}' = true ∧ s.Took [o, written, c] s' := by
  obtain ⟨_, s₁, ho, h⟩ := of_bind h
  obtain ⟨written, s₂, hwritten, h⟩ := of_bind h
  obtain ⟨_, s₃, hnote, h⟩ := of_bind h
  obtain ⟨_, s₄, hc, h⟩ := of_bind h
  cases h
  obtain ⟨o, isO, tookO⟩ := mark_read ho
  obtain ⟨isString, tookWritten⟩ := require_read hwritten
  obtain ⟨c, isC, tookC⟩ := mark_read hc
  obtain ⟨hfaults, tookNote⟩ := note_read hnote (tookC.2 hn)
  have hbounds : Bounds.ofText written.text = ((Bounds.ofText written.text).1, []) :=
    Prod.ext rfl (List.map_eq_nil_iff.mp hfaults)
  exact ⟨o, written, c, isO, isString, Bounds.isBounds_iff.mpr hbounds, isC,
    tookO.cons (tookWritten.cons (tookNote.trans tookC))⟩

/-- A suffix is read if the next token begins one, and nothing otherwise. -/
theorem suffix_read {count? : Option Repeat} (h : suffix? s = .read count? s') (hn : s'.notes = []) :
    (count? = none ∧ s' = s) ∨
      ∃ count ts, count? = some count ∧ IsSuffix ts count ∧ s.Took ts s' := by
  obtain ⟨star, s₁, hstar, h⟩ := of_bind h
  cases hstar
  split at h
  · next hstar =>
    obtain ⟨t, s₁, hnext, h⟩ := of_bind h
    cases h
    exact .inr ⟨.star, [t], rfl, .star ((next_read hnext).passes hstar), next_read hnext⟩
  · obtain ⟨plus, s₁, hplus, h⟩ := of_bind h
    cases hplus
    split at h
    · next hplus =>
      obtain ⟨t, s₁, hnext, h⟩ := of_bind h
      cases h
      exact .inr ⟨.plus, [t], rfl, .plus ((next_read hnext).passes hplus), next_read hnext⟩
    · obtain ⟨option, s₁, hoption, h⟩ := of_bind h
      cases hoption
      split at h
      · next hoption =>
        obtain ⟨t, s₁, hnext, h⟩ := of_bind h
        cases h
        exact .inr ⟨.option, [t], rfl, .option ((next_read hnext).passes hoption), next_read hnext⟩
      · obtain ⟨percent, s₁, hpercent, h⟩ := of_bind h
        cases hpercent
        split at h
        · next hpercent =>
          obtain ⟨t, s₁, hnext, h⟩ := of_bind h
          obtain ⟨b, s₂, hb, h⟩ := of_bind h
          cases h
          have tookT := next_read hnext
          obtain ⟨o, written, c, isO, isString, isBounds, isC, took⟩ := bounds_read hb hn
          exact .inr ⟨.bounded b, [t, o, written, c], rfl,
            .bounded (tookT.passes hpercent) isO isString isBounds isC, tookT.cons took⟩
        · cases h
          exact .inl ⟨rfl, rfl⟩

/-- All suffixes are read: the next token begins none. -/
theorem suffixes_read {depth : Nat} {inner node : Node} (h : suffixes depth inner s = .read node s')
    (hn : s'.notes = []) : ∃ ts, Suffixed ts inner node ∧ s.Took ts s' ∧
      suffix? s' = .read none s' := by
  induction depth generalizing s inner with
  | zero => cases h
  | succ depth ih =>
    obtain ⟨count?, s₁, hsuffix, h⟩ := of_bind h
    cases count? with
    | none =>
      cases h
      obtain ⟨_, rfl⟩ | ⟨_, _, heq, _⟩ := suffix_read hsuffix hn
      · exact ⟨[], .none, .refl _, hsuffix⟩
      · cases heq
    | some count =>
      obtain ⟨us, suffixed, tookRest, stop⟩ := ih h
      obtain ⟨heq, _⟩ | ⟨_, ts, heq, isSuffix, took⟩ := suffix_read hsuffix (tookRest.2 hn)
      · cases heq
      · cases heq
        exact ⟨ts ++ us, .more isSuffix suffixed, took.trans tookRest, stop⟩

/-- Where no suffix begins a pattern stays as it is. -/
theorem suffixes_stop {depth : Nat} {inner node : Node} (h : suffixes depth inner s = .read node s')
    (stop : suffix? s = .read none s) : node = inner ∧ s' = s := by
  cases depth with
  | zero => cases h
  | succ depth =>
    obtain ⟨count?, s₁, hsuffix, h⟩ := of_bind h
    rw [stop] at hsuffix
    cases hsuffix
    cases h
    exact ⟨rfl, rfl⟩

/-! ## Statements -/

/-- A statement after its first token and without its suffixes. -/
def statementHead (depth : Nat) (t : Token) : Reader Node :=
  match t.kind, t.text with
  | .string, text => pure (.literal text)
  | .special, ['('] => do let node ← list depth .all; mark ')'; pure node
  | .special, ['['] => do let node ← list depth .any; mark ']'; pure node
  | .special, ['<'] => do pure (.direction (← direction))
  | .special, ['{'] => do pure (.call (← call))
  | .special, ['$'] => pure .outside
  | .special, ['.'] => pure .inside
  | .special, ['!'] => do pure (.look .absent (← statement depth))
  | .special, ['~'] => do pure (.look .unmarked (← statement depth))
  | .special, ['\x60'] => do pure (.look .retraced (← statement depth))
  | _, _ => failAt t .statement

theorem bind_assoc {α β γ : Type} (r : Reader α) (f : α → Reader β) (g : β → Reader γ) :
    (r >>= f) >>= g = r >>= fun a => f a >>= g := by
  funext s
  simp only [bind_apply]
  cases r s <;> rfl

theorem statement_succ (depth : Nat) :
    statement (depth + 1) = next .token >>= fun t => statementHead depth t >>= suffixes depth := by
  rw [statement]
  congr 1
  funext t
  unfold statementHead
  split <;> simp_all only [bind_assoc]

/-- How a statement goes on after its first token. -/
inductive Head (depth : Nat) (t : Token) : Reader Node → Prop
  | literal : t.isString = true → Head depth t (pure (.literal t.text))
  | group : t.isSpecial '(' = true →
      Head depth t (list depth .all >>= fun node => mark ')' >>= fun _ => pure node)
  | choice : t.isSpecial '[' = true →
      Head depth t (list depth .any >>= fun node => mark ']' >>= fun _ => pure node)
  | direction : t.isSpecial '<' = true → Head depth t (direction >>= fun way => pure (.direction way))
  | call : t.isSpecial '{' = true → Head depth t (call >>= fun target => pure (.call target))
  | outside : t.isSpecial '$' = true → Head depth t (pure .outside)
  | inside : t.isSpecial '.' = true → Head depth t (pure .inside)
  | look {kind : Look} : IsLook t kind →
      Head depth t (statement depth >>= fun inner => pure (.look kind inner))

theorem statementHead_eq {depth : Nat} {t : Token} {r : Reader Node} (h : Head depth t r) :
    statementHead depth t = r := by
  cases h with
  | literal ht =>
    have hkind : t.kind = .string := by simpa [Token.isString] using ht
    simp only [statementHead, hkind]
  | look ht =>
    cases ht with
    | absent ht | unmarked ht | retraced ht =>
      obtain ⟨hkind, htext⟩ := isSpecial_iff.mp ht
      simp only [statementHead, hkind, htext]
  | group ht | choice ht | direction ht | call ht | outside ht | inside ht =>
    obtain ⟨hkind, htext⟩ := isSpecial_iff.mp ht
    simp only [statementHead, hkind, htext]

/-- A first token that begins no statement is a fault. -/
theorem head_or_fail (depth : Nat) (t : Token) :
    Head depth t (statementHead depth t) ∨ statementHead depth t = failAt t .statement := by
  unfold statementHead
  split
  · next hkind => exact .inl (.literal (by simp [Token.isString, hkind]))
  · next hkind htext => exact .inl (.group (isSpecial_iff.mpr ⟨hkind, htext⟩))
  · next hkind htext => exact .inl (.choice (isSpecial_iff.mpr ⟨hkind, htext⟩))
  · next hkind htext => exact .inl (.direction (isSpecial_iff.mpr ⟨hkind, htext⟩))
  · next hkind htext => exact .inl (.call (isSpecial_iff.mpr ⟨hkind, htext⟩))
  · next hkind htext => exact .inl (.outside (isSpecial_iff.mpr ⟨hkind, htext⟩))
  · next hkind htext => exact .inl (.inside (isSpecial_iff.mpr ⟨hkind, htext⟩))
  · next hkind htext => exact .inl (.look (.absent (isSpecial_iff.mpr ⟨hkind, htext⟩)))
  · next hkind htext => exact .inl (.look (.unmarked (isSpecial_iff.mpr ⟨hkind, htext⟩)))
  · next hkind htext => exact .inl (.look (.retraced (isSpecial_iff.mpr ⟨hkind, htext⟩)))
  · exact .inr rfl

/-- **What is read at one depth is derived**: lists, statements and single statements. -/
structure Derived (depth : Nat) : Prop where
  ofList : ∀ {kind : ListKind} {node : Node} {s s' : Source}, list depth kind s = .read node s' →
    s'.notes = [] → ∃ ts, IsList kind ts node ∧ s.Took ts s'
  ofStatements : ∀ {before nodes : List Node} {s s' : Source},
    statements depth before s = .read nodes s' → s'.notes = [] →
      ∃ ts parts, nodes = before.reverse ++ parts ∧ AreStatements ts parts ∧ s.Took ts s'
  ofStatement : ∀ {node : Node} {s s' : Source}, statement depth s = .read node s' → s'.notes = [] →
    ∃ ts, IsStatement ts node ∧ s.Took ts s' ∧ suffix? s' = .read none s'

theorem group_read {depth : Nat} (ih : Derived depth) {kind : ListKind} {close : Char} {node : Node}
    (h : (list depth kind >>= fun node => mark close >>= fun _ => pure node) s = .read node s')
    (hn : s'.notes = []) : ∃ ts c, IsList kind ts node ∧ Token.isSpecial c close = true ∧
      s.Took (ts ++ [c]) s' := by
  obtain ⟨node', s₁, hlist, h⟩ := of_bind h
  obtain ⟨_, s₂, hc, h⟩ := of_bind h
  cases h
  obtain ⟨c, isC, tookC⟩ := mark_read hc
  obtain ⟨ts, isList, took⟩ := ih.ofList hlist (tookC.2 hn)
  exact ⟨ts, c, isList, isC, took.trans tookC⟩

/-- A statement without its suffixes is an atom, or a look around at a statement with all of them. -/
theorem head_read {depth : Nat} (ih : Derived depth) {t : Token} {r : Reader Node} {node : Node}
    (head : Head depth t r) (h : r s = .read node s') (hn : s'.notes = []) :
    (∃ ts, IsAtom (t :: ts) node ∧ s.Took ts s') ∨
      ∃ ts, IsStatement (t :: ts) node ∧ s.Took ts s' ∧ suffix? s' = .read none s' := by
  cases head with
  | literal ht =>
    cases h
    exact .inl ⟨[], .string ht, .refl _⟩
  | group ht =>
    obtain ⟨ts, c, isList, isC, took⟩ := group_read ih h hn
    exact .inl ⟨ts ++ [c], .group ht isList isC, took⟩
  | choice ht =>
    obtain ⟨ts, c, isList, isC, took⟩ := group_read ih h hn
    exact .inl ⟨ts ++ [c], .choice ht isList isC, took⟩
  | direction ht =>
    obtain ⟨way, s₁, hway, h⟩ := of_bind h
    cases h
    obtain ⟨ts, r, isWay, isR, took⟩ := direction_read hway
    exact .inl ⟨ts ++ [r], .direction ht isWay isR, took⟩
  | call ht =>
    obtain ⟨target, s₁, htarget, h⟩ := of_bind h
    cases h
    obtain ⟨ts, isCall, took⟩ := call_read ht htarget hn
    exact .inl ⟨ts, .call isCall, took⟩
  | outside ht =>
    cases h
    exact .inl ⟨[], .outside ht, .refl _⟩
  | inside ht =>
    cases h
    exact .inl ⟨[], .inside ht, .refl _⟩
  | look ht =>
    obtain ⟨inner, s₁, hinner, h⟩ := of_bind h
    cases h
    obtain ⟨ts, isInner, took, stop⟩ := ih.ofStatement hinner hn
    exact .inr ⟨ts, .look ht isInner, took, stop⟩

theorem derived (depth : Nat) : Derived depth := by
  induction depth with
  | zero =>
    constructor
    · intro kind node s s' h
      cases h
    · intro before nodes s s' h
      cases h
    · intro node s s' h
      cases h
  | succ depth ih =>
    constructor
    · intro kind node s s' h hn
      rw [list] at h
      obtain ⟨negated, s₁, hnegated, h⟩ := of_bind h
      cases hnegated
      split at h
      · next hcaret =>
        obtain ⟨t, s₁, hnext, h⟩ := of_bind h
        obtain ⟨text, s₂, hstring, h⟩ := of_bind h
        cases h
        obtain ⟨chars, isString, rfl, tookChars⟩ := string_read hstring
        have tookT := next_read hnext
        exact ⟨[t, chars], .negated (tookT.passes hcaret) isString, tookT.cons tookChars⟩
      · obtain ⟨parts, s₁, hparts, h⟩ := of_bind h
        cases h
        obtain ⟨ts, parts', hnodes, areStatements, took⟩ := ih.ofStatements hparts hn
        rw [hnodes]
        exact ⟨ts, .statements areStatements (builds_iff.mpr rfl), took⟩
    · intro before nodes s s' h hn
      rw [statements] at h
      obtain ⟨ends, s₁, hends, h⟩ := of_bind h
      cases hends
      split at h
      · cases h
        exact ⟨[], [], by simp, .nil, .refl _⟩
      · obtain ⟨node, s₁, hnode, h⟩ := of_bind h
        obtain ⟨us, parts, hparts, areStatements, tookRest⟩ := ih.ofStatements h hn
        obtain ⟨ts, isStatement, took, _⟩ := ih.ofStatement hnode (tookRest.2 hn)
        refine ⟨ts ++ us, node :: parts, ?_, .cons isStatement areStatements, took.trans tookRest⟩
        rw [hparts, List.reverse_cons, List.append_assoc]
        rfl
    · intro node s s' h hn
      rw [statement_succ] at h
      obtain ⟨t, s₁, hnext, h⟩ := of_bind h
      obtain ⟨inner, s₂, hhead, h⟩ := of_bind h
      have tookT := next_read hnext
      obtain ⟨us, suffixed, tookSuffixes, stop⟩ := suffixes_read h hn
      have head : Head depth t (statementHead depth t) := by
        apply (head_or_fail depth t).resolve_right
        intro hfail
        rw [hfail] at hhead
        cases hhead
      obtain ⟨ts, isAtom, took⟩ | ⟨ts, isStatement, took, stopInner⟩ :=
        head_read ih head hhead (tookSuffixes.2 hn)
      · exact ⟨t :: ts ++ us, .atom isAtom suffixed, (tookT.cons took).trans tookSuffixes, stop⟩
      · obtain ⟨rfl, rfl⟩ := suffixes_stop h stopInner
        exact ⟨t :: ts, isStatement, tookT.cons took, stop⟩

/-! ## Declarations -/

/-- A declaration after its name and its params. -/
def declarationBody (depth : Nat) (name : List Char) (p : Params) : Reader Declaration := do
  mark ':'
  let body ← list depth .all
  mark '\n'
  pure ⟨String.ofList name, p, body⟩

theorem declarationBody_read {depth : Nat} {name : List Char} {p : Params} {d : Declaration}
    (h : declarationBody depth name p s = .read d s') (hn : s'.notes = []) :
    ∃ colon ts newline body, d = ⟨String.ofList name, p, body⟩ ∧ Token.isSpecial colon ':' = true ∧
      IsList .all ts body ∧ Token.isSpecial newline '\n' = true ∧
        s.Took (colon :: (ts ++ [newline])) s' := by
  obtain ⟨_, s₁, hcolon, h⟩ := of_bind h
  obtain ⟨body, s₂, hbody, h⟩ := of_bind h
  obtain ⟨_, s₃, hnewline, h⟩ := of_bind h
  cases h
  obtain ⟨colon, isColon, tookColon⟩ := mark_read hcolon
  obtain ⟨newline, isNewline, tookNewline⟩ := mark_read hnewline
  obtain ⟨ts, isList, took⟩ := (derived depth).ofList hbody (tookNewline.2 hn)
  exact ⟨colon, ts, newline, body, rfl, isColon, isList, isNewline,
    tookColon.cons (took.trans tookNewline)⟩

theorem declaration_eq (depth : Nat) : declaration depth = string .label >>= fun name =>
    nextIs (·.isSpecial '{') >>= fun more =>
      if more then
        next .token >>= fun _ => params >>= fun p => mark '}' >>= fun _ =>
          declarationBody depth name p
      else declarationBody depth name {} := rfl

/-- **What is read as a declaration is derived as one.** -/
theorem declaration_read {depth : Nat} {d : Declaration} (h : declaration depth s = .read d s')
    (hn : s'.notes = []) : ∃ ts, IsDeclaration ts d ∧ s.Took ts s' := by
  rw [declaration_eq] at h
  obtain ⟨text, s₁, hname, h⟩ := of_bind h
  obtain ⟨name, isName, rfl, tookName⟩ := string_read hname
  obtain ⟨more, s₂, hmore, h⟩ := of_bind h
  cases hmore
  split at h
  · next hbrace =>
    obtain ⟨o, s₂, ho, h⟩ := of_bind h
    obtain ⟨p, s₃, hp, h⟩ := of_bind h
    obtain ⟨_, s₄, hc, h⟩ := of_bind h
    obtain ⟨colon, ts, newline, body, rfl, isColon, isList, isNewline, took⟩ := declarationBody_read h hn
    obtain ⟨c, isC, tookC⟩ := mark_read hc
    obtain ⟨letters, isParams, tookLetters⟩ := params_read hp (tookC.2 (took.2 hn))
    have tookO := next_read ho
    exact ⟨_, .withParams isName (tookO.passes hbrace) isParams isC isColon isList isNewline,
      tookName.cons (tookO.cons (tookLetters.cons (tookC.cons took)))⟩
  · obtain ⟨colon, ts, newline, body, rfl, isColon, isList, isNewline, took⟩ := declarationBody_read h hn
    exact ⟨_, .plain isName isColon isList isNewline, tookName.cons took⟩

/-- **What is read as a program is derived as one**, after the declarations read before. -/
theorem declarations_read {left : Nat} {before ds : List Declaration}
    (h : declarations left before s = .ok ds) :
    ∃ parts, ds = before.reverse ++ parts ∧ IsProgram s.tokens parts := by
  fun_induction declarations left before s with
  | case1 left before s hempty =>
    cases h
    rw [List.isEmpty_iff] at hempty
    rw [hempty]
    exact ⟨[], by simp, .nil⟩
  | case2 before s hempty left d s' hd hnotes ih =>
    rw [List.isEmpty_iff] at hnotes
    obtain ⟨ts, isDeclaration, took⟩ := declaration_read hd hnotes
    obtain ⟨parts, rfl, isProgram⟩ := ih h
    refine ⟨d :: parts, ?_, ?_⟩
    · rw [List.reverse_cons, List.append_assoc]
      rfl
    · rw [took.1]
      exact .cons isDeclaration isProgram
  | case3 => cases h
  | case4 => cases h
  | case5 => cases h

end Parser

end GridPattern
