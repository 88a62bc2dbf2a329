import GridPattern.Proofs.Pattern.Completeness
import GridPattern.Proofs.Pattern.Online

/-!
# Where the tokens run out

A reader that finds nothing left to read has taken the beginning of what it reads: with more tokens the grammar
derives a value.

**The law** (`declaration_runsOut`). What a declaration runs out of, with nothing noted before, is the beginning of a
declaration. The depth given is never the reason.
-/

namespace GridPattern

namespace Token

/-- A special character, wherever it stands. -/
def ofMark (c : Char) : Token := ⟨[c], .special, .start⟩

/-- A string, wherever it stands. -/
def ofText (text : List Char) : Token := ⟨text, .string, .start⟩

theorem isSpecial_ofMark (c : Char) : (ofMark c).isSpecial c = true := by simp [ofMark, isSpecial]

end Token

/-- **Tokens that begin something**, with nothing noted before. -/
structure Source.Starts (s : Source) (P : List Token → Prop) : Prop where
  notes : s.notes = []
  more : ∃ vs, P (s.tokens ++ vs)

namespace Source

variable {s s' : Source} {us : List Token} {P Q : List Token → Prop}

/-- No token is left, and nothing was noted. -/
def AtEnd (s : Source) : Prop := s.tokens = [] ∧ s.notes = []

theorem AtEnd.starts (h : s.AtEnd) (vs : List Token) (hP : P vs) : s.Starts P :=
  ⟨h.2, vs, by rwa [h.1]⟩

theorem Starts.imp (h : s.Starts P) (hPQ : ∀ ts, P ts → Q ts) : s.Starts Q :=
  ⟨h.notes, h.more.imp fun _ hP => hPQ _ hP⟩

theorem Took.length_le (took : s.Took us s') : s'.tokens.length ≤ s.tokens.length := by
  rw [took.1, List.length_append]
  exact Nat.le_add_left _ _

/-- What begins after tokens begins with these tokens. -/
theorem Took.starts (took : s.Took us s') (h : s'.Starts fun ts => P (us ++ ts)) : s.Starts P := by
  obtain ⟨vs, hP⟩ := h.more
  refine ⟨took.2 h.notes, vs, ?_⟩
  rwa [took.1, List.append_assoc]

end Source

namespace Reader

variable {α β : Type} {s : Source} {what : Expectation}

/-- **A reader that finds nothing left to read**, with nothing noted before. -/
def RunsOut (r : Reader α) (s : Source) : Prop :=
  ∃ place what, r s = .failed ⟨place, .expected what .endOfCode⟩ []

theorem RunsOut.of_bind {r : Reader α} {f : α → Reader β} (h : RunsOut (r >>= f) s) :
    RunsOut r s ∨ ∃ a s', r s = .read a s' ∧ RunsOut (f a) s' := by
  obtain ⟨place, what, h⟩ := h
  rw [bind_apply] at h
  cases hr : r s with
  | read a s' =>
    rw [hr] at h
    exact .inr ⟨a, s', rfl, place, what, h⟩
  | failed fault notes =>
    rw [hr] at h
    cases h
    exact .inl ⟨place, what, hr⟩

/-- Notes are only ever added, so there were none before. -/
theorem Orderly.notes_of_runsOut {here : List Token} {r : Reader α} (hr : Orderly here r)
    (h : RunsOut r s) : s.notes = [] := by
  obtain ⟨place, what, h⟩ := h
  have proceeds := hr s
  rw [h] at proceeds
  cases proceeds with
  | ranOut went => exact (List.append_eq_nil_iff.mp went.notes.symm).1

theorem not_runsOut_pure (a : α) : ¬RunsOut (pure a) s := by
  rintro ⟨_, _, h⟩
  cases h

theorem not_runsOut_failAt (t : Token) : ¬RunsOut (failAt t what : Reader α) s := by
  rintro ⟨_, _, h⟩
  cases h

/-- A reader and a function of its value run out where the reader does. -/
theorem RunsOut.of_map {r : Reader α} {f : α → β} (h : RunsOut (r >>= fun a => pure (f a)) s) :
    RunsOut r s := by
  obtain h | ⟨_, _, _, h⟩ := h.of_bind
  · exact h
  · exact absurd h (not_runsOut_pure _)

theorem next_runsOut (h : RunsOut (next what) s) : s.AtEnd := by
  obtain ⟨_, _, h⟩ := h
  unfold next at h
  split at h
  · next htokens =>
    injection h with _ hnotes
    exact ⟨htokens, hnotes⟩
  · cases h

theorem require_runsOut {test : Token → Bool} (h : RunsOut (require what test) s) : s.AtEnd := by
  obtain h | ⟨t, s', _, h⟩ := h.of_bind
  · exact next_runsOut h
  · split at h
    · exact absurd h (not_runsOut_pure _)
    · exact absurd h (not_runsOut_failAt t)

theorem string_runsOut (h : RunsOut (string what) s) : s.AtEnd := require_runsOut h.of_map

theorem mark_runsOut {c : Char} (h : RunsOut (mark c) s) : s.AtEnd := by
  obtain h | ⟨t, s', _, h⟩ := h.of_bind
  · exact next_runsOut h
  · split at h
    · exact absurd h (not_runsOut_pure _)
    · exact absurd h (not_runsOut_failAt t)

/-- What the next token decides runs out after that token, or without it. -/
theorem RunsOut.of_ite {test : Token → Bool} {f : Token → Reader α} {r : Reader α}
    (h : RunsOut (nextIs test >>= fun b => if b then next what >>= f else r) s) :
    (∃ t s', test t = true ∧ s.Took [t] s' ∧ RunsOut (f t) s') ∨ RunsOut r s := by
  obtain ⟨_, _, h⟩ | ⟨b, s', hb, h⟩ := h.of_bind
  · cases h
  cases hb
  split at h
  · next htest =>
    obtain h | ⟨t, s', hnext, h⟩ := h.of_bind
    · rw [(next_runsOut h).1] at htest
      cases htest
    · have took := next_read hnext
      exact .inl ⟨t, s', took.passes htest, took, h⟩
  · exact .inr h

end Reader

namespace Parser

open Reader Grammar Token

variable {s : Source}

/-! ## Directions, calls and suffixes -/

theorem directionOver_runsOut {way : Direction} {ts : List Token} {place : Place} {what : Expectation}
    (h : directionOver way s ts = .failed ⟨place, .expected what .endOfCode⟩ []) :
    s.notes = [] ∧ ∃ way', Turned way ts way' := by
  induction ts generalizing way with
  | nil =>
    injection h with _ hnotes
    exact ⟨hnotes, way, by simp, by simp, by simp⟩
  | cons t ts ih =>
    rw [directionOver] at h
    split at h
    · next hletters =>
      obtain ⟨hnotes, way', turned⟩ := ih h
      exact ⟨hnotes, way', turned.turn (isTurn_iff.mpr (.inl hletters))⟩
    · split at h
      · next hdot =>
        obtain ⟨hnotes, way', turned⟩ := ih h
        exact ⟨hnotes, way', turned.dot hdot⟩
      · split at h
        · next hmark =>
          obtain ⟨hnotes, way', turned⟩ := ih h
          exact ⟨hnotes, way', turned.turn (isTurn_iff.mpr (.inr hmark))⟩
        · split at h <;> cases h

/-- The tokens of a direction are a direction at any time. -/
theorem direction_runsOut (h : RunsOut direction s) : s.notes = [] ∧ ∃ way, IsDirection s.tokens way := by
  obtain ⟨_, _, h⟩ := h.of_map
  obtain ⟨hnotes, way, turned⟩ := directionOver_runsOut h
  exact ⟨hnotes, _, turned.isDirection⟩

theorem isDirection_nil : IsDirection [] .forward where
  each := nofun
  absolute := by simp [Direction.forward]
  turns := rfl

theorem params_runsOut (h : RunsOut params s) : s.AtEnd := by
  obtain h | ⟨t, s', _, h⟩ := h.of_bind
  · exact next_runsOut h
  · obtain ⟨_, _, h⟩ := h
    cases h

theorem call_runsOut {o : Token} (ho : o.isSpecial '{' = true) (h : RunsOut call s) :
    s.Starts fun ts => ∃ target, IsCall (o :: ts) target := by
  obtain h | ⟨_, s₁, hname, h⟩ := h.of_bind
  · exact (string_runsOut h).starts [ofText [], ofMark '<', ofMark '>', ofMark '}']
      ⟨_, .plain ho rfl rfl isDirection_nil rfl rfl⟩
  obtain ⟨name, isName, rfl, tookName⟩ := string_read hname
  refine tookName.starts ?_
  obtain h | ⟨_, s₂, hl, h⟩ := h.of_bind
  · exact (mark_runsOut h).starts [ofMark '<', ofMark '>', ofMark '}']
      ⟨_, .plain ho isName rfl isDirection_nil rfl rfl⟩
  obtain ⟨l, isL, tookL⟩ := mark_read hl
  refine tookL.starts ?_
  obtain h | ⟨way, s₃, hway, h⟩ := h.of_bind
  · obtain ⟨hnotes, way, isWay⟩ := direction_runsOut h
    exact ⟨hnotes, [ofMark '>', ofMark '}'], _, .plain ho isName isL isWay rfl rfl⟩
  obtain ⟨ts, r, isWay, isR, tookWay⟩ := direction_read hway
  refine tookWay.starts ?_
  simp only [List.append_assoc, List.singleton_append]
  obtain h | ⟨more, s₄, hmore, h⟩ := h.of_bind
  · obtain ⟨_, _, h⟩ := h
    cases h
  cases hmore
  split at h
  · next hstring =>
    obtain h | ⟨p, s₄, hparams, h⟩ := h.of_bind
    · rw [(params_runsOut h).1] at hstring
      cases hstring
    have atEnd := mark_runsOut h.of_map
    obtain ⟨letters, isParams, tookLetters⟩ := params_read hparams atEnd.2
    exact tookLetters.starts (atEnd.starts [ofMark '}']
      ⟨_, .withParams ho isName isL isWay isR (tookLetters.passes hstring) isParams rfl⟩)
  · obtain h | ⟨_, s₄, hempty, h⟩ := h.of_bind
    · exact absurd h (not_runsOut_pure _)
    cases hempty
    exact (mark_runsOut h.of_map).starts [ofMark '}'] ⟨_, .plain ho isName isL isWay isR rfl⟩

theorem bounds_runsOut {t : Token} (ht : t.isSpecial '%' = true) (h : RunsOut bounds s) :
    s.Starts fun ts => ∃ count, IsSuffix (t :: ts) count := by
  have isBounds : IsBounds ['1'] ⟨some 1, some 1⟩ := Bounds.isBounds_iff.mpr rfl
  obtain h | ⟨_, s₁, ho, h⟩ := h.of_bind
  · exact (mark_runsOut h).starts [ofMark '{', ofText ['1'], ofMark '}']
      ⟨_, .bounded ht rfl rfl isBounds rfl⟩
  obtain ⟨o, isO, tookO⟩ := mark_read ho
  refine tookO.starts ?_
  obtain h | ⟨written, s₂, hwritten, h⟩ := h.of_bind
  · exact (require_runsOut h).starts [ofText ['1'], ofMark '}'] ⟨_, .bounded ht isO rfl isBounds rfl⟩
  obtain ⟨isString, tookWritten⟩ := require_read hwritten
  refine tookWritten.starts ?_
  obtain h | ⟨_, s₃, hnote, h⟩ := h.of_bind
  · obtain ⟨_, _, h⟩ := h
    cases h
  have atEnd := mark_runsOut h.of_map
  obtain ⟨hfaults, tookNote⟩ := note_read hnote atEnd.2
  have hbounds : Bounds.ofText written.text = ((Bounds.ofText written.text).1, []) :=
    Prod.ext rfl (List.map_eq_nil_iff.mp hfaults)
  exact tookNote.starts (atEnd.starts [ofMark '}']
    ⟨_, .bounded ht isO isString (Bounds.isBounds_iff.mpr hbounds) rfl⟩)

theorem suffix_runsOut (h : RunsOut suffix? s) : s.Starts fun ts => ∃ count, IsSuffix ts count := by
  obtain ⟨_, _, _, _, h⟩ | h := h.of_ite
  · exact absurd h (not_runsOut_pure _)
  obtain ⟨_, _, _, _, h⟩ | h := h.of_ite
  · exact absurd h (not_runsOut_pure _)
  obtain ⟨_, _, _, _, h⟩ | h := h.of_ite
  · exact absurd h (not_runsOut_pure _)
  obtain ⟨t, s', ht, took, h⟩ | h := h.of_ite
  · exact took.starts (bounds_runsOut ht h.of_map)
  · exact absurd h (not_runsOut_pure _)

theorem suffixes_runsOut {depth : Nat} {inner : Node} (h : RunsOut (suffixes depth inner) s)
    (hd : s.tokens.length < depth) : s.Starts fun ts => ∃ node, Suffixed ts inner node := by
  induction depth generalizing s inner with
  | zero => omega
  | succ depth ih =>
    obtain h | ⟨count, s', hsuffix, h⟩ := h.of_bind
    · obtain ⟨hnotes, vs, count, isSuffix⟩ := suffix_runsOut h
      refine ⟨hnotes, vs, .repeated inner count, ?_⟩
      rw [← List.append_nil (_ ++ vs)]
      exact .more isSuffix .none
    · cases count with
      | none => exact absurd h (not_runsOut_pure _)
      | some count =>
        have hnotes := (suffixes_orderly depth _).notes_of_runsOut h
        obtain ⟨hcount, _⟩ | ⟨_, ts, hcount, isSuffix, took⟩ := suffix_read hsuffix hnotes
        · cases hcount
        cases hcount
        have hlength := suffix_length isSuffix
        rw [took.1, List.length_append] at hd
        obtain ⟨_, vs, node, suffixed⟩ := ih h (by omega)
        exact took.starts ⟨hnotes, vs, node, .more isSuffix suffixed⟩

/-- Where no suffix begins nothing is missing. -/
theorem not_runsOut_suffixes {depth : Nat} {inner : Node} (stop : suffix? s = .read none s) (hd : 0 < depth) :
    ¬RunsOut (suffixes depth inner) s := by
  obtain ⟨depth, rfl⟩ := Nat.exists_eq_add_one_of_ne_zero hd.ne'
  rintro ⟨_, _, h⟩
  rw [suffixes, bind_apply, stop] at h
  cases h

/-! ## Statements -/

/-- **What runs out at one depth is unfinished**: lists, statements and single statements. -/
structure UnfinishedAt (depth : Nat) : Prop where
  ofList : ∀ {kind : ListKind} {s : Source}, RunsOut (list depth kind) s →
    3 * s.tokens.length + 2 ≤ depth → s.Starts fun ts => ∃ node, IsList kind ts node
  ofStatements : ∀ {before : List Node} {s : Source}, RunsOut (statements depth before) s →
    3 * s.tokens.length + 1 ≤ depth → s.Starts fun ts => ∃ nodes, AreStatements ts nodes
  ofStatement : ∀ {s : Source}, RunsOut (statement depth) s → 3 * s.tokens.length ≤ depth →
    s.Starts fun ts => ∃ node, IsStatement ts node

theorem group_runsOut {depth : Nat} (ih : UnfinishedAt depth) {kind : ListKind} {close : Char}
    (h : RunsOut (list depth kind >>= fun node => mark close >>= fun _ => pure node) s)
    (hd : 3 * s.tokens.length + 2 ≤ depth) :
    s.Starts fun ts => ∃ us node c, ts = us ++ [c] ∧ IsList kind us node ∧ c.isSpecial close = true := by
  obtain h | ⟨node, s', hlist, h⟩ := h.of_bind
  · obtain ⟨hnotes, vs, node, isList⟩ := ih.ofList h hd
    exact ⟨hnotes, vs ++ [ofMark close], _, node, _, (List.append_assoc ..).symm, isList,
      isSpecial_ofMark close⟩
  · have atEnd := mark_runsOut h.of_map
    obtain ⟨ts, isList, took⟩ := (derived depth).ofList hlist atEnd.2
    exact took.starts (atEnd.starts [ofMark close] ⟨ts, node, _, rfl, isList, isSpecial_ofMark close⟩)

/-- A statement that runs out after its first token and before its suffixes. -/
theorem head_runsOut {depth : Nat} (ih : UnfinishedAt depth) {t : Token} {r : Reader Node}
    (head : Head depth t r) (h : RunsOut r s) (hd : 3 * s.tokens.length + 2 ≤ depth) :
    s.Starts fun ts => ∃ node, IsStatement (t :: ts) node := by
  have atom : ∀ {ts node}, IsAtom ts node → IsStatement ts node := by
    intro ts node isAtom
    rw [← List.append_nil ts]
    exact .atom isAtom .none
  cases head with
  | literal | outside | inside => exact absurd h (not_runsOut_pure _)
  | group ht =>
    refine (group_runsOut ih h hd).imp ?_
    rintro _ ⟨us, node, c, rfl, isList, isC⟩
    exact ⟨node, atom (.group ht isList isC)⟩
  | choice ht =>
    refine (group_runsOut ih h hd).imp ?_
    rintro _ ⟨us, node, c, rfl, isList, isC⟩
    exact ⟨node, atom (.choice ht isList isC)⟩
  | direction ht =>
    obtain ⟨hnotes, way, isWay⟩ := direction_runsOut h.of_map
    exact ⟨hnotes, [ofMark '>'], _, atom (.direction ht isWay rfl)⟩
  | call ht =>
    refine (call_runsOut ht h.of_map).imp ?_
    rintro ts ⟨target, isCall⟩
    exact ⟨_, atom (.call isCall)⟩
  | look ht =>
    refine (ih.ofStatement h.of_map (by omega)).imp ?_
    rintro ts ⟨inner, isStatement⟩
    exact ⟨_, .look ht isStatement⟩

theorem list_runsOut {depth : Nat} (ih : UnfinishedAt depth) {kind : ListKind}
    (h : RunsOut (list (depth + 1) kind) s) (hd : 3 * s.tokens.length + 1 ≤ depth) :
    s.Starts fun ts => ∃ node, IsList kind ts node := by
  rw [list] at h
  obtain ⟨t, s', ht, took, h⟩ | h := h.of_ite
  · exact took.starts ((string_runsOut h.of_map).starts [ofText []] ⟨_, .negated ht rfl⟩)
  · refine (ih.ofStatements h.of_map hd).imp ?_
    rintro ts ⟨parts, areStatements⟩
    exact ⟨_, .statements areStatements (builds_iff.mpr rfl)⟩

theorem statements_runsOut {depth : Nat} (ih : UnfinishedAt depth) {before : List Node}
    (h : RunsOut (statements (depth + 1) before) s) (hd : 3 * s.tokens.length ≤ depth) :
    s.Starts fun ts => ∃ nodes, AreStatements ts nodes := by
  rw [statements] at h
  obtain ⟨_, _, h⟩ | ⟨ends, s', hends, h⟩ := h.of_bind
  · cases h
  cases hends
  split at h
  · exact absurd h (not_runsOut_pure _)
  obtain h | ⟨node, s', hnode, h⟩ := h.of_bind
  · refine (ih.ofStatement h hd).imp ?_
    rintro ts ⟨node, isStatement⟩
    refine ⟨[node], ?_⟩
    rw [← List.append_nil ts]
    exact .cons isStatement .nil
  · have hnotes := ((orderlyAt depth).ofStatements _).notes_of_runsOut h
    obtain ⟨ts, isStatement, took, _⟩ := (derived depth).ofStatement hnode hnotes
    obtain ⟨t, us, rfl, _⟩ := statement_begins isStatement
    have hlength : s.tokens.length = us.length + 1 + s'.tokens.length := by
      rw [took.1, List.length_append, List.length_cons]
    refine took.starts ((ih.ofStatements h (by omega)).imp ?_)
    rintro ts ⟨nodes, areStatements⟩
    exact ⟨_, .cons isStatement areStatements⟩

theorem statement_runsOut {depth : Nat} (ih : UnfinishedAt depth) (h : RunsOut (statement (depth + 1)) s)
    (hd : 3 * s.tokens.length ≤ depth + 1) : s.Starts fun ts => ∃ node, IsStatement ts node := by
  have inside : IsStatement [ofMark '.'] .inside := .atom (.inside rfl) .none
  rw [statement_succ] at h
  obtain h | ⟨t, s₁, hnext, h⟩ := h.of_bind
  · exact (next_runsOut h).starts [ofMark '.'] ⟨_, inside⟩
  have took := next_read hnext
  have hlength : s.tokens.length = s₁.tokens.length + 1 := by
    rw [took.1]
    rfl
  refine took.starts ?_
  have head : Head depth t (statementHead depth t) := by
    apply (head_or_fail depth t).resolve_right
    intro hfail
    rw [hfail] at h
    obtain h | ⟨_, _, h, _⟩ := h.of_bind
    · exact not_runsOut_failAt t h
    · cases h
  obtain h | ⟨inner, s₂, hhead, h⟩ := h.of_bind
  · exact head_runsOut ih head h (by omega)
  have hnotes := (suffixes_orderly depth inner).notes_of_runsOut h
  obtain ⟨ts, isAtom, tookHead⟩ | ⟨_, _, _, stop⟩ := head_read (derived depth) head hhead hnotes
  · have hhead : s₁.tokens.length = ts.length + s₂.tokens.length := by
      rw [tookHead.1, List.length_append]
    refine tookHead.starts ((suffixes_runsOut h (by omega)).imp ?_)
    rintro us ⟨node, suffixed⟩
    have isStatement : IsStatement (t :: ts ++ us) node := .atom isAtom suffixed
    exact ⟨node, isStatement⟩
  · exact absurd h (not_runsOut_suffixes stop (by omega))

theorem unfinishedAt (depth : Nat) : UnfinishedAt depth := by
  induction depth with
  | zero =>
    refine ⟨fun _ hd => by omega, fun _ hd => by omega, fun {s} h hd => ?_⟩
    have inside : IsStatement [ofMark '.'] .inside := .atom (.inside rfl) .none
    have hempty : s.tokens = [] := List.length_eq_zero_iff.mp (by omega)
    exact Source.AtEnd.starts ⟨hempty, (orderlyAt 0).ofStatement.notes_of_runsOut h⟩ _ ⟨_, inside⟩
  | succ depth ih =>
    exact ⟨fun h hd => list_runsOut ih h (by omega), fun h hd => statements_runsOut ih h (by omega),
      fun h hd => statement_runsOut ih h hd⟩

/-! ## Declarations -/

theorem declarationBody_runsOut {depth : Nat} {name : List Char} {p : Params}
    (h : RunsOut (declarationBody depth name p) s) (hd : 3 * s.tokens.length + 2 ≤ depth) :
    s.Starts fun ts => ∃ colon us newline body, ts = colon :: (us ++ [newline]) ∧
      Token.isSpecial colon ':' = true ∧ IsList .all us body ∧ Token.isSpecial newline '\n' = true := by
  obtain h | ⟨_, s₁, hcolon, h⟩ := h.of_bind
  · exact (mark_runsOut h).starts [ofMark ':', ofMark '\n']
      ⟨_, [], ofMark '\n', _, rfl, rfl, .statements .nil (builds_iff.mpr rfl), rfl⟩
  obtain ⟨colon, isColon, tookColon⟩ := mark_read hcolon
  refine tookColon.starts ?_
  have hlength : s.tokens.length = s₁.tokens.length + 1 := by
    rw [tookColon.1]
    rfl
  obtain h | ⟨body, s₂, hbody, h⟩ := h.of_bind
  · obtain ⟨hnotes, vs, body, isList⟩ := (unfinishedAt depth).ofList h (by omega)
    exact ⟨hnotes, vs ++ [ofMark '\n'], colon, s₁.tokens ++ vs, ofMark '\n', body, by simp, isColon,
      isList, rfl⟩
  · have atEnd := mark_runsOut h.of_map
    obtain ⟨ts, isList, took⟩ := (derived depth).ofList hbody atEnd.2
    exact took.starts (atEnd.starts [ofMark '\n'] ⟨colon, ts, _, body, rfl, isColon, isList, rfl⟩)

/-- **A declaration that runs out is the beginning of one**, where there is depth enough. -/
theorem declaration_runsOut {depth : Nat} (h : RunsOut (declaration depth) s)
    (hd : 3 * s.tokens.length + 2 ≤ depth) : s.Starts fun ts => ∃ d, IsDeclaration ts d := by
  have isList : IsList .all [] (.sequence []) := .statements .nil (builds_iff.mpr rfl)
  have isParams : IsParams [] {} := Params.isParams_iff.mpr rfl
  rw [declaration_eq] at h
  obtain h | ⟨_, s₁, hname, h⟩ := h.of_bind
  · exact (string_runsOut h).starts [ofText [], ofMark ':', ofMark '\n'] ⟨_, .plain rfl rfl isList rfl⟩
  obtain ⟨name, isName, rfl, tookName⟩ := string_read hname
  have hname := tookName.length_le
  refine tookName.starts ?_
  obtain ⟨o, s₂, isO, tookO, h⟩ | h := h.of_ite
  · have ho := tookO.length_le
    refine tookO.starts ?_
    obtain h | ⟨p, s₃, hparams, h⟩ := h.of_bind
    · exact (params_runsOut h).starts [ofText [], ofMark '}', ofMark ':', ofMark '\n']
        ⟨_, .withParams isName isO isParams rfl rfl isList rfl⟩
    obtain h | ⟨_, s₄, hc, h⟩ := h.of_bind
    · have atEnd := mark_runsOut h
      obtain ⟨letters, isParams, tookLetters⟩ := params_read hparams atEnd.2
      exact tookLetters.starts (atEnd.starts [ofMark '}', ofMark ':', ofMark '\n']
        ⟨_, .withParams isName isO isParams rfl rfl isList rfl⟩)
    have orderly : Orderly [] (declarationBody depth name.text p) :=
      (declarationBody_online (n := 0) le_rfl (by omega) name.text p).left
    have hnotes := orderly.notes_of_runsOut h
    obtain ⟨c, isC, tookC⟩ := mark_read hc
    obtain ⟨letters, isParams, tookLetters⟩ := params_read hparams (tookC.2 hnotes)
    have hletters := tookLetters.length_le
    have hc := tookC.length_le
    refine tookLetters.starts (tookC.starts ((declarationBody_runsOut h (by omega)).imp ?_))
    rintro _ ⟨colon, us, newline, body, rfl, isColon, isList, isNewline⟩
    exact ⟨_, .withParams isName isO isParams isC isColon isList isNewline⟩
  · refine (declarationBody_runsOut h (by omega)).imp ?_
    rintro _ ⟨colon, us, newline, body, rfl, isColon, isList, isNewline⟩
    exact ⟨_, .plain isName isColon isList isNewline⟩

end Parser

end GridPattern
