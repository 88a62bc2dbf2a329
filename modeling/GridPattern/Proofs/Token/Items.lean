import GridPattern.Proofs.Token.Lexer

/-!
# Tokens without escapes, item by item

The first three passes cut code, drop blank lines and settle escapes. What they leave is fed to the lexer
token by token, and it comes to the items that it reads from the code itself, and to the same faulty
escapes.

**The law** (`readsAll`), by induction on the code. A backslash is settled together with the token after
it, so the law is said of two states: after a backslash, and otherwise.
-/

namespace GridPattern.Lexer

open Token

/-- Feeds the characters of a string in one line of code. -/
def feedText (items : Items) (place : Place) : List Char → Items
  | [] => items
  | c :: text => feedText (items.literal c place) ⟨place.line, place.col + 1⟩ text

/-- Feeds a token. -/
def feed (items : Items) (t : Token) : Items :=
  match t.kind, t.text with
  | .string, text => feedText items t.place text
  | _, [c] => items.special c t.place
  | _, _ => items

/-- A token as it is once escapes are settled: a string with characters, or one special character. -/
inductive Settled : Token → Prop
  | string {text : List Char} {place : Place} : text ≠ [] → Settled ⟨text, .string, place⟩
  | special {c : Char} {place : Place} : Settled ⟨[c], .special, place⟩

/-- **What is read** between two states is what the tokens feed, with the faults beside them. -/
structure Reads (s : State) (settled : List Token × List (Located ScanFault)) (s' : State) : Prop where
  items : s'.items = settled.1.foldl feed s.items
  faults : s'.faults = s.faults ++ settled.2
  each : ∀ t ∈ settled.1, Settled t

theorem Reads.cons {s s₁ s' : State} {settled : List Token × List (Located ScanFault)} {t : Token}
    (ht : Settled t) (hitems : s₁.items = feed s.items t) (hfaults : s₁.faults = s.faults)
    (h : Reads s₁ settled s') : Reads s (t :: settled.1, settled.2) s' where
  items := by rw [h.items, hitems, List.foldl_cons]
  faults := by rw [h.faults, hfaults]
  each := List.forall_mem_cons.mpr ⟨ht, h.each⟩

/-! ## Strings as they are cut -/

theorem isSpecialChar_newline : isSpecialChar '\n' = true := by decide

theorem ne_of_ordinary {c d : Char} (hc : isSpecialChar c = false) (hd : isSpecialChar d = true) :
    c ≠ d := by
  intro heq
  rw [heq, hd] at hc
  cases hc

theorem after_ordinary {c : Char} (hc : isSpecialChar c = false) (place : Place) :
    place.after c = ⟨place.line, place.col + 1⟩ := by
  rw [Place.after, if_neg (ne_of_ordinary hc isSpecialChar_newline)]

theorem cut_special {c : Char} (hc : isSpecialChar c = true) (hne : c ≠ '\\') (here : Place)
    (code : List Char) : cut here (c :: code) = ⟨[c], .special, here⟩ :: cut (here.after c) code := by
  rw [cut, if_neg hne, if_pos hc]

/-- A string is cut as long as it can be. -/
theorem cut_ordinary {c : Char} (hc : isSpecialChar c = false) (here : Place) (code : List Char) :
    ∃ text more, text = code.takeWhile (!isSpecialChar ·) ∧
      cut here (c :: code) = ⟨c :: text, .string, here⟩ :: more ∧
      cut (here.after c) code = consUnlessEmpty ⟨text, .string, here.after c⟩ more := by
  have hne : c ≠ '\\' := ne_of_ordinary hc (by decide)
  induction code generalizing c here with
  | nil => exact ⟨[], [], rfl, by simp [cut, hne, hc], rfl⟩
  | cons d code ih =>
    by_cases hd : isSpecialChar d = true
    · refine ⟨[], cut (here.after c) (d :: code), by simp [hd], ?_, rfl⟩
      rw [cut, if_neg hne, hc]
      by_cases hbackslash : d = '\\'
      · simp [cut, hbackslash]
      · simp [cut_special hd hbackslash]
    · rw [Bool.not_eq_true] at hd
      have hbackslash : d ≠ '\\' := ne_of_ordinary hd (by decide)
      obtain ⟨text, more, htext, hcut, _⟩ := ih hd (here.after c) hbackslash
      refine ⟨d :: text, more, ?_, ?_, hcut⟩
      · rw [List.takeWhile_cons, hd, htext]
        rfl
      · rw [cut, if_neg hne, hc, hcut]
        rfl

/-! ## Passes over a string -/

theorem dropBlankLines_string {t : Token} (ht : t.isString = true) (atLineStart : Bool)
    (tokens : List Token) :
    dropBlankLines atLineStart (t :: tokens) = t :: dropBlankLines false tokens := by
  have hnewline : t.isNewline = false := by
    simp_all [isString, isNewline, isSpecial]
  rw [dropBlankLines, hnewline]
  rfl

theorem dropBlankLines_special {c : Char} {atLineStart : Bool}
    (h : ¬(c = '\n' ∧ atLineStart = true)) (place : Place) (tokens : List Token) :
    dropBlankLines atLineStart (⟨[c], .special, place⟩ :: tokens) =
      ⟨[c], .special, place⟩ :: dropBlankLines (c == '\n') tokens := by
  rw [dropBlankLines]
  by_cases hnewline : c = '\n'
  · subst hnewline
    have hfirst : atLineStart = false := by simpa using h
    rw [hfirst]
    rfl
  · have hother : Token.isNewline ⟨[c], .special, place⟩ = false := by
      simp [isNewline, isSpecial, hnewline]
    have hflag : (c == '\n') = false := by simpa using hnewline
    rw [hother, hflag]
    rfl

theorem settleEscapes_cons {t : Token} (ht : t.kind ≠ .escape) (tokens : List Token) :
    settleEscapes (t :: tokens) = (t :: (settleEscapes tokens).1, (settleEscapes tokens).2) := by
  rw [settleEscapes.eq_def]
  exact if_neg ht

theorem dropBlankLines_consUnlessEmpty (text : List Char) (place : Place) (tokens : List Token) :
    dropBlankLines false (consUnlessEmpty ⟨text, .string, place⟩ tokens) =
      consUnlessEmpty ⟨text, .string, place⟩ (dropBlankLines false tokens) := by
  cases text with
  | nil => rfl
  | cons c text => exact dropBlankLines_string rfl false tokens

theorem settleEscapes_consUnlessEmpty (text : List Char) (place : Place) (tokens : List Token) :
    settleEscapes (consUnlessEmpty ⟨text, .string, place⟩ tokens) =
      (consUnlessEmpty ⟨text, .string, place⟩ (settleEscapes tokens).1, (settleEscapes tokens).2) := by
  cases text with
  | nil => rfl
  | cons c text => exact settleEscapes_cons (by simp) tokens

theorem foldl_feed_consUnlessEmpty (items : Items) (text : List Char) (place : Place)
    (tokens : List Token) : (consUnlessEmpty ⟨text, .string, place⟩ tokens).foldl feed items =
      tokens.foldl feed (feedText items place text) := by
  cases text with
  | nil => rfl
  | cons c text => rfl

theorem mem_consUnlessEmpty {t u : Token} {tokens : List Token} (h : u ∈ tokens) :
    u ∈ consUnlessEmpty t tokens := by
  unfold consUnlessEmpty
  split
  · exact h
  · exact List.mem_cons_of_mem t h

/-! ## Reading -/

/-- The tokens that are left of code after three passes, and the faulty escapes. -/
def settle (here : Place) (afterNewline : Bool) (code : List Char) :
    List Token × List (Located ScanFault) := settleEscapes (dropBlankLines afterNewline (cut here code))

theorem settle_skipped (here : Place) (code : List Char) :
    settle here true ('\n' :: code) = settle (here.after '\n') true code := by
  rw [settle, cut_special isSpecialChar_newline (by decide)]
  rfl

theorem settle_special {c : Char} (hc : isSpecialChar c = true) (hne : c ≠ '\\') (here : Place)
    {afterNewline : Bool} (hskip : ¬(c = '\n' ∧ afterNewline = true)) (code : List Char) :
    settle here afterNewline (c :: code) =
      (⟨[c], .special, here⟩ :: (settle (here.after c) (c == '\n') code).1,
        (settle (here.after c) (c == '\n') code).2) := by
  rw [settle, cut_special hc hne, dropBlankLines_special hskip]
  exact settleEscapes_cons (by simp) _

theorem settle_backslash (here : Place) (afterNewline : Bool) (code : List Char) :
    settle here afterNewline ('\\' :: code) =
      settleEscapes (⟨['\\'], .escape, here⟩ :: dropBlankLines false (cut (here.after '\\') code)) := by
  rw [settle, cut, if_pos rfl, dropBlankLines]
  rfl

theorem settle_ordinary {c : Char} (hc : isSpecialChar c = false) (here : Place) (code : List Char) :
    ∃ text more, text = code.takeWhile (!isSpecialChar ·) ∧
      cut here (c :: code) = ⟨c :: text, .string, here⟩ :: more ∧
      settle (here.after c) false code =
        (consUnlessEmpty ⟨text, .string, here.after c⟩ (settleEscapes (dropBlankLines false more)).1,
          (settleEscapes (dropBlankLines false more)).2) := by
  obtain ⟨text, more, htext, hcut, hmore⟩ := cut_ordinary hc here code
  refine ⟨text, more, htext, hcut, ?_⟩
  rw [settle, hmore, dropBlankLines_consUnlessEmpty, settleEscapes_consUnlessEmpty]

/-- What is read after a character feeds what the string feeds that begins with it. -/
theorem Reads.string {s s₁ s' : State} {c d : Char} (hc : isSpecialChar c = false) {text : List Char}
    {settled : List Token × List (Located ScanFault)} (faults : List (Located ScanFault))
    (hitems : s₁.items = s.items.literal d s.here) (hfaults : s₁.faults = s.faults ++ faults)
    (h : Reads s₁ (consUnlessEmpty ⟨text, .string, s.here.after c⟩ settled.1, settled.2) s') :
    Reads s (⟨d :: text, .string, s.here⟩ :: settled.1, faults ++ settled.2) s' where
  items := by
    rw [h.items, foldl_feed_consUnlessEmpty, hitems, after_ordinary hc]
    rfl
  faults := by rw [h.faults, hfaults, List.append_assoc]
  each := by
    refine List.forall_mem_cons.mpr ⟨.string (List.cons_ne_nil d text), ?_⟩
    intro t ht
    exact h.each t (mem_consUnlessEmpty ht)

/-- **What is read of code** from every state, after a backslash and otherwise. -/
structure ReadsAll (code : List Char) : Prop where
  plain : ∀ s : State, s.escaping = false → Reads s (settle s.here s.afterNewline code) (read s code)
  escaped : ∀ (s : State) (place : Place), s.escaping = true →
    Reads s (settleEscapes (⟨['\\'], .escape, place⟩ :: dropBlankLines false (cut s.here code)))
      (read s code)

/-- The code after a character that is not a backslash, or that a backslash stands before. -/
theorem ReadsAll.after {code : List Char} (ih : ReadsAll code) {s : State} {c : Char}
    (h : (s.step c code).escaping = false) :
    Reads (s.step c code) (settle (s.here.after c) (c == '\n') code) (read (s.step c code) code) :=
  ih.plain (s.step c code) h

theorem reads_plain {c : Char} {code : List Char} (ih : ReadsAll code) {s : State}
    (hs : s.escaping = false) :
    Reads s (settle s.here s.afterNewline (c :: code)) (read (s.step c code) code) := by
  by_cases hskip : c = '\n' ∧ s.afterNewline = true
  · obtain ⟨rfl, hafter⟩ := hskip
    have h := ih.after (s := s) (c := '\n') (by simp [State.step, hs, hafter])
    rw [hafter, settle_skipped]
    refine ⟨?_, ?_, h.each⟩
    · rw [h.items]
      simp [State.step, hs, hafter]
    · rw [h.faults]
      simp [State.step, hs, hafter]
  · by_cases hbackslash : c = '\\'
    · subst hbackslash
      rw [settle_backslash]
      have h := ih.escaped (s.step '\\' code) s.here (by simp [State.step, hs])
      refine ⟨?_, ?_, h.each⟩
      · rw [h.items]
        simp [State.step, hs]
      · rw [h.faults]
        simp [State.step, hs]
    · have hstep : s.step c code =
          { s.plain c with here := s.here.after c, afterNewline := c == '\n' } := by
        simp [State.step, hs, hskip, hbackslash]
      have hescaping : (s.step c code).escaping = false := by
        rw [hstep, State.plain]
        split <;> exact hs
      by_cases hc : isSpecialChar c = true
      · rw [settle_special hc hbackslash s.here hskip]
        refine Reads.cons .special ?_ ?_ (ih.after hescaping)
        · simp [hstep, State.plain, hc, feed]
        · simp [hstep, State.plain, hc]
      · rw [Bool.not_eq_true] at hc
        -- What follows is known of the string without its first character.
        obtain ⟨text, more, _, hcut, hmore⟩ := settle_ordinary hc s.here code
        have hnewline : (c == '\n') = false :=
          beq_eq_false_iff_ne.mpr (ne_of_ordinary hc isSpecialChar_newline)
        have h := ih.after hescaping
        rw [hnewline, hmore] at h
        rw [settle, hcut, dropBlankLines_string rfl, settleEscapes_cons (by simp)]
        refine Reads.string hc [] ?_ ?_ h
        · simp [hstep, State.plain, hc]
        · simp [hstep, State.plain, hc]

theorem settleEscapes_escape (place : Place) (t : Token) (tokens : List Token) :
    settleEscapes (⟨['\\'], .escape, place⟩ :: t :: tokens) =
      match t.afterBackslash with
      | .ok t => (t :: (settleEscapes tokens).1, (settleEscapes tokens).2)
      | .error fault => (t :: (settleEscapes tokens).1, fault :: (settleEscapes tokens).2) := by
  rw [settleEscapes.eq_def]
  rfl

theorem escaped?_special {c : Char} (hc : isSpecialChar c = true) : escaped? c = some c := by
  unfold escaped?
  exact if_pos hc

theorem escaped?_ordinary {c : Char} (hc : isSpecialChar c = false) : escaped? c = control? c := by
  unfold escaped?
  rw [hc]
  rfl

/-- A special character after a backslash is a string, whatever kind of token it was. -/
theorem settle_escaped_special {c : Char} (hc : isSpecialChar c = true) (here place : Place)
    (code : List Char) :
    settleEscapes (⟨['\\'], .escape, place⟩ :: dropBlankLines false (cut here (c :: code))) =
      (⟨[c], .string, here⟩ :: (settle (here.after c) (c == '\n') code).1,
        (settle (here.after c) (c == '\n') code).2) := by
  by_cases hbackslash : c = '\\'
  · subst hbackslash
    have hdrop : dropBlankLines false (cut here ('\\' :: code)) =
        ⟨['\\'], .escape, here⟩ :: dropBlankLines false (cut (here.after '\\') code) := by
      rw [cut, if_pos rfl]
      rfl
    rw [hdrop, settleEscapes_escape]
    rfl
  · rw [cut_special hc hbackslash, dropBlankLines_special (by simp)]
    exact settleEscapes_escape _ _ _

theorem reads_escaped {c : Char} {code : List Char} (ih : ReadsAll code) {s : State} {place : Place}
    (hs : s.escaping = true) :
    Reads s (settleEscapes (⟨['\\'], .escape, place⟩ :: dropBlankLines false (cut s.here (c :: code))))
      (read (s.step c code) code) := by
  have hstep : s.step c code = { s.escaped c code with
      escaping := false, here := s.here.after c, afterNewline := c == '\n' } := by
    simp [State.step, hs]
  have h := ih.after (s := s) (c := c) (by rw [hstep])
  by_cases hc : isSpecialChar c = true
  · rw [settle_escaped_special hc]
    refine Reads.cons (.string (List.cons_ne_nil c [])) ?_ ?_ h
    · simp [hstep, State.escaped, escaped?_special hc, feed, feedText]
    · simp [hstep, State.escaped, escaped?_special hc]
  · rw [Bool.not_eq_true] at hc
    obtain ⟨text, more, htext, hcut, hmore⟩ := settle_ordinary hc s.here code
    have hnewline : (c == '\n') = false :=
      beq_eq_false_iff_ne.mpr (ne_of_ordinary hc isSpecialChar_newline)
    rw [hnewline, hmore] at h
    rw [hcut, dropBlankLines_string rfl, settleEscapes_escape]
    cases hcontrol : control? c with
    | some d =>
      have hback : afterBackslash ⟨c :: text, .string, s.here⟩ = .ok ⟨d :: text, .string, s.here⟩ := by
        simp [afterBackslash, hcontrol]
      rw [hback]
      refine Reads.string hc [] ?_ ?_ h
      · simp [hstep, State.escaped, escaped?_ordinary hc, hcontrol]
      · simp [hstep, State.escaped, escaped?_ordinary hc, hcontrol]
    | none =>
      have hback : afterBackslash ⟨c :: text, .string, s.here⟩ =
          .error ⟨s.here, .invalidEscape (c :: text)⟩ := by
        simp [afterBackslash, hcontrol]
      rw [hback]
      refine Reads.string hc [⟨s.here, .invalidEscape (c :: text)⟩] ?_ ?_ h
      · simp [hstep, State.escaped, escaped?_ordinary hc, hcontrol]
      · simp [hstep, State.escaped, escaped?_ordinary hc, hcontrol, htext]

theorem readsAll (code : List Char) : ReadsAll code := by
  induction code with
  | nil =>
    constructor
    · intro s _
      exact ⟨rfl, (List.append_nil _).symm, by simp [settle, cut, dropBlankLines, settleEscapes]⟩
    · intro s place _
      exact ⟨rfl, (List.append_nil _).symm, by simp [cut, dropBlankLines, settleEscapes]⟩
  | cons c code ih => exact ⟨fun s hs => reads_plain ih hs, fun s place hs => reads_escaped ih hs⟩

theorem read_here (s : State) (code : List Char) : (read s code).here = s.here.afterAll code := by
  induction code generalizing s with
  | nil => rfl
  | cons c code ih => exact ih (s.step c code)

end GridPattern.Lexer
