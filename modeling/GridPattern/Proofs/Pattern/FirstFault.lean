import GridPattern.Proofs.Pattern.Unfinished

/-!
# The first fault

Tokens are viable if more tokens make a program of them. The parser blames the first token that makes them not
viable, and if there is none, it has nothing to blame but the end of the code.

**The law** (`faults_of_ofTokens`). All faults are those of one declaration, in the order of its tokens, and the
first of them stands at the last token of the shortest prefix that is not viable.
-/

namespace GridPattern

open Reader

/-- **Tokens that can still become a program.** -/
def Viable (tokens : List Token) : Prop := ∃ rest p, Program.ofTokens (tokens ++ rest) = .ok p

theorem Viable.of_append {ts us : List Token} (h : Viable (ts ++ us)) : Viable ts := by
  obtain ⟨rest, p, hp⟩ := h
  exact ⟨us ++ rest, p, by rwa [← List.append_assoc]⟩

/-! ## Replies -/

namespace Reply

variable {α : Type}

/-- All faults that a reply tells of. -/
def faults : Reply α → List (Located ParseFault)
  | .read _ s => s.notes
  | .failed fault notes => notes ++ [fault]

/-- **A reply that blames a token first**, and not the end of the code. -/
inductive Blames (f : Located ParseFault) : Reply α → Prop
  | read {a : α} {s : Source} {more : List (Located ParseFault)} : s.notes = f :: more → Blames f (.read a s)
  | noted {fault : Located ParseFault} {more : List (Located ParseFault)} :
      Blames f (.failed fault (f :: more))
  | stopped {place : Place} {what : Expectation} {text : List Char} :
      f = ⟨place, .expected what (.token text)⟩ → Blames f (.failed f [])

theorem Blames.faults_eq {f : Located ParseFault} {reply : Reply α} (h : Blames f reply) :
    ∃ more, reply.faults = f :: more := by
  cases h with
  | read hnotes => exact ⟨_, hnotes⟩
  | noted => exact ⟨_, rfl⟩
  | stopped => exact ⟨[], rfl⟩

end Reply

namespace Reader

open Reply

variable {α : Type} {s : Source} {f : Located ParseFault} {reply : Reply α}

/-- What was noted before stays the first to be blamed. -/
theorem Proceeds.blames {here : List Token} (h : Proceeds here s reply) {more : List (Located ParseFault)}
    (hs : s.notes = f :: more) : Blames f reply := by
  cases h with
  | read went => exact .read (went.notes.trans (congrArg (· ++ _) hs))
  | stopped went | ranOut went =>
    rw [went.notes, hs, List.cons_append]
    exact .noted

/-- More tokens do not change what is blamed first. -/
theorem Continues.blames {more : List Token} {finish : Place} {x y : Reply α}
    (h : Continues more finish x y) (hx : Blames f x) : Blames f y := by
  cases h with
  | both =>
    cases hx with
    | read hnotes => exact .read hnotes
  | stopped => exact hx
  | ended h =>
    cases hx with
    | read hnotes => exact h.blames hnotes
  | ranOut h =>
    cases hx with
    | noted => exact h.blames rfl
    | stopped htoken => cases htoken

/-- Over one token a reader blames that token, or nothing. -/
theorem Proceeds.blames_or {t : Token} (h : Proceeds [] ⟨[t], t.place, []⟩ reply) :
    (∃ f, Blames f reply ∧ f.place = t.place) ∨ (∃ a s, reply = .read a s ∧ s.notes = []) ∨
      ∃ place what, reply = .failed ⟨place, .expected what .endOfCode⟩ [] := by
  have atToken : ∀ {us rest faults}, [t] = us ++ rest → InOrder us faults → ∀ f ∈ faults, f.place = t.place := by
    intro us rest faults htokens inOrder f mem
    have hone : InOrder [t] faults := by
      rw [htokens]
      exact inOrder.append_right rest
    exact hone.place_eq mem
  cases h with
  | @read a s' us new went =>
    have hnotes : s'.notes = new := went.notes
    cases new with
    | nil => exact .inr (.inl ⟨a, s', rfl, hnotes⟩)
    | cons f more =>
      exact .inl ⟨f, .read hnotes, atToken went.tokens went.noted.inOrder f List.mem_cons_self⟩
  | @stopped place what text us rest new notes went _ inOrder =>
    have hnotes : notes = new := went.notes
    cases new with
    | nil => exact .inl ⟨_, hnotes ▸ .stopped rfl, atToken went.tokens inOrder _ List.mem_cons_self⟩
    | cons f more =>
      exact .inl ⟨f, hnotes ▸ .noted, atToken went.tokens inOrder f List.mem_cons_self⟩
  | @ranOut what us rest new notes went =>
    have hnotes : notes = new := went.notes
    cases new with
    | nil => exact .inr (.inr ⟨_, what, by rw [hnotes]⟩)
    | cons f more =>
      exact .inl ⟨f, hnotes ▸ .noted, atToken went.tokens went.noted.inOrder f List.mem_cons_self⟩

/-- All faults are in order, and only the last can stop the reading. -/
theorem Proceeds.faults {ts : List Token} {t : Token} (h : Proceeds [] ⟨ts ++ [t], t.place, []⟩ reply) :
    InOrder (ts ++ [t]) reply.faults ∧ ∀ f ∈ reply.faults.dropLast, f.fault.isStructural = false := by
  have inOrder : ∀ {us rest faults}, ts ++ [t] = us ++ rest → InOrder us faults → InOrder (ts ++ [t]) faults := by
    intro us rest faults htokens h
    rw [htokens]
    exact h.append_right rest
  cases h with
  | @read a s' us new went =>
    have hnotes : s'.notes = new := went.notes
    rw [Reply.faults, hnotes]
    exact ⟨inOrder went.tokens went.noted.inOrder, fun f mem => went.noted.quiet f (List.mem_of_mem_dropLast mem)⟩
  | @stopped place what text us rest new notes went _ hstop =>
    have hnotes : notes = new := went.notes
    rw [Reply.faults, hnotes, List.dropLast_concat]
    exact ⟨inOrder went.tokens hstop, went.noted.quiet⟩
  | @ranOut what us rest new notes went =>
    have hnotes : notes = new := went.notes
    rw [Reply.faults, hnotes, List.dropLast_concat]
    exact ⟨(inOrder went.tokens went.noted.inOrder).concat rfl, went.noted.quiet⟩

end Reader

/-! ## Programs -/

namespace Grammar

variable {ts us : List Token} {ds es : List Declaration}

theorem IsProgram.append (h : IsProgram ts ds) (h' : IsProgram us es) : IsProgram (ts ++ us) (ds ++ es) := by
  induction h with
  | nil => exact h'
  | cons isDeclaration _ ih =>
    rw [List.append_assoc]
    exact .cons isDeclaration ih

/-- A program that begins with declarations goes on with a program. -/
theorem IsProgram.of_append (h : IsProgram ts ds) (h' : IsProgram (ts ++ us) es) :
    ∃ rest, IsProgram us rest := by
  induction h generalizing es with
  | nil => exact ⟨es, h'⟩
  | @cons tokens others d _ isDeclaration _ ih =>
    generalize hall : tokens ++ others ++ us = all at h'
    cases h' with
    | nil =>
      have hlength := Parser.declaration_length isDeclaration
      have hnil : tokens = [] := (List.append_eq_nil_iff.mp (List.append_eq_nil_iff.mp hall).1).1
      rw [hnil] at hlength
      cases hlength
    | @cons tokens' others' d' _ isDeclaration' isProgram' =>
      -- Both first declarations are what is read at a depth that is enough for both.
      let depth := max (3 * tokens.length) (3 * tokens'.length)
      have takes : (Parser.declaration depth).Takes tokens d (others ++ us) :=
        Parser.declaration_takes isDeclaration (le_max_left _ _)
      have takes' : (Parser.declaration depth).Takes tokens' d' others' :=
        Parser.declaration_takes isDeclaration' (le_max_right _ _)
      have hread := takes .start []
      rw [← List.append_assoc, hall, takes' .start []] at hread
      cases hread
      exact ih isProgram'

end Grammar

namespace Parser

open Reader Grammar Reply

theorem declaration_orderly (n : Nat) : Orderly [] (declaration (depthFor n)) :=
  (declaration_online (n := 0) le_rfl (Nat.le_add_left 2 _)).left

/-- The source of the declaration that faults are found in. -/
theorem declarations_error {left : Nat} {before : List Declaration} {s : Source}
    {faults : List (Located ParseFault)} (h : declarations left before s = .error faults)
    (hleft : s.tokens.length ≤ left) (hnotes : s.notes = []) :
    ∃ done rest ds, s.tokens = done ++ rest ∧ IsProgram done ds ∧ rest ≠ [] ∧ faults ≠ [] ∧
      faults = (declaration (depthFor rest.length) ⟨rest, s.finish, []⟩).faults := by
  have nonempty : ∀ {s : Source}, ¬s.tokens.isEmpty = true → s.tokens ≠ [] := by
    intro s hempty hnil
    rw [hnil] at hempty
    exact hempty rfl
  have here : ∀ {s : Source}, s.notes = [] → s = ⟨s.tokens, s.finish, []⟩ := by
    rintro ⟨tokens, finish, notes⟩ rfl
    rfl
  fun_induction declarations left before s with
  | case1 => cases h
  | case2 before s hempty left d s' hd hnotes' ih =>
    rw [List.isEmpty_iff] at hnotes'
    obtain ⟨ts, isDeclaration, took⟩ := declaration_read hd hnotes'
    have hlength := declaration_length isDeclaration
    rw [took.1, List.length_append] at hleft
    obtain ⟨done, rest, ds, htokens, isProgram, hne, hsome, hfaults⟩ := ih h (by omega) hnotes'
    have hfinish : s'.finish = s.finish := by
      have proceeds := declaration_orderly s.tokens.length s
      rw [hd] at proceeds
      obtain ⟨_, hfinish⟩ := proceeds
      exact hfinish
    refine ⟨ts ++ done, rest, d :: ds, ?_, .cons isDeclaration isProgram, hne, hsome, hfinish ▸ hfaults⟩
    rw [took.1, htokens, List.append_assoc]
  | case3 before s hempty left d s' hd hnotes' =>
    cases h
    refine ⟨[], s.tokens, [], rfl, .nil, nonempty hempty, ?_, ?_⟩
    · simpa using hnotes'
    · rw [← here hnotes, hd]
      rfl
  | case4 before s hempty d s' hd =>
    exact absurd (List.length_eq_zero_iff.mp (Nat.le_zero.mp hleft)) (nonempty hempty)
  | case5 left before s hempty fault notes hd =>
    cases h
    refine ⟨[], s.tokens, [], rfl, .nil, nonempty hempty, by simp, ?_⟩
    rw [← here hnotes, hd]
    rfl

/-- The end of a source is where its last token stands. -/
theorem ofTokens_concat (ts : List Token) (t : Token) :
    Source.ofTokens (ts ++ [t]) = ⟨ts ++ [t], t.place, []⟩ := by
  simp [Source.ofTokens]

variable {depth : Nat} {ts : List Token} {f : Located ParseFault}

/-- **Where the tokens of a declaration are at fault**: nowhere, if the declaration is read or if they run out; or
else the first fault is at the token after some that ran out, and stays the first whatever comes later. -/
theorem declaration_blames (hd : 3 * ts.length + 2 ≤ depth) :
    (∃ d s, declaration depth (.ofTokens ts) = .read d s ∧ s.notes = []) ∨
      RunsOut (declaration depth) (.ofTokens ts) ∨
      ∃ pre t post f, ts = pre ++ t :: post ∧ RunsOut (declaration depth) (.ofTokens pre) ∧
        Blames f (declaration depth (.ofTokens (pre ++ [t]))) ∧ f.place = t.place ∧
          Blames f (declaration depth (.ofTokens ts)) := by
  induction ts using List.reverseRecOn with
  | nil => exact .inr (.inl ⟨.start, .token, rfl⟩)
  | append_singleton ts t ih =>
    rw [List.length_append, List.length_singleton] at hd
    have continues : Continues [t] t.place (declaration depth (.ofTokens ts))
        (declaration depth ⟨ts ++ [t], t.place, []⟩) :=
      (declaration_online le_rfl (by omega)).continues ts le_rfl [t] _ _ _
    rw [ofTokens_concat]
    obtain ⟨d, s, hread, hnotes⟩ | ⟨place, what, hout⟩ | ⟨pre, u, post, f, rfl, hout, hu, hplace, hf⟩ :=
      ih (by omega)
    · obtain ⟨us, isDeclaration, took⟩ := declaration_read hread hnotes
      have hts : ts = us ++ s.tokens := took.1
      rw [hts, List.length_append] at hd
      have takes : (declaration depth).Takes us d (s.tokens ++ [t]) :=
        declaration_takes isDeclaration (by omega)
      rw [hts, List.append_assoc]
      exact .inl ⟨d, _, takes t.place [], rfl⟩
    · rw [hout] at continues
      cases continues with
      | ranOut h =>
        obtain ⟨f, hf, hplace⟩ | ⟨d, s, hread, hnotes⟩ | hout' := h.blames_or
        · refine .inr (.inr ⟨ts, t, [], f, rfl, ⟨place, what, hout⟩, ?_, hplace, hf⟩)
          rwa [ofTokens_concat]
        · exact .inl ⟨d, s, hread, hnotes⟩
        · exact .inr (.inl hout')
    · exact .inr (.inr ⟨pre, u, post ++ [t], f, by simp, hout, hu, hplace, continues.blames hf⟩)

/-- After declarations, tokens of another one that run out are viable. -/
theorem viable_of_runsOut {done : List Token} {ds : List Declaration} (isProgram : IsProgram done ds)
    (h : RunsOut (declaration depth) (.ofTokens ts)) (hd : 3 * ts.length + 2 ≤ depth) :
    Viable (done ++ ts) := by
  obtain ⟨_, vs, d, isDeclaration⟩ := declaration_runsOut h hd
  have isLast : IsProgram (ts ++ vs) [d] := by
    rw [← List.append_nil (ts ++ vs)]
    exact .cons isDeclaration .nil
  have whole := isProgram.append isLast
  rw [← List.append_assoc] at whole
  exact ⟨vs, ⟨ds ++ [d]⟩, whole.ofTokens_eq⟩

/-- After declarations, tokens that are at fault are not viable. -/
theorem not_viable_of_blames {done : List Token} {ds : List Declaration} (isProgram : IsProgram done ds)
    (hne : ts ≠ []) (h : Blames f (declaration depth (.ofTokens ts))) (hd : 3 * ts.length + 2 ≤ depth) :
    ¬Viable (done ++ ts) := by
  rintro ⟨more, p, hp⟩
  have whole := Program.isProgram_of_ofTokens hp
  rw [List.append_assoc] at whole
  obtain ⟨es, isProgram⟩ := isProgram.of_append whole
  generalize hall : ts ++ more = all at isProgram
  cases isProgram with
  | nil => exact hne (List.append_eq_nil_iff.mp hall).1
  | @cons us rest d _ isDeclaration _ =>
    -- What is at fault at one depth is at fault at every depth that is no less.
    let deeper := max depth (3 * us.length)
    have takes : (declaration deeper).Takes us d rest := declaration_takes isDeclaration (le_max_right _ _)
    have continues : Continues more .start (declaration depth (.ofTokens ts))
        (declaration deeper ⟨ts ++ more, .start, []⟩) :=
      (declaration_online (le_max_left _ _) hd).continues ts le_rfl more _ _ _
    rw [hall, takes .start []] at continues
    cases continues.blames h with
    | read hnotes => cases hnotes

/-- Faults are those of the declaration that follows the complete ones. -/
theorem exists_faulty {tokens : List Token} {faults : List (Located ParseFault)}
    (h : Program.ofTokens tokens = .error faults) :
    ∃ done rest t ds, tokens = done ++ (rest ++ [t]) ∧ IsProgram done ds ∧ faults ≠ [] ∧
      faults = (declaration (depthFor (rest ++ [t]).length) (.ofTokens (rest ++ [t]))).faults := by
  unfold Program.ofTokens at h
  cases hfaults : declarations tokens.length [] (.ofTokens tokens) with
  | ok ds =>
    rw [hfaults] at h
    cases h
  | error _ =>
    rw [hfaults] at h
    cases h
    obtain ⟨done, rest, ds, htokens, isProgram, hne, hsome, hfaulty⟩ :=
      declarations_error hfaults le_rfl rfl
    obtain ⟨init, t, rfl⟩ := (List.eq_nil_or_concat' rest).resolve_left hne
    refine ⟨done, init, t, ds, htokens, isProgram, hsome, hfaulty.trans ?_⟩
    have htokens : tokens = done ++ init ++ [t] := htokens.trans (List.append_assoc ..).symm
    rw [htokens, ofTokens_concat, ofTokens_concat]

/-- The first fault is at the token that makes the tokens not viable, or the end of the code is the only one. -/
theorem first_fault {done rest : List Token} {t : Token} {ds : List Declaration}
    {faults : List (Located ParseFault)} (isProgram : Grammar.IsProgram done ds) (hsome : faults ≠ [])
    (hfaults : faults = (declaration (depthFor (rest ++ [t]).length) (.ofTokens (rest ++ [t]))).faults) :
    (Viable (done ++ (rest ++ [t])) ∧ ∃ what, faults = [⟨t.place, .expected what .endOfCode⟩]) ∨
      ∃ pre u post first more, rest ++ [t] = pre ++ u :: post ∧ faults = first :: more ∧
        first.place = u.place ∧ Viable (done ++ pre) ∧ ¬Viable (done ++ (pre ++ [u])) := by
  have hd : 3 * (rest ++ [t]).length + 2 ≤ depthFor (rest ++ [t]).length := Nat.le_succ _
  obtain ⟨d, s, hread, hnotes⟩ | ⟨place, what, hout⟩ | ⟨pre, u, post, first, hsplit, hout, hu, hplace, hfirst⟩ :=
    declaration_blames hd
  · rw [hread] at hfaults
    exact absurd (hfaults.trans hnotes) hsome
  · have proceeds := declaration_orderly (rest ++ [t]).length (.ofTokens (rest ++ [t]))
    have hviable := viable_of_runsOut isProgram ⟨place, what, hout⟩ hd
    rw [hout] at hfaults proceeds
    rw [ofTokens_concat] at proceeds
    cases proceeds with
    | ranOut => exact .inl ⟨hviable, what, hfaults⟩
  · obtain ⟨more, hmore⟩ := hfirst.faults_eq
    have hlength : (rest ++ [t]).length = pre.length + (post.length + 1) := by
      rw [hsplit, List.length_append, List.length_cons]
    refine .inr ⟨pre, u, post, first, more, hsplit, hfaults.trans hmore, hplace, ?_, ?_⟩
    · exact viable_of_runsOut isProgram hout (by omega)
    · refine not_viable_of_blames isProgram (by simp) hu ?_
      rw [List.length_append, List.length_singleton]
      omega

end Parser

/-- **Faults begin where the tokens cease to be viable.** There is a fault. If a prefix of the tokens is not viable
the first fault is at the last token of the shortest such; if all are viable, it is the only one, and the end of
the code is met at the last token. All faults are of the declaration that follows the complete ones, in the order
of its tokens, and only the last can be one that stops the reading. -/
theorem faults_of_ofTokens {tokens : List Token} {faults : List (Located ParseFault)}
    (h : Program.ofTokens tokens = .error faults) : ∃ first more, faults = first :: more ∧
      (∀ bad, bad <+: tokens → ¬Viable bad →
        (∀ pre, pre <+: tokens → ¬Viable pre → bad.length ≤ pre.length) →
          ∃ t, bad.getLast? = some t ∧ first.place = t.place) ∧
      ((∀ pre, pre <+: tokens → Viable pre) → more = [] ∧ ∃ t what, tokens.getLast? = some t ∧
        first = ⟨t.place, .expected what .endOfCode⟩) ∧
      ∃ done rest ds, tokens = done ++ rest ∧ Program.ofTokens done = .ok ⟨ds⟩ ∧
        faults = (Parser.declaration (Parser.depthFor rest.length) (.ofTokens rest)).faults ∧
        InOrder rest faults ∧ ∀ f ∈ faults.dropLast, f.fault.isStructural = false := by
  obtain ⟨done, rest, t, ds, rfl, isProgram, hsome, hfaults⟩ := Parser.exists_faulty h
  have hordered : InOrder (rest ++ [t]) faults ∧ ∀ f ∈ faults.dropLast, f.fault.isStructural = false := by
    have proceeds := Parser.declaration_orderly (rest ++ [t]).length (.ofTokens (rest ++ [t]))
    rw [hfaults]
    rw [Parser.ofTokens_concat] at proceeds ⊢
    exact proceeds.faults
  have hof : ∃ done' rest' ds', done ++ (rest ++ [t]) = done' ++ rest' ∧
      Program.ofTokens done' = .ok ⟨ds'⟩ ∧
      faults = (Parser.declaration (Parser.depthFor rest'.length) (.ofTokens rest')).faults ∧
      InOrder rest' faults ∧ ∀ f ∈ faults.dropLast, f.fault.isStructural = false :=
    ⟨done, rest ++ [t], ds, rfl, isProgram.ofTokens_eq, hfaults, hordered⟩
  obtain ⟨hviable, what, rfl⟩ | ⟨pre, u, post, first, more, hsplit, rfl, hplace, hpre, hbad⟩ :=
    Parser.first_fault isProgram hsome hfaults
  · refine ⟨_, [], rfl, fun bad hprefix hnot _ => ?_, fun _ => ⟨rfl, t, what, by simp, rfl⟩, hof⟩
    obtain ⟨others, hothers⟩ := hprefix
    rw [← hothers] at hviable
    exact absurd hviable.of_append hnot
  · have hcut : done ++ (pre ++ [u]) <+: done ++ (rest ++ [t]) := ⟨post, by simp [hsplit]⟩
    refine ⟨first, more, rfl, fun bad hprefix hnot hshortest => ⟨u, ?_, hplace⟩, fun hall => ?_, hof⟩
    · -- The shortest prefix is no longer than the one up to the blamed token, and all before that are viable.
      have hle : bad <+: done ++ (pre ++ [u]) :=
        List.prefix_of_prefix_length_le hprefix hcut (hshortest _ hcut hbad)
      rw [← List.append_assoc] at hle
      obtain rfl | hshorter := List.prefix_concat_iff.mp hle
      · simp
      · obtain ⟨others, hothers⟩ := hshorter
        rw [← hothers] at hpre
        exact absurd hpre.of_append hnot
    · exact absurd (hall _ hcut) hbad

/-- `m{Q}:(`: no program begins with the param, so the first fault is there. The reading goes on from it, up to the
end of the code. -/
theorem faults_of_ofTokens_param :
    let special (c : Char) (col : Nat) : Token := ⟨[c], .special, ⟨1, col⟩⟩
    let tokens : List Token := [⟨['m'], .string, ⟨1, 1⟩⟩, special '{' 2, ⟨['Q'], .string, ⟨1, 3⟩⟩,
      special '}' 4, special ':' 5, special '(' 6]
    Program.ofTokens tokens =
        .error [⟨⟨1, 3⟩, .unknownParam 'Q'⟩, ⟨⟨1, 6⟩, .expected (.mark ')') .endOfCode⟩] ∧
      (∃ bad, bad <+: tokens ∧ ¬Viable bad) ∧
      ∀ bad, bad <+: tokens → ¬Viable bad →
        (∀ pre, pre <+: tokens → ¬Viable pre → bad.length ≤ pre.length) →
          ∃ t, bad.getLast? = some t ∧ t.place = ⟨1, 3⟩ := by
  intro special tokens
  have hread : Program.ofTokens tokens =
      .error [⟨⟨1, 3⟩, .unknownParam 'Q'⟩, ⟨⟨1, 6⟩, .expected (.mark ')') .endOfCode⟩] := rfl
  obtain ⟨first, more, hfaults, hshortest, hall, _⟩ := faults_of_ofTokens hread
  cases hfaults
  refine ⟨hread, ?_, fun bad hprefix hnot hleast => ?_⟩
  · by_contra hviable
    push Not at hviable
    cases (hall hviable).1
  · obtain ⟨t, ht, hplace⟩ := hshortest bad hprefix hnot hleast
    exact ⟨t, ht, hplace.symm⟩

end GridPattern
