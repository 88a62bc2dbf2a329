import GridPattern.Proofs.Pattern.Soundness

/-!
# Faults in the order of the tokens

A reader takes tokens from the front and blames them as they come. Faults that do not stop it are noted, and the
one that stops it is the last.

**The law** (`Orderly`). Faults stand at tokens that were taken, later ones at no earlier tokens, and
only the last can be one that stops the reading. Where nothing is left to read nothing is noted.

**What it does not establish.** Which token is blamed first, or that all faults of the tokens are found.
-/

namespace GridPattern

/-- Whether a fault stops the reading. -/
def ParseFault.isStructural : ParseFault → Bool
  | .expected what _ => what != .integer
  | _ => false

/-- **Faults at tokens, in the order of the tokens.** Several may stand at one token. -/
inductive InOrder : List Token → List (Located ParseFault) → Prop
  | nil {tokens : List Token} : InOrder tokens []
  | here {t : Token} {tokens : List Token} {f : Located ParseFault} {faults : List (Located ParseFault)} :
      f.place = t.place → InOrder (t :: tokens) faults → InOrder (t :: tokens) (f :: faults)
  | later {t : Token} {tokens : List Token} {faults : List (Located ParseFault)} :
      InOrder tokens faults → InOrder (t :: tokens) faults

namespace InOrder

variable {ts us : List Token} {t : Token} {faults more : List (Located ParseFault)}

theorem append_left (us : List Token) (h : InOrder ts faults) : InOrder (us ++ ts) faults := by
  induction us with
  | nil => exact h
  | cons u us ih => exact .later ih

theorem append (h : InOrder ts faults) (h' : InOrder us more) : InOrder (ts ++ us) (faults ++ more) := by
  induction h with
  | nil => exact h'.append_left _
  | here hplace _ ih => exact .here hplace ih
  | later _ ih => exact .later ih

theorem append_right (us : List Token) (h : InOrder ts faults) : InOrder (ts ++ us) faults := by
  have happend : InOrder (ts ++ us) (faults ++ []) := h.append .nil
  rwa [List.append_nil] at happend

/-- All faults at one token. -/
theorem singleton (h : ∀ f ∈ faults, f.place = t.place) : InOrder [t] faults := by
  induction faults with
  | nil => exact .nil
  | cons f faults ih =>
    obtain ⟨hf, h⟩ := List.forall_mem_cons.mp h
    exact .here hf (ih h)

theorem place_eq (h : InOrder [t] faults) {f : Located ParseFault} (mem : f ∈ faults) :
    f.place = t.place := by
  generalize hts : [t] = ts at h
  induction h with
  | nil => cases mem
  | here hplace _ ih =>
    cases hts
    rcases List.mem_cons.mp mem with rfl | mem
    · exact hplace
    · exact ih mem rfl
  | later h _ =>
    cases hts
    cases h
    cases mem

theorem eq_nil (h : InOrder [] faults) : faults = [] := by
  cases h
  rfl

/-- One more fault at the last token. -/
theorem concat {f : Located ParseFault} (h : InOrder (ts ++ [t]) faults) (hf : f.place = t.place) :
    InOrder (ts ++ [t]) (faults ++ [f]) := by
  have last : InOrder [t] [f] := .here hf .nil
  generalize hus : ts ++ [t] = us at h
  induction h generalizing ts with
  | nil =>
    rw [← hus]
    exact last.append_left ts
  | here hplace _ ih => exact .here hplace (ih hus)
  | later h ih =>
    cases ts with
    | nil =>
      cases hus
      rw [h.eq_nil]
      exact last
    | cons u ts =>
      cases hus
      exact .later (ih rfl)

end InOrder

namespace Reader

/-- **Faults that were noted** at tokens on the way. -/
structure Noted (tokens : List Token) (faults : List (Located ParseFault)) : Prop where
  inOrder : InOrder tokens faults
  quiet : ∀ f ∈ faults, f.fault.isStructural = false

theorem Noted.nil {ts : List Token} : Noted ts [] := ⟨.nil, nofun⟩

variable {α β : Type} {here us rest : List Token} {s s' : Source}
  {new notes : List (Located ParseFault)} {what : Expectation}

/-- **What was taken** from a source to leave this rest, and what was noted to leave these notes. The tokens that
were taken right before can be at fault too. -/
structure Went (here : List Token) (s : Source) (us : List Token) (new : List (Located ParseFault))
    (rest : List Token) (notes : List (Located ParseFault)) : Prop where
  tokens : s.tokens = us ++ rest
  notes : notes = s.notes ++ new
  noted : Noted (here ++ us) new

namespace Went

theorem refl (here : List Token) (s : Source) : Went here s [] [] s.tokens s.notes :=
  ⟨rfl, (List.append_nil _).symm, .nil⟩

theorem trans {vs : List Token} {more : List (Located ParseFault)}
    (h : Went here s us new s'.tokens s'.notes) (h' : Went [] s' vs more rest notes) :
    Went here s (us ++ vs) (new ++ more) rest notes where
  tokens := by rw [h.tokens, h'.tokens, List.append_assoc]
  notes := by rw [h'.notes, h.notes, List.append_assoc]
  noted := by
    rw [← List.append_assoc]
    exact ⟨h.noted.inOrder.append h'.noted.inOrder,
      List.forall_mem_append.mpr ⟨h.noted.quiet, h'.noted.quiet⟩⟩

/-- A token that was taken right before is one that was taken. -/
theorem after {t : Token} {ts : List Token} (h : Went [t] { s with tokens := ts } us new rest notes)
    (ht : s.tokens = t :: ts) : Went [] s (t :: us) new rest notes where
  tokens := ht.trans (congrArg (t :: ·) h.tokens)
  notes := h.notes
  noted := h.noted

theorem weaken (here : List Token) (h : Went [] s us new rest notes) : Went here s us new rest notes :=
  ⟨h.tokens, h.notes, h.noted.inOrder.append_left here, h.noted.quiet⟩

end Went

/-- **What a reader comes to** from a source: it reads a value, or stops at a token that was taken, or finds
nothing left to read. -/
inductive Proceeds (here : List Token) (s : Source) : Reply α → Prop
  | read {a : α} {s' : Source} {us : List Token} {new : List (Located ParseFault)} :
      Went here s us new s'.tokens s'.notes → s'.finish = s.finish → Proceeds here s (.read a s')
  | stopped {place : Place} {what : Expectation} {text : List Char} {us rest : List Token}
      {new notes : List (Located ParseFault)} : Went here s us new rest notes → what ≠ .integer →
      InOrder (here ++ us) (new ++ [⟨place, .expected what (.token text)⟩]) →
      Proceeds here s (.failed ⟨place, .expected what (.token text)⟩ notes)
  | ranOut {what : Expectation} {us rest : List Token} {new notes : List (Located ParseFault)} :
      Went here s us new rest notes → what ≠ .integer →
      Proceeds here s (.failed ⟨s.finish, .expected what .endOfCode⟩ notes)

namespace Proceeds

theorem trans {a : α} {reply : Reply β} (h : Proceeds here s (.read a s')) (h' : Proceeds [] s' reply) :
    Proceeds here s reply := by
  obtain ⟨went, hfinish⟩ := h
  cases h' with
  | read went' hfinish' => exact .read (went.trans went') (hfinish'.trans hfinish)
  | stopped went' hwhat inOrder =>
    refine .stopped (went.trans went') hwhat ?_
    rw [← List.append_assoc, List.append_assoc _ _ [_]]
    exact went.noted.inOrder.append inOrder
  | ranOut went' hwhat =>
    rw [hfinish]
    exact .ranOut (went.trans went') hwhat

/-- A reader that fails does not come to what follows. -/
theorem of_failed {fault : Located ParseFault} (h : Proceeds here s (.failed fault notes : Reply α)) :
    Proceeds here s (.failed fault notes : Reply β) := by
  cases h with
  | stopped went hwhat inOrder => exact .stopped went hwhat inOrder
  | ranOut went hwhat => exact .ranOut went hwhat

/-- What is done with a value that was read goes on from what the reader left. -/
theorem bind {reply : Reply α} {f : α → Reader β} (h : Proceeds here s reply)
    (hf : ∀ a s', Proceeds [] s' (f a s')) : Proceeds here s (((fun _ => reply : Reader α) >>= f) s) := by
  cases reply with
  | read a s' => exact h.trans (hf a s')
  | failed fault notes => exact h.of_failed

theorem after {t : Token} {ts : List Token} {reply : Reply α}
    (h : Proceeds [t] { s with tokens := ts } reply) (ht : s.tokens = t :: ts) : Proceeds [] s reply := by
  cases h with
  | read went hfinish => exact .read (went.after ht) hfinish
  | stopped went hwhat inOrder => exact .stopped (went.after ht) hwhat inOrder
  | ranOut went hwhat => exact .ranOut (went.after ht) hwhat

theorem weaken (here : List Token) {reply : Reply α} (h : Proceeds [] s reply) :
    Proceeds here s reply := by
  cases h with
  | read went hfinish => exact .read (went.weaken here) hfinish
  | stopped went hwhat inOrder => exact .stopped (went.weaken here) hwhat (inOrder.append_left here)
  | ranOut went hwhat => exact .ranOut (went.weaken here) hwhat

end Proceeds

/-- **A reader that takes and blames tokens in their order**, from every source. -/
def Orderly (here : List Token) (r : Reader α) : Prop := ∀ s, Proceeds here s (r s)

namespace Orderly

variable {r : Reader α} {f : α → Reader β} {t : Token}

theorem pure (a : α) : Orderly here (pure a) := fun s => .read (.refl here s) rfl

theorem bind (hr : Orderly here r) (hf : ∀ a, Orderly [] (f a)) : Orderly here (r >>= f) := by
  intro s
  exact (hr s).bind hf

theorem weaken (here : List Token) (h : Orderly [] r) : Orderly here r := fun s => (h s).weaken here

theorem failAtEnd (hwhat : what ≠ .integer) : Orderly here (failAtEnd what : Reader α) :=
  fun s => .ranOut (.refl here s) hwhat

/-- The token that was taken right before is the one to stop at. -/
theorem failAt (hwhat : what ≠ .integer) : Orderly [t] (failAt t what : Reader α) :=
  fun s => .stopped (.refl [t] s) hwhat (.here rfl .nil)

/-- What is done with the next token may blame it. -/
theorem next_bind {f : Token → Reader α} (hwhat : what ≠ .integer) (hf : ∀ t, Orderly [t] (f t)) :
    Orderly [] (next what >>= f) := by
  intro s
  rw [bind_apply]
  unfold next
  cases htokens : s.tokens with
  | nil => exact Orderly.failAtEnd hwhat s
  | cons t ts => exact (hf t _).after htokens

theorem nextIs (test : Token → Bool) : Orderly here (nextIs test) := fun s => .read (.refl here s) rfl

theorem note {faults : List ParseFault} (h : ∀ f ∈ faults, f.isStructural = false) :
    Orderly [t] (note t faults) := by
  intro s
  have noted : Noted [t] (faults.map (⟨t.place, ·⟩)) := ⟨.singleton (by simp), by simpa using h⟩
  have went : Went [t] s [] (faults.map (⟨t.place, ·⟩)) s.tokens (s.notes ++ faults.map (⟨t.place, ·⟩)) :=
    ⟨rfl, rfl, noted⟩
  exact .read went rfl

end Orderly

/-! ## More tokens -/

variable {r r' : Reader α} {n : Nat} {t : Token}

/-- At the end of the tokens nothing is noted and nothing is stopped at. -/
theorem Proceeds.of_nil {finish : Place} {reply : Reply α} (h : Proceeds [] ⟨[], finish, notes⟩ reply) :
    (∃ a, reply = .read a ⟨[], finish, notes⟩) ∨
      ∃ what, reply = .failed ⟨finish, .expected what .endOfCode⟩ notes := by
  have wentNowhere : ∀ {us new rest notes'}, Went [] ⟨[], finish, notes⟩ us new rest notes' →
      us = [] ∧ new = [] ∧ rest = [] ∧ notes' = notes := by
    intro us new rest notes' went
    obtain ⟨htokens, hnotes, noted⟩ := went
    obtain ⟨rfl, rfl⟩ := List.append_eq_nil_iff.mp htokens.symm
    obtain rfl := noted.inOrder.eq_nil
    exact ⟨rfl, rfl, rfl, hnotes.trans (List.append_nil _)⟩
  cases h with
  | @read a s' _ _ went hfinish =>
    obtain ⟨tokens, finish', notes'⟩ := s'
    obtain ⟨-, -, rfl, rfl⟩ := wentNowhere went
    cases hfinish
    exact .inl ⟨a, rfl⟩
  | stopped went _ inOrder =>
    obtain ⟨rfl, rfl, -, -⟩ := wentNowhere went
    cases inOrder.eq_nil
  | ranOut went =>
    obtain ⟨-, -, -, rfl⟩ := wentNowhere went
    exact .inr ⟨_, rfl⟩

/-- **Two replies, the second from a source with more tokens.** Both read the same value and leave the same but for
these tokens, or both stop at the same token, or the first came to the end of its tokens and the second goes on
from there in some way. -/
inductive Continues (more : List Token) (finish : Place) : Reply α → Reply α → Prop
  | both {a : α} {us : List Token} {finish' : Place} {notes : List (Located ParseFault)} :
      Continues more finish (.read a ⟨us, finish', notes⟩) (.read a ⟨us ++ more, finish, notes⟩)
  | stopped {place : Place} {what : Expectation} {text : List Char} {notes : List (Located ParseFault)} :
      Continues more finish (.failed ⟨place, .expected what (.token text)⟩ notes)
        (.failed ⟨place, .expected what (.token text)⟩ notes)
  | ended {a : α} {finish' : Place} {notes : List (Located ParseFault)} {reply : Reply α} :
      Proceeds [] ⟨more, finish, notes⟩ reply → Continues more finish (.read a ⟨[], finish', notes⟩) reply
  | ranOut {place : Place} {what : Expectation} {notes : List (Located ParseFault)} {reply : Reply α} :
      Proceeds [] ⟨more, finish, notes⟩ reply →
      Continues more finish (.failed ⟨place, .expected what .endOfCode⟩ notes) reply

/-- **A reader that does not look ahead**, beyond the next token: with more tokens it does the same until those that
it had are at an end. It may nest deeper then. This is said of up to `n` tokens, for which there is depth enough. -/
structure Online (here : List Token) (n : Nat) (r r' : Reader α) : Prop where
  left : Orderly here r
  right : Orderly here r'
  continues : ∀ pre, pre.length ≤ n → ∀ more finish finish' notes,
    Continues more finish' (r ⟨pre, finish, notes⟩) (r' ⟨pre ++ more, finish', notes⟩)

namespace Online

theorem weaken (here : List Token) (h : Online [] n r r') : Online here n r r' :=
  ⟨h.left.weaken here, h.right.weaken here, h.continues⟩

/-- Of no token at all there is nothing to be shown. -/
theorem of_orderly (hr : Orderly [] r) (hr' : Orderly [] r') : Online [] 0 r r' := by
  refine ⟨hr, hr', fun pre hpre more finish finish' notes => ?_⟩
  obtain rfl := List.length_eq_zero_iff.mp (Nat.le_zero.mp hpre)
  have hmore := hr' ⟨more, finish', notes⟩
  obtain ⟨a, ha⟩ | ⟨what, hwhat⟩ := (hr ⟨[], finish, notes⟩).of_nil
  · rw [ha]
    exact .ended hmore
  · rw [hwhat]
    exact .ranOut hmore

theorem pure (a : α) : Online here n (pure a) (pure a) :=
  ⟨.pure a, .pure a, fun _ _ _ _ _ _ => .both⟩

theorem failAt (hwhat : what ≠ .integer) : Online [t] n (failAt t what : Reader α) (failAt t what) :=
  ⟨.failAt hwhat, .failAt hwhat, fun _ _ _ _ _ _ => .stopped⟩

theorem note {faults : List ParseFault} (h : ∀ f ∈ faults, f.isStructural = false) :
    Online [t] n (note t faults) (note t faults) :=
  ⟨.note h, .note h, fun _ _ _ _ _ _ => .both⟩

theorem bind {f f' : α → Reader β} (hr : Online here n r r') (hf : ∀ a, Online [] n (f a) (f' a)) :
    Online here n (r >>= f) (r' >>= f') := by
  refine ⟨hr.left.bind fun a => (hf a).left, hr.right.bind fun a => (hf a).right, ?_⟩
  intro pre hpre more finish finish' notes
  have proceeds := hr.left ⟨pre, finish, notes⟩
  have continues := hr.continues pre hpre more finish finish' notes
  have follows : ∀ a, Orderly [] (f' a) := fun a => (hf a).right
  simp only [bind_apply]
  generalize r ⟨pre, finish, notes⟩ = x at proceeds continues
  generalize r' ⟨pre ++ more, finish', notes⟩ = y at continues
  cases continues with
  | @both a us fin notes' =>
    obtain ⟨went, -⟩ := proceeds
    have hus : us.length ≤ n := by
      have hlength : pre.length = _ + us.length := (congrArg List.length went.tokens).trans List.length_append
      omega
    exact (hf a).continues us hus more fin finish' notes'
  | stopped => exact .stopped
  | @ended a fin notes' _ h =>
    obtain ⟨b, hb⟩ | ⟨what, hwhat⟩ := ((hf a).left ⟨[], fin, notes'⟩).of_nil
    · simp only [hb]
      exact .ended (h.bind follows)
    · simp only [hwhat]
      exact .ranOut (h.bind follows)
  | ranOut h => exact .ranOut (h.bind follows)

/-- What is done with the next token has one token less. -/
theorem next_bind {f f' : Token → Reader α} (hwhat : what ≠ .integer)
    (hf : ∀ t, Online [t] (n - 1) (f t) (f' t)) : Online [] n (next what >>= f) (next what >>= f') := by
  have hleft : Orderly [] (next what >>= f) := .next_bind hwhat fun t => (hf t).left
  have hright : Orderly [] (next what >>= f') := .next_bind hwhat fun t => (hf t).right
  refine ⟨hleft, hright, fun pre hpre => ?_⟩
  cases pre with
  | nil => exact (of_orderly hleft hright).continues [] (Nat.le_refl 0)
  | cons t ts => exact (hf t).continues ts (Nat.le_sub_one_of_lt hpre)

/-- A look at the next token takes nothing. -/
theorem peek (g : Option Token → α) :
    Online here n (fun s => .read (g s.tokens.head?) s) (fun s => .read (g s.tokens.head?) s) := by
  have orderly : ∀ here, Orderly here (fun s => .read (g s.tokens.head?) s) :=
    fun here s => .read (.refl here s) rfl
  refine ⟨orderly here, orderly here, fun pre hpre => ?_⟩
  cases pre with
  | nil => exact (of_orderly (orderly []) (orderly [])).continues [] (Nat.le_refl 0)
  | cons t ts => exact fun _ _ _ _ => .both

theorem nextIs (test : Token → Bool) : Online here n (nextIs test) (nextIs test) := peek (·.any test)

end Online

end Reader

end GridPattern
