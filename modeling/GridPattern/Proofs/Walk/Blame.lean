import GridPattern.Proofs.Compass
import GridPattern.Proofs.Inside
import GridPattern.Proofs.Walk.Soundness

/-!
# Whose fault a fault is

A program can call a name that it does not declare, and ask for a turn in letters that mean none. No
other fault can be met on the grid: a cursor never comes to a halt, because it begins with a heading and
every path keeps it going (`Reaches.keeps`).

**The law** (`Meets.blame`), by induction on the way to the fault. What a cursor meets in a pattern of the
program, the program is to blame for, and the fault names what is wrong with it.
-/

namespace GridPattern

/-! ## What a program asks for -/

namespace Program

/-- A call somewhere in the program is of that name. -/
def Calls (p : Program) (name : String) : Prop :=
  ∃ target : Call, .call target ∈ p.patterns ∧ target.name = name

/-- A declaration has that name. -/
def Declares (p : Program) (name : String) : Prop := ∃ declared ∈ p.declarations, declared.name = name

/-- A direction somewhere in the program, of a call or by itself, has these letters. -/
def Turns (p : Program) (letters : List Char) : Prop :=
  (∃ way : Direction, .direction way ∈ p.patterns ∧ way.turns = letters) ∨
    ∃ target : Call, .call target ∈ p.patterns ∧ target.direction.turns = letters

theorem not_declares_of_none {p : Program} {name : String} (h : p.declaration? name = none) :
    ¬p.Declares name := by
  intro found
  rcases found with ⟨declared, mem, rfl⟩
  exact List.find?_eq_none.mp h declared mem (beq_self_eq_true declared.name)

end Program

/-- **Letters that mean a turn**: one of six by itself, or any mix of the four that add up. -/
def MeanTurn (letters : List Char) : Prop :=
  letters ∈ [['!'], ['*'], ['+'], ['X'], ['T'], ['P']] ∨
    ∀ letter ∈ letters, letter ∈ ['R', 'L', 'F', 'B']

instance (letters : List Char) : Decidable (MeanTurn letters) :=
  decidable_of_iff (letters ∈ [['!'], ['*'], ['+'], ['X'], ['T'], ['P']] ∨
      letters.all (['R', 'L', 'F', 'B'].contains ·) = true)
    (or_congr_right (List.all_eq_true.trans (forall₂_congr fun _ _ => List.contains_iff_mem)))

theorem meanTurn_forward : MeanTurn Direction.forward.turns := by decide

/-- Letters that mean a turn are read as one. -/
theorem exists_turn {letters : List Char} (h : MeanTurn letters) :
    ∃ turn, Turn.ofLetters? letters = some turn := by
  rcases h with h | h
  · simp only [List.mem_cons, List.not_mem_nil, or_false] at h
    rcases h with rfl | rfl | rfl | rfl | rfl | rfl <;> exact ⟨_, rfl⟩
  · exact ⟨_, Turn.ofLetters?_of_letters h⟩

/-! ## Blame -/

/-- **What the program, or the budget, is to blame for.** That a cursor came to a halt is not among the
reasons. -/
inductive Blame (p : Program) (budget : Option Nat) : WalkFault → Prop
  | noDeclarations : p.declarations = [] → Blame p budget .noDeclarations
  | undeclared {name : String} : p.Calls name → ¬p.Declares name → Blame p budget (.undeclared name)
  | unknownTurns {letters : List Char} : p.Turns letters → ¬MeanTurn letters →
      Blame p budget (.unknownTurns letters)
  | budgetExhausted {limit : Nat} : budget = some limit → Blame p budget (.budgetExhausted limit)

namespace Walk

open Node (mem_patterns_self mem_patterns_sequence mem_patterns_choice mem_patterns_repeated mem_patterns_look)

variable {program : Program} {grid : Grid} {c t : Cursor} {budget : Option Nat} {fault : WalkFault}

theorem not_meanTurn_of_headings {way : Direction} (h : headings? grid way c = none) :
    ¬MeanTurn way.turns := by
  intro hmean
  obtain ⟨turn, hturn⟩ := exists_turn hmean
  unfold headings? at h
  rw [hturn] at h
  cases h

theorem going_of_through {parts : List Node} (h : Through program grid parts c t)
    (hgoing : c.heading.isStalled = false) : t.heading.isStalled = false := by
  induction h with
  | nil => exact hgoing
  | cons head mem _ ih => exact ih ((reaches_of_eval head mem).keeps.going hgoing)

theorem going_of_levelAt {inner : Node} {k : Nat} {level : List Cursor}
    (h : levelAt program grid inner c k = some (.ok level)) (hgoing : c.heading.isStalled = false) :
    ∀ t ∈ level, t.heading.isStalled = false := by
  induction k generalizing level with
  | zero =>
    cases h
    exact List.forall_mem_singleton.mpr hgoing
  | succ k ih =>
    rw [levelAt, Option.bind_eq_some_iff] at h
    obtain ⟨v, hv, h⟩ := h
    cases v with
    | error faults => cases h
    | ok before =>
      obtain ⟨tss, hall, rfl⟩ := evalEach_eq_ok_iff.mp h
      intro t mem
      obtain ⟨ts, hts, mem⟩ := List.mem_flatten.mp mem
      obtain ⟨b, hb, heval⟩ := exists_mem_of_forall₂ hall.flip hts
      exact (reaches_of_eval heval mem).keeps.going (ih hv b hb)

/-- **What is met in a pattern of the program, the program is to blame for.** -/
theorem Meets.blame {node : Node} (h : Meets program grid node c fault)
    (hpatterns : ∀ m ∈ node.patterns, m ∈ program.patterns)
    (hgoing : c.heading.isStalled = false) : Blame program budget fault := by
  induction h with
  | stalled hs => cases hs.symm.trans hgoing
  | undeclared _ hd =>
    exact .undeclared ⟨_, hpatterns _ (mem_patterns_self _), rfl⟩ (Program.not_declares_of_none hd)
  | callTurns _ _ ht =>
    exact .unknownTurns (.inr ⟨_, hpatterns _ (mem_patterns_self _), rfl⟩) (not_meanTurn_of_headings ht)
  | called _ hd hh mem _ ih =>
    exact ih (fun _ => Program.mem_patterns_of_declaration? hd) ((keeps_of_headings hh mem).going hgoing)
  | turns _ ht =>
    exact .unknownTurns (.inl ⟨_, hpatterns _ (mem_patterns_self _), rfl⟩) (not_meanTurn_of_headings ht)
  | @sequence before after part c t fault _ through _ ih =>
    have mem : part ∈ before ++ part :: after := List.mem_append_right _ List.mem_cons_self
    exact ih (fun m hm => hpatterns m (mem_patterns_sequence mem hm)) (going_of_through through hgoing)
  | choice _ mem _ ih => exact ih (fun m hm => hpatterns m (mem_patterns_choice mem hm)) hgoing
  | repeated _ hl _ mem _ ih =>
    exact ih (fun m hm => hpatterns m (mem_patterns_repeated hm)) (going_of_levelAt hl hgoing _ mem)
  | @look kind inner c fault _ _ ih =>
    refine ih (fun m hm => hpatterns m (mem_patterns_look hm)) ?_
    cases kind <;> exact hgoing

/-- What a call of the first declaration meets, the program is to blame for: the call itself is in
order. -/
theorem Meets.blame_entry {entry : Declaration} (hentry : program.entry? = some entry)
    (hgoing : c.heading.isStalled = false)
    (h : Meets program grid (.call ⟨entry.name, .forward, {}⟩) c fault) :
    Blame program budget fault := by
  have hd := Program.declaration?_of_entry hentry
  cases h with
  | stalled hs => cases hs.symm.trans hgoing
  | undeclared _ hnone => cases hd.symm.trans hnone
  | callTurns _ _ ht => exact absurd meanTurn_forward (not_meanTurn_of_headings ht)
  | called _ hd' hh mem hbody =>
    exact hbody.blame (fun _ => Program.mem_patterns_of_declaration? hd') ((keeps_of_headings hh mem).going hgoing)

/-- **A whole program stops for a fault that it or the budget is to blame for.** -/
theorem blame_of_run {s : Setting} {depth count : Nat} (hgoing : c.heading.isStalled = false)
    (h : ((run s depth c).runFrom count).1 = .error (.fault fault)) :
    Blame s.program s.budget fault := by
  have hrun : Counted.ComesTo (run s depth c) (.error (.fault fault)) := ⟨count, _, Prod.ext h rfl⟩
  obtain ⟨_, _, h⟩ | ⟨_, hrestart, heq⟩ := Counted.ComesTo.of_bind hrun
  · cases hentry : s.program.entry? with
    | none =>
      rw [hentry] at h
      cases h.of_fail
      exact .noDeclarations (List.head?_eq_none_iff.mp hentry)
    | some entry =>
      rw [hentry] at h
      obtain ⟨limit, hbudget, rfl⟩ | met := (sound_follow s depth).call_fault hgoing h
      · exact .budgetExhausted hbudget
      · exact met.blame_entry hentry hgoing
  · obtain ⟨_, _, hrestart⟩ := hrestart
    cases heq
    cases congrArg Prod.fst hrestart

end Walk

end GridPattern
