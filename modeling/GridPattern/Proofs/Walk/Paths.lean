import GridPattern.Proofs.Walk.Induction

/-!
# Paths from a cursor to its survivors

How one survivor comes about: which moves, turns, calls and looks lead from a cursor to it. What every
one of these keeps, a cursor and its survivors have in common, so a law about all survivors is an
induction over `Reaches`.

**The law** (`reaches_of_eval`): every survivor of a pattern's meaning is reached.

**What it does not establish.** More is reached than survives. A path does not count the rounds of a
repetition, and goes on after a look for something absent without the look.
-/

namespace GridPattern.Walk

/-- **A path** along a pattern, from a cursor to another. -/
inductive Reaches (program : Program) (grid : Grid) : Node → Cursor → Cursor → Prop
  | literal {text : List Char} {c t : Cursor} : c.spell? grid text = some t →
      Reaches program grid (.literal text) c t
  | oneOf {chars : List Char} {negated : Bool} {c t : Cursor} :
      c.stepIf? grid ((c.char? grid).any
        (Cursor.classMatches c.switches.insensitive chars negated)) = some t →
      Reaches program grid (.oneOf chars negated) c t
  | inside {c t : Cursor} : c.stepIf? grid (c.char? grid).isSome = some t →
      Reaches program grid .inside c t
  | outside {c t : Cursor} : c.stepIf? grid (c.char? grid).isNone = some t →
      Reaches program grid .outside c t
  | finished {c : Cursor} : Reaches program grid (.sequence []) c c
  | part {part : Node} {parts : List Node} {c t u : Cursor} : Reaches program grid part c t →
      Reaches program grid (.sequence parts) t u → Reaches program grid (.sequence (part :: parts)) c u
  | choice {options : List Node} {option : Node} {c t : Cursor} : option ∈ options →
      Reaches program grid option c t → Reaches program grid (.choice options) c t
  | enough {inner : Node} {count : Repeat} {c : Cursor} : Reaches program grid (.repeated inner count) c c
  | round {inner : Node} {count : Repeat} {c t u : Cursor} : Reaches program grid inner c t →
      Reaches program grid (.repeated inner count) t u → Reaches program grid (.repeated inner count) c u
  | call {target : Call} {declared : Declaration} {c h t u v : Cursor} {headed : List Cursor} :
      program.declaration? target.name = some declared →
      headings? grid target.direction (callee (target.params.merged declared.params) c) = some headed →
      h ∈ headed → Reaches program grid declared.body h t →
      returned? (target.params.merged declared.params) c t = some u →
      (if (target.params.merged declared.params).advance then u.step? grid false else some u) = some v →
      Reaches program grid (.call target) c v
  | direction {way : Direction} {c h : Cursor} {headed : List Cursor} :
      headings? grid way c = some headed → h ∈ headed → Reaches program grid (.direction way) c h
  | absent {inner : Node} {c : Cursor} : Reaches program grid (.look .absent inner) c c
  | unmarked {inner : Node} {c t : Cursor} :
      Reaches program grid inner { c with switches.noMark := true } t →
      Reaches program grid (.look .unmarked inner) c
        { t with switches.noMark := c.switches.noMark }
  | retraced {inner : Node} {c t : Cursor} :
      Reaches program grid inner { c with switches.onlyMarked := true } t →
      Reaches program grid (.look .retraced inner) c
        { t with switches.onlyMarked := c.switches.onlyMarked }

/-- All survivors of the verdict are related to the cursor. -/
def Verdict.AllReached (R : Cursor → Prop) (v : Verdict) : Prop := ∀ ts, v = .ok ts → ∀ t ∈ ts, R t

variable {program : Program} {grid : Grid}

theorem Verdict.allReached_error {R : Cursor → Prop} (faults : List WalkFault) :
    Verdict.AllReached R (.error faults) := by
  intro ts heq
  cases heq

theorem Verdict.allReached_ok {R : Cursor → Prop} {ts : List Cursor} (h : ∀ t ∈ ts, R t) :
    Verdict.AllReached R (.ok ts) := by
  intro us heq
  cases heq
  exact h

theorem Verdict.AllReached.map {R Q : Cursor → Prop} {v : Verdict} {f : List Cursor → List Cursor}
    (h : v.AllReached R) (hf : ∀ ts, (∀ t ∈ ts, R t) → ∀ t ∈ f ts, Q t) : Verdict.AllReached Q (v.map f) := by
  intro ts heq
  cases v with
  | error _ => cases heq
  | ok us =>
    cases heq
    exact hf us (h us rfl)

/-- A survivor of verdicts side by side is one of some member's. -/
theorem allReached_join {α : Type} {R : α → Cursor → Prop} {as : List α} {vs : List Verdict}
    (h : List.Forall₂ (fun a v => Verdict.AllReached (R a) v) as vs) :
    (Verdict.join vs).AllReached fun t => ∃ a ∈ as, R a t := by
  intro ts hj t mem
  obtain ⟨tss, rfl, rfl⟩ := Verdict.join_eq_ok hj
  obtain ⟨us, hus, mem⟩ := List.mem_flatten.mp mem
  obtain ⟨a, ha, hau⟩ := exists_mem_of_forall₂ h.flip (List.mem_map_of_mem hus)
  exact ⟨a, ha, hau us rfl t mem⟩

theorem reaches_handBack {target : Call} {declared : Declaration} {c : Cursor} {headed ended : List Cursor}
    (hd : program.declaration? target.name = some declared)
    (hh : headings? grid target.direction (callee (target.params.merged declared.params) c) =
      some headed)
    (hended : ∀ t ∈ ended, ∃ h ∈ headed, Reaches program grid declared.body h t) :
    ∀ v ∈ handBack grid (target.params.merged declared.params) c ended,
      Reaches program grid (.call target) c v := by
  intro v mem
  unfold handBack at mem
  by_cases ha : (target.params.merged declared.params).advance = true
  · simp only [if_pos ha, List.mem_filterMap] at mem
    obtain ⟨u, ⟨t, ht, hu⟩, hv⟩ := mem
    obtain ⟨h, hmem, path⟩ := hended t ht
    exact .call hd hh hmem path hu (by rw [if_pos ha]; exact hv)
  · simp only [if_neg ha, List.mem_filterMap] at mem
    obtain ⟨t, ht, hv⟩ := mem
    obtain ⟨h, hmem, path⟩ := hended t ht
    exact .call hd hh hmem path hv (by rw [if_neg ha])

theorem reaches_lookBack {kind : Look} {inner : Node} {c : Cursor} {found : List Cursor}
    (h : ∀ t ∈ found, Reaches program grid inner (lookFrom kind c) t) :
    ∀ u ∈ lookBack kind c found, Reaches program grid (.look kind inner) c u := by
  intro u mem
  cases kind with
  | absent =>
    simp only [lookBack] at mem
    split at mem
    · cases List.mem_singleton.mp mem
      exact .absent
    · cases mem
  | unmarked =>
    obtain ⟨t, ht, rfl⟩ := List.mem_map.mp mem
    exact .unmarked (h t ht)
  | retraced =>
    obtain ⟨t, ht, rfl⟩ := List.mem_map.mp mem
    exact .retraced (h t ht)

/-- The level itself is reached by enough rounds. -/
theorem allReached_level {inner : Node} {count : Repeat} {k : Nat} {level : List Cursor} :
    Verdict.AllReached (fun t => ∃ l ∈ level, Reaches program grid (.repeated inner count) l t)
      (.ok (if count.least ≤ k then level else [])) := by
  apply Verdict.allReached_ok
  intro t mem
  split at mem
  · exact ⟨t, mem, .enough⟩
  · cases mem

theorem rules_reaches (program : Program) (grid : Grid) : Rules program grid
    (fun node c v => v.AllReached (Reaches program grid node c))
    (fun inner count _ level v =>
      v.AllReached fun t => ∃ l ∈ level, Reaches program grid (.repeated inner count) l t)
    (fun parts c v => v.AllReached (Reaches program grid (.sequence parts) c)) where
  stalled _ _ _ := Verdict.allReached_error _
  literal _ _ _ := Verdict.allReached_ok fun _ mem => .literal (Option.mem_toList.mp mem)
  oneOf _ _ _ _ := Verdict.allReached_ok fun _ mem => .oneOf (Option.mem_toList.mp mem)
  inside _ _ := Verdict.allReached_ok fun _ mem => .inside (Option.mem_toList.mp mem)
  outside _ _ := Verdict.allReached_ok fun _ mem => .outside (Option.mem_toList.mp mem)
  sequence _ _ _ _ h := h
  choice options c vs _ h ts hts t mem := by
    obtain ⟨option, ho, path⟩ := allReached_join h ts hts t mem
    exact .choice ho path
  repeated inner count c v _ h ts hts t mem := by
    obtain ⟨l, hl, path⟩ := h ts hts t mem
    cases List.mem_singleton.mp hl
    exact path
  undeclared _ _ _ _ := Verdict.allReached_error _
  callTurns _ _ _ _ _ _ := Verdict.allReached_error _
  call target declared c headed vs _ hd hh h :=
    (allReached_join h).map fun _ => reaches_handBack hd hh
  turns _ _ _ _ := Verdict.allReached_error _
  direction way c headed _ hh := Verdict.allReached_ok fun _ mem => .direction hh mem
  look kind inner c v _ h := Verdict.AllReached.map h fun _ => reaches_lookBack
  full _ _ _ _ _ := allReached_level
  stopped _ _ _ _ _ _ _ _ _ := Verdict.allReached_error _
  died _ _ _ _ _ _ _ _ := allReached_level
  next inner count k level vs t ts v _ h hj later := by
    refine later.map ?_
    intro us hus u mem
    rcases List.mem_append.mp mem with mem | mem
    · exact allReached_level _ rfl u mem
    · obtain ⟨between, hbetween, path⟩ := hus u mem
      obtain ⟨l, hl, head⟩ := allReached_join h _ hj between hbetween
      exact ⟨l, hl, .round head path⟩
  done c := by
    apply Verdict.allReached_ok
    intro t mem
    cases List.mem_singleton.mp mem
    exact .finished
  partStopped _ _ _ _ _ := Verdict.allReached_error _
  part part parts c ts vs hpart hrest us hus u mem := by
    obtain ⟨t, ht, path⟩ := allReached_join hrest us hus u mem
    exact .part (hpart ts rfl t ht) path

/-- **Every survivor is reached.** -/
theorem reaches_of_eval {node : Node} {c t : Cursor} {ts : List Cursor}
    (h : eval program grid node c = some (.ok ts)) (mem : t ∈ ts) : Reaches program grid node c t :=
  (rules_reaches program grid).eval h ts rfl t mem

end GridPattern.Walk
