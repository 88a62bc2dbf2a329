import GridPattern.Proofs.Walk.Thinned
import GridPattern.Proofs.Walk.Unbudgeted

/-!
# Stricter switches

A cursor that may not cross its own path can do no more than one that may, and a cursor that tells upper case
from lower case can do no more than one that does not. As long as nothing is asked to be absent, who can do
less has fewer survivors.

**The law** (`stricter_walks_thin`). With the stricter switches there are survivors if there are with the
others, and they are some of these, in their order, but for the switches themselves.

**What it does not establish.** That a walk with stricter switches ends with survivors only if the other does:
what it does not come to may be endless, or a fault. A class that is negated is less strict for a cursor that
tells upper case from lower case, and is left out where that is the switch.
-/

namespace GridPattern

/-- A look for something absent. -/
def Node.isLookForAbsent : Node → Bool
  | .look .absent _ => true
  | _ => false

/-- A class that is negated. -/
def Node.isNegatedClass : Node → Bool
  | .oneOf _ negated => negated
  | _ => false

/-- **Switches that allow no more.** Where classes may be negated, letters are told from one another alike. -/
structure Switches.Stricter (negating : Bool) (s s' : Switches) : Prop where
  noMark : s'.noMark = s.noMark
  wrapX : s'.wrapX = s.wrapX
  wrapY : s'.wrapY = s.wrapY
  onlyMarked : s'.onlyMarked = s.onlyMarked
  exclusive : s.exclusive = true → s'.exclusive = true
  insensitive : s'.insensitive = true → s.insensitive = true
  alike : negating = true → s'.insensitive = s.insensitive

namespace Switches.Stricter

variable {negating : Bool} {s s' : Switches}

/-- A call turns the same switches on for both. -/
theorem or (h : Stricter negating s s') (more : Switches) : Stricter negating (s.or more) (s'.or more) where
  noMark := congrArg (· || more.noMark) h.noMark
  wrapX := congrArg (· || more.wrapX) h.wrapX
  wrapY := congrArg (· || more.wrapY) h.wrapY
  onlyMarked := congrArg (· || more.onlyMarked) h.onlyMarked
  exclusive hs := by
    rw [Switches.or, Bool.or_eq_true] at hs ⊢
    exact hs.imp_left h.exclusive
  insensitive hs := by
    rw [Switches.or, Bool.or_eq_true] at hs ⊢
    exact hs.imp_left h.insensitive
  alike hn := congrArg (· || more.insensitive) (h.alike hn)

theorem charMatches (h : Stricter negating s s') {target char : Char}
    (hmatch : Cursor.charMatches s'.insensitive target char = true) :
    Cursor.charMatches s.insensitive target char = true := by
  simp only [Cursor.charMatches, Bool.or_eq_true, Bool.and_eq_true] at hmatch ⊢
  exact hmatch.imp_right fun hcase => ⟨h.insensitive hcase.1, hcase.2⟩

theorem classMatches (h : Stricter negating s s') {chars : List Char} {char : Char}
    (hmatch : Cursor.classMatches s'.insensitive chars false char = true) :
    Cursor.classMatches s.insensitive chars false char = true := by
  simp only [Cursor.classMatches, Bool.bne_false, List.any_eq_true] at hmatch ⊢
  obtain ⟨target, mem, htarget⟩ := hmatch
  exact ⟨target, mem, h.charMatches htarget⟩

end Switches.Stricter

namespace Cursor

/-- The cursor with other switches. -/
def switched (s : Switches) (c : Cursor) : Cursor := { c with switches := s }

variable {grid : Grid} {c t u : Cursor} {s : Switches}

theorem markHere_switched (h : s.noMark = c.switches.noMark) :
    (c.switched s).markHere = c.markHere.switched s := by
  unfold markHere
  rw [apply_ite (switched s), ← h]
  rfl

theorem moved_switched (hx : s.wrapX = c.switches.wrapX) (hy : s.wrapY = c.switches.wrapY) :
    (c.switched s).moved grid = (c.moved grid).switched s := by
  have hrow : (c.switched s).nextRow grid = c.nextRow grid := by
    unfold nextRow
    rw [← hy]
    rfl
  have hcolumn : ∀ y, (c.switched s).nextColumn grid y = c.nextColumn grid y := by
    intro y
    unfold nextColumn
    rw [← hx]
    rfl
  unfold moved
  simp only [hrow, hcolumn]
  rfl

/-- Whoever may leave a cell, may leave it with switches that allow more. -/
theorem mayLeave_of_stricter {negating : Bool} (h : c.switches.Stricter negating s)
    (hleave : (c.switched s).mayLeave = true) : c.mayLeave = true := by
  have hmarked : (c.switched s).isMarked (c.switched s).cell = c.isMarked c.cell := rfl
  have honly : (c.switched s).switches.onlyMarked = c.switches.onlyMarked := h.onlyMarked
  unfold mayLeave at hleave ⊢
  rw [hmarked, honly] at hleave
  rw [Bool.or_eq_true] at hleave ⊢
  refine hleave.imp_right fun hrule => ?_
  by_cases hretracing : c.switches.onlyMarked = true
  · rw [if_pos hretracing] at hrule ⊢
    exact hrule
  · rw [if_neg hretracing] at hrule ⊢
    cases hexclusive : c.switches.exclusive with
    | false => rfl
    | true =>
      have hstricter : (c.switched s).switches.exclusive = true := h.exclusive hexclusive
      rwa [hstricter] at hrule

/-- With switches that allow more, a step leads to the same cell. -/
theorem step_of_stricter {negating marking : Bool} (h : c.switches.Stricter negating s)
    (hstep : (c.switched s).step? grid marking = some u) :
    ∃ t, c.step? grid marking = some t ∧ u = t.switched s := by
  unfold step? at hstep
  split at hstep
  · next hleave =>
    cases hstep
    refine ⟨_, if_pos (mayLeave_of_stricter h hleave), ?_⟩
    cases marking with
    | false => exact moved_switched h.wrapX h.wrapY
    | true =>
      have hswitches : c.markHere.switches = c.switches := (advances_markHere c).switches
      rw [if_pos rfl, if_pos rfl, markHere_switched h.noMark]
      refine moved_switched ?_ ?_
      · rw [hswitches]
        exact h.wrapX
      · rw [hswitches]
        exact h.wrapY
  · cases hstep

end Cursor

namespace Walk

/-- Nothing that a cursor with fewer survivors would find more of. -/
def mayRestrict (negating : Bool) (node : Node) : Bool :=
  !node.isLookForAbsent && (negating || !node.isNegatedClass)

/-- **The same cursor with stricter switches.** -/
def Restricts (negating : Bool) (_ : Unit) (a b : Cursor) : Prop :=
  ∃ s, b = a.switched s ∧ a.switches.Stricter negating s

theorem thins_restricts (negating : Bool) (grid : Grid) :
    Thins True (mayRestrict negating) grid (Restricts negating) where
  cell := by
    rintro _ a _ ⟨_, rfl, _⟩
    rfl
  heading := by
    rintro _ a _ ⟨_, rfl, _⟩
    rfl
  headed := by
    rintro _ a _ heading ⟨s, rfl, h⟩
    exact ⟨s, rfl, h⟩
  letter := by
    rintro _ a _ target char ⟨s, rfl, h⟩
    exact weaker_of_imp h.charMatches
  oneOf := by
    rintro _ a _ chars negated char hmay ⟨s, rfl, h⟩
    cases negated with
    | false => exact weaker_of_imp h.classMatches
    | true =>
      have hnegating : negating = true := by simpa [mayRestrict, Node.isLookForAbsent, Node.isNegatedClass] using hmay
      exact .inl (congrArg (Cursor.classMatches · chars true char) (h.alike hnegating))
  step := by
    rintro _ a _ marking ⟨s, rfl, h⟩
    cases hstep : (a.switched s).step? grid marking with
    | none => exact .lost trivial _
    | some u =>
      obtain ⟨t, ht, rfl⟩ := Cursor.step_of_stricter h hstep
      have hswitches : t.switches = a.switches := (Cursor.advances_step ht).switches
      rw [ht]
      exact .one ⟨s, rfl, by rwa [hswitches]⟩
  call := by
    rintro _ a _ params ⟨s, rfl, h⟩
    refine ⟨(), ⟨s.or params.switches, rfl, h.or params.switches⟩, ?_⟩
    rintro t _ ⟨s', rfl, h'⟩
    have hback : returned? params (a.switched s) (t.switched s') =
        (returned? params a t).map (Cursor.switched s) :=
      returned_map (Cursor.agree_map rfl rfl fun _ => rfl) fun _ => rfl
    rw [hback]
    refine .toList_map fun u hreturn => ⟨s, rfl, ?_⟩
    rw [eq_of_returned hreturn]
    exact h
  lookFrom := by
    rintro _ a _ kind ⟨s, rfl, h⟩
    cases kind with
    | absent => exact ⟨s, rfl, h⟩
    | unmarked => exact ⟨{ s with noMark := true }, rfl, { h with noMark := rfl }⟩
    | retraced => exact ⟨{ s with onlyMarked := true }, rfl, { h with onlyMarked := rfl }⟩
  lookBack := by
    rintro _ a _ t _ kind ⟨start, rfl, hstart⟩ ⟨s, rfl, h⟩
    cases kind with
    | absent => exact ⟨s, rfl, h⟩
    | unmarked => exact ⟨{ s with noMark := start.noMark }, rfl, { h with noMark := hstart.noMark }⟩
    | retraced =>
      exact ⟨{ s with onlyMarked := start.onlyMarked }, rfl, { h with onlyMarked := hstart.onlyMarked }⟩
  absent := nofun

/-! ## Walks -/

variable {p : Program} {grid : Grid} {node : Node} {c : Cursor}

/-- What a walk ends with has the switches that it began with. -/
theorem map_switches_of_endsWith {ts : List Cursor} (found : EndsWith p grid node c ts)
    (f : Switches → Switches) :
    (ts.map fun t => { t with switches := f t.switches }) = ts.map (Cursor.switched (f c.switches)) := by
  refine List.map_congr_left fun t mem => ?_
  have hswitches : t.switches = c.switches := (reaches_of_eval (endsWith_iff.mp found) mem).keeps.switches
  rw [hswitches]
  rfl

/-- **Stricter switches thin what a walk ends with**, whichever switches the survivors are given after. -/
theorem stricter_walks_thin {negating : Bool} {s : Switches} (h : c.switches.Stricter negating s)
    (hp : ∀ m ∈ p.patterns, mayRestrict negating m = true)
    (hnode : ∀ m ∈ node.patterns, mayRestrict negating m = true) {ts : List Cursor}
    (found : EndsWith p grid node c ts) :
    ∃ us, EndsWith p grid node (c.switched s) us ∧ (us.map (Cursor.switched c.switches)).Sublist ts ∧
      us.Sublist (ts.map (Cursor.switched s)) := by
  obtain ⟨us, hus, hthin⟩ :=
    (thins_restricts negating grid).eval hp hnode (i := ()) ⟨s, rfl, h⟩ (endsWith_iff.mp found)
  have hus : EndsWith p grid node (c.switched s) us := endsWith_iff.mpr hus
  have hsub : ∀ s', (us.map (Cursor.switched s')).Sublist (ts.map (Cursor.switched s')) := by
    intro s'
    have heq : Thinned True Eq (ts.map (Cursor.switched s')) (us.map (Cursor.switched s')) := by
      refine hthin.map fun t u htu => ?_
      obtain ⟨_, rfl, _⟩ := htu
      rfl
    exact heq.sublist
  have hself : ts.map (Cursor.switched c.switches) = ts :=
    (map_switches_of_endsWith found id).symm.trans (List.map_id ts)
  have hself' : us.map (Cursor.switched s) = us :=
    (map_switches_of_endsWith hus id).symm.trans (List.map_id us)
  refine ⟨us, hus, ?_, ?_⟩
  · simpa only [hself] using hsub c.switches
  · simpa only [hself'] using hsub s

/-- **To be exclusive takes survivors away, and to be insensitive adds some**, where nothing is looked for as
absent; the latter where no class is negated either. -/
theorem switches_monotone (p : Program) (hp : ∀ m ∈ p.patterns, m.isLookForAbsent = false) (grid : Grid)
    (node : Node) (hnode : ∀ m ∈ node.patterns, m.isLookForAbsent = false) (c : Cursor) :
    (∀ ts, EndsWith p grid node c ts →
      ∃ us, EndsWith p grid node { c with switches.exclusive := true } us ∧
        (us.map fun u => { u with switches.exclusive := c.switches.exclusive }).Sublist ts) ∧
    ((∀ m ∈ p.patterns, m.isNegatedClass = false) → (∀ m ∈ node.patterns, m.isNegatedClass = false) →
      ∀ us, EndsWith p grid node { c with switches.insensitive := true } us →
        ∃ ts, EndsWith p grid node c ts ∧
          ts.Sublist (us.map fun u => { u with switches.insensitive := c.switches.insensitive })) := by
  have hmay : ∀ negating : Bool, ∀ m : Node, m.isLookForAbsent = false →
      (negating = false → m.isNegatedClass = false) → mayRestrict negating m = true := by
    intro negating m hm hclass
    rw [mayRestrict, hm]
    cases negating with
    | false => rw [hclass rfl]; rfl
    | true => rfl
  constructor
  · intro ts found
    have hstricter : c.switches.Stricter true { c.switches with exclusive := true } :=
      ⟨rfl, rfl, rfl, rfl, fun _ => rfl, id, fun _ => rfl⟩
    obtain ⟨us, hus, hsub, -⟩ := stricter_walks_thin hstricter
      (fun m mem => hmay true m (hp m mem) nofun) (fun m mem => hmay true m (hnode m mem) nofun) found
    refine ⟨us, hus, ?_⟩
    rwa [map_switches_of_endsWith hus fun s => { s with exclusive := c.switches.exclusive }]
  · intro hclasses hnodeClasses us found
    have hstricter : Switches.Stricter false { c.switches with insensitive := true } c.switches :=
      ⟨rfl, rfl, rfl, rfl, id, fun _ => rfl, nofun⟩
    obtain ⟨ts, hts, -, hsub⟩ := stricter_walks_thin hstricter
      (fun m mem => hmay false m (hp m mem) fun _ => hclasses m mem)
      (fun m mem => hmay false m (hnode m mem) fun _ => hnodeClasses m mem) found
    refine ⟨ts, hts, ?_⟩
    rwa [map_switches_of_endsWith found fun s => { s with insensitive := c.switches.insensitive }]

/-- Two or three steps, each to any neighbour. -/
def strolls : Node :=
  .repeated (.call ⟨"stroll", .forward, { piggyback := true }⟩) (.bounded ⟨some 2, some 3⟩)

/-- On three letters, one of them upper case: a cursor may go back, may not, or may and takes all letters. -/
theorem switches_monotone_strolls :
    let p : Program := ⟨[⟨"stroll", {}, .sequence [.direction ⟨['+'], false⟩, .literal ['a']]⟩]⟩
    let grid : Grid := ⟨#[#['a', 'a'], #['A']], by decide⟩
    let c : Cursor := { cell := ⟨0, 0⟩ }
    ∃ ts us vs, EndsWith p grid strolls c ts ∧
      EndsWith p grid strolls { c with switches.exclusive := true } us ∧
      EndsWith p grid strolls { c with switches.insensitive := true } vs ∧
      (us.length, ts.length, vs.length) = (4, 8, 16) ∧
      (us.map fun u => { u with switches.exclusive := false }).Sublist ts ∧
      ts.Sublist (vs.map fun v => { v with switches.insensitive := false }) := by
  intro p grid c
  have hlength : ∀ (d : Cursor) (n : Nat),
      (fun found : Survivors Cursor => found.toList.length) <$>
        ((followAll ⟨p, grid, none⟩ 20 strolls (.one d)).runFrom 0).1 = .ok n →
      ∃ found, EndsWith p grid strolls d found ∧ found.length = n := by
    intro d n h
    obtain ⟨found, hfound, hn⟩ := map_eq_ok_iff.mp h
    exact ⟨found.toList, endsWith_of_runFrom hfound, hn⟩
  obtain ⟨ts, hts, hts8⟩ := hlength c 8 (by decide +kernel)
  obtain ⟨us, hus, hus4⟩ := hlength { c with switches.exclusive := true } 4 (by decide +kernel)
  obtain ⟨vs, hvs, hvs16⟩ := hlength { c with switches.insensitive := true } 16 (by decide +kernel)
  obtain ⟨hexclusive, hinsensitive⟩ := switches_monotone p (by decide) grid strolls (by decide) c
  obtain ⟨us', hus', hsub⟩ := hexclusive ts hts
  obtain ⟨ts', hts', hsub'⟩ := hinsensitive (by decide) (by decide) vs hvs
  obtain rfl := hus.eq hus'
  obtain rfl := hts.eq hts'
  exact ⟨ts, us, vs, hts, hus, hvs, by rw [hus4, hts8, hvs16], hsub, hsub'⟩

end Walk

end GridPattern
