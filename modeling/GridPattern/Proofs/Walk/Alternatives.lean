import GridPattern.Proofs.Walk.Induction
import Mathlib.Logic.Relation

/-!
# Alternatives

In what order a choice lists its options, and whether it lists one twice, is of no consequence for which
cursors survive. It is for their order and for how often each comes, and that goes through everything
around the choice: into the next part of a sequence, from level to level of a repetition, through calls.

**The law** (`likewise_eval`). If the choices of a program are rearranged, a pattern that had survivors has
the same ones, as a set. The induction is on how the first verdict comes about. Its hypotheses are for all
rearrangements of what is inside and, where levels are concerned, for every list of the same cursors.

**What it does not establish.** Which fault is met. Patterns that have none are the matter here.
-/

namespace GridPattern

/-! ## Lists as sets -/

/-- The same members, in whatever order and however often. -/
def SameMembers {α : Type} (as bs : List α) : Prop := ∀ a, a ∈ as ↔ a ∈ bs

/-- Each member of either list has a partner in the other. -/
structure Paired {α β : Type} (R : α → β → Prop) (as : List α) (bs : List β) : Prop where
  left : ∀ a ∈ as, ∃ b ∈ bs, R a b
  right : ∀ b ∈ bs, ∃ a ∈ as, R a b

section Members

variable {α β : Type} {as bs : List α}

theorem SameMembers.refl (as : List α) : SameMembers as as := fun _ => Iff.rfl

theorem SameMembers.symm (h : SameMembers as bs) : SameMembers bs as := fun a => (h a).symm

theorem SameMembers.append {as' bs' : List α} (h : SameMembers as bs) (h' : SameMembers as' bs') :
    SameMembers (as ++ as') (bs ++ bs') := by
  intro a
  rw [List.mem_append, List.mem_append, h a, h' a]

theorem SameMembers.filterMap (h : SameMembers as bs) (f : α → Option β) :
    SameMembers (as.filterMap f) (bs.filterMap f) := by
  intro b
  simp only [List.mem_filterMap, h _]

theorem SameMembers.map (h : SameMembers as bs) (f : α → β) : SameMembers (as.map f) (bs.map f) := by
  intro b
  simp only [List.mem_map, h _]

theorem SameMembers.eq_nil_iff (h : SameMembers as bs) : as = [] ↔ bs = [] := by
  simp only [List.eq_nil_iff_forall_not_mem, h _]

theorem SameMembers.paired {R : α → α → Prop} (h : SameMembers as bs) (hR : ∀ a, R a a) :
    Paired R as bs where
  left a mem := ⟨a, (h a).mp mem, hR a⟩
  right b mem := ⟨b, (h b).mpr mem, hR b⟩

theorem Paired.trans {R : α → α → Prop} {cs : List α} (hR : ∀ {a b c}, R a b → R b c → R a c)
    (h : Paired R as bs) (h' : Paired R bs cs) : Paired R as cs where
  left a mem := by
    obtain ⟨b, hb, hab⟩ := h.left a mem
    obtain ⟨c, hc, hbc⟩ := h'.left b hb
    exact ⟨c, hc, hR hab hbc⟩
  right c mem := by
    obtain ⟨b, hb, hbc⟩ := h'.right c mem
    obtain ⟨a, ha, hab⟩ := h.right b hb
    exact ⟨a, ha, hR hab hbc⟩

theorem paired_of_forall₂ {R : α → α → Prop} (h : List.Forall₂ R as bs) : Paired R as bs where
  left _ mem := Walk.exists_mem_of_forall₂ h mem
  right _ mem := Walk.exists_mem_of_forall₂ h.flip mem

theorem forall₂_trans {R : α → α → Prop} (hR : ∀ {a b c}, R a b → R b c → R a c) {cs : List α}
    (h : List.Forall₂ R as bs) (h' : List.Forall₂ R bs cs) : List.Forall₂ R as cs := by
  induction h generalizing cs with
  | nil => exact h'
  | cons head _ ih =>
    cases h' with
    | cons head' tail' => exact .cons (hR head head') (ih tail')

/-- Lists that differ in one place are related if they are there. -/
theorem forall₂_replaced {R : α → α → Prop} (hR : ∀ a, R a a) {before after : List α} {a a' : α}
    (h : R a a') : List.Forall₂ R (before ++ a :: after) (before ++ a' :: after) :=
  List.rel_append (List.forall₂_same.mpr fun _ _ => hR _)
    (.cons h (List.forall₂_same.mpr fun _ _ => hR _))

end Members

/-! ## Rearranging choices -/

/-- **One choice rearranged**, somewhere in a pattern: it has the same options, in another order or another
number of times. -/
inductive Node.Rearranges : Node → Node → Prop
  | choice {options options' : List Node} : SameMembers options options' →
      Rearranges (.choice options) (.choice options')
  | option (before after : List Node) {option option' : Node} : Rearranges option option' →
      Rearranges (.choice (before ++ option :: after)) (.choice (before ++ option' :: after))
  | part (before after : List Node) {part part' : Node} : Rearranges part part' →
      Rearranges (.sequence (before ++ part :: after)) (.sequence (before ++ part' :: after))
  | repeated (count : Repeat) {inner inner' : Node} : Rearranges inner inner' →
      Rearranges (.repeated inner count) (.repeated inner' count)
  | look (kind : Look) {inner inner' : Node} : Rearranges inner inner' →
      Rearranges (.look kind inner) (.look kind inner')

/-- **Any choices rearranged**, one after the other. -/
def Node.Rearranged : Node → Node → Prop := Relation.ReflTransGen Node.Rearranges

/-- The same declaration up to rearranged choices. -/
structure Declaration.Rearranged (declared declared' : Declaration) : Prop where
  name : declared'.name = declared.name
  params : declared'.params = declared.params
  body : declared.body.Rearranged declared'.body

/-- The same program up to rearranged choices. -/
def Program.Rearranged (p p' : Program) : Prop :=
  List.Forall₂ Declaration.Rearranged p.declarations p'.declarations

namespace Node.Rearranged

variable {n n' : Node}

theorem refl (n : Node) : n.Rearranged n := Relation.ReflTransGen.refl

theorem trans {n'' : Node} (h : n.Rearranged n') (h' : n'.Rearranged n'') : n.Rearranged n'' :=
  Relation.ReflTransGen.trans h h'

theorem single (h : n.Rearranges n') : n.Rearranged n' := Relation.ReflTransGen.single h

/-- A pattern without choices stays as it is. -/
theorem eq_of_not (h : n.Rearranged n') (hn : ∀ m, ¬n.Rearranges m) : n' = n := by
  obtain rfl | ⟨m, hm, _⟩ := Relation.ReflTransGen.cases_head h
  · rfl
  · exact absurd hm (hn m)

theorem of_sequence {parts : List Node} (h : (sequence parts).Rearranged n) :
    ∃ parts', n = .sequence parts' ∧ List.Forall₂ Rearranged parts parts' := by
  induction h with
  | refl => exact ⟨parts, rfl, List.forall₂_same.mpr fun _ _ => refl _⟩
  | tail _ step ih =>
    obtain ⟨parts', rfl, hparts⟩ := ih
    cases step with
    | part before after hstep =>
      exact ⟨_, rfl, forall₂_trans (R := Rearranged) trans hparts (forall₂_replaced refl (single hstep))⟩

theorem of_choice {options : List Node} (h : (choice options).Rearranged n) :
    ∃ options', n = .choice options' ∧ Paired Rearranged options options' := by
  induction h with
  | refl => exact ⟨options, rfl, (SameMembers.refl options).paired refl⟩
  | tail _ step ih =>
    obtain ⟨options', rfl, hoptions⟩ := ih
    cases step with
    | choice hsame => exact ⟨_, rfl, hoptions.trans trans (hsame.paired refl)⟩
    | option before after hstep =>
      exact ⟨_, rfl, hoptions.trans trans (paired_of_forall₂ (forall₂_replaced refl (single hstep)))⟩

theorem of_repeated {inner : Node} {count : Repeat} (h : (repeated inner count).Rearranged n) :
    ∃ inner', n = .repeated inner' count ∧ inner.Rearranged inner' := by
  induction h with
  | refl => exact ⟨inner, rfl, refl inner⟩
  | tail _ step ih =>
    obtain ⟨inner', rfl, hinner⟩ := ih
    cases step with
    | repeated _ hstep => exact ⟨_, rfl, hinner.trans (single hstep)⟩

theorem of_look {kind : Look} {inner : Node} (h : (look kind inner).Rearranged n) :
    ∃ inner', n = .look kind inner' ∧ inner.Rearranged inner' := by
  induction h with
  | refl => exact ⟨inner, rfl, refl inner⟩
  | tail _ step ih =>
    obtain ⟨inner', rfl, hinner⟩ := ih
    cases step with
    | look _ hstep => exact ⟨_, rfl, hinner.trans (single hstep)⟩

end Node.Rearranged

namespace Program.Rearranged

variable {p p' : Program} (h : p.Rearranged p')
include h

theorem declaration? {name : String} {declared : Declaration} (hd : p.declaration? name = some declared) :
    ∃ declared', p'.declaration? name = some declared' ∧ declared.Rearranged declared' := by
  obtain ⟨declarations⟩ := p
  obtain ⟨declarations'⟩ := p'
  change List.Forall₂ Declaration.Rearranged declarations declarations' at h
  unfold Program.declaration? at hd ⊢
  induction h with
  | nil => cases hd
  | @cons first first' rest rest' head _ ih =>
    rw [List.find?_cons] at hd ⊢
    rw [head.name]
    cases hname : first.name == name with
    | true =>
      rw [hname] at hd
      cases hd
      exact ⟨first', rfl, head⟩
    | false =>
      rw [hname] at hd
      exact ih hd

theorem entry? {entry : Declaration} (he : p.entry? = some entry) :
    ∃ entry', p'.entry? = some entry' ∧ entry.Rearranged entry' := by
  obtain ⟨declarations⟩ := p
  obtain ⟨declarations'⟩ := p'
  change List.Forall₂ Declaration.Rearranged declarations declarations' at h
  cases h with
  | nil => cases he
  | cons head _ =>
    cases he
    exact ⟨_, rfl, head⟩

end Program.Rearranged

/-! ## The same survivors -/

namespace Walk

/-- Where there are survivors, there are the same ones on the other side. -/
def Likewise (v : Verdict) (o : Option Verdict) : Prop :=
  ∀ ts, v = .ok ts → ∃ ts', o = some (.ok ts') ∧ SameMembers ts ts'

section Likewise

variable {v : Verdict} {o : Option Verdict}

theorem Likewise.error {faults : List WalkFault} : Likewise (.error faults) o := nofun

theorem Likewise.ok {ts ts' : List Cursor} (h : SameMembers ts ts') : Likewise (.ok ts) (some (.ok ts')) := by
  rintro _ ⟨⟩
  exact ⟨ts', rfl, h⟩

theorem Likewise.map (h : Likewise v o) {f f' : List Cursor → List Cursor}
    (hf : ∀ ts ts', SameMembers ts ts' → SameMembers (f ts) (f' ts')) :
    Likewise (v.map f) (o.map (Except.map f')) := by
  cases v with
  | error faults => exact .error
  | ok ts =>
    obtain ⟨ts', rfl, hts⟩ := h ts rfl
    exact .ok (hf ts ts' hts)

/-- Survivors of several, of partners each on the other side. -/
theorem Likewise.join {α β : Type} {R : α → β → Prop} {as : List α} {bs : List β} {vs : List Verdict}
    {eval : β → Option Verdict} (hvs : List.Forall₂ (fun a v => ∀ b, R a b → Likewise v (eval b)) as vs)
    (hpaired : Paired R as bs) : Likewise (.join vs) (evalEach eval bs) := by
  intro ts h
  obtain ⟨tss, rfl, rfl⟩ := Verdict.join_eq_ok h
  rw [List.forall₂_map_right_iff] at hvs
  -- what each on the other side comes to, by a partner
  have heach : ∀ b, ∃ us, b ∈ bs → eval b = some (.ok us) ∧ ∀ t ∈ us, t ∈ tss.flatten := by
    intro b
    by_cases hb : b ∈ bs
    · obtain ⟨a, ha, hab⟩ := hpaired.right b hb
      obtain ⟨ts, hts, hrel⟩ := exists_mem_of_forall₂ hvs ha
      obtain ⟨us, hus, hsame⟩ := hrel b hab ts rfl
      exact ⟨us, fun _ => ⟨hus, fun t ht => List.mem_flatten.mpr ⟨ts, hts, (hsame t).mpr ht⟩⟩⟩
    · exact ⟨[], fun mem => absurd mem hb⟩
  choose us hus using heach
  refine ⟨(bs.map us).flatten, ?_, fun t => ⟨fun ht => ?_, fun ht => ?_⟩⟩
  · refine evalEach_eq_ok_iff.mpr ⟨bs.map us, ?_, rfl⟩
    rw [List.forall₂_map_right_iff]
    exact List.forall₂_same.mpr fun b hb => (hus b hb).1
  · obtain ⟨ts, hts, ht⟩ := List.mem_flatten.mp ht
    obtain ⟨a, ha, hrel⟩ := exists_mem_of_forall₂ hvs.flip hts
    obtain ⟨b, hb, hab⟩ := hpaired.left a ha
    obtain ⟨us', hus', hsame⟩ := hrel b hab ts rfl
    cases (hus b hb).1.symm.trans hus'
    exact List.mem_flatten.mpr ⟨us b, List.mem_map_of_mem hb, (hsame t).mp ht⟩
  · obtain ⟨_, hmem, ht⟩ := List.mem_flatten.mp ht
    obtain ⟨b, hb, rfl⟩ := List.mem_map.mp hmem
    exact (hus b hb).2 t ht

/-- Survivors of several cursors are those of the same cursors in another order. -/
theorem Likewise.each {cs cs' : List Cursor} {vs : List Verdict} {eval : Cursor → Option Verdict}
    (hvs : List.Forall₂ (fun c v => Likewise v (eval c)) cs vs) (hsame : SameMembers cs cs') :
    Likewise (.join vs) (evalEach eval cs') := by
  refine .join (R := Eq) (hvs.imp ?_) (hsame.paired fun _ => rfl)
  rintro c v hv _ rfl
  exact hv

theorem sameMembers_handBack (grid : Grid) (params : Params) (caller : Cursor) {ts ts' : List Cursor}
    (h : SameMembers ts ts') :
    SameMembers (handBack grid params caller ts) (handBack grid params caller ts') := by
  unfold handBack
  dsimp only
  split
  · exact (h.filterMap _).filterMap _
  · exact h.filterMap _

/-- To look for what is absent asks only whether anything is found. -/
theorem sameMembers_lookBack (kind : Look) (c : Cursor) {ts ts' : List Cursor} (h : SameMembers ts ts') :
    SameMembers (lookBack kind c ts) (lookBack kind c ts') := by
  cases kind with
  | absent =>
    have hempty : ts.isEmpty = ts'.isEmpty := by
      rw [Bool.eq_iff_iff, List.isEmpty_iff, List.isEmpty_iff]
      exact h.eq_nil_iff
    unfold lookBack
    rw [hempty]
    exact .refl _
  | unmarked => exact h.map _
  | retraced => exact h.map _

end Likewise

section Rules

variable {p p' : Program} {grid : Grid}

/-- To survive rearranging is closed under the rules. -/
theorem rules_likewise (h : p.Rearranged p') : Rules p grid
    (fun node c v => ∀ node', node.Rearranged node' → Likewise v (eval p' grid node' c))
    (fun inner count k level v => ∀ inner' level', inner.Rearranged inner' → SameMembers level level' →
      Likewise v (evalLevels p' grid inner' count k level'))
    (fun parts c v => ∀ parts', List.Forall₂ Node.Rearranged parts parts' →
      Likewise v (evalParts p' grid parts' c)) where
  stalled _ _ _ _ _ := .error
  literal text c hs _ hn := by
    cases hn.eq_of_not nofun
    rw [eval_literal text hs]
    exact .ok (.refl _)
  oneOf chars negated c hs _ hn := by
    cases hn.eq_of_not nofun
    rw [eval_oneOf chars negated hs]
    exact .ok (.refl _)
  inside c hs _ hn := by
    cases hn.eq_of_not nofun
    rw [eval_inside hs]
    exact .ok (.refl _)
  outside c hs _ hn := by
    cases hn.eq_of_not nofun
    rw [eval_outside hs]
    exact .ok (.refl _)
  sequence parts c v hs ih _ hn := by
    obtain ⟨parts', rfl, hparts⟩ := hn.of_sequence
    rw [eval_sequence parts' hs]
    exact ih parts' hparts
  choice options c vs hs ih _ hn := by
    obtain ⟨options', rfl, hoptions⟩ := hn.of_choice
    rw [eval_choice options' hs]
    exact .join ih hoptions
  repeated inner count c v hs ih _ hn := by
    obtain ⟨inner', rfl, hinner⟩ := hn.of_repeated
    rw [eval_repeated inner' count hs]
    exact ih inner' [c] hinner (.refl _)
  undeclared _ _ _ _ _ _ := .error
  callTurns _ _ _ _ _ _ _ _ := .error
  call target declared c headed vs hs hd hh ih _ hn := by
    cases hn.eq_of_not nofun
    obtain ⟨declared', hd', hrearranged⟩ := h.declaration? hd
    rw [eval_call hs hd', hrearranged.params, hh]
    have hbody : Likewise (.join vs) (evalEach (eval p' grid declared'.body) headed) :=
      .each (ih.imp fun _ _ hv => hv declared'.body hrearranged.body) (.refl headed)
    exact hbody.map fun _ _ => sameMembers_handBack grid _ c
  turns _ _ _ _ _ _ := .error
  direction way c headed hs hh _ hn := by
    cases hn.eq_of_not nofun
    rw [eval_direction way hs, hh]
    exact .ok (.refl headed)
  look kind inner c v hs ih _ hn := by
    obtain ⟨inner', rfl, hinner⟩ := hn.of_look
    rw [eval_look kind inner' hs]
    exact (ih inner' hinner).map fun _ _ => sameMembers_lookBack kind c
  full inner count k level hk inner' level' _ hlevel := by
    rw [evalLevels_eq, if_pos hk]
    split
    · exact .ok hlevel
    · exact .ok (.refl [])
  stopped _ _ _ _ _ _ _ _ _ _ _ _ _ := .error
  died inner count k level vs hk ih hj inner' level' hinner hlevel := by
    obtain ⟨next, hnext, hempty⟩ := Likewise.each (ih.imp fun _ _ hv => hv inner' hinner) hlevel [] hj
    cases hempty.eq_nil_iff.mp rfl
    rw [evalLevels_last hk hnext]
    split
    · exact .ok hlevel
    · exact .ok (.refl [])
  next inner count k level vs t ts v hk ih hj later inner' level' hinner hlevel := by
    obtain ⟨next, hnext, hsame⟩ := Likewise.each (ih.imp fun _ _ hv => hv inner' hinner) hlevel (t :: ts) hj
    have hne : next ≠ [] := fun hnil => List.cons_ne_nil t ts (hsame.eq_nil_iff.mpr hnil)
    rw [evalLevels_next hk hnext hne]
    refine (later inner' next hinner hsame).map fun us us' hus => .append ?_ hus
    split
    · exact hlevel
    · exact .refl []
  done c _ hparts := by
    cases hparts
    rw [evalParts_nil]
    exact .ok (.refl [c])
  partStopped _ _ _ _ _ _ _ := .error
  part part parts c ts vs ih hrest _ hparts := by
    cases hparts with
    | cons hpart hparts =>
      obtain ⟨ts', hts', hsame⟩ := ih _ hpart ts rfl
      rw [evalParts_cons, hts']
      exact .each (hrest.imp fun _ _ hv => hv _ hparts) hsame

/-- **Rearranged choices leave a pattern the same survivors**, if it had any to begin with. -/
theorem likewise_eval (h : p.Rearranged p') {node node' : Node} (hn : node.Rearranged node') {c : Cursor}
    {ts : List Cursor} (hts : eval p grid node c = some (.ok ts)) :
    ∃ ts', eval p' grid node' c = some (.ok ts') ∧ SameMembers ts ts' :=
  (rules_likewise h).eval hts node' hn ts rfl

end Rules

end Walk

end GridPattern
