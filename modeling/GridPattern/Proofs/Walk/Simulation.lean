import GridPattern.Proofs.Alongside
import GridPattern.Proofs.Fragment
import GridPattern.Proofs.Walk.Walker

/-!
# Walkers side by side

Two walkers that keep a relation in every one of their moves keep it in their walks: related survivors in
the same order, the same faults, the same count. That they go the same way is the walk's doing, and is
said once, here; what is left to say of two walkers is what their moves do.

**The law** (`Simulates.follow`), by induction on the depth, one case for each kind of pattern. The moves
need to keep the relation only for the params, directions and looks of a fragment; the walks are then those
along patterns and programs of that fragment. What holds of all that walk is the case of a walker beside
itself (`Invariant.simulates`), or beside one that cannot but keep to it (`Invariant.restrict_simulates`).

**What it does not establish.** Anything about walkers that go different ways: both sides must have as many
headings, and take a step or not, together.
-/

namespace GridPattern.Walk

namespace Walker

/-! ## Answers side by side -/

section Answers

variable {α β γ : Type} {o : Option α}

/-- What is made of one answer in two ways is related if it is for that answer. -/
theorem optionRel_map_map {R : β → γ → Prop} {f : α → β} {g : α → γ}
    (h : ∀ a, o = some a → R (f a) (g a)) : Option.Rel R (o.map f) (o.map g) := by
  cases o with
  | none => exact .none
  | some a => exact .some (h a rfl)

theorem optionRel_map_right {R : α → γ → Prop} {g : α → γ} (h : ∀ a, o = some a → R a (g a)) :
    Option.Rel R o (o.map g) := by
  simpa only [Option.map_id_fun, id] using optionRel_map_map (f := id) h

theorem optionRel_map_left {R : β → α → Prop} {f : α → β} (h : ∀ a, o = some a → R (f a) a) :
    Option.Rel R (o.map f) o := by
  simpa only [Option.map_id_fun, id] using optionRel_map_map (g := id) h

theorem optionRel_self {R : α → α → Prop} (h : ∀ a, o = some a → R a a) : Option.Rel R o o := by
  simpa only [Option.map_id_fun, id] using optionRel_map_right (g := id) h

end Answers

variable {α β : Type}

/-! ## Walkers side by side -/

/-- **A relation that all moves keep**, where they are of the fragment. A walker that goes nowhere makes no
moves. -/
structure Simulates (f : Fragment) (w : Walker α) (w' : Walker β) (R : α → β → Prop) : Prop where
  stalled : ∀ {a b}, R a b → w.isStalled a = w'.isStalled b
  char : ∀ {a b}, R a b → w.char? a = w'.char? b
  insensitive : ∀ {a b}, R a b → w.insensitive a = w'.insensitive b
  step : ∀ {a b}, R a b → Option.Rel R (w.step? a) (w'.step? b)
  headings : ∀ {way a b}, f.way way = true → w.isStalled a = false → R a b →
    Option.Rel (List.Forall₂ R) (w.headings? way a) (w'.headings? way b)
  callee : ∀ {call declared a b}, f.params call = true → f.params declared = true → R a b →
    R (w.callee (call.merged declared) a) (w'.callee (call.merged declared) b)
  going : ∀ {params a}, w.isStalled (w.callee params a) = w.isStalled a
  back : ∀ {call declared caller caller' a b}, f.params call = true → f.params declared = true →
    R caller caller' → R a b →
    Option.Rel R (w.back? (call.merged declared) caller a) (w'.back? (call.merged declared) caller' b)
  lookFrom : ∀ {kind a b}, f.look kind = true → R a b → R (w.lookFrom kind a) (w'.lookFrom kind b)
  lookBack : ∀ {kind a b t u}, f.look kind = true → R a b → R t u →
    R (w.lookBack kind a t) (w'.lookBack kind b u)

section Simulation

open Counted (Alongside alongside_flatMapList)
open Survivors (Alike)

variable {f : Fragment} {w : Walker α} {w' : Walker β} {R : α → β → Prop} {program : Program}

theorem alongside_repetitions {F : α → Counted (Survivors α)} {F' : β → Counted (Survivors β)}
    (hF : ∀ a b, R a b → Alongside (Alike R) (F a) (F' b)) (least : Nat) (most : Option Nat)
    (rounds count : Nat) {current : Survivors α} {current' : Survivors β}
    (hcurrent : Alike R current current') {gathered : List α} {gathered' : List β}
    (hgathered : List.Forall₂ R gathered gathered') :
    Alongside (List.Forall₂ R) (repetitions F least most rounds count current gathered)
      (repetitions F' least most rounds count current' gathered') := by
  induction rounds generalizing count current current' gathered gathered' with
  | zero =>
    unfold repetitions
    split
    · exact .pure (List.rel_reverse hgathered)
    · exact .unfinished
  | succ rounds ih =>
    unfold repetitions
    split
    · exact .pure (List.rel_reverse hgathered)
    · refine (alongside_flatMapList hcurrent.toList hF).bind fun next next' hnext => ?_
      rw [← hnext.isEmpty]
      split
      · exact .pure (List.rel_reverse hgathered)
      · refine ih (count + 1) hnext ?_
        split
        · simp only [List.reverseAux_eq]
          exact List.rel_append (List.rel_reverse hnext.toList) hgathered
        · exact hgathered

theorem alongside_turn {way : Direction} {a : α} {b : β}
    (h : Option.Rel (List.Forall₂ R) (w.headings? way a) (w'.headings? way b)) :
    Alongside (Alike R) (w.turn way a) (w'.turn way b) := by
  unfold Walker.turn
  generalize w.headings? way a = headed at h ⊢
  generalize w'.headings? way b = headed' at h ⊢
  cases h with
  | none => exact .fail _
  | some hheaded => exact .pure (.ofList hheaded)

namespace Simulates

theorem stepIf (h : Simulates f w w' R) (test : Bool) {a : α} {b : β} (hab : R a b) :
    Option.Rel R (w.stepIf? test a) (w'.stepIf? test b) := by
  unfold stepIf?
  split
  · exact h.step hab
  · exact .none

theorem spell (h : Simulates f w w' R) (text : List Char) {a : α} {b : β} (hab : R a b) :
    Option.Rel R (w.spell? text a) (w'.spell? text b) := by
  induction text generalizing a b with
  | nil => exact .some hab
  | cons target text ih =>
    have hstep := h.stepIf ((w.char? a).any (Cursor.charMatches (w.insensitive a) target)) hab
    rw [spell?, spell?, ← h.char hab, ← h.insensitive hab]
    generalize w.stepIf? _ a = next at hstep ⊢
    generalize w'.stepIf? _ b = next' at hstep ⊢
    cases hstep with
    | none => exact .none
    | some hnext => exact ih hnext

theorem turn (h : Simulates f w w' R) {way : Direction} {a : α} {b : β} (hway : f.way way = true)
    (hgoing : w.isStalled a = false) (hab : R a b) :
    Alongside (Alike R) (w.turn way a) (w'.turn way b) :=
  alongside_turn (h.headings hway hgoing hab)

section Inside

variable {F : Node → α → Counted (Survivors α)} {F' : Node → β → Counted (Survivors β)}

theorem sequence
    (hF : ∀ node a b, f.allows node = true → R a b → Alongside (Alike R) (F node a) (F' node b))
    {nodes : List Node} (hnodes : f.allowsEach nodes = true) {walkers : Survivors α}
    {walkers' : Survivors β} (hwalkers : Alike R walkers walkers') :
    Alongside (Alike R) (Walk.sequence F nodes walkers) (Walk.sequence F' nodes walkers') := by
  induction nodes generalizing walkers walkers' with
  | nil => exact .pure hwalkers
  | cons node nodes ih =>
    rw [Fragment.allowsEach, Bool.and_eq_true] at hnodes
    rw [Walk.sequence, Walk.sequence]
    refine (alongside_flatMapList hwalkers.toList fun a b => hF node a b hnodes.1).bind
      fun between between' hbetween => ?_
    rw [← hbetween.isEmpty]
    split
    · exact .pure .none
    · exact ih hnodes.2 hbetween

theorem call (h : Simulates f w w' R) (hp : f.Closed program)
    (hF : ∀ node a b, f.allows node = true → R a b → Alongside (Alike R) (F node a) (F' node b))
    {target : Call} (htarget : f.params target.params = true) {a : α} {b : β} (hab : R a b)
    (hturn : ∀ declared, program.declaration? target.name = some declared →
      Alongside (Alike R) (w.turn target.direction (w.callee (target.params.merged declared.params) a))
        (w'.turn target.direction (w'.callee (target.params.merged declared.params) b))) :
    Alongside (Alike R) (w.call program F target a) (w'.call program F' target b) := by
  unfold Walker.call
  cases hd : program.declaration? target.name with
  | none => exact .fail _
  | some declared =>
    obtain ⟨hparams, hbody⟩ := hp.declares htarget hd
    refine (hturn declared hd).bind fun headed headed' hheaded => ?_
    refine (alongside_flatMapList hheaded.toList fun a b => hF declared.body a b hbody).bind
      fun ended ended' hended => ?_
    exact .pure (hended.filterMap fun _ _ hback => h.back htarget hparams hab hback)

theorem look (h : Simulates f w w' R)
    (hF : ∀ node a b, f.allows node = true → R a b → Alongside (Alike R) (F node a) (F' node b))
    {kind : Look} (hkind : f.look kind = true) {inner : Node} (hinner : f.allows inner = true)
    {a : α} {b : β} (hab : R a b) :
    Alongside (Alike R) (w.look kind (F inner) a) (w'.look kind (F' inner) b) := by
  refine (hF inner _ _ hinner (h.lookFrom hkind hab)).bind fun found found' hfound => ?_
  have hback : ∀ t u, R t u →
      Option.Rel R (some (w.lookBack kind a t)) (some (w'.lookBack kind b u)) :=
    fun _ _ htu => .some (h.lookBack hkind hab htu)
  cases kind with
  | absent =>
    dsimp only
    rw [← hfound.isEmpty]
    split
    · exact .pure (.one hab)
    · exact .pure .none
  | unmarked => exact .pure (hfound.filterMap hback)
  | retraced => exact .pure (hfound.filterMap hback)

/-- One level of a walk keeps the relation, if the walks inside do. -/
theorem enter (h : Simulates f w w' R) (hp : f.Closed program)
    (hF : ∀ node a b, f.allows node = true → R a b → Alongside (Alike R) (F node a) (F' node b))
    (rounds : Nat) {node : Node} (hnode : f.allows node = true) {a : α} {b : β}
    (hgoing : w.isStalled a = false) (hab : R a b) :
    Alongside (Alike R) (w.enter program F rounds node a) (w'.enter program F' rounds node b) := by
  cases node with
  | literal text => exact .pure (.ofOption (h.spell text hab))
  | oneOf chars negated =>
    unfold Walker.enter
    rw [← h.char hab, ← h.insensitive hab]
    exact .pure (.ofOption (h.stepIf _ hab))
  | inside | outside =>
    unfold Walker.enter
    rw [← h.char hab]
    exact .pure (.ofOption (h.stepIf _ hab))
  | sequence nodes => exact sequence hF hnode (.one hab)
  | choice nodes =>
    have hsame : List.Forall₂ (fun n n' => n = n' ∧ f.allows n = true) nodes nodes :=
      List.forall₂_same.mpr fun n mem => ⟨rfl, Fragment.allowsEach_iff.mp hnode n mem⟩
    refine alongside_flatMapList hsame fun n n' hn => ?_
    obtain ⟨rfl, hn⟩ := hn
    exact hF n a b hn hab
  | repeated inner count =>
    refine (alongside_repetitions (fun a b => hF inner a b hnode) _ _ _ _ (.one hab) ?_).map
      fun _ _ => .ofList
    split
    · exact .cons hab .nil
    · exact .nil
  | call target =>
    obtain ⟨hparams, hway⟩ := (Bool.and_eq_true _ _).mp hnode
    refine h.call hp hF hparams hab fun declared hd => ?_
    obtain ⟨hdeclared, _⟩ := hp.declares hparams hd
    exact h.turn hway (h.going.trans hgoing) (h.callee hparams hdeclared hab)
  | direction way => exact h.turn hnode hgoing hab
  | look kind inner =>
    obtain ⟨hkind, hinner⟩ := (Bool.and_eq_true _ _).mp hnode
    exact h.look hF hkind hinner hab

end Inside

/-- **Walks of walkers that keep a relation** keep it, by induction on the depth. -/
theorem follow (h : Simulates f w w' R) (hp : f.Closed program) (budget : Option Nat)
    (depth : Nat) (node : Node) (a : α) (b : β) (hnode : f.allows node = true) (hab : R a b) :
    Alongside (Alike R) (w.follow program budget depth node a)
      (w'.follow program budget depth node b) := by
  induction depth generalizing node a b with
  | zero => exact .unfinished
  | succ depth ih =>
    refine (Alongside.same (Counted.tick budget)).bind fun _ _ _ => ?_
    rw [← h.stalled hab]
    by_cases hs : w.isStalled a = true
    · rw [if_pos hs, if_pos hs]
      exact .fail _
    · rw [if_neg hs, if_neg hs]
      exact h.enter hp ih depth hnode (Bool.eq_false_iff.mpr hs) hab

theorem followAll (h : Simulates f w w' R) (hp : f.Closed program)
    (budget : Option Nat) (depth : Nat) {node : Node} (hnode : f.allows node = true) {a : α} {b : β}
    (hab : R a b) :
    Alongside (Alike R) (w.followAll program budget depth node (.one a))
      (w'.followAll program budget depth node (.one b)) :=
  alongside_flatMapList (.cons hab .nil) fun a b => h.follow hp budget depth node a b hnode

/-- The walk of a whole program begins with a turn, whatever the heading. -/
theorem run (h : Simulates f w w' R) (hp : f.Closed program) (hparams : f.params {} = true)
    (budget : Option Nat) (depth : Nat) {a : α} {b : β} (hab : R a b)
    (hturn : ∀ params, Alongside (Alike R) (w.turn .forward (w.callee params a))
      (w'.turn .forward (w'.callee params b))) :
    Alongside (Alike R) (w.run program budget depth a) (w'.run program budget depth b) := by
  refine (Alongside.same Counted.restart).bind fun _ _ _ => ?_
  cases program.entry? with
  | none => exact .fail _
  | some entry => exact h.call hp (h.follow hp budget depth) hparams hab fun _ _ => hturn _

end Simulates

/-! ## What holds of all that walk -/

/-- **An invariant of all moves**, where they are of the fragment. -/
structure Invariant (f : Fragment) (w : Walker α) (I : α → Prop) : Prop where
  step : ∀ {a t}, I a → w.step? a = some t → I t
  headings : ∀ {way a headed}, f.way way = true → I a → w.headings? way a = some headed →
    ∀ t ∈ headed, I t
  callee : ∀ {call declared a}, f.params call = true → f.params declared = true → I a →
    I (w.callee (call.merged declared) a)
  going : ∀ {params a}, w.isStalled (w.callee params a) = w.isStalled a
  back : ∀ {call declared caller a t}, f.params call = true → f.params declared = true →
    I caller → I a → w.back? (call.merged declared) caller a = some t → I t
  lookFrom : ∀ {kind a}, f.look kind = true → I a → I (w.lookFrom kind a)
  lookBack : ∀ {kind a t}, f.look kind = true → I a → I t → I (w.lookBack kind a t)

/-- A walker with an invariant simulates itself. -/
theorem Invariant.simulates {I : α → Prop} (h : Invariant f w I) :
    Simulates f w w fun a b => a = b ∧ I a where
  stalled := by
    rintro a _ ⟨rfl, _⟩
    rfl
  char := by
    rintro a _ ⟨rfl, _⟩
    rfl
  insensitive := by
    rintro a _ ⟨rfl, _⟩
    rfl
  step := by
    rintro a _ ⟨rfl, ha⟩
    exact optionRel_self fun t ht => ⟨rfl, h.step ha ht⟩
  headings := by
    rintro way a _ hway _ ⟨rfl, ha⟩
    cases hheaded : w.headings? way a with
    | none => exact .none
    | some headed =>
      exact .some (List.forall₂_same.mpr fun t mem => ⟨rfl, h.headings hway ha hheaded t mem⟩)
  callee := by
    rintro call declared a _ hcall hdeclared ⟨rfl, ha⟩
    exact ⟨rfl, h.callee hcall hdeclared ha⟩
  going := h.going
  back := by
    rintro call declared caller _ a _ hcall hdeclared ⟨rfl, hcaller⟩ ⟨rfl, ha⟩
    exact optionRel_self fun t ht => ⟨rfl, h.back hcall hdeclared hcaller ha ht⟩
  lookFrom := by
    rintro kind a _ hkind ⟨rfl, ha⟩
    exact ⟨rfl, h.lookFrom hkind ha⟩
  lookBack := by
    rintro kind a _ t _ hkind ⟨rfl, ha⟩ ⟨rfl, ht⟩
    exact ⟨rfl, h.lookBack hkind ha ht⟩

/-! ## Walkers held to an invariant -/

theorem optionRel_pmap {I : α → Prop} {γ : Type} {f : ∀ a, I a → γ} {S : γ → α → Prop}
    (hf : ∀ a ha, S (f a ha) a) (o : Option α) (h : ∀ a, o = some a → I a) : Option.Rel S (o.pmap f h) o := by
  cases o with
  | none => exact .none
  | some a => exact .some (hf a (h a rfl))

theorem forall₂_attachWith {I : α → Prop} (as : List α) (h : ∀ a ∈ as, I a) :
    List.Forall₂ (fun (a : {a // I a}) b => b = a.val) (as.attachWith I h) as := by
  induction as with
  | nil => exact .nil
  | cons a as ih => exact .cons rfl (ih fun b mem => h b (List.mem_cons_of_mem a mem))

section Held

variable {I : α → Prop}

theorem Invariant.callee_whole (h : Invariant {} w I) (params : Params) {a : α} (ha : I a) :
    I (w.callee params a) := by
  rw [← merged_entry params]
  exact h.callee rfl rfl ha

theorem Invariant.back_whole (h : Invariant {} w I) (params : Params) {caller a t : α} (hcaller : I caller)
    (ha : I a) (hback : w.back? params caller a = some t) : I t := by
  rw [← merged_entry params] at hback
  exact h.back rfl rfl hcaller ha hback

/-- **A walker that has nothing but the invariant to walk on.** Each of its moves comes with the proof that it
keeps the invariant. -/
def Invariant.restrict (h : Invariant {} w I) : Walker {a // I a} where
  isStalled a := w.isStalled a.val
  char? a := w.char? a.val
  insensitive a := w.insensitive a.val
  step? a := (w.step? a.val).pmap Subtype.mk fun _ => h.step a.property
  headings? way a := (w.headings? way a.val).pmap (fun headed hheaded => headed.attachWith I hheaded)
    fun _ => h.headings rfl a.property
  callee params a := ⟨w.callee params a.val, h.callee_whole params a.property⟩
  back? params caller a := (w.back? params caller.val a.val).pmap Subtype.mk fun _ =>
    h.back_whole params caller.property a.property
  lookFrom kind a := ⟨w.lookFrom kind a.val, h.lookFrom rfl a.property⟩
  lookBack kind start a := ⟨w.lookBack kind start.val a.val, h.lookBack rfl start.property a.property⟩

/-- To be held to an invariant is to do the same. -/
theorem Invariant.restrict_simulates (h : Invariant {} w I) :
    Simulates {} h.restrict w fun a b => b = a.val where
  stalled := by
    rintro a _ rfl
    rfl
  char := by
    rintro a _ rfl
    rfl
  insensitive := by
    rintro a _ rfl
    rfl
  step := by
    rintro a _ rfl
    exact optionRel_pmap (f := Subtype.mk) (S := fun (t : {a // I a}) u => u = t.val) (fun _ _ => rfl) _ _
  headings := by
    rintro way a _ _ _ rfl
    exact optionRel_pmap forall₂_attachWith _ _
  callee := by
    rintro call declared a _ _ _ rfl
    rfl
  going := h.going
  back := by
    rintro call declared caller _ a _ _ _ rfl rfl
    exact optionRel_pmap (f := Subtype.mk) (S := fun (t : {a // I a}) u => u = t.val) (fun _ _ => rfl) _ _
  lookFrom := by
    rintro kind a _ _ rfl
    rfl
  lookBack := by
    rintro kind start _ a _ _ rfl rfl
    rfl

end Held

end Simulation

/-- What every survivor of two walks side by side comes with. -/
theorem exists_related {R : α → β → Prop} {m : Counted (Survivors α)} {m' : Counted (Survivors β)}
    (h : Counted.Alongside (Survivors.Alike R) m m') {count : Nat} {found : Survivors α}
    (hok : (m.runFrom count).1 = .ok found) : ∀ a ∈ found.toList, ∃ b, R a b := by
  intro a mem
  obtain ⟨_, _, halike⟩ := h.exists_of_ok hok
  obtain ⟨b, _, hab⟩ := exists_mem_of_forall₂ halike.toList mem
  exact ⟨b, hab⟩

end Walker

end GridPattern.Walk
