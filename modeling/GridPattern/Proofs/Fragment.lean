import GridPattern.Pattern

/-!
# Parts of the language

Many laws hold of programs that do without something: without a switch, without a kind of look, without
turns of some letters. A fragment says what params, directions and looks there may be; a pattern is of the
fragment if nothing else is written anywhere in it, and a program if its declarations are.
-/

namespace GridPattern

/-- **A part of the language**, by what may be written in it. -/
structure Fragment where
  /-- Params, of calls and of declarations. -/
  params : Params → Bool := fun _ => true
  /-- Directions, of calls and by themselves. -/
  way : Direction → Bool := fun _ => true
  look : Look → Bool := fun _ => true

namespace Fragment

mutual

/-- Whether a pattern is of the fragment. -/
def allows (f : Fragment) : Node → Bool
  | .literal _ => true
  | .oneOf _ _ => true
  | .sequence parts => f.allowsEach parts
  | .choice options => f.allowsEach options
  | .repeated inner _ => f.allows inner
  | .call target => f.params target.params && f.way target.direction
  | .direction way => f.way way
  | .inside => true
  | .outside => true
  | .look kind inner => f.look kind && f.allows inner

/-- Whether all patterns of a list are of the fragment. -/
def allowsEach (f : Fragment) : List Node → Bool
  | [] => true
  | node :: nodes => f.allows node && f.allowsEach nodes

end

/-- Whether a declaration is of the fragment. -/
def declares (f : Fragment) (d : Declaration) : Bool := f.params d.params && f.allows d.body

/-- Whether a program is of the fragment. -/
def allowsProgram (f : Fragment) (p : Program) : Bool := p.declarations.all f.declares

variable {f : Fragment}

theorem allowsEach_iff {nodes : List Node} :
    f.allowsEach nodes = true ↔ ∀ node ∈ nodes, f.allows node = true := by
  induction nodes with
  | nil => simp [allowsEach]
  | cons node nodes ih => rw [allowsEach, Bool.and_eq_true, ih, List.forall_mem_cons]

/-- **Calls of the fragment stay in it**: the program is of the fragment too, unless there is nothing to
call with. -/
def Closed (f : Fragment) (p : Program) : Prop :=
  ∀ params, f.params params = true → f.allowsProgram p = true

theorem closed_of_allowsProgram {p : Program} (h : f.allowsProgram p = true) : f.Closed p :=
  fun _ _ => h

/-- What is called from the fragment is of the fragment. -/
theorem Closed.declares {p : Program} (hp : f.Closed p) {params : Params}
    (hparams : f.params params = true) {name : String} {declared : Declaration}
    (h : p.declaration? name = some declared) :
    f.params declared.params = true ∧ f.allows declared.body = true := by
  have hdeclared := List.all_eq_true.mp (hp params hparams) declared (List.mem_of_find?_eq_some h)
  rwa [Fragment.declares, Bool.and_eq_true] at hdeclared

mutual

/-- The whole language is a fragment of itself. -/
theorem allows_whole : ∀ node : Node, allows {} node = true
  | .literal _ | .oneOf _ _ | .call _ | .direction _ | .inside | .outside => rfl
  | .sequence parts => allowsEach_whole parts
  | .choice options => allowsEach_whole options
  | .repeated inner _ => allows_whole inner
  | .look _ inner => allows_whole inner

theorem allowsEach_whole : ∀ nodes : List Node, allowsEach {} nodes = true
  | [] => rfl
  | node :: nodes => by rw [allowsEach, allows_whole node, allowsEach_whole nodes]; rfl

end

theorem closed_whole (p : Program) : Closed {} p :=
  closed_of_allowsProgram (List.all_eq_true.mpr fun declared _ => allows_whole declared.body)

end Fragment

end GridPattern
