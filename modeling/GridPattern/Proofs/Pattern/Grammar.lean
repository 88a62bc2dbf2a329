import GridPattern.Pattern.Parser
import Mathlib.Data.List.Forall2
import Mathlib.Data.Nat.Digits.Defs

/-!
# The grammar of programs

Which token lists are programs, and what each of them stands for, said without an order of reading:

- program = declaration*
- declaration = string [`{` params `}`] `:` list newline
- list = `^` string | statement*
- statement = atom suffix* | (`!` | `~` | a backtick) statement
- atom = string | `(` list `)` | `[` list `]` | `<` direction `>` | call | `$` | `.`
- call = `{` string `<` direction `>` [params] `}`
- suffix = `*` | `+` | `?` | `%` `{` bounds `}`

Lists in brackets are alternatives, all others sequences. The relations hold of exact token lists, the
place of a token aside. `Program.ofTokens_iff` says that the parser reads these lists and no others.
-/

namespace GridPattern.Grammar

/-! ## Short forms -/

/-- The letters of params. -/
def paramLetters : List Char :=
  ['P', 'H', 'V', 'W', 'E', 'I', 'A', 'S', 'L', '0', '1', '2', '3', '4', '5', '6', '7', '8', '9']

/-- **Params**: letters in any order. Each switch is on if a letter for it is there, and the last digit
is the group. -/
structure IsParams (text : List Char) (p : Params) : Prop where
  letters : ∀ c ∈ text, c ∈ paramLetters
  piggyback : p.piggyback = true ↔ 'P' ∈ text
  wrapX : p.switches.wrapX = true ↔ 'H' ∈ text ∨ 'W' ∈ text
  wrapY : p.switches.wrapY = true ↔ 'V' ∈ text ∨ 'W' ∈ text
  exclusive : p.switches.exclusive = true ↔ 'E' ∈ text
  insensitive : p.switches.insensitive = true ↔ 'I' ∈ text
  advance : p.advance = true ↔ 'A' ∈ text
  noMark : p.switches.noMark = true ↔ 'S' ∈ text
  onlyMarked : p.switches.onlyMarked = true ↔ 'L' ∈ text
  group : p.group = ((text.filter (·.isDigit)).getLast?).map fun c => c.toNat - '0'.toNat

/-- **An integer**: digits with an optional plus sign in front and white space around them, for a number
below `2 ^ 64`. -/
def IsInteger (text : List Char) (n : Nat) : Prop :=
  ∃ before sign digits after, text = before ++ sign ++ digits ++ after ∧
    (∀ c ∈ before, Text.isBlank c = true) ∧ (∀ c ∈ after, Text.isBlank c = true) ∧
    (sign = [] ∨ sign = ['+']) ∧ digits ≠ [] ∧ (∀ c ∈ digits, c.isDigit = true) ∧
    n = Nat.ofDigits 10 (digits.reverse.map fun c => c.toNat - '0'.toNat) ∧ n < 2 ^ 64

/-- One of two bounds: nothing at all, or an integer. -/
def IsSide (text : List Char) (bound : Option Nat) : Prop :=
  (text = [] ∧ bound = none) ∨ ∃ n, IsInteger text n ∧ bound = some n

/-- **Bounds**: one integer for both, or two parts with a comma between them that are not both empty. -/
inductive IsBounds : List Char → Bounds → Prop
  | exactly {text : List Char} {n : Nat} : ',' ∉ text → IsInteger text n →
      IsBounds text ⟨some n, some n⟩
  | between {left right : List Char} {min max : Option Nat} : ',' ∉ left → ',' ∉ right →
      (left ≠ [] ∨ right ≠ []) → IsSide left min → IsSide right max →
      IsBounds (left ++ ',' :: right) ⟨min, max⟩

/-- A token of a direction that says how to turn: letters, or a special character. -/
def IsTurn (t : Token) : Prop :=
  (t.isString = true ∧ ∀ c ∈ t.text, c ∈ ['R', 'L', 'F', 'B', 'P', 'T', 'X']) ∨
    t.isSpecial '*' = true ∨ t.isSpecial '+' = true ∨ t.isSpecial '!' = true

/-- **A direction**: turns in their order, and dots anywhere among them. A dot makes it absolute, and
without turns it is straight on. -/
structure IsDirection (tokens : List Token) (way : Direction) : Prop where
  each : ∀ t ∈ tokens, IsTurn t ∨ t.isSpecial '.' = true
  absolute : way.absolute = true ↔ ∃ t ∈ tokens, t.isSpecial '.' = true
  turns : way.turns =
    let turns := (tokens.filter fun t => !t.isSpecial '.').flatMap (·.text)
    if turns = [] then ['F'] else turns

/-! ## Trees -/

/-- A string of several characters as an alternative is one alternative for each character. -/
inductive Splits : Node → List Node → Prop
  | string {text : List Char} : 2 ≤ text.length → Splits (.literal text) (text.map fun c => .literal [c])
  | other {node : Node} : (∀ text, node = .literal text → text.length ≤ 1) → Splits node [node]

/-- A suffix on a string of several characters belongs to the last, and a look around before one to the
first. -/
inductive Detaches : Node → List Node → Prop
  | last {text : List Char} {c : Char} {count : Repeat} : text ≠ [] →
      Detaches (.repeated (.literal (text ++ [c])) count) [.literal text, .repeated (.literal [c]) count]
  | first {c : Char} {text : List Char} {kind : Look} : text ≠ [] →
      Detaches (.look kind (.literal (c :: text))) [.look kind (.literal [c]), .literal text]
  | other {node : Node} : (∀ text count, node = .repeated (.literal text) count → text.length ≤ 1) →
      (∀ kind text, node = .look kind (.literal text) → text.length ≤ 1) → Detaches node [node]

/-- **The pattern of a list** of statements. -/
inductive Builds : Parser.ListKind → List Node → Node → Prop
  | sequence {parts : List Node} {outs : List (List Node)} : List.Forall₂ Detaches parts outs →
      Builds .all parts (.sequence outs.flatten)
  | choice {parts : List Node} {singles outs : List (List Node)} : List.Forall₂ Splits parts singles →
      List.Forall₂ Detaches singles.flatten outs → Builds .any parts (.choice outs.flatten)

theorem splits_iff {node : Node} {out : List Node} :
    Splits node out ↔ out = Parser.splitLiteral node := by
  constructor
  · intro h
    cases h with
    | @string text h =>
      match text, h with
      | _ :: _ :: _, _ => rfl
    | other h =>
      unfold Parser.splitLiteral
      split
      · next c d text =>
        have := h (c :: d :: text) rfl
        simp at this
      · rfl
  · intro heq
    subst heq
    unfold Parser.splitLiteral
    split
    · next c d text => exact .string (by simp)
    · next hother =>
      apply Splits.other
      intro text htext
      match text with
      | [] => simp
      | [_] => simp
      | c :: d :: rest => exact absurd htext (hother c d rest)

/-- A string of several characters is the string without the last of them, and that one. -/
theorem detachOperand_repeated {text : List Char} {c : Char} (count : Repeat) (h : text ≠ []) :
    Parser.detachOperand (.repeated (.literal (text ++ [c])) count) =
      [.literal text, .repeated (.literal [c]) count] := by
  match text, h with
  | [a], _ => rfl
  | a :: b :: text, _ =>
    have hlast : (b :: (text ++ [c])).getLastD b = c := by
      rw [← List.cons_append, List.getLastD_concat]
    have hinit : (a :: b :: (text ++ [c])).dropLast = a :: b :: text := by
      rw [← List.cons_append, ← List.cons_append, List.dropLast_concat]
    rw [List.cons_append, List.cons_append, Parser.detachOperand, hlast, hinit]

theorem detaches_iff {node : Node} {out : List Node} :
    Detaches node out ↔ out = Parser.detachOperand node := by
  constructor
  · intro h
    cases h with
    | last h => exact (detachOperand_repeated _ h).symm
    | @first c text kind h =>
      match text, h with
      | _ :: _, _ => rfl
    | other hlast hfirst =>
      unfold Parser.detachOperand
      split
      · next c d text count =>
        have := hlast (c :: d :: text) count rfl
        simp at this
      · next kind c d text =>
        have := hfirst kind (c :: d :: text) rfl
        simp at this
      · rfl
  · intro heq
    subst heq
    unfold Parser.detachOperand
    split
    · next c d text count =>
      have hsplit : c :: d :: text = (c :: d :: text).dropLast ++ [(d :: text).getLastD d] := by
        have hlast : (c :: d :: text).getLast (by simp) = (d :: text).getLastD d := by
          rw [List.getLast_cons (List.cons_ne_nil d text), List.getLast_eq_getLastD, List.getLastD_cons]
        rw [← hlast, List.dropLast_append_getLast]
      have hlast : Detaches
          (.repeated (.literal ((c :: d :: text).dropLast ++ [(d :: text).getLastD d])) count)
          [.literal (c :: d :: text).dropLast, .repeated (.literal [(d :: text).getLastD d]) count] :=
        .last (by simp)
      rw [← hsplit] at hlast
      exact hlast
    · exact .first (by simp)
    · next hlast hfirst =>
      refine .other (fun text count htext => ?_) fun kind text htext => ?_
      · match text with
        | [] => simp
        | [_] => simp
        | c :: d :: rest => exact absurd htext (hlast c d rest count)
      · match text with
        | [] => simp
        | [_] => simp
        | c :: d :: rest => exact absurd htext (hfirst kind c d rest)

/-- What is made of each member in turn is what is made of all. -/
theorem forall₂_iff_eq_map {R : Node → List Node → Prop} {f : Node → List Node}
    (hR : ∀ node out, R node out ↔ out = f node) {parts : List Node} {outs : List (List Node)} :
    List.Forall₂ R parts outs ↔ outs = parts.map f := by
  constructor
  · intro h
    induction h with
    | nil => rfl
    | cons head _ ih => rw [List.map_cons, ih, (hR _ _).mp head]
  · intro heq
    subst heq
    exact List.forall₂_map_right_iff.mpr (List.forall₂_same.mpr fun part _ => (hR _ _).mpr rfl)

/-- The pattern of a list is the one that the parser makes of its statements. -/
theorem builds_iff {kind : Parser.ListKind} {parts : List Node} {node : Node} :
    Builds kind parts node ↔ node = kind.node parts := by
  have hsplit : ∀ {parts outs}, List.Forall₂ Splits parts outs ↔ outs = parts.map Parser.splitLiteral :=
    forall₂_iff_eq_map @splits_iff
  have hdetach : ∀ {parts outs}, List.Forall₂ Detaches parts outs ↔
      outs = parts.map Parser.detachOperand := forall₂_iff_eq_map @detaches_iff
  constructor
  · intro h
    cases h with
    | sequence houts =>
      rw [hdetach.mp houts, ← List.flatMap_def]
      rfl
    | choice hsingles houts =>
      rw [hdetach.mp houts, hsplit.mp hsingles, ← List.flatMap_def, ← List.flatMap_def]
      rfl
  · intro heq
    subst heq
    unfold Parser.ListKind.node
    cases kind with
    | all =>
      simp only [List.flatMap_def]
      exact .sequence (hdetach.mpr rfl)
    | any =>
      simp only [List.flatMap_def]
      exact .choice (hsplit.mpr rfl) (hdetach.mpr rfl)

/-! ## Rules -/

/-- **A call**, from its opening brace. -/
inductive IsCall : List Token → Call → Prop
  | plain {o name l r c : Token} {tokens : List Token} {way : Direction} :
      o.isSpecial '{' = true → name.isString = true → l.isSpecial '<' = true →
      IsDirection tokens way → r.isSpecial '>' = true → c.isSpecial '}' = true →
      IsCall (o :: name :: l :: (tokens ++ [r, c])) ⟨String.ofList name.text, way, {}⟩
  | withParams {o name l r letters c : Token} {tokens : List Token} {way : Direction} {p : Params} :
      o.isSpecial '{' = true → name.isString = true → l.isSpecial '<' = true →
      IsDirection tokens way → r.isSpecial '>' = true →
      letters.isString = true → IsParams letters.text p → c.isSpecial '}' = true →
      IsCall (o :: name :: l :: (tokens ++ [r, letters, c])) ⟨String.ofList name.text, way, p⟩

/-- **A suffix**, for a repetition. -/
inductive IsSuffix : List Token → Repeat → Prop
  | star {t : Token} : t.isSpecial '*' = true → IsSuffix [t] .star
  | plus {t : Token} : t.isSpecial '+' = true → IsSuffix [t] .plus
  | option {t : Token} : t.isSpecial '?' = true → IsSuffix [t] .option
  | bounded {t o written c : Token} {b : Bounds} : t.isSpecial '%' = true → o.isSpecial '{' = true →
      written.isString = true → IsBounds written.text b → c.isSpecial '}' = true →
      IsSuffix [t, o, written, c] (.bounded b)

/-- Suffixes on a pattern, the first innermost. -/
inductive Suffixed : List Token → Node → Node → Prop
  | none {node : Node} : Suffixed [] node node
  | more {tokens rest : List Token} {count : Repeat} {inner node : Node} : IsSuffix tokens count →
      Suffixed rest (.repeated inner count) node → Suffixed (tokens ++ rest) inner node

/-- **A look around**, by its special character. -/
inductive IsLook : Token → Look → Prop
  | absent {t : Token} : t.isSpecial '!' = true → IsLook t .absent
  | unmarked {t : Token} : t.isSpecial '~' = true → IsLook t .unmarked
  | retraced {t : Token} : t.isSpecial '\x60' = true → IsLook t .retraced

mutual
/-- **A list**, without the special character that it stands before. -/
inductive IsList : Parser.ListKind → List Token → Node → Prop
  | negated {kind : Parser.ListKind} {t chars : Token} : t.isSpecial '^' = true →
      chars.isString = true → IsList kind [t, chars] (.oneOf chars.text true)
  | statements {kind : Parser.ListKind} {tokens : List Token} {parts : List Node} {node : Node} :
      AreStatements tokens parts → Builds kind parts node → IsList kind tokens node
/-- Statements one after the other. -/
inductive AreStatements : List Token → List Node → Prop
  | nil : AreStatements [] []
  | cons {tokens rest : List Token} {node : Node} {nodes : List Node} : IsStatement tokens node →
      AreStatements rest nodes → AreStatements (tokens ++ rest) (node :: nodes)
/-- **A statement**. A look around is around a whole statement, so all suffixes are in there. -/
inductive IsStatement : List Token → Node → Prop
  | atom {tokens suffixes : List Token} {inner node : Node} : IsAtom tokens inner →
      Suffixed suffixes inner node → IsStatement (tokens ++ suffixes) node
  | look {t : Token} {kind : Look} {tokens : List Token} {inner : Node} : IsLook t kind →
      IsStatement tokens inner → IsStatement (t :: tokens) (.look kind inner)
/-- **An atom**. -/
inductive IsAtom : List Token → Node → Prop
  | string {t : Token} : t.isString = true → IsAtom [t] (.literal t.text)
  | group {o c : Token} {tokens : List Token} {node : Node} : o.isSpecial '(' = true →
      IsList .all tokens node → c.isSpecial ')' = true → IsAtom (o :: (tokens ++ [c])) node
  | choice {o c : Token} {tokens : List Token} {node : Node} : o.isSpecial '[' = true →
      IsList .any tokens node → c.isSpecial ']' = true → IsAtom (o :: (tokens ++ [c])) node
  | direction {l r : Token} {tokens : List Token} {way : Direction} : l.isSpecial '<' = true →
      IsDirection tokens way → r.isSpecial '>' = true → IsAtom (l :: (tokens ++ [r])) (.direction way)
  | call {tokens : List Token} {target : Call} : IsCall tokens target → IsAtom tokens (.call target)
  | outside {t : Token} : t.isSpecial '$' = true → IsAtom [t] .outside
  | inside {t : Token} : t.isSpecial '.' = true → IsAtom [t] .inside
end

/-- **A declaration**, through the end of its line. -/
inductive IsDeclaration : List Token → Declaration → Prop
  | plain {name colon newline : Token} {tokens : List Token} {body : Node} :
      name.isString = true → colon.isSpecial ':' = true → IsList .all tokens body →
      newline.isSpecial '\n' = true →
      IsDeclaration (name :: colon :: (tokens ++ [newline])) ⟨String.ofList name.text, {}, body⟩
  | withParams {name o letters c colon newline : Token} {tokens : List Token} {p : Params}
      {body : Node} : name.isString = true → o.isSpecial '{' = true → IsParams letters.text p →
      c.isSpecial '}' = true → colon.isSpecial ':' = true → IsList .all tokens body →
      newline.isSpecial '\n' = true →
      IsDeclaration (name :: o :: letters :: c :: colon :: (tokens ++ [newline]))
        ⟨String.ofList name.text, p, body⟩

/-- **A program**: declarations one after the other. -/
inductive IsProgram : List Token → List Declaration → Prop
  | nil : IsProgram [] []
  | cons {tokens rest : List Token} {d : Declaration} {ds : List Declaration} :
      IsDeclaration tokens d → IsProgram rest ds → IsProgram (tokens ++ rest) (d :: ds)

end GridPattern.Grammar
