import GridPattern.Proofs.Pattern.Completeness
import GridPattern.Proofs.Token.Shapes

/-!
# Tokens at other places

The place of a token is for messages alone. What the grammar derives from tokens it derives from the same
tokens anywhere, rule by rule, and with that the parser reads them as the same program.
-/

namespace GridPattern

namespace Token

/-- The token at another place. -/
def movedTo (t : Token) (place : Place) : Token := { t with place := place }

/-- **The same tokens**, each wherever it stands. -/
inductive Moved : List Token → List Token → Prop
  | nil : Moved [] []
  | cons {t : Token} {ts us : List Token} (place : Place) : Moved ts us → Moved (t :: ts) (t.movedTo place :: us)

variable {ts ts' us : List Token}

theorem moved_of_shapes (h : ts.map shape = us.map shape) : Moved ts us := by
  induction ts generalizing us with
  | nil =>
    rw [List.map_eq_nil_iff.mp h.symm]
    exact .nil
  | cons t ts ih =>
    obtain ⟨⟨text, kind, place⟩, us, rfl, ht, hts⟩ := List.map_eq_cons_iff.mp h.symm
    cases ht
    exact .cons place (ih hts.symm)

theorem Moved.of_append (h : Moved (ts ++ ts') us) :
    ∃ vs vs', us = vs ++ vs' ∧ Moved ts vs ∧ Moved ts' vs' := by
  induction ts generalizing us with
  | nil => exact ⟨[], us, rfl, .nil, h⟩
  | cons t ts ih =>
    obtain _ | ⟨place, h⟩ := h
    obtain ⟨vs, vs', rfl, hts, hts'⟩ := ih h
    exact ⟨_ :: vs, vs', rfl, .cons place hts, hts'⟩

/-- A test that is blind to places holds for as many of them. -/
theorem Moved.exists_iff (h : Moved ts us) {P : Token → Prop} (hP : ∀ t place, P (t.movedTo place) ↔ P t) :
    (∃ u ∈ us, P u) ↔ ∃ t ∈ ts, P t := by
  induction h with
  | nil => rfl
  | cons place _ ih => simp only [List.exists_mem_cons_iff, hP, ih]

theorem Moved.flatMap_filter (h : Moved ts us) {α : Type} {p : Token → Bool} {f : Token → List α}
    (hp : ∀ t place, p (t.movedTo place) = p t) (hf : ∀ t place, f (t.movedTo place) = f t) :
    (us.filter p).flatMap f = (ts.filter p).flatMap f := by
  induction h with
  | nil => rfl
  | cons place _ ih => simp only [List.filter_cons, hp, apply_ite (List.flatMap f), List.flatMap_cons, hf, ih]

end Token

namespace Grammar

open Token

variable {ts us : List Token} {node : Node}

theorem IsDirection.moved {way : Direction} (h : IsDirection ts way) (hus : Moved ts us) :
    IsDirection us way where
  each := by
    have hall : ¬∃ u ∈ us, ¬(IsTurn u ∨ u.isSpecial '.' = true) := by
      rw [hus.exists_iff fun _ _ => Iff.rfl]
      rintro ⟨t, ht, hne⟩
      exact hne (h.each t ht)
    intro u hu
    by_contra hne
    exact hall ⟨u, hu, hne⟩
  absolute := h.absolute.trans (hus.exists_iff fun _ _ => Iff.rfl).symm
  turns := by
    rw [h.turns, hus.flatMap_filter (fun _ _ => rfl) (fun _ _ => rfl)]

theorem IsCall.moved {target : Call} (h : IsCall ts target) (hus : Moved ts us) : IsCall us target := by
  cases h with
  | plain ho hname hl isDirection hr hc =>
    obtain _ | ⟨_, _ | ⟨_, _ | ⟨_, hus⟩⟩⟩ := hus
    obtain ⟨_, _, rfl, hway, _ | ⟨_, _ | ⟨_, ⟨⟩⟩⟩⟩ := hus.of_append
    exact .plain ho hname hl (isDirection.moved hway) hr hc
  | withParams ho hname hl isDirection hr hletters isParams hc =>
    obtain _ | ⟨_, _ | ⟨_, _ | ⟨_, hus⟩⟩⟩ := hus
    obtain ⟨_, _, rfl, hway, _ | ⟨_, _ | ⟨_, _ | ⟨_, ⟨⟩⟩⟩⟩⟩ := hus.of_append
    exact .withParams ho hname hl (isDirection.moved hway) hr hletters isParams hc

theorem IsSuffix.moved {count : Repeat} (h : IsSuffix ts count) (hus : Moved ts us) : IsSuffix us count := by
  cases h with
  | star ht =>
    obtain _ | ⟨_, ⟨⟩⟩ := hus
    exact .star ht
  | plus ht =>
    obtain _ | ⟨_, ⟨⟩⟩ := hus
    exact .plus ht
  | option ht =>
    obtain _ | ⟨_, ⟨⟩⟩ := hus
    exact .option ht
  | bounded ht ho hwritten isBounds hc =>
    obtain _ | ⟨_, _ | ⟨_, _ | ⟨_, _ | ⟨_, ⟨⟩⟩⟩⟩⟩ := hus
    exact .bounded ht ho hwritten isBounds hc

theorem Suffixed.moved {inner : Node} (h : Suffixed ts inner node) (hus : Moved ts us) :
    Suffixed us inner node := by
  induction h generalizing us with
  | none =>
    cases hus
    exact .none
  | more isSuffix _ ih =>
    obtain ⟨_, _, rfl, hfirst, hrest⟩ := hus.of_append
    exact .more (isSuffix.moved hfirst) (ih hrest)

theorem IsLook.movedTo {t : Token} {kind : Look} (h : IsLook t kind) (place : Place) :
    IsLook (t.movedTo place) kind := by
  cases h with
  | absent ht => exact .absent ht
  | unmarked ht => exact .unmarked ht
  | retraced ht => exact .retraced ht

mutual

/-- What is derived as a list, statements, a statement or an atom is so wherever its tokens stand. -/
theorem IsList.moved {kind : Parser.ListKind} : ∀ {ts us : List Token} {node : Node},
    IsList kind ts node → Moved ts us → IsList kind us node
  | _, _, _, .negated ht hchars, .cons _ (.cons _ .nil) => .negated ht hchars
  | _, _, _, .statements areStatements builds, hus => .statements (areStatements.moved hus) builds

theorem AreStatements.moved : ∀ {ts us : List Token} {nodes : List Node},
    AreStatements ts nodes → Moved ts us → AreStatements us nodes
  | _, _, _, .nil, .nil => .nil
  | _, _, _, .cons isStatement areStatements, hus => by
    obtain ⟨_, _, rfl, hfirst, hrest⟩ := hus.of_append
    exact .cons (isStatement.moved hfirst) (areStatements.moved hrest)

theorem IsStatement.moved : ∀ {ts us : List Token} {node : Node},
    IsStatement ts node → Moved ts us → IsStatement us node
  | _, _, _, .atom isAtom suffixed, hus => by
    obtain ⟨_, _, rfl, hfirst, hrest⟩ := hus.of_append
    exact .atom (isAtom.moved hfirst) (suffixed.moved hrest)
  | _, _, _, .look isLook isStatement, .cons place hus =>
    .look (isLook.movedTo place) (isStatement.moved hus)

theorem IsAtom.moved : ∀ {ts us : List Token} {node : Node},
    IsAtom ts node → Moved ts us → IsAtom us node
  | _, _, _, .string ht, .cons _ .nil => .string ht
  | _, _, _, .group ho isList hc, .cons _ hus => by
    obtain ⟨_, _, rfl, hlist, _ | ⟨_, ⟨⟩⟩⟩ := hus.of_append
    exact .group ho (isList.moved hlist) hc
  | _, _, _, .choice ho isList hc, .cons _ hus => by
    obtain ⟨_, _, rfl, hlist, _ | ⟨_, ⟨⟩⟩⟩ := hus.of_append
    exact .choice ho (isList.moved hlist) hc
  | _, _, _, .direction hl isDirection hr, .cons _ hus => by
    obtain ⟨_, _, rfl, hway, _ | ⟨_, ⟨⟩⟩⟩ := hus.of_append
    exact .direction hl (isDirection.moved hway) hr
  | _, _, _, .call isCall, hus => .call (isCall.moved hus)
  | _, _, _, .outside ht, .cons _ .nil => .outside ht
  | _, _, _, .inside ht, .cons _ .nil => .inside ht

end

theorem IsDeclaration.moved {d : Declaration} (h : IsDeclaration ts d) (hus : Moved ts us) :
    IsDeclaration us d := by
  cases h with
  | plain hname hcolon isList hnewline =>
    obtain _ | ⟨_, _ | ⟨_, hus⟩⟩ := hus
    obtain ⟨_, _, rfl, hlist, _ | ⟨_, ⟨⟩⟩⟩ := hus.of_append
    exact .plain hname hcolon (isList.moved hlist) hnewline
  | withParams hname ho isParams hc hcolon isList hnewline =>
    obtain _ | ⟨_, _ | ⟨_, _ | ⟨_, _ | ⟨_, _ | ⟨_, hus⟩⟩⟩⟩⟩ := hus
    obtain ⟨_, _, rfl, hlist, _ | ⟨_, ⟨⟩⟩⟩ := hus.of_append
    exact .withParams hname ho isParams hc hcolon (isList.moved hlist) hnewline

theorem IsProgram.moved {ds : List Declaration} (h : IsProgram ts ds) (hus : Moved ts us) :
    IsProgram us ds := by
  induction h generalizing us with
  | nil =>
    cases hus
    exact .nil
  | cons isDeclaration _ ih =>
    obtain ⟨_, _, rfl, hfirst, hrest⟩ := hus.of_append
    exact .cons (isDeclaration.moved hfirst) (ih hrest)

end Grammar

/-- **Where tokens stand** plays no part in the program that they are read as. -/
theorem Program.ofTokens_of_shapes {ts us : List Token} {p : Program} (h : ofTokens ts = .ok p)
    (hshapes : ts.map Token.shape = us.map Token.shape) : ofTokens us = .ok p :=
  ((isProgram_of_ofTokens h).moved (Token.moved_of_shapes hshapes)).ofTokens_eq

end GridPattern
