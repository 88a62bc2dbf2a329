import GridPattern.Proofs.Token.Scanning
import Mathlib.Data.List.Chain

/-!
# Runs of items

The tokens of items are their longest runs: a special item is a token by itself, and literal and empty items
side by side are one string. Here is what holds of runs whatever code the items come from.

- A token begins with one of the items, and the tokens before it are the runs of the items before that
  (`exists_begin`).
- A special item parts the runs on both sides (`runs_append_special`).
- No character is lost (`flatMap_text_runs`), and no two strings stand side by side (`isChain_runs`).
-/

namespace GridPattern.Lexer

open Token

/-! ## Tokens and the items that they begin with -/

/-- Whether an item is a token by itself. -/
def Item.IsSpecial : Item → Prop
  | .special _ _ => True
  | _ => False

/-- A token that begins with an item stands where the item does. -/
inductive Heads : Item → Token → Prop
  | literal {c : Char} {place : Place} {text : List Char} :
      Heads (.literal c place) ⟨c :: text, .string, place⟩
  | special {c : Char} {place : Place} : Heads (.special c place) ⟨[c], .special, place⟩
  | empty {place : Place} {text : List Char} : Heads (.empty place) ⟨text, .string, place⟩

/-- An item begins the first token. It is a token of its own or goes on with the one that was the
first. -/
theorem consItem_cases (item : Item) (ts : List Token) :
    ∃ t, Heads item t ∧
      ((consItem item ts = t :: ts ∧ consItem item [] = [t] ∧
        (item.IsSpecial ∨ ∀ u ∈ ts.head?, u.isString = false)) ∨
      ∃ u later, ts = u :: later ∧ u.isString = true ∧ consItem item ts = t :: later) := by
  obtain _ | ⟨⟨text, kind, place⟩, later⟩ := ts
  · cases item with
    | literal | special | empty => exact ⟨_, by constructor, .inl ⟨rfl, rfl, .inr (by simp)⟩⟩
  · cases item with
    | special c start => exact ⟨_, .special, .inl ⟨rfl, rfl, .inl trivial⟩⟩
    | literal c start =>
      cases kind with
      | string => exact ⟨_, .literal, .inr ⟨_, _, rfl, rfl, rfl⟩⟩
      | special | escape => exact ⟨_, .literal, .inl ⟨rfl, rfl, .inr (by simp [isString])⟩⟩
    | empty start =>
      cases kind with
      | string => exact ⟨_, .empty, .inr ⟨_, _, rfl, rfl, rfl⟩⟩
      | special | escape => exact ⟨_, .empty, .inl ⟨rfl, rfl, .inr (by simp [isString])⟩⟩

theorem runs_ne_nil (item : Item) (items : List Item) : runs (item :: items) ≠ [] := by
  obtain ⟨t, _, ⟨hcons, _⟩ | ⟨_, later, _, _, hcons⟩⟩ := consItem_cases item (runs items)
  · exact fun hnil => List.cons_ne_nil t (runs items) (hcons.symm.trans hnil)
  · exact fun hnil => List.cons_ne_nil t later (hcons.symm.trans hnil)

theorem heads_of_runs {item : Item} {newer : List Item} {t : Token} {after : List Token}
    (h : runs (item :: newer) = t :: after) : Heads item t := by
  obtain ⟨u, hheads, ⟨hcons, _⟩ | ⟨_, _, _, _, hcons⟩⟩ := consItem_cases item (runs newer) <;>
  · have hu : t :: after = u :: _ := h.symm.trans hcons
    rwa [List.head_eq_of_cons_eq hu]

/-- What stands after the first token is not looked at. -/
theorem consItem_append_of_ne_nil (item : Item) {ts : List Token} (h : ts ≠ []) (later : List Token) :
    consItem item (ts ++ later) = consItem item ts ++ later := by
  obtain ⟨⟨text, kind, place⟩, ts, rfl⟩ := List.exists_cons_of_ne_nil h
  cases item <;> cases kind <;> rfl

/-- Whether a token begins with an item that comes after others, the latest of them first. -/
def Breaks (older : List Item) (item : Item) : Prop :=
  item.IsSpecial ∨ ∀ j ∈ older.head?, j.IsSpecial

/-- **A token is begun by an item**, and the tokens before it are the runs of the items before. -/
theorem exists_begin {items : List Item} {before after : List Token} {t : Token}
    (h : runs items = before ++ t :: after) : ∃ older item newer, items = older.reverse ++ item :: newer ∧
      runs older.reverse = before ∧ runs (item :: newer) = t :: after ∧ Breaks older item := by
  induction items generalizing before with
  | nil => exact absurd h (by simp [runs])
  | cons j items ih =>
    obtain _ | ⟨b, before⟩ := before
    · exact ⟨[], j, items, rfl, rfl, h, .inr (by simp)⟩
    · have hcons : consItem j (runs items) = b :: before ++ t :: after := h
      have hlater : ∀ {middle : List Token}, middle ≠ [] → runs items = middle ++ t :: after →
          ∃ older item newer, j :: items = older.reverse ++ item :: newer ∧
            runs older.reverse = b :: before ∧ runs (item :: newer) = t :: after ∧ Breaks older item := by
        intro middle hne hruns
        obtain ⟨older, item, newer, hitems, holder, hbegin, hbreaks⟩ := ih hruns
        refine ⟨older ++ [j], item, newer, by simp [hitems], ?_, hbegin, ?_⟩
        · rw [List.reverse_append, List.reverse_singleton, List.singleton_append]
          show consItem j (runs older.reverse) = _
          rw [hruns, consItem_append_of_ne_nil j hne] at hcons
          rw [holder]
          exact List.append_cancel_right hcons
        · have hne : older ≠ [] := by
            rintro rfl
            exact hne holder.symm
          exact hbreaks.imp_right fun hall => by rwa [List.head?_append_of_ne_nil _ hne]
      -- The item before goes on with what the others begin with, or it is a token of its own.
      obtain ⟨u, _, ⟨hown, hsingle, hfirst⟩ | ⟨v, later, hruns, _, hjoined⟩⟩ := consItem_cases j (runs items)
      · obtain ⟨rfl, hruns⟩ := List.cons.inj (hown.symm.trans hcons)
        obtain _ | ⟨b, before⟩ := before
        · obtain _ | ⟨item, newer⟩ := items
          · exact absurd hruns (by simp [runs])
          · refine ⟨[j], item, newer, rfl, hsingle, hruns, ?_⟩
            obtain hspecial | hfirst := hfirst
            · exact .inr (by simpa using hspecial)
            · have ht : t.isString = false := hfirst t (by simp [hruns])
              cases heads_of_runs hruns with
              | special => exact .inl trivial
              | literal | empty => exact absurd ht (by simp [isString])
        · exact hlater (List.cons_ne_nil b before) hruns
      · obtain ⟨rfl, rfl⟩ := List.cons.inj (hjoined.symm.trans hcons)
        exact hlater (List.cons_ne_nil v before) hruns

/-! ## Runs on both sides of a special item -/

/-- A special item is joined with nothing on either side. -/
theorem runs_append_special (items : List Item) (c : Char) (place : Place) (later : List Item) :
    runs (items ++ .special c place :: later) = runs items ++ ⟨[c], .special, place⟩ :: runs later := by
  induction items with
  | nil => rfl
  | cons item items ih =>
    show consItem item (runs (items ++ _)) = consItem item (runs items) ++ _
    rw [ih]
    cases items with
    | nil => cases item <;> rfl
    | cons next items => exact consItem_append_of_ne_nil item (runs_ne_nil next items) _

/-- A literal item after a special one begins a string. -/
theorem runs_concat_literal {done : List Item} (h : ∀ j ∈ done.head?, j.IsSpecial) (c : Char) (place : Place) :
    runs (done.reverse ++ [.literal c place]) = runs done.reverse ++ [⟨[c], .string, place⟩] := by
  cases done with
  | nil => rfl
  | cons j done =>
    cases j with
    | special d start =>
      rw [List.reverse_cons, List.append_assoc, List.singleton_append, runs_append_special, runs_special,
        List.append_assoc]
      rfl
    | literal | empty => exact (h _ rfl).elim

/-! ## What runs hold -/

/-- The characters that an item stands for. -/
def Item.chars : Item → List Char
  | .literal c _ => [c]
  | .special c _ => [c]
  | .empty _ => []

theorem flatMap_text_consItem (item : Item) (ts : List Token) :
    (consItem item ts).flatMap Token.text = item.chars ++ ts.flatMap Token.text := by
  obtain _ | ⟨⟨text, kind, place⟩, ts⟩ := ts
  · cases item <;> rfl
  · cases item <;> cases kind <;> rfl

/-- **No character is lost** or moved. -/
theorem flatMap_text_runs (items : List Item) :
    (runs items).flatMap Token.text = items.flatMap Item.chars := by
  induction items with
  | nil => rfl
  | cons item items ih =>
    show (consItem item (runs items)).flatMap Token.text = _
    rw [flatMap_text_consItem, ih, List.flatMap_cons]

/-- Whether two tokens may stand side by side: strings do not. -/
def Apart (t u : Token) : Prop := ¬(t.isString = true ∧ u.isString = true)

/-- **Strings are as long as can be.** -/
theorem isChain_runs (items : List Item) : (runs items).IsChain Apart := by
  induction items with
  | nil => exact .nil
  | cons item items ih =>
    show (consItem item (runs items)).IsChain Apart
    obtain ⟨t, hheads, ⟨hown, _, hapart⟩ | ⟨u, later, hruns, hu, hjoined⟩⟩ :=
      consItem_cases item (runs items)
    · rw [hown, List.isChain_cons]
      refine ⟨?_, ih⟩
      rintro u hu ⟨ht, hu'⟩
      obtain hspecial | hstring := hapart
      · cases hheads with
        | special => cases ht
        | literal | empty => exact hspecial
      · exact absurd ((hstring u hu).symm.trans hu') (by simp)
    · rw [hruns, List.isChain_cons] at ih
      rw [hjoined, List.isChain_cons]
      exact ⟨fun v hv hboth => ih.1 v hv ⟨hu, hboth.2⟩, ih.2⟩

/-- A text is empty only where a range without characters stands by itself. -/
theorem text_ne_nil_of_mem_runs {items : List Item} (h : ∀ item ∈ items, item.chars ≠ []) :
    ∀ t ∈ runs items, t.text ≠ [] := by
  induction items with
  | nil => simp [runs]
  | cons item items ih =>
    obtain ⟨hitem, hitems⟩ := List.forall_mem_cons.mp h
    show ∀ t ∈ consItem item (runs items), t.text ≠ []
    obtain ⟨t, hheads, hruns⟩ := consItem_cases item (runs items)
    have ht : t.text ≠ [] := by
      cases hheads with
      | literal | special => exact List.cons_ne_nil _ _
      | empty => exact absurd rfl hitem
    obtain ⟨hown, _⟩ | ⟨u, later, hlater, _, hjoined⟩ := hruns
    · rw [hown]
      exact List.forall_mem_cons.mpr ⟨ht, ih hitems⟩
    · rw [hjoined]
      rw [hlater] at ih
      exact List.forall_mem_cons.mpr ⟨ht, List.forall_mem_of_forall_mem_cons (ih hitems)⟩

/-- Literal items alone are one string. -/
theorem runs_literals {text : List Char} (h : text ≠ []) (place : Place) :
    runs (text.map (.literal · place)) = [⟨text, .string, place⟩] := by
  obtain ⟨c, text, rfl⟩ := List.exists_cons_of_ne_nil h
  induction text generalizing c with
  | nil => rfl
  | cons d text ih =>
    show consItem (.literal c place) (runs ((d :: text).map (.literal · place))) = _
    rw [ih d (List.cons_ne_nil d text)]
    rfl

end GridPattern.Lexer
