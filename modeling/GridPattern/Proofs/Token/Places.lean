import GridPattern.Proofs.Token.Runs
import GridPattern.Proofs.Token.Steps
import Mathlib.Data.List.Induction

/-!
# Where tokens begin

Parse errors point at tokens, and a token has one place for all of its text. The place is that of the item
that the token begins with, so it is told by where items come from.

`Origin` says that of an item, with the items before it as the lexer had them when it came to the code of
this one. `Begins` says it of a token, with the tokens before it as what the code before it is scanned to.

**The law** (`Token.scan_places`). A token stands where the code of its first character does: the character
itself, the one after a backslash or the end of the code. A string that begins with a range stands at the
dash of the range instead, which comes after the character that the range begins with.

What a string goes on with after its first item is not told here.
-/

namespace GridPattern

/-- Where the character after `past` stands: its line is one more than the newlines before it, and its
column one more than the characters after the last of them. -/
def Place.following (past : List Char) : Place :=
  ⟨1 + past.count '\n', 1 + (past.reverse.takeWhile (· != '\n')).length⟩

theorem Place.following_eq (past : List Char) : following past = start.afterAll past := by
  induction past using List.reverseRecOn with
  | nil => rfl
  | append_singleton past c ih =>
    rw [afterAll, List.foldl_concat, ← afterAll, ← ih, after]
    split
    · next hc => simp [following, hc, Nat.add_assoc]
    · next hc => simp [following, hc, Nat.add_comm]

namespace Lexer

open Token

/-! ## Items and the code that they come from -/

/-- How a literal character is written in code. -/
inductive Written : List Char → Char → Prop
  | plain {c : Char} : isSpecialChar c = false → Written [c] c
  | escaped {c d : Char} : escaped? c = some d → Written ['\\', c] d

/-- **Where an item comes from**: the code up to there, read to the items before it. -/
inductive Origin (code : List Char) : Item → List Item → Prop
  | literal {past rest : List Char} {c d : Char} {s : State} : code = past ++ c :: rest →
      Steps .start past s → s.items.range = none → s.literal? c = some d →
      Origin code (.literal d s.here) s.items.done
  | special {past rest : List Char} {c : Char} {s : State} : code = past ++ c :: rest →
      Steps .start past s → s.items.range = none → isSpecialChar c = true → c ≠ '\\' →
      Origin code (.special c s.here) s.items.done
  /-- All items of a range come from its dash. Those between are items of the range too. -/
  | range {past text rest : List Char} {first last : Char} {start : Place} {s : State} {item : Item}
      {between done newer : List Item} : code = past ++ '-' :: (text ++ rest) → Steps .start past s →
      s.items.range = none → s.items.done = .literal first start :: done → Written text last →
      rangeItems first last s.here = between.reverse ++ item :: newer →
      Origin code item (between ++ done)

variable {code : List Char} {s : State} {item : Item} {older done : List Item}

theorem Origin.append (h : Origin code item older) (later : List Char) :
    Origin (code ++ later) item older := by
  cases h with
  | literal hcode hsteps hrange hliteral =>
    exact .literal (by rw [hcode, List.append_assoc]; rfl) hsteps hrange hliteral
  | special hcode hsteps hrange hspecial hne =>
    exact .special (by rw [hcode, List.append_assoc]; rfl) hsteps hrange hspecial hne
  | @range past text rest _ _ _ _ _ _ _ _ hcode hsteps hrange hdone hwritten hitems =>
    have hcode : code ++ later = past ++ '-' :: (text ++ (rest ++ later)) := by simp [hcode]
    exact .range hcode hsteps hrange hdone hwritten hitems

/-- A range is open right after its dash, and after a backslash that comes next. -/
theorem exists_dash {r : Range} (h : Steps .start code s) (hr : s.items.range = some r) :
    s.afterNewline = false ∧ ∃ past tail s₀, code = past ++ '-' :: tail ∧
      tail = (if s.escaping then ['\\'] else []) ∧ Steps .start past s₀ ∧ s₀.items.range = none ∧
      s₀.items.done = .literal r.first r.place :: s.items.done ∧ s₀.here = r.dash := by
  induction code using List.reverseRecOn generalizing s with
  | nil =>
    cases h
    cases hr
  | append_singleton code c ih =>
    obtain ⟨s₁, hsteps, hstep⟩ := steps_concat_iff.mp h
    cases hstep with
    | skip _ hafter => exact absurd ((ih hsteps hr).1.symm.trans hafter) (by simp)
    | backslash hescaping =>
      obtain ⟨_, past, tail, s₀, rfl, htail, hs₀⟩ := ih hsteps hr
      rw [hescaping] at htail
      exact ⟨rfl, past, ['\\'], s₀, by simp [htail], rfl, hs₀⟩
    | literal =>
      unfold Items.literal at hr
      dsimp only at hr
      split at hr
      · next hrange => cases hrange.symm.trans hr
      · cases hr
    | special _ _ _ _ _ hrange => cases hrange.symm.trans hr
    | dash _ hrange hdone =>
      cases hr
      exact ⟨rfl, code, [], s₁, rfl, rfl, hsteps, hrange, hdone, rfl⟩

theorem written_of_literal {c d : Char} (h : s.literal? c = some d) :
    Written ((if s.escaping then ['\\'] else []) ++ [c]) d := by
  unfold State.literal? at h
  split_ifs at h ⊢ with hescaping hspecial
  · exact .escaped h
  · cases h
    exact .plain (by simpa using hspecial)

theorem suffix_append {first : List Item} (h : (item :: older) <:+ first ++ done) :
    (item :: older) <:+ done ∨ ∃ newer between, first = newer ++ item :: between ∧
      older = between ++ done := by
  obtain ⟨newer, hnewer⟩ := h
  obtain ⟨_ | ⟨_, between⟩, rfl, hitems⟩ | ⟨middle, rfl, rfl⟩ := List.append_eq_append_iff.mp hnewer
  · exact .inl (hitems ▸ List.suffix_refl _)
  · obtain ⟨rfl, rfl⟩ := List.cons.inj hitems
    exact .inr ⟨newer, between, rfl, rfl⟩
  · exact .inl (List.suffix_append _ _)

/-- **Every item comes from the code** that was read to the items before it. -/
theorem origin_of_suffix (h : Steps .start code s) (hitem : (item :: older) <:+ s.items.done) :
    Origin code item older := by
  induction code using List.reverseRecOn generalizing s item older with
  | nil =>
    cases h
    cases List.suffix_nil.mp hitem
  | append_singleton code c ih =>
    obtain ⟨s₁, hsteps, hstep⟩ := steps_concat_iff.mp h
    have hkept : ∀ {item older}, (item :: older) <:+ s₁.items.done → Origin (code ++ [c]) item older :=
      fun hitem => (ih hsteps hitem).append [c]
    cases hstep with
    | skip | backslash => exact hkept hitem
    | @literal _ d hliteral =>
      unfold Items.literal at hitem
      dsimp only at hitem
      split at hitem
      · next hrange =>
        obtain heq | hitem := List.suffix_cons_iff.mp hitem
        · cases heq
          exact .literal rfl hsteps hrange hliteral
        · exact hkept hitem
      · next r hr =>
        obtain hitem | ⟨newer, between, hitems, rfl⟩ := suffix_append hitem
        · exact hkept hitem
        · obtain ⟨_, past, tail, s₀, rfl, htail, hsteps₀, hrange, hdone, hdash⟩ := exists_dash hsteps hr
          have hwritten := written_of_literal hliteral
          rw [← htail] at hwritten
          have hcode : past ++ '-' :: tail ++ [c] = past ++ '-' :: ((tail ++ [c]) ++ []) := by simp
          have hitems : rangeItems r.first d s₀.here = between.reverse ++ item :: newer.reverse := by
            simpa [hdash] using congrArg List.reverse hitems
          exact .range hcode hsteps₀ hrange hdone hwritten hitems
    | special _ hspecial hne _ _ hrange =>
      obtain heq | hitem := List.suffix_cons_iff.mp hitem
      · cases heq
        exact .special rfl hsteps hrange hspecial hne
      · exact hkept hitem
    | dash _ _ hdone =>
      refine hkept ?_
      rw [hdone]
      exact hitem.trans (List.suffix_cons _ _)

end Lexer

namespace Token

open Lexer

/-- Code is scanned to these tokens and, unless they end its last line, to the end of that. -/
def ScansTo (code : List Char) (ts : List Token) : Prop :=
  scanChars code = .ok (endLastLine (.following code) ts)

/-- **How a token begins** in code after the tokens before it. The code up to where it stands is scanned
to these tokens. -/
inductive Begins (code : List Char) (before : List Token) : Token → Prop
  | itself {past rest text : List Char} {c : Char} : code = past ++ c :: rest → c ≠ '\\' →
      ScansTo past before →
      Begins code before ⟨c :: text, if isSpecialChar c then .special else .string, .following past⟩
  | escaped {past rest text : List Char} {c d : Char} : code = past ++ '\\' :: c :: rest →
      escaped? c = some d → ScansTo past before →
      Begins code before ⟨d :: text, .string, .following (past ++ ['\\'])⟩
  /-- A string that begins with a range stands at the dash. What the range begins with comes before. -/
  | range {past written rest text : List Char} {first last : Char} {start : Place} :
      code = past ++ '-' :: (written ++ rest) → Written written last →
      ScansTo past (before ++ [⟨[first], .string, start⟩]) → (first ≤ last → text.head? = some first) →
      Begins code before ⟨text, .string, .following past⟩
  | lineEnd : ScansTo code before → Begins code before ⟨['\n'], .special, .following code⟩

variable {code : List Char} {s : State} {item : Item} {older newer : List Item} {t : Token}
  {after : List Token}

theorem scansTo_of_steps (h : Steps .start code s) (hrange : s.items.range = none) :
    ScansTo code (runs s.items.done.reverse) := by
  refine scanChars_eq_ok_iff.mpr ⟨s, h, hrange, ?_⟩
  rw [endLastLine_runs, Place.following_eq, h.here_eq]
  rfl

theorem following_of_steps (h : Steps .start code s) : s.here = .following code := by
  rw [h.here_eq, Place.following_eq]
  rfl

/-- A backslash is the last character where the next one is escaped. -/
theorem exists_backslash (h : Steps .start code s) (hescaping : s.escaping = true) :
    ∃ past s₁, code = past ++ ['\\'] ∧ Steps .start past s₁ ∧ s₁.items = s.items := by
  obtain rfl | ⟨past, c, rfl⟩ := code.eq_nil_or_concat'
  · cases h
    cases hescaping
  · obtain ⟨s₁, hsteps, hstep⟩ := steps_concat_iff.mp h
    cases hstep with
    | backslash => exact ⟨past, s₁, rfl, hsteps, rfl⟩
    | skip | literal | special | dash => cases hescaping

theorem rangeItems_cons {first last : Char} {dash : Place} {newer : List Item}
    (h : rangeItems first last dash = item :: newer) :
    item = .empty dash ∧ last < first ∨ item = .literal first dash := by
  unfold rangeItems at h
  split at h
  · next hlt =>
    cases h
    exact .inl ⟨rfl, hlt⟩
  · next hlt =>
    rw [Std.Rcc.toList_eq_if_roc, if_pos (Char.not_lt.mp hlt)] at h
    cases h
    exact .inr rfl

theorem not_isSpecial_of_mem_rangeItems {first last : Char} {dash : Place} {j : Item}
    (h : j ∈ rangeItems first last dash) : ¬j.IsSpecial := by
  unfold rangeItems at h
  split at h
  · rw [List.mem_singleton.mp h]
    exact id
  · obtain ⟨c, _, rfl⟩ := List.mem_map.mp h
    exact id

/-- A token begins where the item that it begins with comes from. -/
theorem begins_of_origin (horigin : Origin code item older) (hbreaks : Breaks older item)
    (hheads : Heads item t) : Begins code (runs older.reverse) t := by
  cases horigin with
  | @literal past rest c d s hcode hsteps hrange hliteral =>
    cases hheads
    have hpast := scansTo_of_steps hsteps hrange
    rw [following_of_steps hsteps]
    unfold State.literal? at hliteral
    split_ifs at hliteral with hescaping hspecial
    · obtain ⟨past, s₁, rfl, hsteps₁, hitems⟩ := exists_backslash hsteps hescaping
      have hpast := scansTo_of_steps hsteps₁ (hitems ▸ hrange)
      rw [hitems] at hpast
      exact .escaped (by simpa using hcode) hliteral hpast
    · cases hliteral
      have hordinary : isSpecialChar c = false := by simpa using hspecial
      have hkind : Kind.string = if isSpecialChar c then .special else .string := by simp [hordinary]
      rw [hkind]
      exact .itself hcode (ne_of_ordinary hordinary (by decide)) hpast
  | @special past rest c s hcode hsteps hrange hspecial hne =>
    cases hheads
    have hkind : Kind.special = if isSpecialChar c then .special else .string := by simp [hspecial]
    rw [following_of_steps hsteps, hkind]
    exact .itself hcode hne (scansTo_of_steps hsteps hrange)
  | @range past written rest first last start s item between done newer hcode hsteps hrange hdone hwritten
      hitems =>
    -- The token before ends before the range, so the item is the first of the range.
    have hfirst : between = [] := by
      cases between with
      | nil => rfl
      | cons j between =>
        have hj : ¬j.IsSpecial := not_isSpecial_of_mem_rangeItems (by rw [hitems]; simp)
        have hitem : ¬item.IsSpecial := not_isSpecial_of_mem_rangeItems (by rw [hitems]; simp)
        exact absurd (hbreaks.resolve_left hitem j rfl) hj
    subst hfirst
    have hitem := (rangeItems_cons hitems)
    have hdones : ∀ j ∈ done.head?, j.IsSpecial := by
      refine hbreaks.resolve_left ?_
      obtain ⟨rfl, _⟩ | rfl := hitem <;> exact id
    have hpast := scansTo_of_steps hsteps hrange
    rw [hdone, List.reverse_cons, runs_concat_literal hdones] at hpast
    rw [List.nil_append]
    obtain ⟨rfl, hlt⟩ | rfl := hitem <;> cases hheads <;> rw [following_of_steps hsteps]
    · exact .range hcode hwritten hpast fun hle => absurd hlt (Char.not_lt.mpr hle)
    · exact .range hcode hwritten hpast fun _ => rfl

theorem begins_of_runs {before : List Token} (hsteps : Steps .start code s)
    (h : runs s.items.done.reverse = before ++ t :: after) : Begins code before t := by
  obtain ⟨older, item, newer, hitems, rfl, hruns, hbreaks⟩ := exists_begin h
  have hdone : s.items.done = newer.reverse ++ item :: older := by
    simpa using congrArg List.reverse hitems
  have horigin : Origin code item older := origin_of_suffix hsteps ⟨newer.reverse, hdone.symm⟩
  exact begins_of_origin horigin hbreaks (heads_of_runs hruns)

/-- **Tokens stand where they begin**, those of all code that can be scanned. -/
theorem scan_places {code : String} {before after : List Token} {t : Token}
    (h : scan code = .ok (before ++ t :: after)) : Begins code.toList before t := by
  obtain ⟨s, hsteps, hrange, htokens⟩ := scanChars_eq_ok_iff.mp h
  unfold tokens at htokens
  split at htokens
  · next place done hdone =>
    rw [← hdone] at htokens
    exact begins_of_runs hsteps htokens.symm
  · rw [List.reverse_cons, runs_special] at htokens
    obtain rfl | ⟨middle, u, rfl⟩ := after.eq_nil_or_concat'
    · obtain ⟨rfl, ht⟩ := List.append_inj' htokens rfl
      cases ht
      rw [following_of_steps hsteps]
      exact .lineEnd (scansTo_of_steps hsteps hrange)
    · rw [← List.cons_append, ← List.append_assoc] at htokens
      exact begins_of_runs hsteps (List.append_inj' htokens rfl).1.symm

/-- The string of an escaped dot stands at the dot, and that of a range at its dash. -/
theorem scan_places_second_line :
    Begins "m:\\.x\nb-d".toList [⟨['m'], .string, ⟨1, 1⟩⟩, ⟨[':'], .special, ⟨1, 2⟩⟩]
        ⟨['.', 'x'], .string, ⟨1, 4⟩⟩ ∧
      Begins "m:\\.x\nb-d".toList [⟨['m'], .string, ⟨1, 1⟩⟩, ⟨[':'], .special, ⟨1, 2⟩⟩,
        ⟨['.', 'x'], .string, ⟨1, 4⟩⟩, ⟨['\n'], .special, ⟨1, 6⟩⟩] ⟨['b', 'c', 'd'], .string, ⟨2, 2⟩⟩ := by
  have hscan : scan "m:\\.x\nb-d" = .ok [⟨['m'], .string, ⟨1, 1⟩⟩, ⟨[':'], .special, ⟨1, 2⟩⟩,
      ⟨['.', 'x'], .string, ⟨1, 4⟩⟩, ⟨['\n'], .special, ⟨1, 6⟩⟩, ⟨['b', 'c', 'd'], .string, ⟨2, 2⟩⟩,
      ⟨['\n'], .special, ⟨2, 4⟩⟩] := by decide +kernel
  exact ⟨@scan_places _ [_, _] _ _ hscan, @scan_places _ [_, _, _, _] _ _ hscan⟩

/-- The string of a range begins with the first character of the code and stands at the second. -/
theorem range_stands_at_dash :
    scan "a-e" = .ok [⟨['a', 'b', 'c', 'd', 'e'], .string, .following ['a']⟩, ⟨['\n'], .special, ⟨1, 4⟩⟩] ∧
      Place.following ['a'] ≠ Place.following [] := by
  decide +kernel

end Token

end GridPattern
