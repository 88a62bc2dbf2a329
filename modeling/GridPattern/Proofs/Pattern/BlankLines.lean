import GridPattern.Proofs.Pattern.Moved
import GridPattern.Proofs.Token.Newlines

/-!
# Blank lines

A declaration ends with its line, and the next one begins with a label. So a blank line can stand where a line
was ended before, which is between two declarations, and at the end of the code, where one is ended in any case.
Before the first declaration it cannot: there a newline is a token, and no label.

**The law** (`readsAs_blank_lines`). More newlines after a newline or at the end of the code give code that is
read as the same program. Newlines before all code are at fault.
-/

namespace GridPattern

open Lexer

/-- A label is a string. -/
theorem Reader.string_of_not_isString {t : Token} (ht : t.isString = false) (what : Expectation)
    (ts : List Token) (finish : Place) (notes : List (Located ParseFault)) :
    string what ⟨t :: ts, finish, notes⟩ = .failed ⟨t.place, .expected what (.token t.text)⟩ notes := by
  have hrequire : require what Token.isString ⟨t :: ts, finish, notes⟩ =
      (failAt t what : Reader Token) ⟨ts, finish, notes⟩ := by
    rw [require, bind_apply]
    simp only [next, ht, Bool.false_eq_true, if_false]
  rw [string, bind_apply, hrequire, failAt]

/-- A program begins with a label. -/
theorem Program.ofTokens_of_not_isString {t : Token} (ht : t.isString = false) (ts : List Token) :
    ofTokens (t :: ts) = .error [⟨t.place, .expected .label (.token t.text)⟩] := by
  have hlabel : ∀ depth finish, Parser.declaration depth ⟨t :: ts, finish, []⟩ =
      .failed ⟨t.place, .expected .label (.token t.text)⟩ [] := by
    intro depth finish
    rw [Parser.declaration_eq, Reader.bind_apply, Reader.string_of_not_isString ht]
  unfold ofTokens Source.ofTokens Parser.declarations
  simp only [List.isEmpty_cons, Bool.false_eq_true, if_false, hlabel]
  rfl

/-- Code that is scanned and read as a program. -/
def ReadsAs (code : String) (p : Program) : Prop :=
  ∃ tokens, Token.scan code = .ok tokens ∧ Program.ofTokens tokens = .ok p

/-- **Blank lines between and after declarations do not matter**, and before all of them they do. A declaration
ends with its line, so where one may follow another the code before ends with a newline. -/
theorem readsAs_blank_lines {before after : String} {p : Program} (h : ReadsAs (before ++ after) p) (n : Nat) :
    (before.toList.getLast? = some '\n' → ReadsAs (before ++ String.ofList (newlines n) ++ after) p) ∧
      ((before ++ after).toList.getLast? ≠ some '\\' →
        ReadsAs (before ++ after ++ String.ofList (newlines n)) p) ∧
      (n ≠ 0 → ∃ tokens, Token.scan (String.ofList (newlines n) ++ (before ++ after)) = .ok tokens ∧
        Program.ofTokens tokens = .error [⟨⟨1, 1⟩, .expected .label (.token ['\n'])⟩]) := by
  obtain ⟨ts, hscan, hprogram⟩ := h
  refine ⟨fun hlast => ?_, fun hlast => ?_, fun hn => ?_⟩
  · rw [Token.scan, String.toList_append] at hscan
    obtain ⟨us, hus, hshapes⟩ := exists_scanChars_newlines hscan hlast n
    refine ⟨us, ?_, Program.ofTokens_of_shapes hprogram hshapes.symm⟩
    rw [Token.scan, String.toList_append, String.toList_append, String.toList_ofList, hus]
  · obtain ⟨us, hus, hshapes⟩ := exists_scanChars_end hscan hlast n
    refine ⟨us, ?_, Program.ofTokens_of_shapes hprogram hshapes.symm⟩
    rw [Token.scan, String.toList_append, String.toList_ofList, hus]
  · obtain ⟨us, hus⟩ := exists_scanChars_start hscan hn
    refine ⟨⟨['\n'], .special, .start⟩ :: us, ?_, Program.ofTokens_of_not_isString rfl us⟩
    rw [Token.scan, String.toList_append, String.toList_ofList]
    exact hus

/-- Two more lines after the first declaration, and two after the last. -/
theorem readsAs_two_blank_lines :
    let p : Program := ⟨[⟨"m", {}, .sequence [.literal ['a']]⟩, ⟨"n", {}, .sequence [.literal ['b']]⟩]⟩
    ReadsAs ("m:a\n" ++ String.ofList (newlines 2) ++ "n:b") p ∧
      ReadsAs ("m:a\n" ++ "n:b" ++ String.ofList (newlines 2)) p := by
  intro p
  have hscan : Token.scan ("m:a\n" ++ "n:b") = .ok [⟨['m'], .string, ⟨1, 1⟩⟩, ⟨[':'], .special, ⟨1, 2⟩⟩,
      ⟨['a'], .string, ⟨1, 3⟩⟩, ⟨['\n'], .special, ⟨1, 4⟩⟩, ⟨['n'], .string, ⟨2, 1⟩⟩, ⟨[':'], .special, ⟨2, 2⟩⟩,
      ⟨['b'], .string, ⟨2, 3⟩⟩, ⟨['\n'], .special, ⟨2, 4⟩⟩] := by decide +kernel
  have hcode : ReadsAs ("m:a\n" ++ "n:b") p := ⟨_, hscan, rfl⟩
  obtain ⟨hbetween, hend, _⟩ := readsAs_blank_lines hcode 2
  exact ⟨hbetween (by decide +kernel), hend (by decide +kernel)⟩

/-- One blank line before the only declaration, and the code is refused. -/
theorem not_readsAs_leading_blank_line :
    ReadsAs "m:a" ⟨[⟨"m", {}, .sequence [.literal ['a']]⟩]⟩ ∧ ∀ p, ¬ReadsAs "\nm:a" p := by
  have hscan : Token.scan "m:a" = .ok [⟨['m'], .string, ⟨1, 1⟩⟩, ⟨[':'], .special, ⟨1, 2⟩⟩,
      ⟨['a'], .string, ⟨1, 3⟩⟩, ⟨['\n'], .special, ⟨1, 4⟩⟩] := by decide +kernel
  have hblank : Token.scan "\nm:a" = .ok [⟨['\n'], .special, ⟨1, 1⟩⟩, ⟨['m'], .string, ⟨2, 1⟩⟩,
      ⟨[':'], .special, ⟨2, 2⟩⟩, ⟨['a'], .string, ⟨2, 3⟩⟩, ⟨['\n'], .special, ⟨2, 4⟩⟩] := by decide +kernel
  refine ⟨⟨_, hscan, rfl⟩, ?_⟩
  rintro p ⟨tokens, htokens, hprogram⟩
  rw [hblank] at htokens
  cases htokens
  cases hprogram

end GridPattern
