/-!
# Words

Signed integers of 64 bits. Arithmetic on them wraps around.
-/
namespace BlackOil.Word

/-- The number of words. -/
def count : Nat := 0x10000000000000000

def least : Int := -0x8000000000000000

/-- The word that is congruent to an integer. -/
def wrap (n : Int) : Int := Int.bmod n count

/-- Whether an integer is a word. -/
def fits (n : Int) : Bool := wrap n == n

theorem fits_iff (n : Int) : fits n ↔ least ≤ n ∧ n < -least := by
  simp only [fits, wrap, count, least, beq_iff_eq, Int.bmod_def]
  split <;> omega

theorem wrap_of_fits {n : Int} (h : fits n) : wrap n = n := by
  simpa [fits] using h

/-- Wrapping around does not make a natural number larger. -/
theorem wrap_le {n : Int} (h : 0 ≤ n) : wrap n ≤ n := by
  simp only [wrap, count, Int.bmod_def]
  split <;> omega

example : wrap 0x10000000000000003 = 3 := by decide
example : wrap 0x8000000000000000 = least := by decide

end BlackOil.Word
