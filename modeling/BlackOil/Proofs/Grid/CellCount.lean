import BlackOil.Grid.Cartesian
import BlackOil.Proofs.Scalar.Rounding

/-!
# The number of cells

The number of cells of a box that fits a word is found exactly. Where it does not, the
product of the sizes may still come out as a word. It is then the word that the number
wraps around to, because rounding in a binary format never leads below a power of two and
so never from beyond the words back to one.
-/
namespace BlackOil

namespace Binary.Format
variable {f : Format} {k n : Nat}

/-- A product is not below a power of two that one of its factors reaches. -/
theorem le_product (hf : 0 < f.precision) {factors : List Nat} (hpos : ∀ n ∈ factors, 0 < n)
    (h : ∃ n ∈ factors, 1 <<< k ≤ n) : 1 <<< k ≤ f.product factors := by
  have hround : ∀ {m : Nat}, 0 < m → 0 < f.roundNat m := fun hm => le_roundNat (k := 0) hf hm
  -- the factors so far have reached it, or a later one does
  have hrun : ∀ (l : List Nat) (m : Nat), (∀ n ∈ l, 0 < n) → 0 < m →
      (1 <<< k ≤ m ∨ ∃ n ∈ l, 1 <<< k ≤ n) →
        1 <<< k ≤ l.foldl (fun n factor => f.roundNat (n * f.roundNat factor)) m := by
    intro l
    induction l with
    | nil =>
      intro m _ _ hm
      exact hm.resolve_right nofun
    | cons n l ih =>
      intro m hl hpos hm
      rw [List.forall_mem_cons] at hl
      have hn := hround hl.1
      refine ih _ hl.2 (hround (Nat.mul_pos hpos hn)) ?_
      rcases hm with hm | ⟨n', hn', hk⟩
      · exact .inl (le_roundNat hf (Nat.le_trans hm (Nat.le_mul_of_pos_right m hn)))
      · rcases List.mem_cons.mp hn' with rfl | hn'
        · have hk := le_roundNat hf hk
          exact .inl (le_roundNat hf (Nat.le_trans hk (Nat.le_mul_of_pos_left _ hpos)))
        · exact .inr ⟨n', hn', hk⟩
  exact hrun factors 1 hpos Nat.one_pos (.inr h)

end Binary.Format

namespace Dimensions
variable {d : Dimensions}

theorem sizes_le_count (d : Dimensions) : d.nx ≤ d.count ∧ d.ny ≤ d.count ∧ d.nz ≤ d.count := by
  have hxy := Nat.mul_pos d.nx_pos d.ny_pos
  refine ⟨?_, ?_, Nat.le_mul_of_pos_left _ hxy⟩
  · exact Nat.le_trans (Nat.le_mul_of_pos_right _ d.ny_pos) (Nat.le_mul_of_pos_right _ d.nz_pos)
  · exact Nat.le_trans (Nat.le_mul_of_pos_left _ d.nx_pos) (Nat.le_mul_of_pos_right _ d.nz_pos)

/-- A number of cells that fits a word is found. -/
theorem cellCount_of_fits (h : Word.fits d.count) : d.cellCount = d.count := by
  have hle := d.sizes_le_count
  have hfits : ∀ n : Nat, n ≤ d.count → Word.fits n := by
    intro n hn
    rw [Word.fits_iff] at h ⊢
    omega
  have hsizes : [d.nx, d.ny, d.nz].all fun n => Word.fits n := by
    simp [hfits _ hle.1, hfits _ hle.2.1, hfits _ hle.2.2]
  rw [cellCount, if_pos hsizes, Word.wrap_of_fits h]

/-- If a word is found, it is the one that the number of cells wraps around to. -/
theorem cellCount_eq_wrap (h : Word.fits d.cellCount) : d.cellCount = Word.wrap d.count := by
  by_cases hwords : [d.nx, d.ny, d.nz].all fun n => Word.fits n
  · rw [cellCount, if_pos hwords]
  by_cases hlarge : [d.nx, d.ny, d.nz].any (Word.count ≤ ·)
  · have hcount : d.cellCount = d.count := by rw [cellCount, if_neg hwords, if_pos hlarge]
    rw [hcount] at h ⊢
    exact (Word.wrap_of_fits h).symm
  by_cases hmixed : [d.nx, d.ny, d.nz].any fun n => Word.fits n
  · -- a size beyond the words keeps the product beyond them
    rw [cellCount, if_neg hwords, if_neg hlarge, if_pos hmixed, Word.fits_iff, Word.least] at h
    obtain ⟨n, hn, hbeyond⟩ := List.all_eq_false.mp (Bool.not_eq_true _ ▸ hwords)
    have hreach : 1 <<< 63 ≤ n := by
      rw [Word.fits_iff, Word.least] at hbeyond
      omega
    have hpos : ∀ n ∈ [d.nx, d.ny, d.nz], 0 < n := by simp [d.nx_pos, d.ny_pos, d.nz_pos]
    have hproduct := Binary.Format.le_product (f := Binary.double) (by decide) hpos ⟨n, hn, hreach⟩
    omega
  · have hcount : d.cellCount = (d.count % Word.count : Nat) := by
      rw [cellCount, if_neg hwords, if_neg hlarge, if_neg hmixed]
    rw [hcount] at h ⊢
    rw [← Word.wrap_of_fits h, Word.wrap, Word.wrap, Int.natCast_emod, Int.emod_bmod]

end Dimensions
end BlackOil
