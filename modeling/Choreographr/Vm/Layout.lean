import Mathlib.Data.Nat.Bitwise

/-!
# Layouts

What a guest program asks its allocator for, and what a block takes of the heap for it.
-/

namespace Choreographr.Vm

def addressSpace : Nat := 2 ^ 64

def wrappingAdd (a b : Nat) : Nat := (a + b) % addressSpace

def wrappingSub (a b : Nat) : Nat := (a + (addressSpace - b)) % addressSpace

/-- A guest is compiled without overflow checks, and so the sums wrap. -/
def alignUp (addr align : Nat) : Nat :=
  wrappingSub (wrappingAdd addr align) 1 &&& (addressSpace - 1 - (align - 1))

/-- A size and the power of two that it is aligned to. The size rounded up to the alignment
is at most the largest `isize`. -/
structure Layout where
  size : Nat
  alignLog : Nat
  fits : size + (2 ^ alignLog - 1) < 2 ^ 63

def Layout.align (layout : Layout) : Nat := 2 ^ layout.alignLog

namespace Hole

/-- Two pointers and a size. -/
def headerSize : Nat := 24

def minSize : Nat := headerSize

def align : Nat := 8

def roundToAlign (size : Nat) : Nat := alignUp size align

end Hole

/-- What a block of the layout takes of the heap. -/
def Layout.room (layout : Layout) : Nat := Hole.roundToAlign (max layout.size Hole.minSize)

def Layout.effectiveAlign (layout : Layout) : Nat := max layout.align Hole.align

/-! ## Rounding up -/

theorem and_clear_low {x w k : Nat} (hX : x < 2 ^ w) (hK : k ≤ w) :
    x &&& (2 ^ w - 1 - (2 ^ k - 1)) = x / 2 ^ k * 2 ^ k := by
  have hMask : 2 ^ w - 1 - (2 ^ k - 1) = (2 ^ (w - k) - 1) <<< k := by
    rw [Nat.shiftLeft_eq, Nat.sub_mul, ← Nat.pow_add, Nat.sub_add_cancel hK, Nat.one_mul]
    have hPos := Nat.two_pow_pos k
    omega
  rw [hMask, ← Nat.shiftRight_eq_div_pow, ← Nat.shiftLeft_eq]
  apply Nat.eq_of_testBit_eq
  intro i
  rw [Nat.testBit_and, Nat.testBit_shiftLeft, Nat.testBit_shiftLeft, Nat.testBit_two_pow_sub_one,
    Nat.testBit_shiftRight]
  by_cases hI : k ≤ i
  · rw [Nat.add_sub_cancel' hI]
    by_cases hW : i < w
    · have hIn : i - k < w - k := by omega
      simp [hI, hIn]
    · have hBit : x.testBit i = false :=
        Nat.testBit_lt_two_pow (Nat.lt_of_lt_of_le hX (Nat.pow_le_pow_right (by decide) (by omega)))
      simp [hBit]
  · simp [hI]

theorem wrappingAdd_eq {a b : Nat} (h : a + b < 2 ^ 64) : wrappingAdd a b = a + b :=
  Nat.mod_eq_of_lt h

theorem wrappingSub_eq {a b : Nat} (hLe : b ≤ a) (h : a < 2 ^ 64) : wrappingSub a b = a - b := by
  unfold wrappingSub addressSpace
  rw [show a + (2 ^ 64 - b) = a - b + 2 ^ 64 by omega, Nat.add_mod_right]
  exact Nat.mod_eq_of_lt (by omega)

theorem alignUp_eq {addr k : Nat} (hAddr : addr < 2 ^ 63) (hAlign : 2 ^ k ≤ 2 ^ 63) :
    alignUp addr (2 ^ k) = (addr + 2 ^ k - 1) / 2 ^ k * 2 ^ k := by
  have hPos := Nat.two_pow_pos k
  unfold alignUp
  rw [wrappingAdd_eq (by omega), wrappingSub_eq (by omega) (by omega)]
  exact and_clear_low (by omega)
    ((Nat.pow_le_pow_iff_right (by decide)).mp (Nat.le_trans hAlign (by decide)))

theorem dvd_alignUp {addr k : Nat} (hAddr : addr < 2 ^ 63) (hAlign : 2 ^ k ≤ 2 ^ 63) :
    2 ^ k ∣ alignUp addr (2 ^ k) := by
  rw [alignUp_eq hAddr hAlign]
  exact Nat.dvd_mul_left _ _

theorem le_alignUp {addr k : Nat} (hAddr : addr < 2 ^ 63) (hAlign : 2 ^ k ≤ 2 ^ 63) :
    addr ≤ alignUp addr (2 ^ k) := by
  rw [alignUp_eq hAddr hAlign]
  have hPos := Nat.two_pow_pos k
  have hDiv := Nat.div_add_mod' (addr + 2 ^ k - 1) (2 ^ k)
  have hMod := Nat.mod_lt (addr + 2 ^ k - 1) hPos
  omega

theorem alignUp_le {addr k x : Nat} (hAddr : addr < 2 ^ 63) (hAlign : 2 ^ k ≤ 2 ^ 63)
    (hX : addr ≤ x) (hDvd : 2 ^ k ∣ x) : alignUp addr (2 ^ k) ≤ x := by
  rw [alignUp_eq hAddr hAlign]
  obtain ⟨q, rfl⟩ := hDvd
  have hPos := Nat.two_pow_pos k
  rw [Nat.mul_comm (2 ^ k) q]
  apply Nat.mul_le_mul_right
  have hBound : (addr + 2 ^ k - 1) / 2 ^ k < q + 1 := by
    rw [Nat.div_lt_iff_lt_mul hPos, Nat.add_mul, Nat.mul_comm q]
    omega
  omega

/-! ## What a layout asks for -/

theorem Layout.size_lt (layout : Layout) : layout.size < 2 ^ 63 := by
  have hFits := layout.fits
  omega

theorem Layout.alignLog_le (layout : Layout) : layout.alignLog ≤ 63 := by
  have hFits := layout.fits
  have hPos := Nat.two_pow_pos layout.alignLog
  have hPow : 2 ^ layout.alignLog ≤ 2 ^ 63 := by omega
  exact (Nat.pow_le_pow_iff_right (by decide)).mp hPow

theorem Layout.effectiveAlign_eq (layout : Layout) :
    layout.effectiveAlign = 2 ^ max layout.alignLog 3 := by
  show max (2 ^ layout.alignLog) (2 ^ 3) = _
  rcases Nat.le_total layout.alignLog 3 with h | h
  · rw [Nat.max_eq_right h, Nat.max_eq_right (Nat.pow_le_pow_right (by decide) h)]
  · rw [Nat.max_eq_left h, Nat.max_eq_left (Nat.pow_le_pow_right (by decide) h)]

theorem Layout.align_bound (layout : Layout) : 2 ^ max layout.alignLog 3 ≤ 2 ^ 63 :=
  Nat.pow_le_pow_right (by decide) (Nat.max_le.mpr ⟨layout.alignLog_le, by decide⟩)

theorem Layout.align_dvd (layout : Layout) : layout.align ∣ layout.effectiveAlign := by
  rw [effectiveAlign_eq]
  exact Nat.pow_dvd_pow 2 (Nat.le_max_left _ _)

theorem Layout.hole_align_dvd (layout : Layout) : Hole.align ∣ layout.effectiveAlign := by
  rw [effectiveAlign_eq]
  exact Nat.pow_dvd_pow 2 (Nat.le_max_right layout.alignLog 3)

theorem Layout.room_spec (layout : Layout) :
    layout.size ≤ layout.room ∧ Hole.minSize ≤ layout.room ∧ Hole.align ∣ layout.room ∧
      layout.room ≤ 2 ^ 63 := by
  have hSize := layout.size_lt
  have hBound : max layout.size Hole.minSize < 2 ^ 63 := Nat.max_lt.mpr ⟨hSize, by decide⟩
  have hAlign : 2 ^ 3 ≤ 2 ^ 63 := by decide
  have hLe : max layout.size Hole.minSize ≤ layout.room := le_alignUp (k := 3) hBound hAlign
  refine ⟨Nat.le_trans (Nat.le_max_left _ _) hLe, Nat.le_trans (Nat.le_max_right _ _) hLe,
    dvd_alignUp (k := 3) hBound hAlign, ?_⟩
  exact alignUp_le (k := 3) hBound hAlign (Nat.le_of_lt hBound) (by decide)

end Choreographr.Vm
