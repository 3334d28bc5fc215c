import Mathlib.Tactic.Ring
import CommandScript.Double.Reading

/-!
# Rounding to infinity

A quotient is rounded to a significand of at most 53 bits, which may come out as `2 ^ 53` and then
carries into the exponent (`Double.significandOf_le`). An even number such as `2 ^ 53` is what a
quotient is rounded to from half a unit below it on (`roundHalfEven_lt_iff`). With the greatest
shift of a finite number that is the step to infinity. So a quotient is rounded to a finite number
exactly if it is less than `2 ^ 1024 - 2 ^ 970`, half-way between the greatest finite number and the
next power of two (`Double.isFinite_ofRatio_iff`), and else to infinity
(`Double.ofRatio_of_not_isFinite`).
-/

namespace CommandScript

/-! ## Rounding a quotient -/

section

variable (num den : Nat)

theorem div_le_roundHalfEven : num / den ≤ roundHalfEven num den := by
  dsimp only [roundHalfEven]
  split
  · exact Nat.le_refl _
  · split <;> omega

theorem roundHalfEven_le : roundHalfEven num den ≤ num / den + 1 := by
  dsimp only [roundHalfEven]
  split
  · omega
  · split <;> omega

end

/-- A quotient is rounded to less than an even number exactly if it is more than one half less. -/
theorem roundHalfEven_lt_iff {num den n : Nat} (hden : 0 < den) (hn : n % 2 = 0) :
    roundHalfEven num den < n ↔ 2 * num + den < 2 * (n * den) := by
  have hnum : den * (num / den) + num % den = num := Nat.div_add_mod num den
  have hrem : num % den < den := Nat.mod_lt num hden
  have hle := roundHalfEven_le num den
  have hge := div_le_roundHalfEven num den
  rcases Nat.lt_trichotomy (num / den + 1) n with hlt | heq | hgt
  · -- the quotient lies below `n - 1`
    have hmul : (num / den + 2) * den ≤ n * den := Nat.mul_le_mul_right den hlt
    rw [Nat.add_mul, Nat.mul_comm (num / den)] at hmul
    constructor <;> omega
  · -- it lies between `n - 1`, which is odd, and `n`
    have hmul : n * den = den * (num / den) + den := by
      rw [← heq, Nat.add_mul, Nat.mul_comm (num / den), Nat.one_mul]
    dsimp only [roundHalfEven]
    split
    · constructor <;> omega
    · split <;> constructor <;> omega
  · have hmul : n * den ≤ num / den * den := Nat.mul_le_mul_right den (Nat.le_of_lt_succ hgt)
    rw [Nat.mul_comm (num / den)] at hmul
    constructor <;> omega

namespace Double

/-! ## The greatest magnitude -/

theorem isFinite_iff (d : Double) :
    d.isFinite = true ↔ d.bits.toNat / leadingBit % 2048 ≠ 2047 := by
  unfold isFinite view
  dsimp only
  split_ifs <;> simp_all

/-- The infinities have the greatest magnitude, and numbers of a smaller one are finite. -/
theorem isFinite_ofMagnitude_iff (negative : Bool) {m : Nat} (hm : m ≤ infinityBits) :
    (ofMagnitude negative m).isFinite = true ↔ m < infinityBits := by
  have hbits : (ofMagnitude negative m).bits.toNat =
      (if negative then signBit + m else m) % 2 ^ 64 := UInt64.toNat_ofNat'
  rw [isFinite_iff, hbits]
  unfold infinityBits signBit leadingBit at *
  cases negative <;> simp only [Bool.false_eq_true, if_true, if_false] <;> omega

/-! ## Quotients -/

/-- The least number that is rounded to infinity. It lies half-way between the greatest finite
number and the next power of two. -/
def overflow : Nat :=
  2 ^ 1024 - 2 ^ 970

/-- The shift of the number nearest to a quotient. -/
def shiftOf (num den : Nat) : Nat :=
  (num * scale / den).log2 - 52

/-- The significand of the number nearest to a quotient, before it carries. -/
def significandOf (num den : Nat) : Nat :=
  roundHalfEven (num * scale) (den * 2 ^ shiftOf num den)

variable {num den : Nat}

theorem ofRatio_eq (negative : Bool) (num den : Nat) :
    ofRatio negative num den = ofMagnitude negative
      (min (shiftOf num den * leadingBit + significandOf num den) infinityBits) :=
  rfl

theorem mul_two_pow_succ (den k : Nat) : den * 2 ^ (k + 1) = 2 * (den * 2 ^ k) := by
  rw [Nat.pow_add_one, ← Nat.mul_assoc, Nat.mul_comm]

section

variable (hden : 0 < den) {k : Nat}

include hden

/-- A quotient that is shifted less than `k` times has at most 52 bits above `k` shifts. -/
theorem mul_scale_lt (h : shiftOf num den < k) : num * scale < 2 ^ 52 * (den * 2 ^ k) := by
  have hlog : num * scale / den < 2 ^ ((num * scale / den).log2 + 1) := Nat.lt_log2_self
  have hpow : 2 ^ ((num * scale / den).log2 + 1) ≤ 2 ^ (52 + k) :=
    Nat.pow_le_pow_right (by decide) (by unfold shiftOf at h; omega)
  have hlt := (Nat.div_lt_iff_lt_mul hden).mp (Nat.lt_of_lt_of_le hlog hpow)
  rwa [Nat.pow_add, Nat.mul_assoc, Nat.mul_comm (2 ^ k)] at hlt

/-- A quotient that is shifted more than `k` times has at least 54 bits above `k` shifts. -/
theorem le_mul_scale (h : k < shiftOf num den) : 2 ^ 53 * (den * 2 ^ k) ≤ num * scale := by
  have hlog : 53 + k ≤ (num * scale / den).log2 := by
    unfold shiftOf at h
    omega
  have hne : num * scale / den ≠ 0 := by
    intro hzero
    rw [hzero, Nat.log2_zero] at hlog
    omega
  have hpow := Nat.le_trans (Nat.pow_le_pow_right (by decide) hlog) (Nat.log2_self_le hne)
  have hle := (Nat.le_div_iff_mul_le hden).mp hpow
  rwa [Nat.pow_add, Nat.mul_assoc, Nat.mul_comm (2 ^ k)] at hle

/-- The significand of a quotient has at most 53 bits, or it is `2 ^ 53` and carries. -/
theorem significandOf_le : significandOf num den ≤ 2 ^ 53 := by
  have hunit : 0 < den * 2 ^ shiftOf num den := Nat.mul_pos hden (Nat.two_pow_pos _)
  have hlt := mul_scale_lt hden (Nat.lt_add_one (shiftOf num den))
  rw [mul_two_pow_succ] at hlt
  refine Nat.le_trans (roundHalfEven_le _ _) ((Nat.div_lt_iff_lt_mul hunit).mpr ?_)
  omega

/-- If the quotient is shifted, its significand has no less than 53 bits. -/
theorem le_significandOf (h : k < shiftOf num den) : 2 ^ 52 ≤ significandOf num den := by
  have hunit : 0 < den * 2 ^ shiftOf num den := Nat.mul_pos hden (Nat.two_pow_pos _)
  obtain ⟨j, hj⟩ : ∃ j, shiftOf num den = j + 1 := ⟨shiftOf num den - 1, by omega⟩
  have hle := le_mul_scale hden (hj ▸ Nat.lt_add_one j)
  refine Nat.le_trans ((Nat.le_div_iff_mul_le hunit).mpr ?_) (div_le_roundHalfEven _ _)
  rw [hj, mul_two_pow_succ]
  omega

end

/-- The bound in half units of the least number of the format. The greatest shift of a finite number
is 2045. -/
theorem lt_overflow_mul_iff : num < overflow * den ↔
    2 * (num * scale) + den * 2 ^ 2045 < 2 * (2 ^ 53 * (den * 2 ^ 2045)) := by
  have hscale : 0 < 2 * scale := by decide +kernel
  have htop : 2 ^ 1024 = 2 ^ 54 * 2 ^ 970 := by decide +kernel
  have hshift : 2 ^ 2045 = 2 ^ 970 * (2 * scale) := by decide +kernel
  rw [overflow, htop, hshift]
  generalize 2 ^ 970 = half, scale = s at *
  have hleft : 2 * (num * s) + den * (half * (2 * s)) = (num + half * den) * (2 * s) := by ring
  have hright : 2 * (2 ^ 53 * (den * (half * (2 * s)))) = 2 ^ 54 * half * den * (2 * s) := by ring
  rw [hleft, hright, Nat.mul_lt_mul_right hscale, Nat.sub_mul]
  omega

/-- A quotient is rounded to a finite number exactly if it is less than `overflow`. -/
theorem isFinite_ofRatio_iff (negative : Bool) (hden : 0 < den) :
    (ofRatio negative num den).isFinite = true ↔ num < overflow * den := by
  have hfinite : (ofRatio negative num den).isFinite = true ↔
      shiftOf num den * leadingBit + significandOf num den < infinityBits := by
    rw [ofRatio_eq, isFinite_ofMagnitude_iff negative (Nat.min_le_right _ _)]
    omega
  have hpos : 0 < 2 ^ 2045 := by decide +kernel
  have hunit : 0 < den * 2 ^ 2045 := Nat.mul_pos hden hpos
  have hle : significandOf num den ≤ 2 ^ 53 := significandOf_le hden
  rw [hfinite, lt_overflow_mul_iff, infinityBits, leadingBit]
  rcases Nat.lt_trichotomy (shiftOf num den) 2045 with hlt | heq | hgt
  · have hnum := mul_scale_lt hden hlt
    constructor <;> omega
  · -- the quotient is finite unless its significand carries
    have hround : roundHalfEven (num * scale) (den * 2 ^ 2045) < 2 ^ 53 ↔
        2 * (num * scale) + den * 2 ^ 2045 < 2 * (2 ^ 53 * (den * 2 ^ 2045)) :=
      roundHalfEven_lt_iff hunit rfl
    rw [← hround, ← heq]
    change _ ↔ significandOf num den < 2 ^ 53
    omega
  · have hge := le_significandOf hden hgt
    have hnum := le_mul_scale hden hgt
    constructor <;> omega

/-- From `overflow` on it is rounded to infinity. -/
theorem ofRatio_of_not_isFinite {negative : Bool}
    (h : (ofRatio negative num den).isFinite ≠ true) :
    ofRatio negative num den = infinity negative := by
  rw [ofRatio_eq] at *
  have hle := mt (isFinite_ofMagnitude_iff negative (Nat.min_le_right _ _)).mpr h
  rw [Nat.le_antisymm (Nat.min_le_right _ _) (Nat.le_of_not_lt hle), infinity]

/-- A decimal with `k` digits after its point is a quotient. -/
theorem ofDecimal_eq_ofRatio (negative : Bool) (coefficient k : Nat) :
    ofDecimal ⟨negative, coefficient, -k⟩ = ofRatio negative coefficient (10 ^ k) := by
  cases k with
  | zero => simp [ofDecimal]
  | succ k =>
    have hneg : -((k + 1 : Nat) : Int) < 0 := by omega
    rw [ofDecimal, if_pos hneg, Int.natAbs_neg, Int.natAbs_natCast, Nat.pow_eq]

end Double

end CommandScript
