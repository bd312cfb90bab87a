/-
Which integers are in the range of binary64.

The nearest number to an integer of at most 1023 bits is finite whatever way it is rounded.  With 1024
bits the exponent is the greatest there is, and the mantissa must not be rounded up to `2 ^ 53`; the
integers below `2 ^ 1024 - 2 ^ 970` are those for which it is not.
-/
import Bulkhead.Number.Double

namespace Bulkhead
namespace Number

/-- Rounding stays below a number that the fraction is more than one half away from. -/
theorem roundHalfEven_lt {numerator denominator k : Nat}
    (h : 2 * numerator + denominator < 2 * (k * denominator)) :
    roundHalfEven numerator denominator < k := by
  have hdivision := Nat.div_add_mod numerator denominator
  rw [Nat.mul_comm denominator] at hdivision
  have hbelow : numerator / denominator < k := by
    refine Nat.lt_of_not_le fun hle => ?_
    have := Nat.mul_le_mul_right denominator hle
    omega
  have hnext : numerator / denominator + 1 = k → 2 * (numerator % denominator) < denominator := by
    intro hk
    rw [← hk, Nat.add_mul, Nat.one_mul] at h
    omega
  have hparity : numerator / denominator % 2 < 2 := Nat.mod_lt _ (by decide)
  simp only [roundHalfEven]
  split
  · omega
  · split <;> omega

namespace Double

/-- An integer is scaled so that its first bit becomes the first bit of the mantissa. -/
theorem exponentFor_one {n : Nat} (hn : n ≠ 0) : exponentFor n 1 = (n.log2 : Int) - 52 := by
  have hone : Nat.log2 1 = 0 := by decide
  have hbits : Nat.pow 2 n.log2 ≤ n := Nat.log2_self_le hn
  have hleast : max ((n.log2 : Int) - 52) leastExponent = (n.log2 : Int) - 52 := by
    rw [leastExponent]
    omega
  have hguess : ((n.log2 : Int) - (Nat.log2 1 : Int) - 52) = (n.log2 : Int) - 52 := by
    rw [hone]
    omega
  have hfilled : ¬ (scaleDown n 1 ((n.log2 : Int) - 52)).1 <
      (scaleDown n 1 ((n.log2 : Int) - 52)).2 * Nat.pow 2 52 := by
    rcases Nat.lt_or_ge n.log2 52 with hshort | hlong
    · obtain ⟨k, hk⟩ := Nat.exists_eq_add_of_lt hshort
      have hexponent : (n.log2 : Int) - 52 = Int.negSucc k := by
        rw [Int.negSucc_eq]
        omega
      have hpower : Nat.pow 2 52 = Nat.pow 2 n.log2 * Nat.pow 2 (k + 1) := by
        rw [hk]
        exact Nat.pow_add 2 n.log2 (k + 1)
      rw [hexponent]
      show ¬ n * Nat.pow 2 (k + 1) < 1 * Nat.pow 2 52
      rw [Nat.one_mul, hpower]
      exact Nat.not_lt.mpr (Nat.mul_le_mul_right _ hbits)
    · obtain ⟨k, hk⟩ := Nat.le.dest hlong
      have hexponent : (n.log2 : Int) - 52 = Int.ofNat k := by
        show (n.log2 : Int) - 52 = (k : Int)
        omega
      have hpower : Nat.pow 2 n.log2 = Nat.pow 2 k * Nat.pow 2 52 := by
        rw [← hk, Nat.add_comm]
        exact Nat.pow_add 2 k 52
      rw [hexponent]
      show ¬ n < 1 * Nat.pow 2 k * Nat.pow 2 52
      rw [Nat.one_mul, ← hpower]
      exact Nat.not_lt.mpr hbits
  rw [exponentFor, hguess]
  simp only [if_neg hfilled, hleast]

/-- With steps of `2 ^ (half + 1)` between numbers of 53 bits, the least integer that is rounded up
to 54 bits. -/
def roundingLimit (half : Nat) : Nat :=
  Nat.pow 2 (half + 54) - Nat.pow 2 half

section Range

-- The greatest step stays a variable here, so that its power of two is never computed.
variable {n half : Nat} (h : n < roundingLimit half)

include h

/-- At the greatest exponent the mantissa is not rounded up to 54 bits. -/
theorem mantissa_lt {exponent : Int} (hexponent : exponent = (half + 53 : Nat) - 52) :
    roundHalfEven (scaleDown n 1 exponent).1 (scaleDown n 1 exponent).2 < Nat.pow 2 53 := by
  have hstep : Nat.pow 2 (half + 1) = Nat.pow 2 half * 2 := Nat.pow_succ 2 half
  have htop : Nat.pow 2 (half + 54) = Nat.pow 2 half * Nat.pow 2 54 := Nat.pow_add 2 half 54
  have hfactor : Nat.pow 2 54 = 2 * Nat.pow 2 53 := by decide
  have hscale : exponent = Int.ofNat (half + 1) := by
    show exponent = ((half + 1 : Nat) : Int)
    omega
  rw [hscale]
  show roundHalfEven n (1 * Nat.pow 2 (half + 1)) < _
  apply roundHalfEven_lt
  rw [roundingLimit, htop, hfactor] at h
  rw [Nat.one_mul, hstep]
  generalize Nat.pow 2 half = unit at h ⊢
  generalize Nat.pow 2 53 = limit at h ⊢
  have hproduct : limit * (unit * 2) = unit * (2 * limit) := by
    rw [Nat.mul_left_comm, Nat.mul_comm limit 2]
  omega

theorem nearest_of_lt (hhalf : half = 970) (negative : Bool) :
    ∃ mantissa exponent, nearest negative n 1 = .finite negative mantissa exponent := by
  by_cases hn : n = 0
  · rw [nearest, if_pos hn]
    exact ⟨_, _, rfl⟩
  · have hbits : n.log2 < half + 54 :=
      (Nat.log2_lt hn).mpr (Nat.lt_of_lt_of_le h (Nat.sub_le _ _))
    have hexponent := exponentFor_one hn
    rw [nearest, if_neg hn]
    -- the `let`s are opened, but not the pair: the kernel would compute its parts
    simp -iota only []
    generalize exponentFor n 1 = exponent at hexponent ⊢
    have hmantissa := fun hlast : n.log2 = half + 53 =>
      mantissa_lt h (hexponent.trans (by rw [hlast]))
    generalize roundHalfEven (scaleDown n 1 exponent).1 (scaleDown n 1 exponent).2 = mantissa
      at hmantissa ⊢
    generalize Nat.pow 2 53 = limit at hmantissa ⊢
    by_cases hcarry : mantissa = limit
    · have hfits : ¬ greatestExponent < exponent + 1 := by
        rw [greatestExponent]
        omega
      rw [if_pos hcarry]
      exact ⟨_, _, if_neg hfits⟩
    · have hfits : ¬ greatestExponent < exponent := by
        rw [greatestExponent]
        omega
      rw [if_neg hcarry]
      exact ⟨_, _, if_neg hfits⟩

end Range

/-- The integers below `2 ^ 1024 - 2 ^ 970`, on both sides of zero. -/
def InRange (n : Int) : Prop :=
  n.natAbs < roundingLimit 970

theorem ofInt?_of_inRange {n : Int} (h : InRange n) : ∃ x, ofInt? n = some x := by
  obtain ⟨mantissa, exponent, hfinite⟩ := nearest_of_lt h rfl (decide (n < 0))
  rw [ofInt?, hfinite]
  exact ⟨_, rfl⟩

end Double
end Number
end Bulkhead
