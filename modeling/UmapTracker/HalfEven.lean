import Mathlib.Tactic.FieldSimp
import Mathlib.Tactic.Linarith
import Mathlib.Tactic.Positivity
import UmapTracker.PrintedValues

/-! Rounding to the nearest, and a tie to the even neighbour: the bounds that a rounded number keeps, and those
it crosses. -/
namespace UmapTracker.HalfEven
open Rational Numerals PrintedValues

theorem halfEvenLe {x : ℚ} (nonneg : 0 ≤ x) (n : Nat) :
    halfEven x ≤ n ↔ x < n + 1/2 ∨ x = n + 1/2 ∧ n % 2 = 0 := by
  have low := Rat.floor_le x
  have high := Rat.lt_floor_add_one x
  have whole : 0 ≤ x.floor := Rat.le_floor_iff.mpr (by exact_mod_cast nonneg)
  obtain ⟨m,same⟩ := Int.eq_ofNat_of_zero_le whole
  have rounded : halfEven x = if x - m < 1/2 ∨ x - m = 1/2 ∧ m % 2 = 0 then m else m+1 := by
    have parity : (m : Int) % 2 = 0 ↔ m % 2 = 0 := by omega
    simp only [halfEven,same,Int.cast_natCast,parity]
    split <;> simp
  rw [same] at low high
  push_cast at low high
  rw [rounded]
  rcases lt_trichotomy m n with less | rfl | more
  · have step : (m : ℚ) + 1 ≤ n := by exact_mod_cast less
    refine iff_of_true ?_ (.inl (by linarith))
    split <;> omega
  · constructor
    · intro kept
      split at kept
      · rename_i down
        rcases down with less | ⟨tie,even⟩
        · exact .inl (by linarith)
        · exact .inr ⟨by linarith,even⟩
      · omega
    · intro near
      rw [if_pos]
      rcases near with less | ⟨tie,even⟩
      · exact .inl (by linarith)
      · exact .inr ⟨by linarith,even⟩
  · have step : (n : ℚ) + 1 ≤ m := by exact_mod_cast more
    refine iff_of_false ?_ ?_
    · split <;> omega
    · rintro (less | ⟨tie,_⟩) <;> linarith

/- What is at most a whole number is rounded to at most that. -/
theorem halfEvenBelow {x : ℚ} (nonneg : 0 ≤ x) {n : Nat} (below : x ≤ n) : halfEven x ≤ n :=
  (halfEvenLe nonneg n).mpr (.inl (by linarith))

/- The number that %.*f shows of a rational. -/
def roundedTo (places : Nat) (q : ℚ) : ℚ := fixedValue places (decide (q < 0)) (halfEven (|q| * 10^places))

theorem roundedRational (places : Nat) (q : ℚ) : rounded places q = some (roundedTo places q) := rfl

theorem roundedAbs (places : Nat) (q : ℚ) : |roundedTo places q| = halfEven (|q| * 10^places) / 10^places := by
  have nonneg : (0 : ℚ) ≤ halfEven (|q| * 10^places) / 10^places := by positivity
  unfold roundedTo fixedValue signed
  split
  · rw [abs_neg,abs_of_nonneg nonneg]
  · exact abs_of_nonneg nonneg

theorem roundedNonneg (places : Nat) {q : ℚ} (nonneg : 0 ≤ q) :
    roundedTo places q = halfEven (q * 10^places) / 10^places := by
  rw [roundedTo,abs_of_nonneg nonneg,decide_eq_false (not_lt.mpr nonneg)]
  rfl

/- Rounding does not leave a range whose ends are whole. -/
theorem roundedWithin (places : Nat) {q : ℚ} {n : Nat} (within : |q| ≤ n) : |roundedTo places q| ≤ n := by
  have scale : (0 : ℚ) < 10^places := by positivity
  have scaled : |q| * 10^places ≤ (n * 10^places : Nat) := by
    push_cast
    exact mul_le_mul_of_nonneg_right within scale.le
  have below := halfEvenBelow (mul_nonneg (abs_nonneg q) scale.le) scaled
  rw [roundedAbs,div_le_iff₀ scale]
  exact_mod_cast below

section Tenths
variable {q : ℚ}

theorem tenthsLt (nonneg : 0 ≤ q) (n : Nat) :
    roundedTo 1 q < (n+1) / 10 ↔ q * 10 < n + 1/2 ∨ q * 10 = n + 1/2 ∧ n % 2 = 0 := by
  have scaled := halfEvenLe (mul_nonneg nonneg (by norm_num : (0 : ℚ) ≤ 10)) n
  rw [← scaled,roundedNonneg 1 nonneg,pow_one,div_lt_div_iff_of_pos_right (by norm_num),← Nat.lt_succ_iff]
  exact_mod_cast Iff.rfl

/- A positive number shows as zero up to one twentieth. -/
theorem tenthsPositive (nonneg : 0 ≤ q) : 0 < roundedTo 1 q ↔ 1/20 < q := by
  have zero := halfEvenLe (mul_nonneg nonneg (by norm_num : (0 : ℚ) ≤ 10)) 0
  have small : halfEven (q * 10) ≤ 0 ↔ q ≤ 1/20 := by
    rw [zero]
    constructor
    · rintro (less | ⟨tie,_⟩) <;> push_cast at * <;> linarith
    · intro le
      rcases lt_or_eq_of_le le with less | rfl
      · exact .inl (by push_cast; linarith)
      · exact .inr ⟨by norm_num,rfl⟩
  rw [roundedNonneg 1 nonneg,pow_one,← not_le (a := q),← small,Nat.le_zero]
  constructor
  · intro positive none
    rw [none] at positive
    norm_num at positive
  · intro some
    have positive : (0 : ℚ) < halfEven (q * 10) := by exact_mod_cast Nat.pos_of_ne_zero some
    positivity

theorem roundedNeg (places : Nat) (negative : q < 0) : roundedTo places q = -roundedTo places (-q) := by
  rw [roundedNonneg places (neg_nonneg.mpr negative.le),roundedTo,abs_of_neg negative,decide_eq_true negative]
  rfl

/- An angle shows in its range from a twentieth below zero to a twentieth below the full circle. -/
theorem tenthsCircle : 0 ≤ roundedTo 1 q ∧ roundedTo 1 q < 360 ↔ -(1/20) ≤ q ∧ q < 7199/20 := by
  rcases lt_or_ge q 0 with negative | nonneg
  · have shown := tenthsPositive (neg_nonneg.mpr negative.le)
    have opposite := roundedNeg 1 negative
    constructor
    · rintro ⟨low,_⟩
      have small : ¬ (1/20 < -q) := fun large => absurd (shown.mpr large) (by linarith)
      exact ⟨by linarith [not_lt.mp small],by linarith⟩
    · rintro ⟨low,_⟩
      have none : ¬ (0 < roundedTo 1 (-q)) := fun positive => absurd (shown.mp positive) (by linarith)
      have zero : 0 ≤ roundedTo 1 (-q) := by
        rw [roundedNonneg 1 (neg_nonneg.mpr negative.le)]
        positivity
      exact ⟨by linarith [not_lt.mp none],by linarith⟩
  · have below := tenthsLt nonneg 3599
    have low : 0 ≤ roundedTo 1 q := by
      rw [roundedNonneg 1 nonneg]
      positivity
    have turn : ((3599 : Nat) + 1 : ℚ) / 10 = 360 := by norm_num
    rw [turn] at below
    rw [below]
    constructor
    · rintro ⟨_,less | ⟨_,even⟩⟩
      · push_cast at less
        exact ⟨by linarith,by linarith⟩
      · contradiction
    · rintro ⟨_,less⟩
      exact ⟨low,.inl (by push_cast; linarith)⟩

/- A positive accuracy shows in its range between a twentieth and a twentieth below the limit. -/
theorem tenthsAccuracy (positive : 0 < q) : 0 < roundedTo 1 q ∧ roundedTo 1 q < 1000 ↔ 1/20 < q ∧ q < 19999/20 := by
  have below := tenthsLt positive.le 9999
  have limit : ((9999 : Nat) + 1 : ℚ) / 10 = 1000 := by norm_num
  rw [limit] at below
  rw [tenthsPositive positive.le,below]
  constructor
  · rintro ⟨large,less | ⟨_,even⟩⟩
    · push_cast at less
      exact ⟨large,by linarith⟩
    · contradiction
  · rintro ⟨large,less⟩
    exact ⟨large,.inl (by push_cast; linarith)⟩

end Tenths
end UmapTracker.HalfEven
