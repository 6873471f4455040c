import Mathlib.Algebra.Order.Round
import Mathlib.Tactic.Linarith
import Mathlib.Tactic.Ring

/-! Distance on a circle of any circumference, between numbers taken modulo it. -/
namespace UmapTracker.Circle
variable {K : Type} [Field K] [LinearOrder K] [IsStrictOrderedRing K] [FloorRing K] {turn : K}

/- What is left of the difference after the nearest whole number of turns. -/
def around (turn x y : K) : K := |x - y - turn * round ((x - y) / turn)|

/- No other number of turns leaves less. -/
theorem aroundLe (positive : 0 < turn) (x y : K) (k : ℤ) : around turn x y ≤ |x - y - turn * k| := by
  have scaled : ∀ z : ℤ, |x - y - turn * z| = turn * |(x - y) / turn - z| := by
    intro z
    have split : x - y - turn * z = turn * ((x - y) / turn - z) := by
      rw [mul_sub,mul_div_cancel₀ _ positive.ne']
    rw [split,abs_mul,abs_of_pos positive]
  rw [around,scaled,scaled]
  exact mul_le_mul_of_nonneg_left (round_le _ k) positive.le

/- Less than a turn apart, the way round is direct or through the origin. -/
theorem aroundNear (positive : 0 < turn) {x y : K} (near : |x - y| ≤ turn) :
    around turn x y = min |x - y| (turn - |x - y|) := by
  apply le_antisymm
  · refine le_min (by simpa using aroundLe positive x y 0) ?_
    rcases abs_cases (x - y) with ⟨same,_⟩ | ⟨same,_⟩
    · have one := aroundLe positive x y 1
      rw [abs_of_nonpos (by push_cast; linarith)] at one
      push_cast at one
      linarith
    · have one := aroundLe positive x y (-1)
      rw [abs_of_nonneg (by push_cast; linarith)] at one
      push_cast at one
      linarith
  · unfold around
    generalize round ((x - y) / turn) = k
    rcases eq_or_ne k 0 with rfl | other
    · exact (min_le_left _ _).trans (by simp)
    · refine (min_le_right _ _).trans ?_
      have whole : (1 : K) ≤ |(k : K)| := by
        rw [← Int.cast_abs]
        exact_mod_cast Int.one_le_abs other
      have turns : turn ≤ |turn * (k : K)| := by
        rw [abs_mul,abs_of_pos positive]
        exact le_mul_of_one_le_right positive.le whole
      have apart := abs_sub_abs_le_abs_sub (turn * (k : K)) (x - y)
      rw [abs_sub_comm (turn * (k : K)) (x - y)] at apart
      linarith

end UmapTracker.Circle
