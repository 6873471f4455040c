import Mathlib.Algebra.Order.Field.Basic
import Mathlib.Tactic.FieldSimp
import Mathlib.Tactic.Linarith
import Mathlib.Tactic.LinearCombination
import Mathlib.Tactic.Positivity
import Mathlib.Tactic.Ring

/-! Positive quantities in parallel: their reciprocals add up. So combine the variances of independent
estimates; between two combinations a variance may grow by a constant. -/
namespace UmapTracker.Parallel
variable {K : Type} [Field K] [LinearOrder K] [IsStrictOrderedRing K]

def parallel (a b : K) : K := a * b / (a + b)

theorem parallelPositive {a b : K} (first : 0 < a) (second : 0 < b) : 0 < parallel a b :=
  div_pos (mul_pos first second) (add_pos first second)

theorem parallelInv {a b : K} (first : 0 < a) (second : 0 < b) : (parallel a b)⁻¹ = a⁻¹ + b⁻¹ := by
  have sum : a + b ≠ 0 := (add_pos first second).ne'
  have one := first.ne'
  have two := second.ne'
  rw [parallel]
  field_simp
  ring

theorem parallelBelow {a b : K} (first : 0 < a) (second : 0 < b) : parallel a b ≤ a := by
  rw [parallel,div_le_iff₀ (add_pos first second)]
  have square : 0 ≤ a * a := mul_self_nonneg a
  linarith [mul_add a a b]

/- A combination is no larger when its parts are no larger. -/
theorem parallelMono {a b c d : K} (first : 0 ≤ a) (second : 0 < b) (larger : a ≤ c) (larger' : b ≤ d) :
    parallel a b ≤ parallel c d := by
  have sum : 0 < a + b := add_pos_of_nonneg_of_pos first second
  have sum' : 0 < c + d := lt_of_lt_of_le sum (add_le_add larger larger')
  rw [parallel,parallel,div_le_div_iff₀ sum sum']
  have one : 0 ≤ a * c * (d - b) := mul_nonneg (mul_nonneg first (first.trans larger)) (sub_nonneg.mpr larger')
  have two : 0 ≤ b * d * (c - a) := mul_nonneg (mul_nonneg second.le (second.le.trans larger')) (sub_nonneg.mpr larger)
  have difference : c * d * (a + b) - a * b * (c + d) = a * c * (d - b) + b * d * (c - a) := by ring
  linarith

section Cycle
variable {q r e : K}

/- A combination with r, and a growth of q. -/
def cycle (q r p : K) : K := parallel p r + q

/- The value that a cycle leaves as it is. -/
structure Steady (q r e : K) : Prop where
  growth : 0 ≤ q
  added : 0 < r
  positive : 0 ≤ e
  root : e^2 = q * e + q * r

theorem steadyGrowth (steady : Steady q r e) : q ≤ e := by
  by_contra small
  have less : e < q := not_le.mp small
  have product : e * e ≤ q * e := mul_le_mul_of_nonneg_right less.le steady.positive
  have more : 0 < q * r := mul_pos (lt_of_le_of_lt steady.positive less) steady.added
  have root := steady.root
  rw [pow_two] at root
  linarith

theorem cycleSteady (steady : Steady q r e) : cycle q r e = e := by
  have sum : e + r ≠ 0 := (add_pos_of_nonneg_of_pos steady.positive steady.added).ne'
  have root := steady.root
  rw [cycle,parallel]
  field_simp
  linarith

theorem cycleMono {p p' : K} (added : 0 < r) (first : 0 ≤ p) (larger : p ≤ p') : cycle q r p ≤ cycle q r p' :=
  add_le_add_left (parallelMono first added larger le_rfl) q

/- What a cycle adds. -/
theorem cycleGain {p : K} (steady : Steady q r e) (first : 0 < p) :
    cycle q r p - p = (e - p) * (e + p - q) / (p + r) := by
  have sum : p + r ≠ 0 := (add_pos first steady.added).ne'
  have root := steady.root
  rw [cycle,parallel]
  field_simp
  linear_combination -root

theorem cyclePositive {p : K} (steady : Steady q r e) (first : 0 < p) : 0 < cycle q r p :=
  add_pos_of_pos_of_nonneg (parallelPositive first steady.added) steady.growth

/- A sequence of cycles moves towards the steady value, and stays on its side. -/
theorem cyclesSettle (steady : Steady q r e) {s : ℕ → K} (start : 0 < s 0) (next : ∀ n, s (n+1) = cycle q r (s n)) :
    (∀ n, s n ≤ e ∧ s n ≤ s (n+1)) ∨ (∀ n, e ≤ s n ∧ s (n+1) ≤ s n) := by
  have positive : ∀ n, 0 < s n := by
    intro n
    induction n with
    | zero => exact start
    | succ n ih =>
      rw [next]
      exact cyclePositive steady ih
  have rest : ∀ n, 0 ≤ e + s n - q := by
    intro n
    have := steadyGrowth steady
    linarith [positive n]
  rcases le_total (s 0) e with low | high
  · left
    have below : ∀ n, s n ≤ e := by
      intro n
      induction n with
      | zero => exact low
      | succ n ih =>
        rw [next,← cycleSteady steady]
        exact cycleMono steady.added (positive n).le ih
    intro n
    refine ⟨below n,sub_nonneg.mp ?_⟩
    rw [next,cycleGain steady (positive n)]
    exact div_nonneg (mul_nonneg (sub_nonneg.mpr (below n)) (rest n)) (add_pos (positive n) steady.added).le
  · right
    have above : ∀ n, e ≤ s n := by
      intro n
      induction n with
      | zero => exact high
      | succ n ih =>
        rw [next,← cycleSteady steady]
        exact cycleMono steady.added steady.positive ih
    intro n
    refine ⟨above n,sub_nonpos.mp ?_⟩
    rw [next,cycleGain steady (positive n)]
    exact div_nonpos_of_nonpos_of_nonneg (mul_nonpos_of_nonpos_of_nonneg (sub_nonpos.mpr (above n)) (rest n))
      (add_pos (positive n) steady.added).le

end Cycle
end UmapTracker.Parallel
