import Mathlib.Analysis.SpecialFunctions.Complex.Arg
import UmapTracker.Double

/-! Exact real arithmetic: the functions of libm are the ones of analysis. -/
namespace UmapTracker.RealArithmetic
open Double

noncomputable section

def holds (p : Prop) : Bool := @decide p (Classical.propDecidable p)

theorem holdsIff (p : Prop) : holds p = true ↔ p := @decide_eq_true_iff p (Classical.propDecidable p)

/- To the nearest whole number, from the middle to the even one. -/
def halfEven (x : ℝ) : Nat :=
  (if holds (x - ⌊x⌋ < ⌊x⌋ + 1 - x ∨ x - ⌊x⌋ = ⌊x⌋ + 1 - x ∧ ⌊x⌋ % 2 = 0) then ⌊x⌋ else ⌊x⌋ + 1).toNat

theorem halfEvenZero : halfEven 0 = 0 := by
  have nearer : (0 : ℝ) - ⌊(0 : ℝ)⌋ < ⌊(0 : ℝ)⌋ + 1 - 0 := by norm_num
  rw [halfEven,(holdsIff _).mpr (.inl nearer),if_pos rfl,Int.floor_zero]
  rfl

instance realDouble : Double ℝ where
  lit := fun q => q
  lt := fun x y => holds (x < y)
  le := fun x y => holds (x ≤ y)
  abs := fun x => |x|
  sqrt := Real.sqrt
  sin := Real.sin
  cos := Real.cos
  atan2 := fun y x => Complex.arg ⟨x,y⟩
  pi := Real.pi
  fixed := fun places x => .finite (holds (x < 0)) (halfEven (|x| * 10^places))
  fixedZero := by
    intro places
    have whole : holds (((0 : ℚ) : ℝ) < 0) = false := by
      rw [← Bool.not_eq_true,holdsIff]
      norm_num
    rw [whole,Rat.cast_zero,abs_zero,zero_mul,halfEvenZero]

theorem realLt {x y : ℝ} : lt x y = true ↔ x < y := holdsIff _
theorem realLe {x y : ℝ} : le x y = true ↔ x ≤ y := holdsIff _

end

end UmapTracker.RealArithmetic
