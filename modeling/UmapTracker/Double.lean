import Mathlib.Data.Nat.Factorial.Basic
import Mathlib.Data.Rat.Floor
import Mathlib.Tactic.NormNum
import UmapTracker.Text

/-! The C type double, as far as the program uses it: arithmetic, comparison, a few functions
of libm and printing with %.*f. The program is stated over any such type. -/
namespace UmapTracker
open Text

/- A value as %.*f shows it: its sign, and the number of units of the last place where it is finite. -/
inductive Shown where
  | finite (negative : Bool) (units : Nat)
  | infinite (negative : Bool)
  | notANumber (negative : Bool)
  deriving DecidableEq, Repr

class Double (α : Type) extends Add α, Sub α, Mul α, Div α where
  lit : ℚ → α
  lt : α → α → Bool
  le : α → α → Bool
  abs : α → α
  sqrt : α → α
  sin : α → α
  cos : α → α
  atan2 : α → α → α
  pi : α
  fixed : Nat → α → Shown
  fixedZero : ∀ places, fixed places (lit 0) = .finite false 0

/- What IEEE 754 and exact arithmetic have in common, as far as a first fix needs it. -/
class LawfulDouble (α : Type) [Double α] : Prop where
  subZero : ∀ x : α, x - Double.lit 0 = x
  addZero : (Double.lit 0 : α) + Double.lit 0 = Double.lit 0
  mulZero : ∀ q : ℚ, 0 ≤ q → (Double.lit 0 : α) * Double.lit q = Double.lit 0
  sqrtZero : Double.sqrt (Double.lit 0 : α) = Double.lit 0
  notAbove : ∀ x y : α, Double.lt x y = true → Double.lt y x = false
  notFrom : ∀ x y : α, Double.lt x y = true → Double.le y x = false
  divPositive : ∀ x : α, Double.lt (Double.lit 0) x = true → Double.lt x (Double.lit 1000) = true →
    Double.lt (Double.lit 0) (Double.lit 100 / x) = true

namespace Double
variable {α : Type} [Double α]

/- %.*f -/
def print (places : Nat) (x : α) : Bytes :=
  match fixed places x with
  | .finite negative units => fixedPoint places negative units
  | .infinite negative => ascii (if negative then "-inf" else "inf")
  | .notANumber negative => ascii (if negative then "-nan" else "nan")

def printed (b : UInt8) : Bool := numeral b || (ascii "infa").contains b

theorem printedCases {b : UInt8} (shown : printed b = true) : 48 ≤ b ∧ b ≤ 57 ∨ b ∈ [45,46,97,102,105,110] := by
  have letters : ascii "infa" = [105,110,102,97] := by decide
  simp only [printed,numeral,digit,letters,Bool.or_eq_true,Bool.and_eq_true,decide_eq_true_eq,beq_iff_eq,List.contains_iff_mem] at shown
  rcases shown with ((digits | rfl) | rfl) | mem
  · exact .inl digits
  · exact .inr (by decide)
  · exact .inr (by decide)
  · exact .inr (by revert b; decide)

theorem printPrinted (places : Nat) (x : α) : ∀ b ∈ print places x, printed b = true := by
  intro b mem
  unfold print at mem
  split at mem
  · simp [printed,fixedPointNumeral _ _ _ b mem]
  · rename_i negative _
    have letters : ∀ negative : Bool, (ascii (if negative then "-inf" else "inf")).all printed = true := by decide
    exact List.all_eq_true.mp (letters negative) b mem
  · rename_i negative _
    have letters : ∀ negative : Bool, (ascii (if negative then "-nan" else "nan")).all printed = true := by decide
    exact List.all_eq_true.mp (letters negative) b mem

theorem printZero (places : Nat) : print places (lit 0 : α) = fixedPoint places false 0 := by
  rw [print,fixedZero]

end Double

/- Exact rational arithmetic, with the functions of libm to about fifteen places. -/
namespace Rational

def halfEven (q : ℚ) : Nat :=
  let whole := q.floor
  let part := q - whole
  (if part < 1/2 ∨ part = 1/2 ∧ whole % 2 = 0 then whole else whole+1).toNat

def fixed (places : Nat) (q : ℚ) : Shown := .finite (decide (q < 0)) (halfEven (|q| * 10^places))

def sqrt (q : ℚ) : ℚ := (Nat.sqrt (q * 10^30).floor.toNat : ℚ) / 10^15

def sum (term : Nat → ℚ) : Nat → ℚ
  | 0 => 0
  | n+1 => sum term n + term n

def sin (x : ℚ) : ℚ := sum (fun n => (-1)^n * x^(2*n+1) / (2*n+1).factorial) 20

def cos (x : ℚ) : ℚ := sum (fun n => (-1)^n * x^(2*n) / (2*n).factorial) 20

def pi : ℚ := 314159265358979323846 / 10^20

-- for |t| at most 1
def atan (t : ℚ) : ℚ :=
  sum (fun n => 2^(2*n) * n.factorial^2 / (2*n+1).factorial * (t^(2*n+1) / (1+t^2)^(n+1))) 50

def atan2 (y x : ℚ) : ℚ :=
  if |y| ≤ |x| then
    if 0 < x then atan (y/x)
    else if x < 0 then atan (y/x) + (if 0 ≤ y then pi else -pi)
    else 0
  else (if 0 < y then pi/2 else -(pi/2)) - atan (x/y)

end Rational

instance rationalDouble : Double ℚ where
  lit := id
  lt := fun x y => decide (x < y)
  le := fun x y => decide (x ≤ y)
  abs := fun x => |x|
  sqrt := Rational.sqrt
  sin := Rational.sin
  cos := Rational.cos
  atan2 := Rational.atan2
  pi := Rational.pi
  fixed := Rational.fixed
  fixedZero := by
    intro places
    simp only [id,Rational.fixed,abs_zero,zero_mul]
    decide +kernel

instance rationalLawful : LawfulDouble ℚ where
  subZero := sub_zero
  addZero := add_zero 0
  mulZero := fun q _ => zero_mul q
  sqrtZero := by decide +kernel
  notAbove := fun _ _ below => decide_eq_false (of_decide_eq_true below).le.not_gt
  notFrom := fun _ _ below => decide_eq_false (of_decide_eq_true below).not_ge
  divPositive := by
    intro x positive _
    have hundred : (0 : ℚ) < 100 := by norm_num
    exact decide_eq_true (div_pos hundred (of_decide_eq_true positive))

example : Double.print 1 (-(5/4) : ℚ) = ascii "-1.2" := by decide +kernel

end UmapTracker
