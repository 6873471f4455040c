import Mathlib.Algebra.BigOperators.Group.Finset.Piecewise
import Mathlib.Algebra.Order.BigOperators.Group.Finset
import Mathlib.Data.Fintype.Basic

/-! The total weight of finitely many parties, and what it becomes when one of them changes. -/
namespace UmapTracker.Weights
variable {ι β : Type} [Fintype ι]

def total (weight : β → Nat) (party : ι → β) : Nat := ∑ k, weight (party k)

theorem totalUpdate [DecidableEq ι] (weight : β → Nat) (party : ι → β) (k : ι) (after : β) :
    total weight (Function.update party k after) + weight (party k) = total weight party + weight after := by
  have split : ∀ f : ι → β, total weight f = weight (f k) + ∑ j ∈ Finset.univ.erase k, weight (f j) :=
    fun f => (Finset.add_sum_erase Finset.univ (fun j => weight (f j)) (Finset.mem_univ k)).symm
  have rest : ∑ j ∈ Finset.univ.erase k, weight (Function.update party k after j) =
      ∑ j ∈ Finset.univ.erase k, weight (party j) := by
    refine Finset.sum_congr rfl (fun j other => ?_)
    rw [Function.update_of_ne (Finset.ne_of_mem_erase other)]
  rw [split,split party,rest,Function.update_self]
  omega

/- Where a weight is one or zero, the parties are counted. -/
theorem totalCount {weight : β → Nat} {party : ι → β} {p : ι → Bool} (counts : ∀ k, weight (party k) = if p k then 1 else 0) :
    total weight party = (Finset.univ.filter fun k => p k).card := by
  rw [Finset.card_filter,total]
  exact Finset.sum_congr rfl (fun k _ => counts k)

theorem totalZero {weight : β → Nat} {party : ι → β} (none : ∀ k, weight (party k) = 0) : total weight party = 0 :=
  Finset.sum_eq_zero (fun k _ => none k)

end UmapTracker.Weights
