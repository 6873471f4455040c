import UmapTracker.Machine
import UmapTracker.Parallel

/-! A variance that grows and is then combined with another, again and again, by amounts that change from round to
round: above the steady value of the worst round and below that of the best one only a part of the distance is left,
and the more rounds there are the less. -/
namespace UmapTracker.Settling
open Machine Parallel
variable {K : Type} [Field K] [LinearOrder K] [IsStrictOrderedRing K]

/- By how much the variance grows, and what it is combined with. -/
structure Round (K : Type) where
  growth : K
  added : K
  deriving DecidableEq, Repr

def settle (p : K) (c : Round K) : K := parallel (p + c.growth) c.added

variable {q r e p : K}

/- What a distance from e comes to in one round. -/
theorem settleDifference {c : Round K} (low : 0 ≤ p) (steady : 0 ≤ e) (growth : 0 ≤ c.growth) (added : 0 < c.added) :
    settle p c - settle e c = c.added / (p + c.growth + c.added) * (c.added / (e + c.growth + c.added)) * (p - e) := by
  have one : p + c.growth + c.added ≠ 0 := by positivity
  have two : e + c.growth + c.added ≠ 0 := by positivity
  rw [settle,settle,parallel,parallel]
  field_simp
  ring

theorem settleMono {p' : K} {c c' : Round K} (low : 0 ≤ p) (growth : 0 ≤ c.growth) (added : 0 < c.added) (larger : p ≤ p')
    (longer : c.growth ≤ c'.growth) (worse : c.added ≤ c'.added) : settle p c ≤ settle p' c' :=
  parallelMono (add_nonneg low growth) added (add_le_add larger longer) worse

theorem settleNonneg {c : Round K} (low : 0 ≤ p) (growth : 0 ≤ c.growth) (added : 0 < c.added) : 0 ≤ settle p c :=
  div_nonneg (mul_nonneg (add_nonneg low growth) added.le) (add_nonneg (add_nonneg low growth) added.le)

/- A value that a round of growth q and addition r does not raise. -/
theorem settledAbove (growth : 0 ≤ q) (added : 0 < r) (steady : 0 ≤ e) (above : q * r ≤ e^2 + q * e) : settle e ⟨q,r⟩ ≤ e := by
  have sum : 0 < e + q + r := by positivity
  rw [settle,parallel,div_le_iff₀ sum]
  linarith

theorem settledBelow (growth : 0 ≤ q) (added : 0 < r) (steady : 0 ≤ e) (below : e^2 + q * e ≤ q * r) : e ≤ settle e ⟨q,r⟩ := by
  have sum : 0 < e + q + r := by positivity
  rw [settle,parallel,le_div_iff₀ sum]
  linarith

/- No round is worse. -/
def Within (q r : K) (c : Round K) : Prop := 0 ≤ c.growth ∧ c.growth ≤ q ∧ 0 < c.added ∧ c.added ≤ r

/- No round is better. -/
def Beyond (q r : K) (c : Round K) : Prop := q ≤ c.growth ∧ r ≤ c.added

theorem excessStep (steady : 0 ≤ e) (above : q * r ≤ e^2 + q * e) (low : 0 ≤ p) {c : Round K} (within : Within q r c) :
    max 0 (settle p c - e) ≤ max 0 (p - e) * (r / (e + q + r))^2 := by
  obtain ⟨growth,shorter,added,better⟩ := within
  have widest : 0 ≤ q := growth.trans shorter
  have worst : 0 < r := added.trans_le better
  have share : 0 ≤ (r / (e + q + r))^2 := sq_nonneg _
  refine max_le (mul_nonneg (le_max_left _ _) share) ?_
  have below : settle p c ≤ settle p ⟨q,r⟩ := settleMono low growth added le_rfl shorter better
  have settled := settledAbove widest worst steady above
  rcases le_total p e with small | large
  · have under : settle p ⟨q,r⟩ ≤ settle e ⟨q,r⟩ := settleMono low widest worst small le_rfl le_rfl
    rw [max_eq_left (sub_nonpos.mpr small),zero_mul]
    linarith
  · have nearer : r / (p + q + r) ≤ r / (e + q + r) := by gcongr
    have positive : 0 ≤ r / (e + q + r) := by positivity
    have difference := settleDifference (c := ⟨q,r⟩) low steady widest worst
    rw [max_eq_right (sub_nonneg.mpr large)]
    calc settle p c - e ≤ settle p ⟨q,r⟩ - settle e ⟨q,r⟩ := by linarith
      _ = r / (p + q + r) * (r / (e + q + r)) * (p - e) := difference
      _ ≤ r / (e + q + r) * (r / (e + q + r)) * (p - e) :=
        mul_le_mul_of_nonneg_right (mul_le_mul_of_nonneg_right nearer positive) (sub_nonneg.mpr large)
      _ = (p - e) * (r / (e + q + r))^2 := by ring

theorem shortfallStep (growth : 0 ≤ q) (added : 0 < r) (steady : 0 ≤ e) (below : e^2 + q * e ≤ q * r) (low : 0 ≤ p) {c : Round K}
    (beyond : Beyond q r c) : max 0 (e - settle p c) ≤ max 0 (e - p) * (r / (q + r) * (r / (e + q + r))) := by
  obtain ⟨longer,worse⟩ := beyond
  have share : 0 ≤ r / (q + r) * (r / (e + q + r)) := by positivity
  refine max_le (mul_nonneg (le_max_left _ _) share) ?_
  have above : settle p ⟨q,r⟩ ≤ settle p c := settleMono low growth added le_rfl longer worse
  have settled := settledBelow growth added steady below
  rcases le_total e p with large | small
  · have higher : settle e ⟨q,r⟩ ≤ settle p ⟨q,r⟩ := settleMono steady growth added large le_rfl le_rfl
    rw [max_eq_left (sub_nonpos.mpr large),zero_mul]
    linarith
  · have nearer : r / (p + q + r) ≤ r / (q + r) := by
      gcongr
      linarith
    have positive : 0 ≤ r / (e + q + r) := by positivity
    have difference := settleDifference (c := ⟨q,r⟩) low steady growth added
    rw [max_eq_right (sub_nonneg.mpr small)]
    calc e - settle p c ≤ settle e ⟨q,r⟩ - settle p ⟨q,r⟩ := by linarith
      _ = r / (p + q + r) * (r / (e + q + r)) * (e - p) := by linear_combination -difference
      _ ≤ r / (q + r) * (r / (e + q + r)) * (e - p) :=
        mul_le_mul_of_nonneg_right (mul_le_mul_of_nonneg_right nearer positive) (sub_nonneg.mpr small)
      _ = (e - p) * (r / (q + r) * (r / (e + q + r))) := by ring

/- A quantity that every step of an allowed run multiplies by ρ at most. -/
theorem fadesRun {σ ε : Type} {step : σ → ε → σ} {I : σ → Prop} {P : ε → Prop} {d : σ → K} {ρ : K} (share : 0 ≤ ρ)
    (one : ∀ s, I s → ∀ e, P e → I (step s e) ∧ d (step s e) ≤ d s * ρ) {es : List ε} (each : ∀ e ∈ es, P e) {s : σ}
    (start : I s) : d (run step s es) ≤ d s * ρ^es.length := by
  induction es generalizing s with
  | nil => simp
  | cons e es ih =>
    obtain ⟨first,rest⟩ := List.forall_mem_cons.mp each
    obtain ⟨after,once⟩ := one s start e first
    calc d (run step s (e::es)) ≤ d (step s e) * ρ^es.length := ih rest after
      _ ≤ d s * ρ * ρ^es.length := mul_le_mul_of_nonneg_right once (pow_nonneg share _)
      _ = d s * ρ^(e::es).length := by rw [List.length_cons,pow_succ]; ring

theorem excessFades (steady : 0 ≤ e) (above : q * r ≤ e^2 + q * e) {cs : List (Round K)} (within : ∀ c ∈ cs, Within q r c)
    (low : 0 ≤ p) : run settle p cs ≤ e + max 0 (p - e) * (r / (e + q + r))^(2 * cs.length) := by
  have one : ∀ p : K, 0 ≤ p → ∀ c, Within q r c →
      0 ≤ settle p c ∧ max 0 (settle p c - e) ≤ max 0 (p - e) * (r / (e + q + r))^2 := by
    intro p low c within
    exact ⟨settleNonneg low within.1 within.2.2.1,excessStep steady above low within⟩
  have faded := fadesRun (I := fun p => 0 ≤ p) (d := fun p => max 0 (p - e)) (sq_nonneg _) one within low
  rw [← pow_mul] at faded
  exact sub_le_iff_le_add'.mp ((le_max_right 0 _).trans faded)

theorem shortfallFades (growth : 0 ≤ q) (added : 0 < r) (steady : 0 ≤ e) (below : e^2 + q * e ≤ q * r) {cs : List (Round K)}
    (beyond : ∀ c ∈ cs, Beyond q r c) (low : 0 ≤ p) :
    e - max 0 (e - p) * (r / (q + r) * (r / (e + q + r)))^cs.length ≤ run settle p cs := by
  have share : 0 ≤ r / (q + r) * (r / (e + q + r)) := by positivity
  have one : ∀ p : K, 0 ≤ p → ∀ c, Beyond q r c →
      0 ≤ settle p c ∧ max 0 (e - settle p c) ≤ max 0 (e - p) * (r / (q + r) * (r / (e + q + r))) := by
    intro p low c beyond
    exact ⟨settleNonneg low (growth.trans beyond.1) (added.trans_le beyond.2),shortfallStep growth added steady below low beyond⟩
  have faded := fadesRun (I := fun p => 0 ≤ p) (d := fun p => max 0 (e - p)) share one beyond low
  exact sub_le_comm.mp ((le_max_right 0 _).trans faded)

end UmapTracker.Settling
