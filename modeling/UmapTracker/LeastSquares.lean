import UmapTracker.Machine
import UmapTracker.Parallel

/-! A position that drifts between measurements, estimated from them by least squares. A track pays for the distance of
its start from what is believed of it, for each move and for each measurement it misses, over their variances. What the best tracks
to a position pay is kept by a belief: a mean and a variance. -/
namespace UmapTracker.LeastSquares
open Machine Parallel
variable {K : Type} [Field K] [LinearOrder K] [IsStrictOrderedRing K]

inductive Evidence (K : Type) where
  | drift (variance : K)
  | measured (value variance : K)
  deriving DecidableEq, Repr

structure Belief (K : Type) where
  mean : K
  variance : K
  deriving DecidableEq, Repr

def Belief.price (b : Belief K) (x : K) : K := (x - b.mean)^2 / b.variance

namespace Evidence

def Sound : Evidence K → Prop
  | drift variance => 0 ≤ variance
  | measured _ variance => 0 < variance

/- A track moves only where it may drift. -/
def Moves (move : K) : Evidence K → Prop
  | drift variance => variance = 0 → move = 0
  | measured _ _ => move = 0

def price (x move : K) : Evidence K → K
  | drift variance => move^2 / variance
  | measured value variance => (x - value)^2 / variance

/- What becomes of a belief. -/
def learn (b : Belief K) : Evidence K → Belief K
  | drift variance => ⟨b.mean,b.variance + variance⟩
  | measured value variance => ⟨b.mean + b.variance / (b.variance + variance) * (value - b.mean),parallel b.variance variance⟩

/- What even the best track pays. -/
def surprise (b : Belief K) : Evidence K → K
  | drift _ => 0
  | measured value variance => (value - b.mean)^2 / (b.variance + variance)

end Evidence

/- A track so far, by its position and what it has paid. -/
structure Track (K : Type) where
  position : K
  paid : K

def follow (t : Track K) (e : Evidence K × K) : Track K := ⟨t.position + e.2,t.paid + e.1.price t.position e.2⟩

structure Ledger (K : Type) where
  belief : Belief K
  paid : K

def enter (l : Ledger K) (e : Evidence K) : Ledger K := ⟨e.learn l.belief,l.paid + e.surprise l.belief⟩

omit [LinearOrder K] [IsStrictOrderedRing K] in
theorem enterBelief (l : Ledger K) (es : List (Evidence K)) : (run enter l es).belief = run (fun b e => e.learn b) l.belief es := by
  induction es generalizing l with
  | nil => rfl
  | cons e es ih => exact ih (enter l e)

/- What the best track to x pays. -/
def Ledger.price (l : Ledger K) (x : K) : K := l.paid + l.belief.price x

section Price
variable {b : Belief K} {s r : K}

theorem driftPrice (known : 0 < b.variance) (growing : 0 < s) (x move : K) :
    b.price x + move^2 / s = ((Evidence.drift s).learn b).price (x + move) +
      ((x - b.mean) * s - move * b.variance)^2 / (b.variance * s * (b.variance + s)) := by
  have sum : b.variance + s ≠ 0 := (add_pos known growing).ne'
  have one := known.ne'
  have two := growing.ne'
  rw [Belief.price,Belief.price,Evidence.learn]
  field_simp
  ring

theorem measuredPrice (known : 0 < b.variance) (noisy : 0 < r) (x value : K) :
    b.price x + (x - value)^2 / r = (Evidence.measured value r).surprise b + ((Evidence.measured value r).learn b).price x := by
  have sum : b.variance + r ≠ 0 := (add_pos known noisy).ne'
  have one := known.ne'
  have two := noisy.ne'
  rw [Belief.price,Belief.price,Evidence.learn,Evidence.surprise,parallel]
  field_simp
  ring

end Price

theorem learnKnown {b : Belief K} (known : 0 < b.variance) {e : Evidence K} (sound : e.Sound) : 0 < (e.learn b).variance := by
  cases e with
  | drift s => exact add_pos_of_pos_of_nonneg known sound
  | measured value r => exact parallelPositive known sound

/- No track pays less than the ledger says. -/
theorem followDearer {l : Ledger K} (known : 0 < l.belief.variance) {t : Track K} (dearer : l.price t.position ≤ t.paid)
    {e : Evidence K} (sound : e.Sound) {move : K} (moves : e.Moves move) :
    (enter l e).price (follow t (e,move)).position ≤ (follow t (e,move)).paid := by
  cases e with
  | drift s =>
    have whole : l.belief.price t.position + move^2 / s ≥ ((Evidence.drift s).learn l.belief).price (t.position + move) := by
      rcases (show 0 ≤ s from sound).eq_or_lt with none | growing
      · have stays : move = 0 := moves none.symm
        simp [stays,← none,Evidence.learn]
      · have rest : 0 ≤ ((t.position - l.belief.mean) * s - move * l.belief.variance)^2 / (l.belief.variance * s * (l.belief.variance + s)) := by
          positivity
        rw [driftPrice known growing]
        exact le_add_of_nonneg_right rest
    simp only [enter,follow,Ledger.price,Evidence.price,Evidence.surprise] at dearer ⊢
    linarith
  | measured value r =>
    have stays : move = 0 := moves
    have whole := measuredPrice known sound t.position value
    simp only [enter,follow,Ledger.price,Evidence.price,stays,add_zero] at dearer ⊢
    linarith

theorem followsDearer {es : List (Evidence K × K)} (sound : ∀ e ∈ es, e.1.Sound ∧ e.1.Moves e.2) {l : Ledger K}
    (known : 0 < l.belief.variance) {t : Track K} (dearer : l.price t.position ≤ t.paid) :
    (run enter l (es.map Prod.fst)).price (run follow t es).position ≤ (run follow t es).paid := by
  induction es generalizing l t with
  | nil => exact dearer
  | cons e es ih =>
    obtain ⟨⟨first,moves⟩,rest⟩ := List.forall_mem_cons.mp sound
    exact ih rest (learnKnown known first) (followDearer known dearer first moves)

/- Where the best track to y comes from: back towards the mean, by the drift's share of the variance. -/
def origin (b : Belief K) (y : K) : Evidence K → K
  | .drift s => b.mean + b.variance / (b.variance + s) * (y - b.mean)
  | .measured _ _ => y

omit [IsStrictOrderedRing K] in
theorem originMoves {b : Belief K} (known : 0 < b.variance) (y : K) (e : Evidence K) : e.Moves (y - origin b y e) := by
  cases e with
  | drift s =>
    intro none
    rw [origin,none,add_zero,div_self known.ne']
    ring
  | measured value r => exact sub_self y

theorem originPrice {l : Ledger K} (known : 0 < l.belief.variance) (y : K) {e : Evidence K} (sound : e.Sound) :
    l.price (origin l.belief y e) + e.price (origin l.belief y e) (y - origin l.belief y e) = (enter l e).price y := by
  cases e with
  | drift s =>
    rcases (show 0 ≤ s from sound).eq_or_lt with none | growing
    · have here : origin l.belief y (.drift s) = y := by
        rw [origin,← none,add_zero,div_self known.ne']
        ring
      rw [here,sub_self]
      simp [Evidence.price,enter,Ledger.price,Evidence.learn,Evidence.surprise,← none]
    · have sum : l.belief.variance + s ≠ 0 := (add_pos known growing).ne'
      have best := driftPrice known growing (origin l.belief y (.drift s)) (y - origin l.belief y (.drift s))
      have least : (origin l.belief y (.drift s) - l.belief.mean) * s - (y - origin l.belief y (.drift s)) * l.belief.variance = 0 := by
        rw [origin]
        field_simp
        ring
      rw [least,zero_pow two_ne_zero,zero_div,add_zero,add_sub_cancel] at best
      simp only [enter,Ledger.price,Evidence.price,Evidence.surprise,add_zero,add_assoc,best]
  | measured value r =>
    have whole := measuredPrice known sound y value
    simp only [origin,enter,Ledger.price,Evidence.price]
    linarith

/- And to every position some track pays just that. -/
theorem bestTrack {b : Belief K} (known : 0 < b.variance) {es : List (Evidence K)} (sound : ∀ e ∈ es, e.Sound) (y : K) :
    ∃ x, ∃ steps : List (Evidence K × K), steps.map Prod.fst = es ∧ (∀ e ∈ steps, e.1.Moves e.2) ∧
      run follow ⟨x,b.price x⟩ steps = ⟨y,(run enter ⟨b,0⟩ es).price y⟩ := by
  induction es using List.reverseRecOn generalizing y with
  | nil => exact ⟨y,[],rfl,by simp,by simp [Ledger.price]⟩
  | append_singleton es e ih =>
    have each : ∀ e ∈ es, e.Sound := fun e mem => sound e (List.mem_append_left _ mem)
    have last : e.Sound := sound e (List.mem_append_right _ List.mem_cons_self)
    have still : 0 < (run enter ⟨b,0⟩ es).belief.variance :=
      runKeeps (I := fun l : Ledger K => 0 < l.belief.variance) (fun _ _ sound known => learnKnown known sound) each known
    obtain ⟨x,steps,rfl,moves,paid⟩ := ih each (origin (run enter ⟨b,0⟩ es).belief y e)
    refine ⟨x,steps ++ [(e,y - origin (run enter ⟨b,0⟩ (steps.map Prod.fst)).belief y e)],by simp,?_,?_⟩
    · intro step mem
      rcases List.mem_append.mp mem with early | late
      · exact moves step early
      · rw [List.mem_singleton.mp late]
        exact originMoves still y e
    · rw [runAppend,runAppend,paid,runCons,runNil,runCons,runNil,follow,originPrice still y last,add_sub_cancel]

end UmapTracker.LeastSquares
