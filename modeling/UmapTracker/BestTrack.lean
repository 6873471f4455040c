import UmapTracker.ErrorBand
import UmapTracker.LeastSquares

/-! What the position filter is for, in exact arithmetic: on each axis its estimate is where the least-squares track
through the predictions and the fixes ends, and its error says how much a track to another place pays. -/
namespace UmapTracker.BestTrack
open Machine KalmanFilter FilterHull FilterRuns FilterErrors FilterMemory ErrorBand LeastSquares

/- A prediction lets the position drift, and a fix measures it; g has the noises. -/
def evidence (axis : Axis) (g : KalmanFilter1D ℚ) : Op → Option (Evidence ℚ)
  | .predict dt => some (.drift (g.processNoise * |dt|))
  | .update latitude longitude altitude accuracyM =>
      if Accepted accuracyM then some (.measured (axis.of ⟨latitude,longitude,altitude,accuracyM⟩) (g.measurementNoise * accuracyM / 100))
      else none
  | .reset => none

def belief (f : KalmanFilter1D ℚ) : Belief ℚ := ⟨f.estimate,f.getError⟩

theorem evidenceSound (axis : Axis) {g : KalmanFilter1D ℚ} (sound : Sound g) (ops : List Op) :
    ∀ e ∈ ops.filterMap (evidence axis g), e.Sound := by
  intro e mem
  obtain ⟨op,_,found⟩ := List.mem_filterMap.mp mem
  cases op with
  | predict dt =>
    cases Option.some.inj found
    exact mul_nonneg sound.processNoise (abs_nonneg dt)
  | update latitude longitude altitude accuracyM =>
    simp only [evidence] at found
    split at found
    · rename_i accepted
      cases Option.some.inj found
      exact div_pos (mul_pos sound.measurementNoise accepted.1) (by norm_num)
    · contradiction
  | reset => contradiction

theorem learnedUpdate {g f : KalmanFilter1D ℚ} (underway : Underway g f) (z : ℚ) {accuracyM : ℚ} (accepted : Accepted accuracyM) :
    belief (f.update z (100 / accuracyM)) = (Evidence.measured z (g.measurementNoise * accuracyM / 100)).learn (belief f) := by
  have positive := weighed accepted
  have taken := updateSpec f z positive
  rw [if_pos underway.started] at taken
  have estimate : (f.update z (100 / accuracyM)).estimate = f.estimate + gain f (100 / accuracyM) * (z - f.estimate) := by rw [taken]
  have error : (f.update z (100 / accuracyM)).getError = _ := (underwayUpdate underway z positive).2
  rw [belief,estimate,error,gain,underway.measurement,div_div_eq_mul_div]
  rfl

theorem learnedStep (axis : Axis) {g : KalmanFilter1D ℚ} {f : KalmanFilterND ℚ} (underway : Underway g (axis.filter f)) {op : Op}
    (kept : op ≠ .reset) :
    Underway g (axis.filter (step f op)) ∧
      belief (axis.filter (step f op)) = ((evidence axis g op).elim (belief (axis.filter f)) (fun e => e.learn (belief (axis.filter f)))) := by
  cases op with
  | predict dt =>
    have grown : axis.filter (step f (.predict dt)) = aged (axis.filter f) |dt| := axis.filterPredict f dt
    rw [grown]
    refine ⟨underwayAged underway (abs_nonneg dt),?_⟩
    rw [belief,aged,underway.process]
    rfl
  | update latitude longitude altitude accuracyM =>
    by_cases accepted : Accepted accuracyM
    · rw [step,axis.filterUpdate f ⟨latitude,longitude,altitude,accuracyM⟩ accepted,evidence,if_pos accepted]
      exact ⟨(underwayUpdate underway _ (weighed accepted)).1,learnedUpdate underway _ accepted⟩
    · rw [step,ignored accepted,evidence,if_neg accepted]
      exact ⟨underway,rfl⟩
  | reset => contradiction

theorem learnedRun (axis : Axis) {g : KalmanFilter1D ℚ} {ops : List Op} (kept : .reset ∉ ops) {f : KalmanFilterND ℚ}
    (underway : Underway g (axis.filter f)) :
    Underway g (axis.filter (run step f ops)) ∧
      belief (axis.filter (run step f ops)) = run (fun b e => e.learn b) (belief (axis.filter f)) (ops.filterMap (evidence axis g)) := by
  induction ops generalizing f with
  | nil => exact ⟨underway,rfl⟩
  | cons op ops ih =>
    obtain ⟨first,rest⟩ := not_or.mp (List.mem_cons.not.mp kept)
    obtain ⟨still,learned⟩ := learnedStep axis underway (Ne.symm first)
    obtain ⟨last,more⟩ := ih rest still
    refine ⟨last,more.trans ?_⟩
    rw [learned,List.filterMap_cons]
    cases evidence axis g op <;> rfl

/- From any state in which the axis has had its first fix: the tracks that end at y pay for what the filter has estimated before, for
their moves and for the fixes they miss at least what the last term says, and some of them pay no more; so the best of
them all ends at the estimate. -/
theorem estimateIsBest {q r a : ℚ} (noise : 0 ≤ q) (measurement : 0 < r) (altitude : 0 < a) (v : ℚ) (pre : List Op) (axis : Axis)
    (started : (axis.filter (run step (.new q r v a) pre)).initialized = true) {ops : List Op} (kept : .reset ∉ ops) :
    let f := axis.filter (run step (.new q r v a) pre)
    let after := axis.filter (run step (.new q r v a) (pre ++ ops))
    let es := ops.filterMap (evidence axis f)
    ∃ rest, (∀ x steps, steps.map Prod.fst = es → (∀ e ∈ steps, e.1.Moves e.2) →
        let t := run follow ⟨x,(x - f.estimate)^2 / f.getError⟩ steps
        rest + (t.position - after.estimate)^2 / after.getError ≤ t.paid) ∧
      ∀ y, ∃ x steps, steps.map Prod.fst = es ∧ (∀ e ∈ steps, e.1.Moves e.2) ∧
        run follow ⟨x,(x - f.estimate)^2 / f.getError⟩ steps = ⟨y,rest + (y - after.estimate)^2 / after.getError⟩ := by
  intro f after es
  have here : Sound f := soundAxis noise measurement altitude v axis pre
  obtain ⟨_,learned⟩ := learnedRun axis kept (f := run step (.new q r v a) pre) (g := f) ⟨here,started,rfl,rfl⟩
  rw [← runAppend] at learned
  let ledger := run enter ⟨belief f,0⟩ es
  have last : ledger.belief = belief after := (enterBelief _ es).trans learned.symm
  have price : ∀ y, ledger.price y = ledger.paid + (y - after.estimate)^2 / after.getError := by
    intro y
    rw [Ledger.price,last]
    rfl
  have sound : ∀ e ∈ es, e.Sound := evidenceSound axis here ops
  refine ⟨ledger.paid,?_,?_⟩
  · intro x steps same moves t
    have each : ∀ e ∈ steps, e.1.Sound ∧ e.1.Moves e.2 := fun e mem => ⟨sound e.1 (same ▸ List.mem_map_of_mem mem),moves e mem⟩
    have dearer := followsDearer each (l := ⟨belief f,0⟩) (t := ⟨x,(belief f).price x⟩) here.error (zero_add _).le
    rw [same] at dearer
    exact (price t.position).symm.trans_le dearer
  · intro y
    obtain ⟨x,steps,same,moves,paid⟩ := bestTrack (b := belief f) here.error sound y
    exact ⟨x,steps,same,moves,paid.trans (congrArg (Track.mk y) (price y))⟩

/- A first fix, two seconds and another fix: whatever place the receiver started from and wherever it moved. -/
theorem estimateIsBestOnce :
    let after := (run step (.new 1 4 (1/100) 10) [.update 55 37 100 100,.predict 2,.update 58 38 110 100]).latitudeFilter
    ∃ rest : ℚ, ∀ x move : ℚ,
      rest + (x + move - after.estimate)^2 / after.getError ≤ (x - 55)^2 + move^2 / 2 + (x + move - 58)^2 / 4 := by
  intro after
  let pre : List Op := [.update 55 37 100 100]
  let ops : List Op := [.predict 2,.update 58 38 110 100]
  have first : Axis.latitude.filter (run step (.new 1 4 (1/100) 10) pre) = ⟨1,4,55,1,true⟩ := by decide +kernel
  have known : ops.filterMap (evidence .latitude ⟨1,4,55,1,true⟩) = [.drift 2,.measured 58 4] := by decide +kernel
  have kept : Op.reset ∉ ops := by decide +kernel
  obtain ⟨rest,dearer,_⟩ := estimateIsBest (q := 1) (r := 4) (a := 10) (by norm_num) (by norm_num) (by norm_num) (1/100) pre .latitude
    (by rw [first]) kept
  have whole : Axis.latitude.filter (run step (.new 1 4 (1/100) 10) (pre ++ ops)) = after := rfl
  simp only [first,known,whole] at dearer
  refine ⟨rest,fun x move => ?_⟩
  have one := dearer x [(.drift 2,move),(.measured 58 4,0)] rfl (by simp [Evidence.Moves])
  simpa [follow,Evidence.price,KalmanFilter1D.getError] using one

end UmapTracker.BestTrack
