import UmapTracker.FilterMemory
import UmapTracker.Settling

/-! The errors of the position filter over any schedule of predictions and fixes, in exact arithmetic: between the
steady error of the worst leg and that of the best one, but for a part of the first error that each fix makes smaller. -/
namespace UmapTracker.ErrorBand
open Machine KalmanFilter FilterHull FilterRuns FilterErrors FilterMemory Parallel Settling

/- A prediction, or a fix that is ignored. -/
def Silent : Op → Prop
  | .predict _ => True
  | .update _ _ _ accuracyM => ¬ Accepted accuracyM
  | .reset => False

/- The seconds that a call predicts over, in either direction. -/
def span : Op → ℚ
  | .predict dt => |dt|
  | _ => 0

def elapsed (ops : List Op) : ℚ := (ops.map span).sum

/- Silence, and the fix that ends it. -/
structure Leg where
  silence : List Op
  fix : Measured
  deriving DecidableEq, Repr

namespace Leg

def ops (l : Leg) : List Op := l.silence ++ [.update l.fix.latitude l.fix.longitude l.fix.altitude l.fix.accuracyM]

def Sound (l : Leg) : Prop := (∀ op ∈ l.silence, Silent op) ∧ Accepted l.fix.accuracyM

/- What a leg does to the error of a filter. -/
def round (f : KalmanFilter1D ℚ) (l : Leg) : Round ℚ := ⟨f.processNoise * elapsed l.silence,f.measurementNoise * l.fix.accuracyM / 100⟩

end Leg

theorem elapsedNonneg (ops : List Op) : 0 ≤ elapsed ops := by
  refine List.sum_nonneg (fun t mem => ?_)
  obtain ⟨op,_,rfl⟩ := List.mem_map.mp mem
  cases op with
  | predict dt => exact abs_nonneg dt
  | _ => exact le_refl _

def aged (f : KalmanFilter1D ℚ) (seconds : ℚ) : KalmanFilter1D ℚ := {f with estimateError := f.estimateError + f.processNoise * seconds}

theorem silentStep (axis : Axis) (f : KalmanFilterND ℚ) {op : Op} (silent : Silent op) :
    axis.filter (step f op) = aged (axis.filter f) (span op) := by
  cases op with
  | predict dt => exact axis.filterPredict f dt
  | update latitude longitude altitude accuracyM =>
    have none : span (.update latitude longitude altitude accuracyM) = 0 := rfl
    rw [step,ignored silent,none,aged,mul_zero,add_zero]
  | reset => exact silent.elim

theorem silentRun (axis : Axis) {ops : List Op} (silent : ∀ op ∈ ops, Silent op) (f : KalmanFilterND ℚ) :
    axis.filter (run step f ops) = aged (axis.filter f) (elapsed ops) := by
  induction ops generalizing f with
  | nil => simp [aged,elapsed]
  | cons op ops ih =>
    obtain ⟨first,rest⟩ := List.forall_mem_cons.mp silent
    rw [runCons,ih rest,silentStep axis f first]
    simp only [aged,elapsed,List.map_cons,List.sum_cons,mul_add,add_assoc]

/- The filter of the axis is under way with the noises of g. -/
structure Underway (g f : KalmanFilter1D ℚ) : Prop where
  sound : Sound f
  started : f.initialized = true
  process : f.processNoise = g.processNoise
  measurement : f.measurementNoise = g.measurementNoise

theorem underwayAged {g f : KalmanFilter1D ℚ} (underway : Underway g f) {seconds : ℚ} (forward : 0 ≤ seconds) :
    Underway g (aged f seconds) := by
  obtain ⟨⟨processNoise,measurementNoise,error⟩,started,process,measurement⟩ := underway
  exact ⟨⟨processNoise,measurementNoise,add_pos_of_pos_of_nonneg error (mul_nonneg processNoise forward)⟩,started,process,measurement⟩

theorem underwayUpdate {g f : KalmanFilter1D ℚ} (underway : Underway g f) (z : ℚ) {weight : ℚ} (positive : 0 < weight) :
    Underway g (f.update z weight) ∧
      (f.update z weight).estimateError = parallel f.estimateError (g.measurementNoise / weight) := by
  obtain ⟨sound,started,process,measurement⟩ := underway
  have taken := updateSpec f z positive
  rw [if_pos started] at taken
  refine ⟨⟨soundUpdate sound z positive,updateStarts f z positive,?_,?_⟩,?_⟩
  · rw [taken]
    exact process
  · rw [taken]
    exact measurement
  · rw [updateError started sound.error sound.measurementNoise z positive,measurement]

theorem legStep (axis : Axis) {g : KalmanFilter1D ℚ} {f : KalmanFilterND ℚ} (underway : Underway g (axis.filter f)) {l : Leg}
    (sound : l.Sound) :
    Underway g (axis.filter (run step f l.ops)) ∧
      (axis.filter (run step f l.ops)).estimateError = settle (axis.filter f).estimateError (l.round g) := by
  obtain ⟨silent,accepted⟩ := sound
  have after : axis.filter (run step f l.ops) =
      (aged (axis.filter f) (elapsed l.silence)).update (axis.of l.fix) (100 / l.fix.accuracyM) := by
    rw [Leg.ops,runAppend,← silentRun axis silent f]
    exact axis.filterUpdate _ l.fix accepted
  obtain ⟨still,error⟩ := underwayUpdate (underwayAged underway (elapsedNonneg l.silence)) (axis.of l.fix) (weighed accepted)
  rw [after,error,div_div_eq_mul_div]
  refine ⟨still,?_⟩
  rw [settle,Leg.round,aged,underway.process]

theorem legsRun (axis : Axis) {g : KalmanFilter1D ℚ} {legs : List Leg} (sound : ∀ l ∈ legs, l.Sound) {f : KalmanFilterND ℚ}
    (underway : Underway g (axis.filter f)) :
    Underway g (axis.filter (run step f (legs.flatMap Leg.ops))) ∧
      (axis.filter (run step f (legs.flatMap Leg.ops))).estimateError =
        run settle (axis.filter f).estimateError (legs.map (Leg.round g)) := by
  induction legs generalizing f with
  | nil => exact ⟨underway,rfl⟩
  | cons l legs ih =>
    obtain ⟨first,rest⟩ := List.forall_mem_cons.mp sound
    obtain ⟨still,once⟩ := legStep axis underway first
    obtain ⟨last,more⟩ := ih rest still
    rw [List.flatMap_cons,runAppend]
    exact ⟨last,by rw [more,once,List.map_cons,runCons]⟩

/- Each leg lasts `longest` at most, and its fix is accurate to `worst` at least. -/
def NoWorse (longest worst : ℚ) (l : Leg) : Prop := elapsed l.silence ≤ longest ∧ l.fix.accuracyM ≤ worst

def NoBetter (shortest best : ℚ) (l : Leg) : Prop := shortest ≤ elapsed l.silence ∧ best ≤ l.fix.accuracyM

instance (longest worst : ℚ) (l : Leg) : Decidable (NoWorse longest worst l) := by unfold NoWorse; infer_instance
instance (shortest best : ℚ) (l : Leg) : Decidable (NoBetter shortest best l) := by unfold NoBetter; infer_instance

/- From any state in which the axis has had its first fix, over any legs and whatever is measured, the error comes down to
the level e that the worst leg would not raise, and up to the level that the best leg would not lower: what is missing is multiplied
by a fixed share at each fix. -/
theorem errorInBand {q r a : ℚ} (noise : 0 ≤ q) (measurement : 0 < r) (altitude : 0 < a) (v : ℚ) (pre : List Op) (axis : Axis)
    (started : (axis.filter (run step (.new q r v a) pre)).initialized = true) {legs : List Leg} (sound : ∀ l ∈ legs, l.Sound)
    {rest : List Op} (silent : ∀ op ∈ rest, Silent op) :
    let f := axis.filter (run step (.new q r v a) pre)
    let after := axis.filter (run step (.new q r v a) (pre ++ legs.flatMap Leg.ops ++ rest))
    let error := after.getError - f.processNoise * elapsed rest
    (∀ longest worst e, (∀ l ∈ legs, NoWorse longest worst l) →
      let growth := f.processNoise * longest
      let added := f.measurementNoise * worst / 100
      0 ≤ e → growth * added ≤ e^2 + growth * e →
      error ≤ e + max 0 (f.getError - e) * (added / (e + growth + added))^(2 * legs.length)) ∧
    (∀ shortest best e, (∀ l ∈ legs, NoBetter shortest best l) → 0 ≤ shortest → 0 < best →
      let growth := f.processNoise * shortest
      let added := f.measurementNoise * best / 100
      0 ≤ e → e^2 + growth * e ≤ growth * added →
      e - max 0 (e - f.getError) * (added / (growth + added) * (added / (e + growth + added)))^legs.length ≤ error) := by
  intro f after error
  have here : Sound f := soundAxis noise measurement altitude v axis pre
  have grounded : Underway f f := ⟨here,started,rfl,rfl⟩
  obtain ⟨underway,settled⟩ := legsRun axis sound grounded
  have last : error = run settle f.estimateError (legs.map (Leg.round f)) := by
    have quiet := silentRun axis silent (run step (run step (.new q r v a) pre) (legs.flatMap Leg.ops))
    rw [← runAppend,← runAppend,← List.append_assoc] at quiet
    simp only [error,after,quiet,aged,KalmanFilter1D.getError,underway.process,settled,f]
    ring
  constructor
  · intro longest worst e noWorse growth added low level
    have within : ∀ c ∈ legs.map (Leg.round f), Within growth added c := by
      intro c mem
      obtain ⟨l,one,rfl⟩ := List.mem_map.mp mem
      obtain ⟨shorter,better⟩ := noWorse l one
      refine ⟨mul_nonneg here.processNoise (elapsedNonneg _),mul_le_mul_of_nonneg_left shorter here.processNoise,?_,?_⟩
      · exact div_pos (mul_pos here.measurementNoise (sound l one).2.1) (by norm_num)
      · exact div_le_div_of_nonneg_right (mul_le_mul_of_nonneg_left better here.measurementNoise.le) (by norm_num)
    have faded := excessFades low level within here.error.le
    rw [List.length_map] at faded
    rwa [last]
  · intro shortest best e noBetter forward real growth added low level
    have beyond : ∀ c ∈ legs.map (Leg.round f), Beyond growth added c := by
      intro c mem
      obtain ⟨l,one,rfl⟩ := List.mem_map.mp mem
      obtain ⟨longer,worse⟩ := noBetter l one
      refine ⟨mul_le_mul_of_nonneg_left longer here.processNoise,?_⟩
      exact div_le_div_of_nonneg_right (mul_le_mul_of_nonneg_left worse here.measurementNoise.le) (by norm_num)
    have faded := shortfallFades (mul_nonneg here.processNoise forward) (div_pos (mul_pos here.measurementNoise real) (by norm_num)) low
      level beyond here.error.le
    rw [List.length_map] at faded
    rwa [last]

/- Legs of 2 s and 1.5 s, with fixes accurate to 100 m and 50 m: between 1 and 2. -/
theorem errorInBandTwo :
    let pre : List Op := [.update 55 37 100 100]
    let legs : List Leg := [⟨[.predict 2],⟨56,38,110,100⟩⟩,⟨[.predict 1,.predict (-1/2),.update 0 0 0 2000],⟨50,30,90,50⟩⟩]
    let error := (run step (.new 1 4 (1/100) 10) (pre ++ legs.flatMap Leg.ops ++ [.predict 1])).latitudeFilter.getError - 1
    1 ≤ error ∧ error ≤ 2 := by
  intro pre legs error
  have first : Axis.latitude.filter (run step (.new 1 4 (1/100) 10) pre) = ⟨1,4,55,1,true⟩ := by decide +kernel
  have sound : ∀ l ∈ legs, l.Sound := by
    simp only [legs,List.forall_mem_cons,Leg.Sound,Silent,Accepted]
    norm_num
  have silent : ∀ op ∈ [Op.predict 1], Silent op := by simp [Silent]
  obtain ⟨above,below⟩ := errorInBand (q := 1) (r := 4) (a := 10) (by norm_num) (by norm_num) (by norm_num) (1/100) pre .latitude
    (by rw [first]) sound silent
  have noWorse : ∀ l ∈ legs, NoWorse 2 100 l := by decide +kernel
  have noBetter : ∀ l ∈ legs, NoBetter (3/2) 50 l := by decide +kernel
  simp only [first] at above below
  have high := above 2 100 2 noWorse (by norm_num) (by norm_num)
  have low := below (3/2) 50 1 noBetter (by norm_num) (by norm_num) (by norm_num) (by norm_num)
  have rest : elapsed [.predict 1] = 1 := by decide +kernel
  rw [rest,mul_one] at high low
  have bottom : (1 : ℚ) ≤ error := by
    refine le_trans ?_ low
    norm_num [KalmanFilter1D.getError]
  have top : error ≤ 2 := by
    refine high.trans ?_
    norm_num [KalmanFilter1D.getError]
  exact ⟨bottom,top⟩

end UmapTracker.ErrorBand
