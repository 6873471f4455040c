import Mathlib.Analysis.Convex.Hull
import Mathlib.Tactic.Linarith
import Mathlib.Tactic.Positivity
import UmapTracker.PipelineRuns

/-! The filtered position, in exact arithmetic. Latitude and longitude share one gain, which lies
between 0 and 1, so the position stays among the measured ones. -/
namespace UmapTracker.FilterHull
open Machine GeoTypes KalmanFilter GpsPipeline PipelineRuns MessageQueue

/- The noise parameters are those a caller passes, and the error is positive. -/
structure Sound (f : KalmanFilter1D ℚ) : Prop where
  processNoise : 0 ≤ f.processNoise
  measurementNoise : 0 < f.measurementNoise
  error : 0 < f.estimateError

def gain (f : KalmanFilter1D ℚ) (weight : ℚ) : ℚ := f.estimateError / (f.estimateError + f.measurementNoise / weight)

theorem gainBounds {f : KalmanFilter1D ℚ} (sound : Sound f) {weight : ℚ} (positive : 0 < weight) :
    0 < gain f weight ∧ gain f weight < 1 := by
  have error := sound.error
  have added : 0 < f.measurementNoise / weight := div_pos sound.measurementNoise positive
  refine ⟨div_pos error (add_pos error added),?_⟩
  rw [gain,div_lt_one (add_pos error added)]
  exact lt_add_of_pos_right _ added

theorem soundNew {q r : ℚ} (noise : 0 ≤ q) (measured : 0 < r) : Sound (.new q r) := ⟨noise,measured,one_pos⟩

theorem soundReset {f : KalmanFilter1D ℚ} (sound : Sound f) : Sound f.reset :=
  ⟨sound.processNoise,sound.measurementNoise,one_pos⟩

theorem soundPredict {f : KalmanFilter1D ℚ} (sound : Sound f) (dt : ℚ) : Sound (f.predict dt) := by
  refine ⟨sound.processNoise,sound.measurementNoise,?_⟩
  exact add_pos_of_pos_of_nonneg sound.error (mul_nonneg sound.processNoise (abs_nonneg dt))

/- A measurement of positive weight: the first is taken as it is, a later one is blended in. -/
theorem updateSpec (f : KalmanFilter1D ℚ) (measurement : ℚ) {weight : ℚ} (positive : 0 < weight) :
    f.update measurement weight =
      if f.initialized then
        {f with estimate := f.estimate + gain f weight * (measurement - f.estimate)
                estimateError := (1 - gain f weight) * f.estimateError}
      else {f with estimate := measurement, initialized := true} := by
  have weighed : Double.le weight (Double.lit 0) = false := decide_eq_false (not_le.mpr positive)
  unfold KalmanFilter1D.update
  rw [weighed]
  cases f.initialized <;> rfl

theorem updateStarts (f : KalmanFilter1D ℚ) (measurement : ℚ) {weight : ℚ} (positive : 0 < weight) :
    (f.update measurement weight).initialized = true := by
  rw [updateSpec f measurement positive]
  split
  · assumption
  · rfl

theorem soundUpdate {f : KalmanFilter1D ℚ} (sound : Sound f) (measurement : ℚ) {weight : ℚ} (positive : 0 < weight) :
    Sound (f.update measurement weight) := by
  rw [updateSpec f measurement positive]
  split
  · refine ⟨sound.processNoise,sound.measurementNoise,?_⟩
    exact mul_pos (sub_pos.mpr (gainBounds sound positive).2) sound.error
  · exact ⟨sound.processNoise,sound.measurementNoise,sound.error⟩

/- The longitude filter is the latitude filter but for its estimate. -/
def Twin (f g : KalmanFilter1D ℚ) : Prop := ∃ estimate, g = {f with estimate}

theorem twinUpdate {f g : KalmanFilter1D ℚ} (twin : Twin f g) (x y : ℚ) {weight : ℚ} (positive : 0 < weight) :
    Twin (f.update x weight) (g.update y weight) := by
  obtain ⟨estimate,rfl⟩ := twin
  rw [updateSpec _ x positive,updateSpec _ y positive]
  dsimp only
  split
  · exact ⟨_,rfl⟩
  · exact ⟨y,rfl⟩

def position (f : KalmanFilterND ℚ) : ℚ × ℚ := (f.latitudeFilter.estimate,f.longitudeFilter.estimate)

/- Both coordinates move by one gain: a first measurement is the position, and a later one draws
the position towards itself. -/
theorem blended {f g : KalmanFilter1D ℚ} (twin : Twin f g) (measured : ℚ × ℚ) {weight : ℚ} (positive : 0 < weight) :
    ((f.update measured.1 weight).estimate,(g.update measured.2 weight).estimate) =
      if f.initialized then (f.estimate,g.estimate) + gain f weight • (measured - (f.estimate,g.estimate)) else measured := by
  obtain ⟨estimate,rfl⟩ := twin
  rw [updateSpec _ measured.1 positive,updateSpec _ measured.2 positive]
  dsimp only
  split <;> rfl

theorem accepting {accuracyM : ℚ} (positive : 0 < accuracyM) (close : accuracyM ≤ 1000) :
    (Double.le accuracyM (Double.lit 0) || Double.lt (Double.lit 1000) accuracyM) = false :=
  Bool.or_eq_false_iff.mpr ⟨decide_eq_false (not_le.mpr positive),decide_eq_false (not_lt.mpr close)⟩

/- The state of the filter after the measured positions. -/
structure Steady (f : KalmanFilterND ℚ) (measured : List (ℚ × ℚ)) : Prop where
  sound : Sound f.latitudeFilter
  twin : Twin f.latitudeFilter f.longitudeFilter
  hull : f.latitudeFilter.initialized = true → position f ∈ convexHull ℚ {x | x ∈ measured}

theorem steadyPredict {f : KalmanFilterND ℚ} {measured : List (ℚ × ℚ)} (steady : Steady f measured) (dt : ℚ) :
    Steady (f.predict dt) measured := by
  refine ⟨soundPredict steady.sound dt,?_,steady.hull⟩
  obtain ⟨estimate,same⟩ := steady.twin
  refine ⟨estimate,?_⟩
  change f.longitudeFilter.predict dt = _
  rw [same]
  rfl

theorem steadyReset {f : KalmanFilterND ℚ} {measured : List (ℚ × ℚ)} (steady : Steady f measured) : Steady f.reset [] := by
  obtain ⟨estimate,same⟩ := steady.twin
  refine ⟨soundReset steady.sound,⟨0,?_⟩,fun started => Bool.noConfusion started⟩
  change f.longitudeFilter.reset = _
  rw [same]
  rfl

theorem steadyNew {q r : ℚ} (noise : 0 ≤ q) (measurement : 0 < r) (v a : ℚ) : Steady (.new q r v a) [] :=
  ⟨soundNew noise measurement,⟨0,rfl⟩,fun started => Bool.noConfusion started⟩

theorem steadyUpdate {f : KalmanFilterND ℚ} {measured : List (ℚ × ℚ)} (steady : Steady f measured)
    (latitude longitude altitude : ℚ) {accuracyM : ℚ} (positive : 0 < accuracyM) (close : accuracyM ≤ 1000) :
    let after := f.update latitude longitude altitude accuracyM
    Steady after (measured ++ [(latitude,longitude)]) ∧
    (after.state.latitude,after.state.longitude) ∈ convexHull ℚ {x | x ∈ measured ++ [(latitude,longitude)]} := by
  intro after
  have weighed : (0 : ℚ) < 100 / accuracyM := div_pos (by norm_num) positive
  obtain ⟨first,second,north,east⟩ := f.updateAccepted latitude longitude altitude (accepting positive close)
  have newest : (latitude,longitude) ∈ convexHull ℚ {x | x ∈ measured ++ [(latitude,longitude)]} :=
    subset_convexHull ℚ _ (List.mem_append_right _ List.mem_cons_self)
  have inside : position after ∈ convexHull ℚ {x | x ∈ measured ++ [(latitude,longitude)]} := by
    have moved := blended steady.twin (latitude,longitude) weighed
    rw [position,first,second]
    refine moved ▸ ?_
    split
    · rename_i started
      have before : position f ∈ convexHull ℚ {x | x ∈ measured ++ [(latitude,longitude)]} :=
        convexHull_mono (fun _ mem => List.mem_append_left _ mem) (steady.hull started)
      obtain ⟨positive,below⟩ := gainBounds steady.sound weighed
      exact (convex_convexHull ℚ _).add_smul_sub_mem before newest ⟨positive.le,below.le⟩
    · exact newest
  refine ⟨⟨?_,?_,fun _ => inside⟩,?_⟩
  · exact first ▸ soundUpdate steady.sound latitude weighed
  · rw [first,second]
    exact twinUpdate steady.twin latitude longitude weighed
  · rw [north,east]
    exact inside

/- The bounds of WGS84. -/
def box : Set (ℚ × ℚ) := Set.Icc (-90) 90 ×ˢ Set.Icc (-180) 180

theorem validIff (c : Coordinate ℚ) : c.isValid = true ↔ (c.latitude,c.longitude) ∈ box := by
  simp only [Coordinate.isValid,Bool.and_eq_true,box,Set.mem_prod,Set.mem_Icc]
  change ((decide _ = true ∧ decide _ = true) ∧ decide _ = true) ∧ decide _ = true ↔ _
  simp only [decide_eq_true_eq]
  tauto

theorem hullInBox {measured : List (ℚ × ℚ)} (valid : ∀ x ∈ measured, x ∈ box) :
    convexHull ℚ {x | x ∈ measured} ⊆ box :=
  convexHull_min valid ((convex_Icc (-90) 90).prod (convex_Icc (-180) 180))

theorem boxedAppend {measured : List (ℚ × ℚ)} (boxed : ∀ x ∈ measured, x ∈ box) {fix : ℚ × ℚ} (inside : fix ∈ box) :
    ∀ x ∈ measured ++ [fix], x ∈ box := by
  intro x mem
  rcases List.mem_append.mp mem with old | new
  · exact boxed x old
  · exact List.mem_singleton.mp new ▸ inside

theorem validPoint {raw : GpsPoint ℚ} (valid : raw.isValid = true) :
    (raw.location.latitude,raw.location.longitude) ∈ box ∧ 0 < raw.accuracyM ∧ raw.accuracyM < 1000 := by
  simp only [GpsPoint.isValid,Bool.and_eq_true] at valid
  obtain ⟨⟨location,positive⟩,close⟩ := valid
  exact ⟨(validIff raw.location).mp location,of_decide_eq_true positive,of_decide_eq_true close⟩

/- The positions accepted since the construction or the last reset. -/
def measure (measured : List (ℚ × ℚ)) : Call ℚ × Reading → List (ℚ × ℚ)
  | (.process raw,_) =>
      if raw.isValid then measured ++ [(raw.location.latitude,raw.location.longitude)] else measured
  | (.reset,_) => []

theorem steadyFilter {p : GpsProcessingPipeline ℚ} {measured : List (ℚ × ℚ)} (steady : Steady p.kalman measured)
    {raw : GpsPoint ℚ} (valid : raw.isValid = true) :
    Steady (filter p raw) (measured ++ [(raw.location.latitude,raw.location.longitude)]) ∧
    ((filter p raw).state.latitude,(filter p raw).state.longitude) ∈
      convexHull ℚ {x | x ∈ measured ++ [(raw.location.latitude,raw.location.longitude)]} := by
  obtain ⟨_,positive,close⟩ := validPoint valid
  exact steadyUpdate (steadyPredict steady (elapsed p raw)) _ _ raw.altitudeM positive close.le

theorem steadyStep (impl : Impl) {s : Site ℚ} {measured : List (ℚ × ℚ)} (steady : Steady s.pipeline.kalman measured)
    (e : Call ℚ × Reading) : Steady (step impl s e).pipeline.kalman (measure measured e) := by
  obtain ⟨call,reading⟩ := e
  cases call with
  | reset => exact steadyReset steady
  | process raw =>
    cases valid : raw.isValid with
    | false => simpa [step,measure,processLocation,valid] using steady
    | true =>
      have filtered := (processValid s.pipeline impl s.db reading.now reading.exec valid).1
      simp only [step,measure,valid,if_true]
      rw [filtered]
      exact (steadyFilter steady valid).1

theorem steadyRun {q r : ℚ} (noise : 0 ≤ q) (measurement : 0 < r) (a : ℚ) (impl : Impl) (db : Db)
    (calls : List (Call ℚ × Reading)) :
    Steady (run (step impl) ⟨.new q r a,db⟩ calls).pipeline.kalman (run measure [] calls) := by
  have start : Steady (GpsProcessingPipeline.new q r a).kalman [] := steadyNew noise measurement (1/100) a
  have both := bisimulates (R := fun (s : Site ℚ) measured => Steady s.pipeline.kalman measured)
    (s := ⟨.new q r a,db⟩) (fun _ _ e steady => ⟨(rfl : () = ()),steadyStep impl steady e⟩) start calls
  exact both.2

theorem measuredInBox (calls : List (Call ℚ × Reading)) : ∀ x ∈ run measure [] calls, x ∈ box := by
  have keep : ∀ measured e, True → (∀ x ∈ measured, x ∈ box) → ∀ x ∈ measure measured e, x ∈ box := by
    rintro measured ⟨call,reading⟩ _ inside
    cases call with
    | reset => simp [measure]
    | process raw =>
      unfold measure
      dsimp only
      split
      · rename_i valid
        exact boxedAppend inside (validPoint valid).1
      · exact inside
  exact runKeeps keep (fun _ _ => trivial) (by simp)

/- Each filtered position is a convex combination of the positions measured so far, the newest
included, and so a valid coordinate; the errors of latitude and longitude are equal and positive. -/
theorem filteredInHull {q r : ℚ} (noise : 0 ≤ q) (measurement : 0 < r) (a : ℚ) (impl : Impl) (db : Db)
    (calls : List (Call ℚ × Reading)) :
    let s := run (step impl) ⟨.new q r a,db⟩ calls
    s.pipeline.kalman.getLatitudeError = s.pipeline.kalman.getLongitudeError ∧
    0 < s.pipeline.kalman.getLatitudeError ∧
    ∀ raw (reading : Reading), raw.isValid = true →
      let filtered := (filter s.pipeline raw).populatePoint raw
      (step impl s (.process raw,reading)).db =
        (enqueue impl s.db (some (payload filtered)) reading.now reading.exec).2 ∧
      (filtered.location.latitude,filtered.location.longitude) ∈
        convexHull ℚ {x | x ∈ run measure [] calls ++ [(raw.location.latitude,raw.location.longitude)]} ∧
      filtered.location.isValid = true := by
  intro s
  have steady := steadyRun noise measurement a impl db calls
  refine ⟨?_,steady.sound.error,?_⟩
  · obtain ⟨estimate,same⟩ := steady.twin
    exact (congrArg KalmanFilter1D.estimateError same).symm
  · intro raw reading valid filtered
    have inside := (steadyFilter steady valid).2
    have boxed : ∀ x ∈ run measure [] (calls ++ [(.process raw,reading)]), x ∈ box :=
      measuredInBox (calls ++ [(.process raw,reading)])
    have all : run measure [] (calls ++ [(.process raw,reading)]) =
        run measure [] calls ++ [(raw.location.latitude,raw.location.longitude)] := by
      simp [measure,valid]
    have queued := (processValid s.pipeline impl s.db reading.now reading.exec valid).2
    exact ⟨queued,inside,(validIff _).mpr (hullInBox (all ▸ boxed) inside)⟩

/- Two points, three and five metres accurate, a second apart. -/
theorem filteredInHullTwice :
    let points : List (Call ℚ × Reading) := [(.process ⟨⟨55,37⟩,0,0,100,3,1,1000,80,false⟩,⟨1,.runs⟩)]
    let s := run (step .opened) ⟨.new (1/1000) 4 10,AutoTable.empty⟩ points
    let raw : GpsPoint ℚ := ⟨⟨56,38⟩,0,0,100,5,1,2000,80,false⟩
    raw.isValid = true ∧
    (((filter s.pipeline raw).populatePoint raw).location.latitude,
      ((filter s.pipeline raw).populatePoint raw).location.longitude) ∈ convexHull ℚ {x | x ∈ [((55 : ℚ),(37 : ℚ)),(56,38)]} := by
  intro points s raw
  have valid : raw.isValid = true := by decide +kernel
  have measured : run measure [] points = [(55,37)] := by decide +kernel
  have inside := (filteredInHull (by norm_num : (0 : ℚ) ≤ 1/1000) (by norm_num : (0 : ℚ) < 4) 10 .opened AutoTable.empty points).2.2
    raw ⟨2,.runs⟩ valid
  rw [measured] at inside
  exact ⟨valid,inside.2.1⟩

end UmapTracker.FilterHull
