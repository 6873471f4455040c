import UmapTracker.Circle
import UmapTracker.FilterHull

/-! The position filter under predictions, fixes and resets in any order, in exact arithmetic: what
its velocity is a change per, and how its longitude meets the antimeridian. -/
namespace UmapTracker.FilterRuns
open Machine KalmanFilter FilterHull UmapTracker.Circle

inductive Op where
  | predict (dt : ℚ)
  | update (latitude longitude altitude accuracyM : ℚ)
  | reset
  deriving DecidableEq, Repr

def step (f : KalmanFilterND ℚ) : Op → KalmanFilterND ℚ
  | .predict dt => f.predict dt
  | .update latitude longitude altitude accuracyM => f.update latitude longitude altitude accuracyM
  | .reset => f.reset

/- The accuracies that update does not ignore. -/
def Accepted (accuracyM : ℚ) : Prop := 0 < accuracyM ∧ accuracyM ≤ 1000
instance (accuracyM : ℚ) : Decidable (Accepted accuracyM) := by unfold Accepted; infer_instance

theorem weighed {accuracyM : ℚ} (accepted : Accepted accuracyM) : (0 : ℚ) < 100 / accuracyM :=
  div_pos (by norm_num) accepted.1

/- A fix has been accepted since the filter was made or reset. -/
def Fixed (ops : List Op) : Prop :=
  ∃ pre latitude longitude altitude accuracyM post, ops = pre ++ .update latitude longitude altitude accuracyM::post ∧
    Accepted accuracyM ∧ .reset ∉ post

/- Both coordinates are under way, and the previous position is the filtered one. -/
structure Tracking (f : KalmanFilterND ℚ) : Prop where
  latitude : f.latitudeFilter.initialized = true
  longitude : f.longitudeFilter.initialized = true
  previousLatitude : f.previousLatitude = f.latitudeFilter.estimate
  previousLongitude : f.previousLongitude = f.longitudeFilter.estimate

theorem trackingUpdate (f : KalmanFilterND ℚ) (latitude longitude altitude : ℚ) {accuracyM : ℚ} (accepted : Accepted accuracyM) :
    Tracking (f.update latitude longitude altitude accuracyM) := by
  have test := accepting accepted.1 accepted.2
  obtain ⟨first,second,_,_⟩ := f.updateAccepted latitude longitude altitude test
  obtain ⟨previousLatitude,previousLongitude,_,_⟩ := f.updateKeeps latitude longitude altitude test
  refine ⟨?_,?_,previousLatitude,previousLongitude⟩
  · rw [first]
    exact updateStarts _ _ (weighed accepted)
  · rw [second]
    exact updateStarts _ _ (weighed accepted)

theorem ignored {f : KalmanFilterND ℚ} {latitude longitude altitude accuracyM : ℚ} (refused : ¬ Accepted accuracyM) :
    f.update latitude longitude altitude accuracyM = f := by
  refine if_pos ?_
  rw [Bool.or_eq_true]
  rcases not_and_or.mp refused with low | high
  · exact .inl (decide_eq_true (not_lt.mp low))
  · exact .inr (decide_eq_true (not_le.mp high))

theorem trackingStep {f : KalmanFilterND ℚ} {op : Op} (kept : op ≠ .reset) (tracking : Tracking f) : Tracking (step f op) := by
  cases op with
  | predict dt => exact ⟨tracking.latitude,tracking.longitude,tracking.previousLatitude,tracking.previousLongitude⟩
  | update latitude longitude altitude accuracyM =>
    by_cases accepted : Accepted accuracyM
    · exact trackingUpdate f latitude longitude altitude accepted
    · rw [step,ignored accepted]
      exact tracking
  | reset => contradiction

theorem trackingRun (f : KalmanFilterND ℚ) {ops : List Op} (fixed : Fixed ops) : Tracking (run step f ops) := by
  obtain ⟨pre,latitude,longitude,altitude,accuracyM,post,rfl,accepted,kept⟩ := fixed
  rw [runAppend,runCons]
  have rest : ∀ op ∈ post, op ≠ Op.reset := fun op mem same => kept (same ▸ mem)
  exact runKeeps (P := fun op => op ≠ Op.reset) (fun _ _ other tracking => trackingStep other tracking) rest
    (trackingUpdate _ latitude longitude altitude accepted)

/- The fix does not move the coordinate: the error is zero, or the fix is there already. Between them the
divisor of the gain is zero, which no noise of the program's filters gives. -/
def Settled (f : KalmanFilter1D ℚ) (measurement weight : ℚ) : Prop :=
  f.estimateError = 0 ∨ f.estimateError + f.measurementNoise / weight = 0 ∨ measurement = f.estimate

theorem settledIff {f : KalmanFilter1D ℚ} (started : f.initialized = true) (measurement : ℚ) {weight : ℚ} (positive : 0 < weight) :
    (f.update measurement weight).estimate = f.estimate ↔ Settled f measurement weight := by
  rw [updateSpec f measurement positive,if_pos started]
  change f.estimate + gain f weight * (measurement - f.estimate) = f.estimate ↔ _
  rw [add_eq_left,mul_eq_zero,gain,div_eq_zero_iff,sub_eq_zero,or_assoc]
  rfl

/- Both components of the velocity are a change per second over dt. -/
def PerSecond (f next : KalmanFilterND ℚ) (dt : ℚ) : Prop :=
  next.state.latitudeVelocity * dt = next.state.latitude - f.latitudeFilter.estimate ∧
  next.state.longitudeVelocity * dt = next.state.longitude - f.longitudeFilter.estimate

theorem velocityOf {f : KalmanFilterND ℚ} (tracking : Tracking f) (dt latitude longitude altitude : ℚ) {accuracyM : ℚ}
    (accepted : Accepted accuracyM) :
    PerSecond f ((f.predict dt).update latitude longitude altitude accuracyM) dt ↔
      dt = 1 ∨ Settled (f.latitudeFilter.predict dt) latitude (100 / accuracyM) ∧
        Settled (f.longitudeFilter.predict dt) longitude (100 / accuracyM) := by
  have test := accepting accepted.1 accepted.2
  obtain ⟨first,second,north,east⟩ := (f.predict dt).updateAccepted latitude longitude altitude test
  obtain ⟨northward,eastward,_⟩ := (f.predict dt).updateDerives latitude longitude altitude test rfl
  have startedNorth : (f.latitudeFilter.predict dt).initialized = true := tracking.latitude
  have startedEast : (f.longitudeFilter.predict dt).initialized = true := tracking.longitude
  have previousNorth : (f.predict dt).previousLatitude = f.latitudeFilter.estimate := tracking.previousLatitude
  have previousEast : (f.predict dt).previousLongitude = f.longitudeFilter.estimate := tracking.previousLongitude
  have moved : ∀ now before : ℚ, (now - before) * dt = now - before ↔ dt = 1 ∨ now = before := by
    intro now before
    rw [mul_right_eq_self₀,sub_eq_zero]
  rw [PerSecond,northward,eastward,previousNorth,previousEast,moved,moved,← or_and_left,north,east,first,second,
    ← settledIff startedNorth latitude (weighed accepted),← settledIff startedEast longitude (weighed accepted)]
  rfl

/- After a prediction of dt seconds and a fix, the velocity is a change per second exactly when dt is one
second, or when the fix does not move the position. -/
theorem perSecondIff (q r v a : ℚ) {ops : List Op} (fixed : Fixed ops) (dt latitude longitude altitude : ℚ) {accuracyM : ℚ}
    (accepted : Accepted accuracyM) :
    let f := run step (.new q r v a) ops
    PerSecond f ((f.predict dt).update latitude longitude altitude accuracyM) dt ↔
      dt = 1 ∨ Settled (f.latitudeFilter.predict dt) latitude (100 / accuracyM) ∧
        Settled (f.longitudeFilter.predict dt) longitude (100 / accuracyM) :=
  velocityOf (trackingRun _ fixed) dt latitude longitude altitude accepted

theorem perSecondAtOne :
    let f := run step (.new (1/1000) 4 (1/100) 10) [.update 55 37 100 5]
    PerSecond f ((f.predict 1).update 56 38 100 5) 1 := by
  intro f
  have fixed : Fixed [.update 55 37 100 5] := ⟨[],55,37,100,5,[],rfl,by decide +kernel,by simp⟩
  exact (perSecondIff (1/1000) 4 (1/100) 10 fixed 1 56 38 100 (by decide +kernel : Accepted 5)).mpr (.inl rfl)

/- Two seconds after a first fix: the velocity is the whole change, and twice as much over two seconds. -/
theorem velocityPerUpdate :
    let f := run step (.new (1/1000) 4 (1/100) 10) [.update 55 37 100 5]
    let next := (f.predict 2).update 56 38 100 5
    next.state.latitudeVelocity = next.state.latitude - f.latitudeFilter.estimate ∧ f.latitudeFilter.estimate = 55 ∧
    next.state.latitude ≠ 55 ∧ ¬ PerSecond f next 2 := by
  unfold PerSecond
  decide +kernel

section Longitude
variable {q r : ℚ}

theorem soundStep {f : KalmanFilterND ℚ} (sound : Sound f.longitudeFilter) (op : Op) : Sound (step f op).longitudeFilter := by
  cases op with
  | predict dt => exact soundPredict sound dt
  | update latitude longitude altitude accuracyM =>
    by_cases accepted : Accepted accuracyM
    · rw [step,(f.updateAccepted latitude longitude altitude (accepting accepted.1 accepted.2)).2.1]
      exact soundUpdate sound longitude (weighed accepted)
    · rw [step,ignored accepted]
      exact sound
  | reset => exact soundReset sound

theorem soundRun (noise : 0 ≤ q) (measurement : 0 < r) (v a : ℚ) (ops : List Op) :
    Sound (run step (.new q r v a) ops).longitudeFilter :=
  runKeeps (I := fun f : KalmanFilterND ℚ => Sound f.longitudeFilter) (P := fun _ => True) (fun _ op _ sound => soundStep sound op) (fun _ _ => trivial)
    (soundNew noise measurement)

/- A step of the part g of the way, straight through the numbers, comes no nearer on the circle exactly when
the straight way is long: beyond half a turn it leads away from the fix. -/
theorem nearerIff {g old fix : ℚ} (positive : 0 < g) (below : g < 1) (near : |fix - old| ≤ 360) :
    around 360 (old + g * (fix - old)) fix ≤ around 360 old fix ↔ (2 - g) * |fix - old| ≤ 360 := by
  have rest : |old + g * (fix - old) - fix| = (1 - g) * |fix - old| := by
    have split : old + g * (fix - old) - fix = -((1 - g) * (fix - old)) := by ring
    rw [split,abs_neg,abs_mul,abs_of_pos (sub_pos.mpr below)]
  have apart := abs_nonneg (fix - old)
  have shorter : (1 - g) * |fix - old| ≤ |fix - old| := by nlinarith
  rw [aroundNear (by norm_num) (by rw [rest]; linarith),aroundNear (by norm_num) (by rw [abs_sub_comm]; exact near),rest,
    abs_sub_comm old fix]
  generalize |fix - old| = d at *
  constructor
  · intro nearer
    rcases min_le_iff.mp (nearer.trans (min_le_right _ _)) with direct | throughOrigin
    · linarith
    · -- only a fix at the old estimate is no further through the origin
      have none : d ≤ 0 := by
        by_contra some
        have := mul_pos positive (not_le.mp some)
        linarith
      nlinarith
  · intro short
    exact le_min ((min_le_left _ _).trans shorter) ((min_le_left _ _).trans (by linarith))

/- An accepted fix draws the longitude no further away on the circle exactly when (2 - g) times the
difference of the numbers is at most a turn, g the gain of the state before it. -/
theorem closerIff (noise : 0 ≤ q) (measurement : 0 < r) (v a : ℚ) {ops : List Op} (fixed : Fixed ops)
    (latitude altitude : ℚ) {longitude accuracyM : ℚ} (accepted : Accepted accuracyM)
    (old : |(run step (.new q r v a) ops).longitudeFilter.estimate| ≤ 180) (fix : |longitude| ≤ 180) :
    let f := run step (.new q r v a) ops
    around 360 (f.update latitude longitude altitude accuracyM).state.longitude longitude ≤
      around 360 f.longitudeFilter.estimate longitude ↔
    (2 - gain f.longitudeFilter (100 / accuracyM)) * |longitude - f.longitudeFilter.estimate| ≤ 360 := by
  intro f
  obtain ⟨positive,below⟩ := gainBounds (soundRun noise measurement v a ops) (weighed accepted)
  have near : |longitude - f.longitudeFilter.estimate| ≤ 360 := by
    have apart := abs_sub longitude f.longitudeFilter.estimate
    change |f.longitudeFilter.estimate| ≤ 180 at old
    linarith
  obtain ⟨_,second,_,east⟩ := f.updateAccepted latitude longitude altitude (accepting accepted.1 accepted.2)
  have moved : (f.update latitude longitude altitude accuracyM).state.longitude =
      f.longitudeFilter.estimate + gain f.longitudeFilter (100 / accuracyM) * (longitude - f.longitudeFilter.estimate) := by
    refine east.trans ?_
    rw [second]
    have blend := updateSpec f.longitudeFilter longitude (weighed accepted)
    rw [if_pos (trackingRun (.new q r v a) fixed).longitude] at blend
    exact congrArg KalmanFilter1D.estimate blend
  rw [moved]
  exact nearerIff positive below near

theorem closerEastwards :
    let f := run step (.new (1/1000) 4 (1/100) 10) [.update 10 179 0 5]
    around 360 (f.update 10 (359/2) 0 5).state.longitude (359/2) ≤ around 360 f.longitudeFilter.estimate (359/2) := by
  intro f
  have fixed : Fixed [.update 10 179 0 5] := ⟨[],10,179,0,5,[],rfl,by decide +kernel,by simp⟩
  exact (closerIff (by norm_num : (0 : ℚ) ≤ 1/1000) (by norm_num : (0 : ℚ) < 4) (1/100) 10 fixed 10 0
    (by decide +kernel : Accepted 5) (by decide +kernel) (by decide +kernel)).mpr (by decide +kernel)

/- From 179.9 to -179.9, a fifth of a degree apart: the longitude goes to -119.9, sixty degrees off. -/
theorem antimeridianMisled :
    let f := run step (.new (1/1000) 4 (1/100) 10) [.update 10 (1799/10) 0 5]
    let next := f.update 10 (-1799/10) 0 5
    f.longitudeFilter.estimate = 1799/10 ∧ around 360 (1799/10) (-1799/10) = (1/5 : ℚ) ∧
    ¬ around 360 next.state.longitude (-1799/10) ≤ around 360 f.longitudeFilter.estimate (-1799/10) ∧
    59 < around 360 next.state.longitude (-1799/10) := by
  decide +kernel

end Longitude
end UmapTracker.FilterRuns
