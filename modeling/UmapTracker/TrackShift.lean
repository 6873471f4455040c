import UmapTracker.FilterMemory

/-! The position filter has no preferred place, in exact arithmetic: fixes that are all moved by one displacement
move its positions and leave its velocity, its speed, its bearing and its errors alone. -/
namespace UmapTracker.TrackShift
open Machine KalmanFilter KalmanFilterND FilterHull FilterRuns FilterErrors FilterMemory

structure Displacement where
  latitude : ℚ
  longitude : ℚ
  altitude : ℚ
  deriving DecidableEq, Repr

def shiftAxis (d : ℚ) (f : KalmanFilter1D ℚ) : KalmanFilter1D ℚ := {f with estimate := f.estimate + d}

def shiftState (d : Displacement) (s : EstimateState ℚ) : EstimateState ℚ :=
  {s with latitude := s.latitude + d.latitude
          longitude := s.longitude + d.longitude
          altitude := s.altitude + d.altitude}

def shift (d : Displacement) (f : KalmanFilterND ℚ) : KalmanFilterND ℚ :=
  {f with
    latitudeFilter := shiftAxis d.latitude f.latitudeFilter
    longitudeFilter := shiftAxis d.longitude f.longitudeFilter
    altitudeFilter := shiftAxis d.altitude f.altitudeFilter
    state := shiftState d f.state
    previousLatitude := f.previousLatitude + d.latitude
    previousLongitude := f.previousLongitude + d.longitude}

def shiftFix (d : Displacement) (m : Measured) : Measured :=
  ⟨m.latitude + d.latitude,m.longitude + d.longitude,m.altitude + d.altitude,m.accuracyM⟩

def shiftOp (d : Displacement) : Op → Op
  | .update latitude longitude altitude accuracyM =>
    .update (latitude + d.latitude) (longitude + d.longitude) (altitude + d.altitude) accuracyM
  | op => op

theorem shiftMeasured (d : ℚ) {f : KalmanFilter1D ℚ} (started : f.initialized = true) (z : ℚ) {weight : ℚ} (positive : 0 < weight) :
    (shiftAxis d f).update (z+d) weight = shiftAxis d (f.update z weight) := by
  have started' : (shiftAxis d f).initialized = true := started
  have same : gain (shiftAxis d f) weight = gain f weight := rfl
  rw [updateSpec _ _ positive,updateSpec _ _ positive,if_pos started,if_pos started',same]
  simp only [shiftAxis,KalmanFilter1D.mk.injEq,true_and,and_true]
  ring

/- A first measurement is taken as it is. -/
theorem shiftTaken (d : ℚ) {f : KalmanFilter1D ℚ} (fresh : f.initialized = false) (z : ℚ) {weight : ℚ} (positive : 0 < weight) :
    f.update (z+d) weight = shiftAxis d (f.update z weight) := by
  have first : ¬f.initialized = true := by simp [fresh]
  rw [updateSpec _ _ positive,updateSpec _ _ positive,if_neg first,if_neg first]
  rfl

theorem shiftDerived (d : Displacement) (s : EstimateState ℚ) (previousLatitude previousLongitude : ℚ) :
    derive (shiftState d s) (previousLatitude + d.latitude) (previousLongitude + d.longitude) =
      shiftState d (derive s previousLatitude previousLongitude) := by
  have north : s.latitude + d.latitude - (previousLatitude + d.latitude) = s.latitude - previousLatitude := by ring
  have east : s.longitude + d.longitude - (previousLongitude + d.longitude) = s.longitude - previousLongitude := by ring
  simp only [derive,shiftState,north,east]
  rfl

/- All three filters are under way. -/
def Started (f : KalmanFilterND ℚ) : Prop := ∀ axis : Axis, (axis.filter f).initialized = true

/- The filters of g are those of f, moved; what the last update derived from its velocity may differ. -/
structure Apart (d : Displacement) (f g : KalmanFilterND ℚ) : Prop where
  started : Started f
  initialized : f.initialized = true
  moved : g = {shift d f with state := g.state}
  time : g.state.timestampMs = f.state.timestampMs

theorem apartUpdate {d : Displacement} {f g : KalmanFilterND ℚ} (apart : Apart d f g) (m : Measured) (accepted : Accepted m.accuracyM) :
    fix g (shiftFix d m) = shift d (fix f m) := by
  obtain ⟨started,initialized,moved,time⟩ := apart
  have test := accepting accepted.1 accepted.2
  have weighed : (0 : ℚ) < Double.lit 100 / m.accuracyM := weighed accepted
  generalize g.state = s at moved time
  subst moved
  have north := shiftMeasured d.latitude (started .latitude) m.latitude weighed
  have east := shiftMeasured d.longitude (started .longitude) m.longitude weighed
  have up := shiftMeasured d.altitude (started .altitude) m.altitude weighed
  simp only [Axis.filter] at north east up
  have derived := shiftDerived d {f.state with
    latitude := (f.latitudeFilter.update m.latitude (Double.lit 100 / m.accuracyM)).estimate
    longitude := (f.longitudeFilter.update m.longitude (Double.lit 100 / m.accuracyM)).estimate
    altitude := (f.altitudeFilter.update m.altitude (Double.lit 100 / m.accuracyM)).estimate
    accuracyM := m.accuracyM} f.previousLatitude f.previousLongitude
  simp only [fix,shiftFix,KalmanFilterND.update,test,Bool.false_eq_true,if_false,initialized,if_true,shift,north,east,up,time,
    KalmanFilterND.mk.injEq,true_and,and_true]
  exact ⟨derived,congrArg EstimateState.latitude derived,congrArg EstimateState.longitude derived⟩

theorem shiftPredicted (d : Displacement) (f : KalmanFilterND ℚ) (dt : ℚ) : (shift d f).predict dt = shift d (f.predict dt) := by
  have north := add_right_comm f.state.latitude d.latitude (f.state.latitudeVelocity * f.velocityDecay * dt)
  have east := add_right_comm f.state.longitude d.longitude (f.state.longitudeVelocity * f.velocityDecay * dt)
  simp only [KalmanFilterND.predict,shift,shiftState,north,east]
  rfl

theorem apartEqual {d : Displacement} {f : KalmanFilterND ℚ} (started : Started f) (initialized : f.initialized = true) :
    Apart d f (shift d f) := ⟨started,initialized,rfl,rfl⟩

theorem startedUpdate {f : KalmanFilterND ℚ} (m : Measured) (accepted : Accepted m.accuracyM) :
    Started (fix f m) ∧ (fix f m).initialized = true := by
  refine ⟨fun axis => ?_,?_⟩
  · rw [fix,axis.filterUpdate f m accepted]
    exact updateStarts _ _ (weighed accepted)
  · simp [fix,KalmanFilterND.update,accepting accepted.1 accepted.2]

/- Two filters apart stay so; and where they are not apart they stay equal. -/
theorem apartStep {d : Displacement} {f g : KalmanFilterND ℚ} (apart : Apart d f g) {op : Op} (kept : op ≠ .reset) :
    Apart d (step f op) (step g (shiftOp d op)) ∧ (g = shift d f → step g (shiftOp d op) = shift d (step f op)) := by
  cases op with
  | predict dt =>
    obtain ⟨started,initialized,moved,time⟩ := apart
    refine ⟨⟨fun axis => ?_,rfl,?_,time⟩,?_⟩
    · rw [step,axis.filterPredict]
      exact started axis
    · generalize g.state = s at moved
      subst moved
      rfl
    · rintro rfl
      exact shiftPredicted d f dt
  | update latitude longitude altitude accuracyM =>
    by_cases accepted : Accepted accuracyM
    · have same : step g (shiftOp d (.update latitude longitude altitude accuracyM)) = shift d (step f (.update latitude longitude altitude accuracyM)) :=
        apartUpdate apart ⟨latitude,longitude,altitude,accuracyM⟩ accepted
      rw [same]
      obtain ⟨started,initialized⟩ := startedUpdate (f := f) ⟨latitude,longitude,altitude,accuracyM⟩ accepted
      exact ⟨apartEqual started initialized,fun _ => rfl⟩
    · rw [shiftOp,step,step,ignored accepted,ignored accepted]
      exact ⟨apart,id⟩
  | reset => contradiction

/- An update that is not ignored. -/
def Fixes : Op → Prop
  | .update _ _ _ accuracyM => Accepted accuracyM
  | _ => False

theorem apartRun {d : Displacement} {ops : List Op} (kept : .reset ∉ ops) {f g : KalmanFilterND ℚ} (apart : Apart d f g)
    (settles : g = shift d f ∨ ∃ op ∈ ops, Fixes op) : run step g (ops.map (shiftOp d)) = shift d (run step f ops) := by
  induction ops generalizing f g with
  | nil => simpa using settles
  | cons op ops ih =>
    obtain ⟨first,rest⟩ := not_or.mp (List.mem_cons.not.mp kept)
    obtain ⟨next,equal⟩ := apartStep apart (Ne.symm first)
    rw [List.map_cons,runCons,runCons]
    refine ih rest next ?_
    rcases settles with same | ⟨op',mem,fixes⟩
    · exact .inl (equal same)
    · rcases List.mem_cons.mp mem with rfl | later
      · cases op' with
        | update latitude longitude altitude accuracyM =>
          exact .inl (apartUpdate apart ⟨latitude,longitude,altitude,accuracyM⟩ fixes)
        | predict dt => exact fixes.elim
        | reset => exact fixes.elim
      · exact .inr ⟨op',later,fixes⟩

/- The first fixes of the two sessions; a prediction before them leaves a velocity that depends on the place. -/
theorem apartFirst (d : Displacement) {f : KalmanFilterND ℚ} (unfixed : Unfixed f) (m : Measured) (accepted : Accepted m.accuracyM) :
    Apart d (fix f m) (fix f (shiftFix d m)) ∧ (f.initialized = false → fix f (shiftFix d m) = shift d (fix f m)) := by
  have test := accepting accepted.1 accepted.2
  have weighed : (0 : ℚ) < Double.lit 100 / m.accuracyM := weighed accepted
  have north := shiftTaken d.latitude (unfixedAxis .latitude unfixed) m.latitude weighed
  have east := shiftTaken d.longitude (unfixedAxis .longitude unfixed) m.longitude weighed
  have up := shiftTaken d.altitude (unfixedAxis .altitude unfixed) m.altitude weighed
  simp only [Axis.filter] at north east up
  obtain ⟨started,initialized⟩ := startedUpdate (f := f) m accepted
  refine ⟨⟨started,initialized,?_,?_⟩,?_⟩
  · simp only [fix,shiftFix,KalmanFilterND.update,test,Bool.false_eq_true,if_false,shift,north,east,up]
    cases f.initialized <;> rfl
  · simp only [fix,shiftFix,KalmanFilterND.update,test,Bool.false_eq_true,if_false]
    cases f.initialized <;> rfl
  · intro fresh
    simp only [fix,shiftFix,KalmanFilterND.update,test,Bool.false_eq_true,if_false,fresh,shift,north,east,up]
    rfl

/- Two sessions with the same calls but for one displacement of all fixes: the second one's filter is the first one's, moved. The
first fix already makes it so, unless there was a prediction before it; then the next fix does. -/
theorem trackMoved {f : KalmanFilterND ℚ} (unfixed : Unfixed f) {m : Measured} (accepted : Accepted m.accuracyM) {ops : List Op}
    (kept : .reset ∉ ops) (settles : f.initialized = false ∨ ∃ op ∈ ops, Fixes op) (d : Displacement) :
    run step (fix f (shiftFix d m)) (ops.map (shiftOp d)) = shift d (run step (fix f m) ops) := by
  obtain ⟨apart,equal⟩ := apartFirst d unfixed m accepted
  exact apartRun kept apart (settles.imp_left equal)

theorem trackMovedSouth :
    let f : KalmanFilterND ℚ := .new (1/1000) 4 (1/100) 10
    let d : Displacement := ⟨-90,7,100⟩
    let ops : List Op := [.predict 1,.update 56 38 110 10]
    run step (fix f (shiftFix d ⟨55,37,100,5⟩)) (ops.map (shiftOp d)) = shift d (run step (fix f ⟨55,37,100,5⟩) ops) := by
  intro f d ops
  have kept : Op.reset ∉ ops := by simp [ops]
  exact trackMoved (.new (1/1000) 4 (1/100) 10) (by decide +kernel) kept (.inl rfl) d

end UmapTracker.TrackShift
