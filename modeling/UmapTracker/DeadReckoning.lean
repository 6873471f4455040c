import UmapTracker.FilterRuns

/-! Predictions between two fixes, in exact arithmetic. The velocity decays once per call of predict, whatever
time the call is for, and the position goes on with what is left of it. -/
namespace UmapTracker.DeadReckoning
open Machine GeoTypes KalmanFilter FilterHull FilterRuns

theorem predictLatitude (f : KalmanFilterND ℚ) (dt : ℚ) :
    (f.predict dt).state.latitude = f.state.latitude + f.state.latitudeVelocity * f.velocityDecay * dt ∧
    (f.predict dt).state.latitudeVelocity = f.state.latitudeVelocity * f.velocityDecay := ⟨rfl,rfl⟩

theorem predictLongitude (f : KalmanFilterND ℚ) (dt : ℚ) :
    (f.predict dt).state.longitude = f.state.longitude + f.state.longitudeVelocity * f.velocityDecay * dt ∧
    (f.predict dt).state.longitudeVelocity = f.state.longitudeVelocity * f.velocityDecay := ⟨rfl,rfl⟩

section Splitting

def Resting (s : EstimateState ℚ) : Prop := s.latitudeVelocity = 0 ∧ s.longitudeVelocity = 0
instance (s : EstimateState ℚ) : Decidable (Resting s) := by unfold Resting; infer_instance

/- A prediction over a + b may be made in two parts, and one over no time moves nothing. -/
structure TimeConsistent (f : KalmanFilterND ℚ) (a b : ℚ) : Prop where
  parts : (f.predict a).predict b = f.predict (a + b)
  position : (f.predict 0).state.latitude = f.state.latitude ∧ (f.predict 0).state.longitude = f.state.longitude
  velocity : (f.predict 0).state.latitudeVelocity = f.state.latitudeVelocity ∧
    (f.predict 0).state.longitudeVelocity = f.state.longitudeVelocity

/- The error grows by the time alone, in one part or two. -/
theorem errorParts (f : KalmanFilter1D ℚ) {a b : ℚ} (first : 0 ≤ a) (second : 0 ≤ b) :
    (f.predict a).predict b = f.predict (a + b) := by
  have grown : f.estimateError + f.processNoise * |a| + f.processNoise * |b| = f.estimateError + f.processNoise * |a + b| := by
    rw [abs_of_nonneg first,abs_of_nonneg second,abs_of_nonneg (add_nonneg first second)]
    ring
  exact congrArg (fun estimateError => {f with estimateError}) grown

theorem partsIff (f : KalmanFilterND ℚ) {a b : ℚ} (first : 0 ≤ a) (second : 0 ≤ b) :
    (f.predict a).predict b = f.predict (a + b) ↔ Resting f.state ∨ f.velocityDecay = 0 ∨ f.velocityDecay = 1 := by
  have again : ∀ v d : ℚ, v * d * d = v * d ↔ v = 0 ∨ d = 0 ∨ d = 1 := by
    intro v d
    rw [mul_right_eq_self₀,mul_eq_zero]
    tauto
  constructor
  · intro same
    have north := congrArg (fun g => g.state.latitudeVelocity) same
    have east := congrArg (fun g => g.state.longitudeVelocity) same
    change f.state.latitudeVelocity * f.velocityDecay * f.velocityDecay = f.state.latitudeVelocity * f.velocityDecay at north
    change f.state.longitudeVelocity * f.velocityDecay * f.velocityDecay = f.state.longitudeVelocity * f.velocityDecay at east
    rw [again] at north east
    unfold Resting
    tauto
  · intro condition
    have north : f.state.latitudeVelocity * f.velocityDecay * f.velocityDecay = f.state.latitudeVelocity * f.velocityDecay :=
      (again _ _).mpr (condition.imp_left And.left)
    have east : f.state.longitudeVelocity * f.velocityDecay * f.velocityDecay = f.state.longitudeVelocity * f.velocityDecay :=
      (again _ _).mpr (condition.imp_left And.right)
    simp only [KalmanFilterND.predict,north,east,errorParts _ first second,add_assoc,← mul_add]

theorem timeConsistentIff (f : KalmanFilterND ℚ) {a b : ℚ} (first : 0 ≤ a) (second : 0 ≤ b) :
    TimeConsistent f a b ↔ Resting f.state ∨ f.velocityDecay = 1 := by
  have kept : ∀ v d : ℚ, v * d = v ↔ v = 0 ∨ d = 1 := by
    intro v d
    rw [mul_right_eq_self₀]
    tauto
  have still : ((f.predict 0).state.latitudeVelocity = f.state.latitudeVelocity ∧
      (f.predict 0).state.longitudeVelocity = f.state.longitudeVelocity) ↔ Resting f.state ∨ f.velocityDecay = 1 := by
    rw [(predictLatitude f 0).2,(predictLongitude f 0).2,kept,kept,← and_or_right]
    rfl
  constructor
  · intro consistent
    exact still.mp consistent.velocity
  · intro condition
    refine ⟨(partsIff f first second).mpr (condition.imp_right .inr),⟨?_,?_⟩,still.mpr condition⟩
    · rw [(predictLatitude f 0).1,mul_zero,add_zero]
    · rw [(predictLongitude f 0).1,mul_zero,add_zero]

theorem timeConsistentAtFirst : TimeConsistent (.new (1/1000) 4 (1/100) 10) 1 2 :=
  (timeConsistentIff _ one_pos.le two_pos.le).mpr (.inl ⟨rfl,rfl⟩)

/- Two fixes a degree apart: the velocity of 5/6 is 19/24 after no time, and a second and another second go less
far than two seconds. -/
theorem decayPerCall :
    let f := run step (.new (1/1000) 4 (1/100) 10) [.update 55 37 100 5,.update 56 38 100 5]
    f.state.latitudeVelocity = 5/6 ∧ (f.predict 0).state.latitudeVelocity = 19/24 ∧
    ((f.predict 1).predict 1).state.latitude < (f.predict 2).state.latitude ∧ ¬ TimeConsistent f 1 1 := by
  intro f
  have before : f.state.latitudeVelocity = 5/6 := by decide +kernel
  have after : (f.predict 0).state.latitudeVelocity = 19/24 := by decide +kernel
  refine ⟨before,after,by decide +kernel,fun consistent => ?_⟩
  have same := consistent.velocity.1
  rw [before,after] at same
  norm_num at same

end Splitting

section Bounds

/- How far a coordinate can still go in the direction of its velocity. -/
def ahead (bound x v : ℚ) : ℚ := if 0 ≤ v then bound - x else bound + x

/- A prediction lasts no longer than the two coordinates need to their bounds, at 0.95 of their velocities. -/
def Within (f : KalmanFilterND ℚ) : Op → Prop
  | .predict dt => |f.state.latitudeVelocity| * (95/100) * dt ≤ ahead 90 f.state.latitude f.state.latitudeVelocity ∧
      |f.state.longitudeVelocity| * (95/100) * dt ≤ ahead 180 f.state.longitude f.state.longitudeVelocity
  | _ => True

instance (f : KalmanFilterND ℚ) : ∀ op, Decidable (Within f op)
  | .predict _ => inferInstanceAs (Decidable (_ ∧ _))
  | .update .. => .isTrue trivial
  | .reset => .isTrue trivial

/- Fixes with valid coordinates, and time that does not run backwards. -/
def Given : Op → Prop
  | .predict dt => 0 ≤ dt
  | .update latitude longitude _ _ => (⟨latitude,longitude⟩ : Coordinate ℚ).isValid = true
  | .reset => True

instance : ∀ op, Decidable (Given op)
  | .predict dt => inferInstanceAs (Decidable (0 ≤ dt))
  | .update .. => inferInstanceAs (Decidable (_ = true))
  | .reset => .isTrue trivial

/- Whatever the point was, the coordinate that is written into it is valid. -/
def WritesValid (f : KalmanFilterND ℚ) : Prop := ∀ point, (f.populatePoint point).location.isValid = true

theorem writesIff (f : KalmanFilterND ℚ) : WritesValid f ↔ |f.state.latitude| ≤ 90 ∧ |f.state.longitude| ≤ 180 := by
  have bounds : (⟨f.state.latitude,f.state.longitude⟩ : Coordinate ℚ).isValid = true ↔
      |f.state.latitude| ≤ 90 ∧ |f.state.longitude| ≤ 180 := by
    rw [validIff,abs_le,abs_le]
    rfl
  exact ⟨fun valid => bounds.mp (valid .default),fun inside _ => bounds.mpr inside⟩

/- A coordinate goes on within its bound exactly when it is not carried past the room it has ahead. -/
theorem carriedIff {bound x v dt : ℚ} (inside : |x| ≤ bound) (forward : 0 ≤ dt) :
    |x + v * (95/100) * dt| ≤ bound ↔ |v| * (95/100) * dt ≤ ahead bound x v := by
  obtain ⟨low,high⟩ := abs_le.mp inside
  rw [abs_le,ahead]
  split
  · rename_i onward
    have carried : 0 ≤ v * (95/100) * dt := by positivity
    rw [abs_of_nonneg onward]
    constructor
    · rintro ⟨_,above⟩
      linarith
    · intro room
      exact ⟨by linarith,by linarith⟩
  · rename_i backward
    have negative : v < 0 := not_le.mp backward
    have carried : 0 ≤ -v * (95/100) * dt := mul_nonneg (mul_nonneg (neg_pos.mpr negative).le (by norm_num)) forward
    rw [abs_of_neg negative]
    constructor
    · rintro ⟨below,_⟩
      linarith
    · intro room
      exact ⟨by linarith,by linarith⟩

/- Beside its position, the filter has the decay of the constructor and has been given points of the box. -/
structure Reckoned (f : KalmanFilterND ℚ) : Prop where
  decay : f.velocityDecay = 95/100
  measured : ∃ measured, Steady f measured ∧ ∀ x ∈ measured, x ∈ box

theorem decayStep (f : KalmanFilterND ℚ) (op : Op) : (step f op).velocityDecay = f.velocityDecay := by
  cases op with
  | predict dt => rfl
  | update latitude longitude altitude accuracyM => exact f.updateDecay latitude longitude altitude accuracyM
  | reset => rfl

theorem reckonedStep {f : KalmanFilterND ℚ} (reckoned : Reckoned f) {op : Op} (given : Given op) : Reckoned (step f op) := by
  refine ⟨(decayStep f op).trans reckoned.decay,?_⟩
  obtain ⟨measured,steady,inside⟩ := reckoned.measured
  cases op with
  | predict dt => exact ⟨measured,steadyPredict steady dt,inside⟩
  | update latitude longitude altitude accuracyM =>
    by_cases accepted : Accepted accuracyM
    · exact ⟨_,(steadyUpdate steady latitude longitude altitude accepted.1 accepted.2).1,boxedAppend inside ((validIff _).mp given)⟩
    · rw [step,ignored accepted]
      exact ⟨measured,steady,inside⟩
  | reset => exact ⟨[],steadyReset steady,by simp⟩

/- A fix never takes the position out of its bounds, and a prediction does so exactly when it lasts too long. -/
theorem writesStep (f : KalmanFilterND ℚ) (op : Op) (given : Given op) (reckoned : Reckoned f) (valid : WritesValid f) :
    WritesValid (step f op) ↔ Within f op := by
  cases op with
  | predict dt =>
    obtain ⟨north,east⟩ := (writesIff f).mp valid
    rw [writesIff,step,(predictLatitude f dt).1,(predictLongitude f dt).1,reckoned.decay,carriedIff north given,
      carriedIff east given]
    rfl
  | update latitude longitude altitude accuracyM =>
    refine iff_of_true ?_ trivial
    by_cases accepted : Accepted accuracyM
    · obtain ⟨measured,steady,inside⟩ := reckoned.measured
      have hull := (steadyUpdate steady latitude longitude altitude accepted.1 accepted.2).2
      exact fun _ => (validIff _).mpr (hullInBox (boxedAppend inside ((validIff _).mp given)) hull)
    · rw [step,ignored accepted]
      exact valid
  | reset => exact iff_of_true (fun _ => (by decide +kernel : (⟨0,0⟩ : Coordinate ℚ).isValid = true)) trivial

/- The coordinate is valid all along a run exactly when no prediction lasts longer than there is room ahead. -/
theorem writesValidIff {q r : ℚ} (noise : 0 ≤ q) (measurement : 0 < r) (v a : ℚ) {ops : List Op} (given : ∀ op ∈ ops, Given op) :
    Always step WritesValid (.new q r v a) ops ↔ Allowed step Within (.new q r v a) ops := by
  have reckoned : Reckoned (.new q r v a) := ⟨rfl,[],steadyNew noise measurement v a,by simp⟩
  have start : WritesValid (.new q r v a) := fun _ => (by decide +kernel : (⟨0,0⟩ : Coordinate ℚ).isValid = true)
  exact alwaysExactEach writesStep (fun _ _ given reckoned _ _ => reckonedStep reckoned given) reckoned start given

theorem carriedInBounds :
    let ops : List Op := [.update 55 37 100 5,.update 56 38 100 5,.predict 10]
    Always step WritesValid (.new (1/1000) 4 (1/100) 10) ops := by
  intro ops
  have given : ∀ op ∈ ops, Given op := by decide +kernel
  have short : Within (run step (.new (1/1000) 4 (1/100) 10) [.update 55 37 100 5,.update 56 38 100 5]) (.predict 10) := by
    decide +kernel
  exact (writesValidIff (by norm_num) (by norm_num) (1/100) 10 given).mpr
    (allowedCons.mpr ⟨trivial,allowedCons.mpr ⟨trivial,allowedCons.mpr ⟨short,allowedNil⟩⟩⟩)

/- Two fixes five degrees apart, and ten seconds without one. -/
theorem carriedOverPole :
    let ops : List Op := [.update 80 170 0 5,.update 85 175 0 5,.predict 10]
    (∀ op ∈ ops, Given op) ∧ 123 < (run step (.new (1/1000) 4 (1/100) 10) ops).state.latitude ∧
    213 < (run step (.new (1/1000) 4 (1/100) 10) ops).state.longitude ∧ ¬ Always step WritesValid (.new (1/1000) 4 (1/100) 10) ops := by
  intro ops
  have high : 123 < (run step (.new (1/1000) 4 (1/100) 10) ops).state.latitude := by decide +kernel
  refine ⟨?_,high,by decide +kernel,fun always => ?_⟩
  · decide +kernel
  · have inside := (abs_le.mp ((writesIff _).mp (alwaysLast always)).1).2
    linarith

end Bounds
end UmapTracker.DeadReckoning
