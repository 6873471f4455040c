import UmapTracker.KalmanFilter
import UmapTracker.Machine
import UmapTracker.RealArithmetic

/-! The speed of the position filter against the velocity it is derived from, in exact arithmetic. Only update
derives it: predict lets the velocity decay and leaves the speed as it was. -/
namespace UmapTracker.DerivedSpeed
open Double Machine KalmanFilter RealArithmetic

noncomputable section

inductive Op where
  | predict (dt : ℝ)
  | update (latitude longitude altitude accuracyM : ℝ)
  | reset

def step (f : KalmanFilterND ℝ) : Op → KalmanFilterND ℝ
  | .predict dt => f.predict dt
  | .update latitude longitude altitude accuracyM => f.update latitude longitude altitude accuracyM
  | .reset => f.reset

/- The speed is that of the velocity, in kilometres per hour. -/
structure Agrees (f : KalmanFilterND ℝ) : Prop where
  nonneg : 0 ≤ f.state.speedKmh
  square : f.state.speedKmh^2 = (36/10)^2 * (f.state.latitudeVelocity^2 + f.state.longitudeVelocity^2)

/- Nothing is predicted of a moving filter. -/
def Still (f : KalmanFilterND ℝ) : Op → Prop
  | .predict _ => f.state.latitudeVelocity = 0 ∧ f.state.longitudeVelocity = 0
  | _ => True

theorem agreesDerived {f : KalmanFilterND ℝ} (derived : f.state.speedKmh = sqrt (f.state.latitudeVelocity * f.state.latitudeVelocity +
    f.state.longitudeVelocity * f.state.longitudeVelocity) * lit (36/10)) : Agrees f := by
  have speed : f.state.speedKmh = Real.sqrt (f.state.latitudeVelocity * f.state.latitudeVelocity +
      f.state.longitudeVelocity * f.state.longitudeVelocity) * ((36/10 : ℚ) : ℝ) := derived
  have sum : 0 ≤ f.state.latitudeVelocity * f.state.latitudeVelocity + f.state.longitudeVelocity * f.state.longitudeVelocity :=
    add_nonneg (mul_self_nonneg _) (mul_self_nonneg _)
  constructor
  · rw [speed]
    exact mul_nonneg (Real.sqrt_nonneg _) (by norm_num)
  · rw [speed,mul_pow,Real.sq_sqrt sum]
    push_cast
    ring

theorem agreesUpdate {f : KalmanFilterND ℝ} (agrees : Agrees f) (latitude longitude altitude accuracyM : ℝ) :
    Agrees (f.update latitude longitude altitude accuracyM) := by
  cases accepted : (le accuracyM (lit 0) || lt (lit 1000) accuracyM : Bool) with
  | true =>
    have ignored : f.update latitude longitude altitude accuracyM = f := if_pos accepted
    rw [ignored]
    exact agrees
  | false =>
    cases started : f.initialized with
    | false =>
      obtain ⟨north,east,speed⟩ := f.updateUnderived latitude longitude altitude accepted started
      exact ⟨by rw [speed]; exact agrees.nonneg,by rw [speed,north,east]; exact agrees.square⟩
    | true => exact agreesDerived (f.updateDerives latitude longitude altitude accepted started).2.2

/- The speed of a prediction is the one before it, and agrees with a velocity that has decayed only where there
is none. -/
theorem agreesPredict {f : KalmanFilterND ℝ} (decay : f.velocityDecay = 95/100) (agrees : Agrees f) (dt : ℝ) :
    Agrees (f.predict dt) ↔ f.state.latitudeVelocity = 0 ∧ f.state.longitudeVelocity = 0 := by
  have north : (f.predict dt).state.latitudeVelocity = f.state.latitudeVelocity * (95/100) := by
    rw [← decay]
    rfl
  have east : (f.predict dt).state.longitudeVelocity = f.state.longitudeVelocity * (95/100) := by
    rw [← decay]
    rfl
  have speed : (f.predict dt).state.speedKmh = f.state.speedKmh := rfl
  constructor
  · intro after
    have square := after.square
    rw [north,east,speed,agrees.square] at square
    have none : f.state.latitudeVelocity^2 + f.state.longitudeVelocity^2 = 0 := by linarith
    rw [add_eq_zero_iff_of_nonneg (sq_nonneg _) (sq_nonneg _)] at none
    exact ⟨pow_eq_zero_iff two_ne_zero |>.mp none.1,pow_eq_zero_iff two_ne_zero |>.mp none.2⟩
  · rintro ⟨noNorth,noEast⟩
    refine ⟨agrees.nonneg,?_⟩
    rw [north,east,speed,agrees.square,noNorth,noEast,zero_mul]

theorem agreesUnmoved (f : KalmanFilterND ℝ) (state : f.state = .default) : Agrees f := by
  refine ⟨?_,?_⟩ <;> rw [state] <;> norm_num [EstimateState.default,lit]

theorem agreesStep {f : KalmanFilterND ℝ} (decay : f.velocityDecay = 95/100) (agrees : Agrees f) (op : Op) :
    Agrees (step f op) ↔ Still f op := by
  cases op with
  | predict dt => exact agreesPredict decay agrees dt
  | update latitude longitude altitude accuracyM => exact iff_of_true (agreesUpdate agrees latitude longitude altitude accuracyM) trivial
  | reset => exact iff_of_true (agreesUnmoved _ rfl) trivial

theorem decayNew (positionProcessNoise positionMeasurementNoise velocityProcessNoise altitudeMeasurementNoise : ℝ) :
    (KalmanFilterND.new positionProcessNoise positionMeasurementNoise velocityProcessNoise altitudeMeasurementNoise).velocityDecay =
      95/100 := by
  change ((95/100 : ℚ) : ℝ) = 95/100
  norm_num

theorem decayStep {f : KalmanFilterND ℝ} (decay : f.velocityDecay = 95/100) (op : Op) : (step f op).velocityDecay = 95/100 := by
  cases op with
  | predict dt => exact decay
  | update latitude longitude altitude accuracyM => exact (f.updateDecay latitude longitude altitude accuracyM).trans decay
  | reset => exact decay

/- The speed agrees with the velocity all along a run exactly when every prediction in it is of a filter at rest. -/
theorem speedAgreesIff (positionProcessNoise positionMeasurementNoise velocityProcessNoise altitudeMeasurementNoise : ℝ)
    (ops : List Op) :
    let start := KalmanFilterND.new positionProcessNoise positionMeasurementNoise velocityProcessNoise altitudeMeasurementNoise
    Always step Agrees start ops ↔ Allowed step Still start ops := by
  intro start
  have decay : start.velocityDecay = 95/100 := decayNew _ _ _ _
  exact alwaysExactWith (J := fun f : KalmanFilterND ℝ => f.velocityDecay = 95/100)
    (fun _ op decay agrees => agreesStep decay agrees op) (fun _ op decay _ _ => decayStep decay op) decay (agreesUnmoved start rfl) ops

/- How far the estimate goes from a first measurement to a second one of the same weight. -/
theorem estimateMoves (processNoise measurementNoise x y : ℝ) {weight : ℝ} (weighed : le weight (lit 0) = false) :
    let first := (KalmanFilter1D.new processNoise measurementNoise).update x weight
    (first.update y weight).estimate - first.estimate = 1 / (1 + measurementNoise / weight) * (y - x) := by
  have one : (lit 1 : ℝ) = 1 := Rat.cast_one
  simp [KalmanFilter1D.update,KalmanFilter1D.new,weighed,one]

/- The velocity that a second fix of the same accuracy leaves, and the speed derived from it. -/
theorem secondDerives (q r v a latitude1 longitude1 altitude1 latitude2 longitude2 altitude2 : ℝ) {accuracyM : ℝ}
    (accepted : (le accuracyM (lit 0) || lt (lit 1000) accuracyM) = false) (weighed : le (lit 100 / accuracyM) (lit 0) = false) :
    let gain := 1 / (1 + r / (lit 100 / accuracyM))
    let first := (KalmanFilterND.new q r v a).update latitude1 longitude1 altitude1 accuracyM
    let second := first.update latitude2 longitude2 altitude2 accuracyM
    second.state.latitudeVelocity = gain * (latitude2 - latitude1) ∧ second.state.longitudeVelocity = gain * (longitude2 - longitude1) ∧
    second.state.speedKmh = Real.sqrt (second.state.latitudeVelocity * second.state.latitudeVelocity +
      second.state.longitudeVelocity * second.state.longitudeVelocity) * ((36/10 : ℚ) : ℝ) ∧ second.velocityDecay = 95/100 := by
  intro gain first second
  let start : KalmanFilterND ℝ := .new q r v a
  have started : first.initialized = true := by simp [first,KalmanFilterND.update,accepted]
  obtain ⟨firstLatitude,firstLongitude,_,_⟩ := start.updateAccepted latitude1 longitude1 altitude1 accepted
  obtain ⟨previousLatitude,previousLongitude,_,_⟩ := start.updateKeeps latitude1 longitude1 altitude1 accepted
  obtain ⟨latitudeFilter,longitudeFilter,latitude,longitude⟩ := first.updateAccepted latitude2 longitude2 altitude2 accepted
  obtain ⟨north,east,speed⟩ := first.updateDerives latitude2 longitude2 altitude2 accepted started
  refine ⟨?_,?_,speed,?_⟩
  · refine north.trans ?_
    rw [latitude,latitudeFilter,previousLatitude,firstLatitude]
    exact estimateMoves q r latitude1 latitude2 weighed
  · refine east.trans ?_
    rw [longitude,longitudeFilter,previousLongitude,firstLongitude]
    exact estimateMoves q r longitude1 longitude2 weighed
  · exact (first.updateDecay _ _ _ _).trans ((start.updateDecay _ _ _ _).trans (decayNew q r v a))

/- Two fixes at five metres accuracy, a degree of latitude apart: 3 km/h, which a prediction of a second leaves when
the velocity is down to 2.85 km/h. -/
theorem speedStands :
    let f := run step (.new (1/1000) 4 (1/100) 10) [.update 55 37 100 5,.update 56 37 100 5,.predict 1]
    f.state.latitudeVelocity = 19/24 ∧ f.state.longitudeVelocity = 0 ∧ f.state.speedKmh = 3 ∧
    ¬ Always step Agrees (.new (1/1000) 4 (1/100) 10) [.update 55 37 100 5,.update 56 37 100 5,.predict 1] := by
  intro f
  have accepted : (le (5 : ℝ) (lit 0) || lt (lit 1000) (5 : ℝ)) = false := by
    rw [← Bool.not_eq_true,Bool.or_eq_true,realLe,realLt]
    norm_num [lit]
  have twenty : (lit 100 : ℝ) / 5 = 20 := by norm_num [lit]
  have weighed : le (lit 100 / (5 : ℝ)) (lit 0) = false := by
    rw [twenty,← Bool.not_eq_true,realLe]
    norm_num [lit]
  obtain ⟨north,east,speed,decay⟩ := secondDerives (1/1000) 4 (1/100) 10 55 37 100 56 37 100 accepted weighed
  have gain : (1 : ℝ) / (1 + 4 / (lit 100 / 5)) = 5/6 := by
    rw [twenty]
    norm_num
  rw [gain] at north east
  have root : Real.sqrt (5/6 * (56 - 55) * (5/6 * (56 - 55)) + 5/6 * (37 - 37) * (5/6 * (37 - 37))) = 5/6 := by
    rw [sub_self,mul_zero,mul_zero,add_zero,Real.sqrt_mul_self (by norm_num)]
    norm_num
  rw [north,east,root] at speed
  have decayed : f.state.latitudeVelocity = 19/24 := by
    refine (congrArg₂ (· * ·) north decay).trans ?_
    norm_num
  have still : f.state.longitudeVelocity = 0 := by
    refine (congrArg₂ (· * ·) east decay).trans ?_
    norm_num
  have stands : f.state.speedKmh = 3 := by
    refine speed.trans ?_
    norm_num
  refine ⟨decayed,still,stands,fun always => ?_⟩
  have square := (alwaysLast always).square
  change f.state.speedKmh^2 = (36/10)^2 * (f.state.latitudeVelocity^2 + f.state.longitudeVelocity^2) at square
  rw [decayed,still,stands] at square
  norm_num at square

end

end UmapTracker.DerivedSpeed
