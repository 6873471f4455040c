import UmapTracker.DerivedSpeed

/-! The bearing of the position filter, in exact arithmetic: with the derived speed the polar form of the velocity,
which only the predictions since the last fix have made smaller. -/
namespace UmapTracker.Bearing
open Double Machine KalmanFilter RealArithmetic DerivedSpeed

noncomputable section

section Compass

/- The argument of z in degrees, from the positive real axis once around. -/
def compass (z : ℂ) : ℝ :=
  let degrees := z.arg * lit 180 / Real.pi
  if degrees < 0 then degrees + lit 360 else degrees

theorem litHalf : (lit 180 : ℝ) = 180 := by norm_num [lit]

theorem litWhole : (lit 360 : ℝ) = 360 := by norm_num [lit]

theorem compassRange (z : ℂ) : 0 ≤ compass z ∧ compass z < 360 := by
  have half : z.arg * 180 / Real.pi ≤ 180 := by
    rw [div_le_iff₀ Real.pi_pos,mul_comm]
    exact mul_le_mul_of_nonneg_left z.arg_mem_Ioc.2 (by norm_num)
  have turn : -180 < z.arg * 180 / Real.pi := by
    rw [lt_div_iff₀ Real.pi_pos]
    have low := z.arg_mem_Ioc.1
    linarith
  simp only [compass,litHalf,litWhole]
  split
  · exact ⟨by linarith,by linarith⟩
  · exact ⟨by linarith,by linarith⟩

theorem compassPolar (z : ℂ) :
    ‖z‖ * Real.cos (compass z * Real.pi / 180) = z.re ∧ ‖z‖ * Real.sin (compass z * Real.pi / 180) = z.im := by
  have positive := Real.pi_pos.ne'
  have back : z.arg * 180 / Real.pi * Real.pi / 180 = z.arg := by field_simp
  simp only [compass,litHalf,litWhole]
  split
  · have once : (z.arg * 180 / Real.pi + 360) * Real.pi / 180 = z.arg + 2 * Real.pi := by
      rw [add_mul,add_div,back]
      ring
    rw [once,Real.cos_add_two_pi,Real.sin_add_two_pi]
    exact ⟨z.norm_mul_cos_arg,z.norm_mul_sin_arg⟩
  · rw [back]
    exact ⟨z.norm_mul_cos_arg,z.norm_mul_sin_arg⟩

end Compass

/- The predictions since the last accepted fix or reset. -/
def age (k : Nat) : Op → Nat
  | .predict _ => k+1
  | .update _ _ _ accuracyM => if le accuracyM (lit 0) || lt (lit 1000) accuracyM then k else 0
  | .reset => 0

structure Polar (f : KalmanFilterND ℝ) (k : Nat) : Prop where
  decay : f.velocityDecay = 95/100
  range : 0 ≤ f.state.bearingDeg ∧ f.state.bearingDeg < 360
  north : f.state.latitudeVelocity = (95/100)^k * (f.state.speedKmh / (36/10) * Real.cos (f.state.bearingDeg * Real.pi / 180))
  east : f.state.longitudeVelocity = (95/100)^k * (f.state.speedKmh / (36/10) * Real.sin (f.state.bearingDeg * Real.pi / 180))
  rest : f.initialized = false → f.state.latitudeVelocity = 0 ∧ f.state.longitudeVelocity = 0 ∧ f.state.speedKmh = 0

theorem polarDefault {f : KalmanFilterND ℝ} (decay : f.velocityDecay = 95/100) (state : f.state = .default) (k : Nat) : Polar f k := by
  have zero : (lit 0 : ℝ) = 0 := Rat.cast_zero
  refine ⟨decay,?_,?_,?_,?_⟩ <;> simp [state,EstimateState.default,zero]

theorem polarPredict {f : KalmanFilterND ℝ} {k : Nat} (polar : Polar f k) (dt : ℝ) : Polar (f.predict dt) (k+1) := by
  obtain ⟨decay,range,north,east,_⟩ := polar
  refine ⟨decay,range,?_,?_,fun fresh => Bool.noConfusion fresh⟩
  · change f.state.latitudeVelocity * f.velocityDecay = (95/100)^(k+1) * (f.state.speedKmh / (36/10) * Real.cos (f.state.bearingDeg * Real.pi / 180))
    rw [decay,north,pow_succ]
    ring
  · change f.state.longitudeVelocity * f.velocityDecay = (95/100)^(k+1) * (f.state.speedKmh / (36/10) * Real.sin (f.state.bearingDeg * Real.pi / 180))
    rw [decay,east,pow_succ]
    ring

theorem polarUpdate {f : KalmanFilterND ℝ} {k : Nat} (polar : Polar f k) (latitude longitude altitude accuracyM : ℝ) :
    Polar (f.update latitude longitude altitude accuracyM) (age k (.update latitude longitude altitude accuracyM)) := by
  obtain ⟨decay,range,north,east,rest⟩ := polar
  let after := f.update latitude longitude altitude accuracyM
  cases accepted : (le accuracyM (lit 0) || lt (lit 1000) accuracyM : Bool) with
  | true =>
    have ignored : f.update latitude longitude altitude accuracyM = f := if_pos accepted
    rw [ignored,age,if_pos accepted]
    exact ⟨decay,range,north,east,rest⟩
  | false =>
    rw [age,accepted,if_neg Bool.false_ne_true]
    have decay' : after.velocityDecay = 95/100 := (f.updateDecay latitude longitude altitude accuracyM).trans decay
    have started' : after.initialized = true := by simp [after,KalmanFilterND.update,accepted]
    cases started : f.initialized with
    | false =>
      obtain ⟨noNorth,noEast,noSpeed⟩ := rest started
      obtain ⟨sameNorth,sameEast,sameSpeed⟩ := f.updateUnderived latitude longitude altitude accepted started
      have bearing : after.state.bearingDeg = f.state.bearingDeg := by simp [after,KalmanFilterND.update,accepted,started]
      refine ⟨decay',by rw [bearing]; exact range,?_,?_,fun fresh => by rw [started'] at fresh; contradiction⟩
      · rw [sameNorth,sameSpeed,noNorth,noSpeed,zero_div,zero_mul,mul_zero]
      · rw [sameEast,sameSpeed,noEast,noSpeed,zero_div,zero_mul,mul_zero]
    | true =>
      let velocity : ℂ := ⟨after.state.latitudeVelocity,after.state.longitudeVelocity⟩
      have bearing : after.state.bearingDeg = compass velocity := by
        refine (f.updateBearing latitude longitude altitude accepted started).trans ?_
        have none : (lit 0 : ℝ) = 0 := Rat.cast_zero
        simp only [compass,none,realLt]
        rfl
      have speed : after.state.speedKmh / (36/10) = ‖velocity‖ := by
        have kilometres : (lit (36/10) : ℝ) = 36/10 := by norm_num [lit]
        rw [(f.updateDerives latitude longitude altitude accepted started).2.2,Complex.norm_eq_sqrt_sq_add_sq,kilometres,
          mul_div_cancel_right₀ _ (by norm_num),pow_two,pow_two]
        rfl
      obtain ⟨cos,sin⟩ := compassPolar velocity
      refine ⟨decay',by rw [bearing]; exact compassRange velocity,?_,?_,fun fresh => by rw [started'] at fresh; contradiction⟩
      · rw [speed,bearing,cos,pow_zero,one_mul]
      · rw [speed,bearing,sin,pow_zero,one_mul]

theorem polarStep {f : KalmanFilterND ℝ} {k : Nat} (polar : Polar f k) (op : Op) : Polar (step f op) (age k op) := by
  cases op with
  | predict dt => exact polarPredict polar dt
  | update latitude longitude altitude accuracyM => exact polarUpdate polar latitude longitude altitude accuracyM
  | reset => exact polarDefault (f := f.reset) polar.decay rfl 0

theorem polarRun {f : KalmanFilterND ℝ} {k : Nat} (polar : Polar f k) (ops : List Op) : Polar (run step f ops) (run age k ops) := by
  induction ops generalizing f k with
  | nil => exact polar
  | cons op ops ih => exact ih (polarStep polar op)

/- In every state of every run the bearing is in [0,360), and it is the direction of the velocity; the speed is the
size of the velocity before the predictions since the last fix. -/
theorem bearingPolar (positionProcessNoise positionMeasurementNoise velocityProcessNoise altitudeMeasurementNoise : ℝ) (ops : List Op) :
    let s := (run step (.new positionProcessNoise positionMeasurementNoise velocityProcessNoise altitudeMeasurementNoise) ops).state
    let size := (95/100)^(run age 0 ops) * (s.speedKmh / (36/10))
    (0 ≤ s.bearingDeg ∧ s.bearingDeg < 360) ∧ s.latitudeVelocity = size * Real.cos (s.bearingDeg * Real.pi / 180) ∧
      s.longitudeVelocity = size * Real.sin (s.bearingDeg * Real.pi / 180) := by
  intro s size
  have polar := polarRun (polarDefault (decayNew positionProcessNoise positionMeasurementNoise velocityProcessNoise
    altitudeMeasurementNoise) rfl 0) ops
  exact ⟨polar.range,by rw [mul_assoc]; exact polar.north,by rw [mul_assoc]; exact polar.east⟩

end

end UmapTracker.Bearing
