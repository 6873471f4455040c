import UmapTracker.GeoTypes

/-! core/kalman_filter.h. The scalar filter, and the filter of a position, its velocity and
its altitude built from three of them. -/
namespace UmapTracker.KalmanFilter
open Double GeoTypes
variable {α : Type} [Double α]

structure KalmanFilter1D (α : Type) where
  processNoise : α
  measurementNoise : α
  estimate : α
  estimateError : α
  initialized : Bool
  deriving DecidableEq, Repr

namespace KalmanFilter1D

def new (processNoise measurementNoise : α) : KalmanFilter1D α :=
  ⟨processNoise,measurementNoise,lit 0,lit 1,false⟩

def predict (f : KalmanFilter1D α) (dt : α) : KalmanFilter1D α :=
  {f with estimateError := f.estimateError + f.processNoise * abs dt}

def update (f : KalmanFilter1D α) (measurement weight : α) : KalmanFilter1D α :=
  if le weight (lit 0) then f
  else if !f.initialized then {f with estimate := measurement, initialized := true}
  else
    let gain := f.estimateError / (f.estimateError + f.measurementNoise / weight)
    {f with estimate := f.estimate + gain * (measurement - f.estimate)
            estimateError := (lit 1 - gain) * f.estimateError}

def getError (f : KalmanFilter1D α) : α := f.estimateError

def getGain (f : KalmanFilter1D α) : α :=
  if lt (f.estimateError + f.measurementNoise) (lit (1 / 10^9)) then lit 0
  else f.estimateError / (f.estimateError + f.measurementNoise)

def reset (f : KalmanFilter1D α) : KalmanFilter1D α :=
  {f with estimate := lit 0, estimateError := lit 1, initialized := false}

/- The first measurement of positive weight is taken as it is. -/
theorem updateFirst (f : KalmanFilter1D α) (measurement : α) {weight : α} (weighed : le weight (lit 0) = false)
    (first : f.initialized = false) : (f.update measurement weight).estimate = measurement := by
  simp [update,weighed,first]

@[simp] theorem predictReset (f : KalmanFilter1D α) (dt : α) : (f.predict dt).reset = f.reset := rfl

@[simp] theorem updateReset (f : KalmanFilter1D α) (measurement weight : α) :
    (f.update measurement weight).reset = f.reset := by
  unfold update
  split
  · rfl
  · split <;> rfl

end KalmanFilter1D

structure EstimateState (α : Type) where
  latitude : α
  longitude : α
  latitudeVelocity : α
  longitudeVelocity : α
  altitude : α
  speedKmh : α
  bearingDeg : α
  accuracyM : α
  timestampMs : UInt32
  deriving DecidableEq, Repr

namespace EstimateState

def default : EstimateState α := ⟨lit 0,lit 0,lit 0,lit 0,lit 0,lit 0,lit 0,lit 0,0⟩

def bearingRadians (s : EstimateState α) : α := atan2 s.longitudeVelocity s.latitudeVelocity

def speedMs (s : EstimateState α) : α :=
  sqrt (s.latitudeVelocity * s.latitudeVelocity + s.longitudeVelocity * s.longitudeVelocity)

end EstimateState

structure KalmanFilterND (α : Type) where
  latitudeFilter : KalmanFilter1D α
  longitudeFilter : KalmanFilter1D α
  altitudeFilter : KalmanFilter1D α
  velocityDecay : α
  state : EstimateState α
  previousLatitude : α
  previousLongitude : α
  initialized : Bool
  deriving DecidableEq, Repr

namespace KalmanFilterND

-- velocity_process_noise is accepted and not used
def new (positionProcessNoise positionMeasurementNoise _velocityProcessNoise altitudeMeasurementNoise : α) :
    KalmanFilterND α where
  latitudeFilter := .new positionProcessNoise positionMeasurementNoise
  longitudeFilter := .new positionProcessNoise positionMeasurementNoise
  altitudeFilter := .new positionProcessNoise altitudeMeasurementNoise
  velocityDecay := lit (95/100)
  state := .default
  previousLatitude := lit 0
  previousLongitude := lit 0
  initialized := false

def predict (f : KalmanFilterND α) (dt : α) : KalmanFilterND α :=
  let latitudeVelocity := f.state.latitudeVelocity * f.velocityDecay
  let longitudeVelocity := f.state.longitudeVelocity * f.velocityDecay
  {f with
    state := {f.state with
      latitudeVelocity, longitudeVelocity
      latitude := f.state.latitude + latitudeVelocity * dt
      longitude := f.state.longitude + longitudeVelocity * dt}
    latitudeFilter := f.latitudeFilter.predict dt
    longitudeFilter := f.longitudeFilter.predict dt
    altitudeFilter := f.altitudeFilter.predict dt
    initialized := true}

-- the derived values of an initialised filter: velocity, then speed and bearing from it
def derive (s : EstimateState α) (previousLatitude previousLongitude : α) : EstimateState α :=
  let s := {s with latitudeVelocity := s.latitude - previousLatitude
                   longitudeVelocity := s.longitude - previousLongitude}
  let s := {s with speedKmh := s.speedMs * lit (36/10)}
  let bearingDeg := s.bearingRadians * lit 180 / pi
  {s with bearingDeg := if lt bearingDeg (lit 0) then bearingDeg + lit 360 else bearingDeg}

def update (f : KalmanFilterND α) (latitude longitude altitude accuracyM : α) : KalmanFilterND α :=
  if le accuracyM (lit 0) || lt (lit 1000) accuracyM then f
  else
    let weight := lit 100 / accuracyM
    let latitudeFilter := f.latitudeFilter.update latitude weight
    let longitudeFilter := f.longitudeFilter.update longitude weight
    let altitudeFilter := f.altitudeFilter.update altitude weight
    let state := {f.state with
      latitude := latitudeFilter.estimate
      longitude := longitudeFilter.estimate
      altitude := altitudeFilter.estimate
      accuracyM}
    let state := if f.initialized then derive state f.previousLatitude f.previousLongitude else state
    {f with latitudeFilter, longitudeFilter, altitudeFilter, state
            previousLatitude := state.latitude
            previousLongitude := state.longitude
            initialized := true}

def populatePoint (f : KalmanFilterND α) (point : GpsPoint α) : GpsPoint α :=
  {point with
    speedKmh := f.state.speedKmh
    bearingDeg := f.state.bearingDeg
    altitudeM := f.state.altitude
    location := ⟨f.state.latitude,f.state.longitude⟩}

def getLatitudeError (f : KalmanFilterND α) : α := f.latitudeFilter.getError

def getLongitudeError (f : KalmanFilterND α) : α := f.longitudeFilter.getError

def getAltitudeError (f : KalmanFilterND α) : α := f.altitudeFilter.getError

def reset (f : KalmanFilterND α) : KalmanFilterND α :=
  {f with
    latitudeFilter := f.latitudeFilter.reset
    longitudeFilter := f.longitudeFilter.reset
    altitudeFilter := f.altitudeFilter.reset
    state := .default
    previousLatitude := lit 0
    previousLongitude := lit 0
    initialized := false}

/- The position of an accepted update is that of its two filters. -/
theorem updateAccepted (f : KalmanFilterND α) (latitude longitude altitude : α) {accuracyM : α}
    (accepted : (le accuracyM (lit 0) || lt (lit 1000) accuracyM) = false) :
    let after := f.update latitude longitude altitude accuracyM
    after.latitudeFilter = f.latitudeFilter.update latitude (lit 100 / accuracyM) ∧
    after.longitudeFilter = f.longitudeFilter.update longitude (lit 100 / accuracyM) ∧
    after.state.latitude = after.latitudeFilter.estimate ∧ after.state.longitude = after.longitudeFilter.estimate := by
  intro after
  simp only [after,update,accepted,Bool.false_eq_true,if_false]
  cases f.initialized <;> exact ⟨trivial,trivial,rfl,rfl⟩

/- An accepted update of an initialised filter takes the velocity from the previous position. -/
theorem updateDerives (f : KalmanFilterND α) (latitude longitude altitude : α) {accuracyM : α}
    (accepted : (le accuracyM (lit 0) || lt (lit 1000) accuracyM) = false) (started : f.initialized = true) :
    let after := (f.update latitude longitude altitude accuracyM).state
    after.latitudeVelocity = after.latitude - f.previousLatitude ∧
    after.longitudeVelocity = after.longitude - f.previousLongitude ∧
    after.speedKmh = sqrt (after.latitudeVelocity * after.latitudeVelocity +
      after.longitudeVelocity * after.longitudeVelocity) * lit (36/10) := by
  intro after
  simp only [after,update,accepted,started,Bool.false_eq_true,if_false,if_true]
  exact ⟨rfl,rfl,rfl⟩

/- An accepted update of a filter that is not initialised leaves the velocity and the speed alone. -/
theorem updateUnderived (f : KalmanFilterND α) (latitude longitude altitude : α) {accuracyM : α}
    (accepted : (le accuracyM (lit 0) || lt (lit 1000) accuracyM) = false) (first : f.initialized = false) :
    let after := (f.update latitude longitude altitude accuracyM).state
    after.latitudeVelocity = f.state.latitudeVelocity ∧ after.longitudeVelocity = f.state.longitudeVelocity ∧
    after.speedKmh = f.state.speedKmh := by
  intro after
  simp only [after,update,accepted,first,Bool.false_eq_true,if_false]
  exact ⟨trivial,trivial,trivial⟩

/- The bearing is taken from the new velocity. -/
theorem updateBearing (f : KalmanFilterND α) (latitude longitude altitude : α) {accuracyM : α}
    (accepted : (le accuracyM (lit 0) || lt (lit 1000) accuracyM) = false) (started : f.initialized = true) :
    let after := (f.update latitude longitude altitude accuracyM).state
    let bearingDeg := atan2 after.longitudeVelocity after.latitudeVelocity * lit 180 / pi
    after.bearingDeg = if lt bearingDeg (lit 0) then bearingDeg + lit 360 else bearingDeg := by
  intro after
  simp only [after,update,accepted,started,Bool.false_eq_true,if_false,if_true]
  rfl

/- What an accepted update keeps for the next one, and its altitude. -/
theorem updateKeeps (f : KalmanFilterND α) (latitude longitude altitude : α) {accuracyM : α}
    (accepted : (le accuracyM (lit 0) || lt (lit 1000) accuracyM) = false) :
    let after := f.update latitude longitude altitude accuracyM
    after.previousLatitude = after.latitudeFilter.estimate ∧ after.previousLongitude = after.longitudeFilter.estimate ∧
    after.altitudeFilter = f.altitudeFilter.update altitude (lit 100 / accuracyM) ∧
    after.state.altitude = after.altitudeFilter.estimate := by
  intro after
  simp only [after,update,accepted,Bool.false_eq_true,if_false]
  cases f.initialized <;> exact ⟨rfl,rfl,trivial,rfl⟩

theorem updateDecay (f : KalmanFilterND α) (latitude longitude altitude accuracyM : α) :
    (f.update latitude longitude altitude accuracyM).velocityDecay = f.velocityDecay := by
  unfold update
  split <;> rfl

@[simp] theorem predictReset (f : KalmanFilterND α) (dt : α) : (f.predict dt).reset = f.reset := rfl

@[simp] theorem updateReset (f : KalmanFilterND α) (latitude longitude altitude accuracyM : α) :
    (f.update latitude longitude altitude accuracyM).reset = f.reset := by
  unfold update
  split
  · rfl
  · simp [reset]

end KalmanFilterND
end UmapTracker.KalmanFilter
