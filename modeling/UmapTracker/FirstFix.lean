import UmapTracker.GpsPipeline

/-! The first point of a pipeline. process_location predicts before it updates, so the update finds
an initialised filter and takes a velocity from the position 0, 0. -/
namespace UmapTracker.FirstFix
open GeoTypes KalmanFilter GpsPipeline MessageQueue Double Text Fields
variable {α : Type} [Double α]

inductive Fresh : GpsProcessingPipeline α → Prop where
  | constructed (q r a : α) : Fresh (.new q r a)
  | reset (p : GpsProcessingPipeline α) : Fresh p.reset

theorem freshFilter {p : GpsProcessingPipeline α} (fresh : Fresh p) :
    p.kalman.latitudeFilter.initialized = false ∧ p.kalman.longitudeFilter.initialized = false ∧
    p.kalman.previousLatitude = lit 0 ∧ p.kalman.previousLongitude = lit 0 := by
  cases fresh with
  | constructed q r a => exact ⟨rfl,rfl,rfl,rfl⟩
  | reset p => exact ⟨rfl,rfl,rfl,rfl⟩

/- Both velocity components are 0 after the call, and so is the speed in the message. -/
def ZeroSpeed (after : GpsProcessingPipeline α) (raw : GpsPoint α) : Prop :=
  after.kalman.state.latitudeVelocity = lit 0 ∧ after.kalman.state.longitudeVelocity = lit 0 ∧
  (quoted (ascii "speed"),ascii "0.0") ∈ members (after.kalman.populatePoint raw)

variable [LawfulDouble α]

theorem validAccuracy {raw : GpsPoint α} (valid : raw.isValid = true) :
    (le raw.accuracyM (lit 0) || lt (lit 1000) raw.accuracyM) = false ∧ le (lit 100 / raw.accuracyM) (lit 0) = false := by
  simp only [GpsPoint.isValid,Bool.and_eq_true] at valid
  obtain ⟨⟨_,positive⟩,close⟩ := valid
  refine ⟨?_,LawfulDouble.notFrom _ _ (LawfulDouble.divPositive _ positive close)⟩
  rw [LawfulDouble.notFrom _ _ positive,LawfulDouble.notAbove _ _ close]
  rfl

/- The velocity after the first point is the point itself. -/
theorem firstVelocity {p : GpsProcessingPipeline α} (fresh : Fresh p) {raw : GpsPoint α} (valid : raw.isValid = true) :
    (filter p raw).state.latitudeVelocity = raw.location.latitude ∧
    (filter p raw).state.longitudeVelocity = raw.location.longitude := by
  obtain ⟨accepted,weighed⟩ := validAccuracy valid
  obtain ⟨north,east,previousLatitude,previousLongitude⟩ := freshFilter fresh
  let predicted := p.kalman.predict (elapsed p raw)
  obtain ⟨first,second,latitude,longitude⟩ :=
    predicted.updateAccepted raw.location.latitude raw.location.longitude raw.altitudeM accepted
  obtain ⟨northward,eastward,_⟩ :=
    predicted.updateDerives raw.location.latitude raw.location.longitude raw.altitudeM accepted rfl
  have measuredLatitude : (filter p raw).state.latitude = raw.location.latitude := by
    refine latitude.trans ?_
    rw [first]
    exact KalmanFilter1D.updateFirst _ _ weighed north
  have measuredLongitude : (filter p raw).state.longitude = raw.location.longitude := by
    refine longitude.trans ?_
    rw [second]
    exact KalmanFilter1D.updateFirst _ _ weighed east
  constructor
  · calc (filter p raw).state.latitudeVelocity
        = (filter p raw).state.latitude - p.kalman.previousLatitude := northward
      _ = raw.location.latitude := by rw [measuredLatitude,previousLatitude,LawfulDouble.subZero]
  · calc (filter p raw).state.longitudeVelocity
        = (filter p raw).state.longitude - p.kalman.previousLongitude := eastward
      _ = raw.location.longitude := by rw [measuredLongitude,previousLongitude,LawfulDouble.subZero]

/- No velocity, no speed. -/
theorem restingSpeed {p : GpsProcessingPipeline α} {raw : GpsPoint α} (valid : raw.isValid = true)
    (north : (filter p raw).state.latitudeVelocity = lit 0) (east : (filter p raw).state.longitudeVelocity = lit 0) :
    (filter p raw).state.speedKmh = lit 0 := by
  have zero : (lit 0 : α) * lit 0 = lit 0 := LawfulDouble.mulZero 0 (le_refl 0)
  obtain ⟨_,_,speed⟩ := (p.kalman.predict (elapsed p raw)).updateDerives
    raw.location.latitude raw.location.longitude raw.altitudeM (validAccuracy valid).1 rfl
  refine speed.trans ?_
  change sqrt ((filter p raw).state.latitudeVelocity * (filter p raw).state.latitudeVelocity +
    (filter p raw).state.longitudeVelocity * (filter p raw).state.longitudeVelocity) * lit (36/10) = lit 0
  rw [north,east,zero,LawfulDouble.addZero,LawfulDouble.sqrtZero]
  exact LawfulDouble.mulZero (36/10) (by norm_num)

/- The message of the first valid point reports zero speed exactly where the point is 0, 0. -/
theorem zeroSpeedIff {p : GpsProcessingPipeline α} (fresh : Fresh p) (impl : Impl) (db : Db) {raw : GpsPoint α}
    (valid : raw.isValid = true) (now : Int) (step : Exec) :
    let after := (processLocation p impl db raw now step).2
    after.2 = (enqueue impl db (some (payload (after.1.kalman.populatePoint raw))) now step).2 ∧
    (ZeroSpeed after.1 raw ↔ raw.location.latitude = lit 0 ∧ raw.location.longitude = lit 0) := by
  intro after
  obtain ⟨kalman,queued⟩ : after.1.kalman = filter p raw ∧ after.2 = (enqueue impl db (some (text p raw)) now step).2 :=
    processValid p impl db now step valid
  obtain ⟨north,east⟩ := firstVelocity fresh valid
  rw [ZeroSpeed,kalman,north,east]
  refine ⟨queued,fun zero => ⟨zero.1,zero.2.1⟩,?_⟩
  rintro ⟨latitude,longitude⟩
  refine ⟨latitude,longitude,?_⟩
  have speed := restingSpeed valid (north.trans latitude) (east.trans longitude)
  have shown : print 1 (filter p raw).state.speedKmh = ascii "0.0" := by
    rw [speed,printZero]
    decide
  rw [← shown]
  simp [members,KalmanFilterND.populatePoint]

theorem zeroSpeedAtOrigin :
    let raw : GpsPoint ℚ := ⟨⟨0,0⟩,0,0,100,5,1,1000,80,false⟩
    raw.isValid = true ∧ ZeroSpeed (processLocation .default .opened AutoTable.empty raw 7 .runs).2.1 raw := by
  intro raw
  have valid : raw.isValid = true := by decide +kernel
  have fresh : Fresh (GpsProcessingPipeline.default : GpsProcessingPipeline ℚ) := .constructed _ _ _
  exact ⟨valid,(zeroSpeedIff fresh .opened AutoTable.empty valid 7 .runs).2.mpr ⟨rfl,rfl⟩⟩

/- A first point at 55, 37 leaves a velocity of 55, 37 degrees, and its message a speed of 238.6 km/h. -/
theorem firstFixMoves :
    let raw : GpsPoint ℚ := ⟨⟨55,37⟩,0,0,100,5,1,1000,80,false⟩
    let after := (processLocation .default .opened AutoTable.empty raw 7 .runs).2.1
    raw.isValid = true ∧ after.kalman.state.latitudeVelocity = 55 ∧ after.kalman.state.longitudeVelocity = 37 ∧
    print 1 (after.kalman.populatePoint raw).speedKmh = ascii "238.6" ∧ ¬ ZeroSpeed after raw := by
  intro raw after
  have velocity : after.kalman.state.latitudeVelocity = 55 := by decide +kernel
  refine ⟨by decide +kernel,velocity,by decide +kernel,by decide +kernel,?_⟩
  rintro ⟨zero,_,_⟩
  exact absurd (velocity.symm.trans zero) (by decide +kernel)

end UmapTracker.FirstFix
