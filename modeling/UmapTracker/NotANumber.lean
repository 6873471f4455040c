import UmapTracker.FilterHull

/-! Doubles that need not be finite: a rational, or a value that every operation keeps and every
comparison fails on. A point is checked for its coordinates and its accuracy, not for its
altitude, and the filter of the altitude never forgets one that was no number. -/
namespace UmapTracker.NotANumber
open Machine GeoTypes KalmanFilter GpsPipeline PipelineRuns FilterHull MessageQueue Text Fields

inductive Number where
  | finite (q : ℚ)
  | notANumber
  deriving DecidableEq, Repr

namespace Number

def isFinite : Number → Bool
  | finite _ => true
  | notANumber => false

def map (f : ℚ → ℚ) : Number → Number
  | finite x => finite (f x)
  | notANumber => notANumber

def map₂ (f : ℚ → ℚ → ℚ) : Number → Number → Number
  | finite x,finite y => finite (f x y)
  | _,_ => notANumber

def divide : Number → Number → Number
  | finite x,finite y => if y = 0 then notANumber else finite (x / y)
  | _,_ => notANumber

def root : Number → Number
  | finite x => if x < 0 then notANumber else finite (Rational.sqrt x)
  | notANumber => notANumber

def compare (r : ℚ → ℚ → Bool) : Number → Number → Bool
  | finite x,finite y => r x y
  | _,_ => false

end Number

open Number

instance numberDouble : Double Number where
  add := map₂ (· + ·)
  sub := map₂ (· - ·)
  mul := map₂ (· * ·)
  div := divide
  lit := finite
  lt := compare (fun x y => decide (x < y))
  le := compare (fun x y => decide (x ≤ y))
  abs := map (fun x => |x|)
  sqrt := root
  sin := map Rational.sin
  cos := map Rational.cos
  atan2 := map₂ Rational.atan2
  pi := finite Rational.pi
  fixed := fun places x =>
    match x with
    | finite q => Rational.fixed places q
    | notANumber => .notANumber false
  fixedZero := rationalDouble.fixedZero

theorem finiteIff {x : Number} : x.isFinite = true ↔ ∃ q, x = finite q := by
  cases x <;> simp [isFinite]

@[simp] theorem finiteAdd (x y : ℚ) : finite x + finite y = finite (x + y) := rfl
@[simp] theorem finiteSub (x y : ℚ) : finite x - finite y = finite (x - y) := rfl
@[simp] theorem finiteMul (x y : ℚ) : finite x * finite y = finite (x * y) := rfl
@[simp] theorem finiteLit (x : ℚ) : (Double.lit x : Number) = finite x := rfl

@[simp] theorem addNan (x : Number) : notANumber + x = notANumber := rfl
@[simp] theorem nanAdd (x : Number) : x + notANumber = notANumber := by cases x <;> rfl

theorem finiteDiv (x : ℚ) {y : ℚ} (nonzero : y ≠ 0) : finite x / finite y = finite (x / y) := if_neg nonzero

/- A text without "nan" or "inf" is what a finite number prints. -/
theorem printFinite (places : Nat) (x : Number) : (∀ b ∈ Double.print places x, numeral b = true) ↔ x.isFinite = true := by
  cases x with
  | finite q => exact iff_of_true (fixedPointNumeral _ _ _) rfl
  | notANumber => exact iff_of_false (fun all => absurd (all 110 List.mem_cons_self) (by decide)) (by decide)

/- The filters of the exact arithmetic, with their numbers as they are. -/
def lift (f : KalmanFilter1D ℚ) : KalmanFilter1D Number :=
  ⟨finite f.processNoise,finite f.measurementNoise,finite f.estimate,finite f.estimateError,f.initialized⟩

/- The estimate is lost, and nothing else. -/
def spoil (f : KalmanFilter1D Number) : KalmanFilter1D Number := {f with estimate := notANumber}

theorem liftPredict (f : KalmanFilter1D ℚ) (dt : ℚ) : (lift f).predict (finite dt) = lift (f.predict dt) := rfl

theorem spoilPredict (f : KalmanFilter1D ℚ) (dt : ℚ) : (spoil (lift f)).predict (finite dt) = spoil (lift (f.predict dt)) := rfl

theorem liftGain {f : KalmanFilter1D ℚ} (sound : Sound f) {weight : ℚ} (positive : 0 < weight) :
    (lift f).estimateError / ((lift f).estimateError + (lift f).measurementNoise / finite weight) = finite (gain f weight) := by
  have divisor : f.estimateError + f.measurementNoise / weight ≠ 0 :=
    (add_pos sound.error (div_pos sound.measurementNoise positive)).ne'
  change finite f.estimateError / (finite f.estimateError + finite f.measurementNoise / finite weight) = _
  rw [finiteDiv _ positive.ne',finiteAdd,finiteDiv _ divisor]
  rfl

theorem liftWeighed {weight : ℚ} (positive : 0 < weight) : Double.le (finite weight) (Double.lit 0 : Number) = false :=
  decide_eq_false (not_le.mpr positive)

theorem liftUpdate {f : KalmanFilter1D ℚ} (sound : Sound f) (measurement : ℚ) {weight : ℚ} (positive : 0 < weight) :
    (lift f).update (finite measurement) (finite weight) = lift (f.update measurement weight) := by
  rw [updateSpec f measurement positive,KalmanFilter1D.update,liftWeighed positive,liftGain sound positive]
  cases started : f.initialized with
  | false => simp [lift,started]
  | true => simp [lift,started]

theorem spoiledUpdate {f : KalmanFilter1D ℚ} (sound : Sound f) {weight : ℚ} (positive : 0 < weight) :
    (lift f).update notANumber (finite weight) = spoil (lift (f.update 0 weight)) := by
  rw [updateSpec f 0 positive,KalmanFilter1D.update,liftWeighed positive,liftGain sound positive]
  cases started : f.initialized with
  | false => simp [lift,spoil,started]
  | true => simp [lift,spoil,started]; rfl

/- A lost estimate stays lost. -/
theorem spoilUpdate {f : KalmanFilter1D ℚ} (sound : Sound f) (started : f.initialized = true) (x : Number) {weight : ℚ}
    (positive : 0 < weight) : (spoil (lift f)).update x (finite weight) = spoil (lift (f.update 0 weight)) := by
  have gained := liftGain sound positive
  rw [updateSpec f 0 positive,if_pos started,KalmanFilter1D.update,liftWeighed positive]
  simp only [spoil,lift] at gained ⊢
  rw [gained]
  simp [started]

/- The filter after points with these altitudes: its position is made of finite numbers, and its altitude
is lost once an altitude was. -/
structure Clean (k : KalmanFilterND Number) (altitudes : List Number) : Prop where
  latitude : ∃ f, Sound f ∧ k.latitudeFilter = lift f
  longitude : ∃ f, Sound f ∧ k.longitudeFilter = lift f
  altitude : ∃ f, Sound f ∧ (altitudes ≠ [] → f.initialized = true) ∧
    k.altitudeFilter = if altitudes.all isFinite then lift f else spoil (lift f)
  previous : k.previousLatitude.isFinite = true ∧ k.previousLongitude.isFinite = true

theorem cleanNew {q r a : ℚ} (noise : 0 ≤ q) (measurement : 0 < r) (altitude : 0 < a) (v : Number) :
    Clean (.new (finite q) (finite r) v (finite a)) [] :=
  ⟨⟨_,soundNew noise measurement,rfl⟩,⟨_,soundNew noise measurement,rfl⟩,
    ⟨_,soundNew noise altitude,fun some => absurd rfl some,rfl⟩,rfl,rfl⟩

theorem cleanReset {k : KalmanFilterND Number} {altitudes : List Number} (clean : Clean k altitudes) : Clean k.reset [] := by
  obtain ⟨⟨f,sound,first⟩,⟨g,sound',second⟩,⟨h,sound'',_,third⟩,_⟩ := clean
  refine ⟨⟨f.reset,soundReset sound,?_⟩,⟨g.reset,soundReset sound',?_⟩,⟨h.reset,soundReset sound'',fun some => absurd rfl some,?_⟩,
    rfl,rfl⟩
  · change k.latitudeFilter.reset = _
    rw [first]
    rfl
  · change k.longitudeFilter.reset = _
    rw [second]
    rfl
  · change k.altitudeFilter.reset = lift h.reset
    rw [third]
    split <;> rfl

theorem cleanPredict {k : KalmanFilterND Number} {altitudes : List Number} (clean : Clean k altitudes) (dt : ℚ) :
    Clean (k.predict (finite dt)) altitudes := by
  obtain ⟨⟨f,sound,first⟩,⟨g,sound',second⟩,⟨h,sound'',started,third⟩,previous⟩ := clean
  refine ⟨⟨f.predict dt,soundPredict sound dt,?_⟩,⟨g.predict dt,soundPredict sound' dt,?_⟩,
    ⟨h.predict dt,soundPredict sound'' dt,started,?_⟩,previous⟩
  · change k.latitudeFilter.predict (finite dt) = _
    rw [first,liftPredict]
  · change k.longitudeFilter.predict (finite dt) = _
    rw [second,liftPredict]
  · change k.altitudeFilter.predict (finite dt) = _
    rw [third]
    split
    · exact liftPredict h dt
    · exact spoilPredict h dt

theorem altitudeUpdate {f : KalmanFilter1D ℚ} (sound : Sound f) {altitudes : List Number}
    (started : altitudes ≠ [] → f.initialized = true) (x : Number) {weight : ℚ} (positive : 0 < weight) :
    ∃ g, Sound g ∧ (altitudes ++ [x] ≠ [] → g.initialized = true) ∧
      (if altitudes.all isFinite then lift f else spoil (lift f)).update x (finite weight) =
        if (altitudes ++ [x]).all isFinite then lift g else spoil (lift g) := by
  cases all : altitudes.all isFinite with
  | false =>
    have some : altitudes ≠ [] := by
      rintro rfl
      contradiction
    exact ⟨f.update 0 weight,soundUpdate sound 0 positive,fun _ => updateStarts f 0 positive,
      by simpa [all] using spoilUpdate sound (started some) x positive⟩
  | true =>
    cases x with
    | finite q =>
      exact ⟨f.update q weight,soundUpdate sound q positive,fun _ => updateStarts f q positive,
        by simpa [all,isFinite] using liftUpdate sound q positive⟩
    | notANumber =>
      exact ⟨f.update 0 weight,soundUpdate sound 0 positive,fun _ => updateStarts f 0 positive,
        by simpa [all,isFinite] using spoiledUpdate sound positive⟩

theorem acceptingNumber {accuracyM : ℚ} (positive : 0 < accuracyM) (close : accuracyM ≤ 1000) :
    (Double.le (finite accuracyM) (Double.lit 0 : Number) || Double.lt (Double.lit 1000 : Number) (finite accuracyM)) = false :=
  accepting positive close

theorem cleanUpdate {k : KalmanFilterND Number} {altitudes : List Number} (clean : Clean k altitudes) (latitude longitude : ℚ)
    (altitude : Number) {accuracyM : ℚ} (positive : 0 < accuracyM) (close : accuracyM ≤ 1000) :
    Clean (k.update (finite latitude) (finite longitude) altitude (finite accuracyM)) (altitudes ++ [altitude]) := by
  obtain ⟨⟨f,sound,first⟩,⟨g,sound',second⟩,⟨h,sound'',started,third⟩,_⟩ := clean
  have weighed : (0 : ℚ) < 100 / accuracyM := div_pos (by norm_num) positive
  have weight : (Double.lit 100 : Number) / finite accuracyM = finite (100 / accuracyM) := finiteDiv 100 positive.ne'
  obtain ⟨latitudeFilter,longitudeFilter,_,_⟩ :=
    k.updateAccepted (finite latitude) (finite longitude) altitude (acceptingNumber positive close)
  obtain ⟨previousLatitude,previousLongitude,altitudeFilter,_⟩ :=
    k.updateKeeps (finite latitude) (finite longitude) altitude (acceptingNumber positive close)
  rw [first,weight,liftUpdate sound latitude weighed] at latitudeFilter
  rw [second,weight,liftUpdate sound' longitude weighed] at longitudeFilter
  rw [third,weight] at altitudeFilter
  obtain ⟨h',still,running,same⟩ := altitudeUpdate sound'' started altitude weighed
  refine ⟨⟨_,soundUpdate sound latitude weighed,latitudeFilter⟩,⟨_,soundUpdate sound' longitude weighed,longitudeFilter⟩,
    ⟨h',still,running,altitudeFilter.trans same⟩,?_,?_⟩
  · rw [previousLatitude,latitudeFilter]
    rfl
  · rw [previousLongitude,longitudeFilter]
    rfl

/- Position, speed and bearing of a filter that has taken a fix. -/
structure Placed (s : EstimateState Number) : Prop where
  latitude : s.latitude.isFinite = true
  longitude : s.longitude.isFinite = true
  speedKmh : s.speedKmh.isFinite = true
  bearingDeg : s.bearingDeg.isFinite = true

theorem placedUpdate {k : KalmanFilterND Number} {altitudes : List Number} (clean : Clean k altitudes) (started : k.initialized = true)
    (latitude longitude : ℚ) (altitude : Number) {accuracyM : ℚ} (positive : 0 < accuracyM) (close : accuracyM ≤ 1000) :
    Placed (k.update (finite latitude) (finite longitude) altitude (finite accuracyM)).state := by
  obtain ⟨⟨f,_,first⟩,⟨g,_,second⟩,_⟩ := cleanUpdate clean latitude longitude altitude positive close
  obtain ⟨px,previousNorth⟩ := finiteIff.mp clean.previous.1
  obtain ⟨py,previousEast⟩ := finiteIff.mp clean.previous.2
  have accepted := acceptingNumber positive close
  obtain ⟨_,_,north,east⟩ := k.updateAccepted (finite latitude) (finite longitude) altitude accepted
  obtain ⟨northward,eastward,speed⟩ := k.updateDerives (finite latitude) (finite longitude) altitude accepted started
  have bearing := k.updateBearing (finite latitude) (finite longitude) altitude accepted started
  generalize k.update (finite latitude) (finite longitude) altitude (finite accuracyM) = after at *
  rw [first] at north
  rw [second] at east
  simp only [lift] at north east
  rw [north,previousNorth,finiteSub] at northward
  rw [east,previousEast,finiteSub] at eastward
  dsimp only at bearing
  rw [northward,eastward] at speed bearing
  refine ⟨by rw [north]; rfl,by rw [east]; rfl,?_,?_⟩
  · have sum : 0 ≤ (f.estimate - px) * (f.estimate - px) + (g.estimate - py) * (g.estimate - py) :=
      add_nonneg (mul_self_nonneg _) (mul_self_nonneg _)
    have root : Double.sqrt (finite ((f.estimate - px) * (f.estimate - px) + (g.estimate - py) * (g.estimate - py))) = finite _ :=
      if_neg (not_lt.mpr sum)
    rw [speed,finiteMul,finiteMul,finiteAdd,root]
    rfl
  · have turned : Double.atan2 (finite (g.estimate - py)) (finite (f.estimate - px)) * (Double.lit 180 : Number) / Double.pi =
        finite (Rational.atan2 (g.estimate - py) (f.estimate - px) * 180 / Rational.pi) :=
      finiteDiv _ (by decide +kernel)
    rw [bearing,turned]
    split <;> rfl

/- What has passed a comparison is a finite number. -/
theorem comparedFinite {r : ℚ → ℚ → Bool} {x y : Number} (passed : compare r x y = true) : ∃ q, y = finite q := by
  cases x with
  | notANumber => contradiction
  | finite p =>
    cases y with
    | notANumber => contradiction
    | finite q => exact ⟨q,rfl⟩

theorem validNumber {raw : GpsPoint Number} (valid : raw.isValid = true) :
    ∃ latitude longitude accuracyM, raw.location = ⟨finite latitude,finite longitude⟩ ∧ raw.accuracyM = finite accuracyM ∧
      0 < accuracyM ∧ accuracyM < 1000 := by
  simp only [GpsPoint.isValid,Coordinate.isValid,Bool.and_eq_true] at valid
  obtain ⟨⟨⟨⟨⟨south,_⟩,west⟩,_⟩,positive⟩,close⟩ := valid
  obtain ⟨latitude,north⟩ := comparedFinite south
  obtain ⟨longitude,east⟩ := comparedFinite west
  obtain ⟨accuracyM,accuracy⟩ := comparedFinite positive
  rw [accuracy] at positive close
  refine ⟨latitude,longitude,accuracyM,?_,accuracy,of_decide_eq_true positive,of_decide_eq_true close⟩
  rw [← north,← east]

theorem elapsedFinite (p : GpsProcessingPipeline Number) (raw : GpsPoint Number) : ∃ dt, elapsed p raw = finite dt := by
  unfold elapsed
  split
  · exact ⟨_,finiteDiv _ (by norm_num)⟩
  · exact ⟨0,rfl⟩

/- The altitudes accepted since the construction or the last reset. -/
def altitudes (taken : List Number) : Call Number × Reading → List Number
  | (.process raw,_) => if raw.isValid then taken ++ [raw.altitudeM] else taken
  | (.reset,_) => []

theorem cleanFilter {p : GpsProcessingPipeline Number} {taken : List Number} (clean : Clean p.kalman taken) {raw : GpsPoint Number}
    (valid : raw.isValid = true) :
    Clean (filter p raw) (taken ++ [raw.altitudeM]) ∧ Placed (filter p raw).state ∧
    (filter p raw).state.altitude = (filter p raw).altitudeFilter.estimate := by
  obtain ⟨dt,passed⟩ := elapsedFinite p raw
  obtain ⟨latitude,longitude,accuracyM,location,accuracy,positive,close⟩ := validNumber valid
  have predicted := cleanPredict clean dt
  rw [filter,passed,location,accuracy]
  exact ⟨cleanUpdate predicted latitude longitude raw.altitudeM positive close.le,
    placedUpdate predicted rfl latitude longitude raw.altitudeM positive close.le,
    (KalmanFilterND.updateKeeps _ (finite latitude) (finite longitude) raw.altitudeM (acceptingNumber positive close.le)).2.2.2⟩

theorem cleanStep (impl : Impl) {s : Site Number} {taken : List Number} (clean : Clean s.pipeline.kalman taken)
    (e : Call Number × Reading) : Clean (step impl s e).pipeline.kalman (altitudes taken e) := by
  obtain ⟨call,reading⟩ := e
  cases call with
  | reset => exact cleanReset clean
  | process raw =>
    cases valid : raw.isValid with
    | false => simpa [step,altitudes,processLocation,valid] using clean
    | true =>
      have kalman := (processValid s.pipeline impl s.db reading.now reading.exec valid).1
      simp only [step,altitudes,valid,if_true,kalman]
      exact (cleanFilter clean valid).1

/- Every number of the message is printed as one. -/
def Numbers (point : GpsPoint Number) : Prop := ∀ m ∈ members point, ∀ b ∈ m.2, numeral b = true

/- The fields of the point itself. -/
def OwnFinite (raw : GpsPoint Number) : Prop :=
  ∀ x ∈ [raw.location.latitude,raw.location.longitude,raw.speedKmh,raw.bearingDeg,raw.altitudeM,raw.accuracyM,raw.hdop],
    x.isFinite = true

theorem cleanRun {q r a : ℚ} (noise : 0 ≤ q) (measurement : 0 < r) (altitude : 0 < a) (impl : Impl) (db : Db)
    (calls : List (Call Number × Reading)) :
    Clean (run (step impl) ⟨.new (finite q) (finite r) (finite a),db⟩ calls).pipeline.kalman (run altitudes [] calls) := by
  have start : Clean (GpsProcessingPipeline.new (finite q) (finite r) (finite a)).kalman [] :=
    cleanNew noise measurement altitude (finite (1/100))
  have both := bisimulates (R := fun (s : Site Number) taken => Clean s.pipeline.kalman taken)
    (s := ⟨.new (finite q) (finite r) (finite a),db⟩) (fun _ _ e clean => ⟨(rfl : () = ()),cleanStep impl clean e⟩) start calls
  exact both.2

/- The altitude of the filter is a number exactly when all of its altitudes were. -/
theorem altitudeFinite {k : KalmanFilterND Number} {taken : List Number} (clean : Clean k taken) :
    k.altitudeFilter.estimate.isFinite = taken.all isFinite := by
  obtain ⟨h,_,_,same⟩ := clean.altitude
  rw [same]
  cases taken.all isFinite <;> rfl

theorem numbersOf (point : GpsPoint Number) (placed : point.location.latitude.isFinite = true ∧ point.location.longitude.isFinite = true ∧
    point.speedKmh.isFinite = true ∧ point.bearingDeg.isFinite = true) (accuracy : point.accuracyM.isFinite = true)
    (hdop : point.hdop.isFinite = true) : Numbers point ↔ point.altitudeM.isFinite = true := by
  have count : ∀ n, (∀ b ∈ decimal n, numeral b = true) ↔ True :=
    fun n => iff_true_intro (fun b mem => by simp [numeral,decimalDigits n b mem])
  simp [Numbers,members,printFinite,placed,accuracy,hdop,count]

/- The message of a point with finite fields is made of finite numbers exactly when no altitude since the
construction or the last reset was lost. -/
theorem numbersIff {q r a : ℚ} (noise : 0 ≤ q) (measurement : 0 < r) (altitude : 0 < a) (impl : Impl) (db : Db)
    (calls : List (Call Number × Reading)) {raw : GpsPoint Number} (reading : Reading) (valid : raw.isValid = true)
    (own : OwnFinite raw) :
    let s := run (step impl) ⟨.new (finite q) (finite r) (finite a),db⟩ calls
    let filtered := (filter s.pipeline raw).populatePoint raw
    (step impl s (.process raw,reading)).db = (enqueue impl s.db (some (payload filtered)) reading.now reading.exec).2 ∧
    (Numbers filtered ↔ ∀ x ∈ run altitudes [] calls, x.isFinite = true) := by
  intro s filtered
  have queued := (processValid s.pipeline impl s.db reading.now reading.exec valid).2
  obtain ⟨clean,placed,estimate⟩ := cleanFilter (cleanRun noise measurement altitude impl db calls) valid
  simp only [OwnFinite,List.forall_mem_cons] at own
  obtain ⟨_,_,_,_,altitudeM,accuracyM,hdop,_⟩ := own
  refine ⟨queued,?_⟩
  have numbers := numbersOf filtered ⟨placed.latitude,placed.longitude,placed.speedKmh,placed.bearingDeg⟩ accuracyM hdop
  rw [numbers]
  change (filter s.pipeline raw).state.altitude.isFinite = true ↔ _
  rw [estimate,altitudeFinite clean,List.all_eq_true]
  simp only [List.mem_append,List.mem_singleton,or_imp,forall_and,forall_eq,altitudeM,and_true]

/- A point with the altitude of the point before it. -/
theorem numbersAfterNumbers :
    let first : GpsPoint Number := ⟨⟨finite 55,finite 37⟩,finite 0,finite 0,finite 100,finite 5,finite 1,1000,80,false⟩
    let s := run (step .opened) ⟨.new (finite (1/1000)) (finite 4) (finite 10),AutoTable.empty⟩ [(.process first,⟨1,.runs⟩)]
    Numbers ((filter s.pipeline first).populatePoint first) := by
  intro first s
  have valid : first.isValid = true := by decide +kernel
  exact (numbersIff (by norm_num : (0 : ℚ) ≤ 1/1000) (by norm_num : (0 : ℚ) < 4) (by norm_num : (0 : ℚ) < 10) .opened AutoTable.empty
    [(.process first,⟨1,.runs⟩)] ⟨1,.runs⟩ valid (by unfold OwnFinite; decide +kernel)).2.mpr (by decide +kernel)

/- One point without an altitude, and every message after it says "altitude":nan. -/
theorem altitudeLost :
    let first : GpsPoint Number := ⟨⟨finite 55,finite 37⟩,finite 0,finite 0,notANumber,finite 5,finite 1,1000,80,false⟩
    let second : GpsPoint Number := ⟨⟨finite 55,finite 37⟩,finite 0,finite 0,finite 100,finite 5,finite 1,2000,80,false⟩
    let s := run (step .opened) ⟨.default,AutoTable.empty⟩ [(.process first,⟨1,.runs⟩)]
    let filtered := (filter s.pipeline second).populatePoint second
    first.isValid = true ∧ second.isValid = true ∧ OwnFinite second ∧
    (quoted (ascii "altitude"),ascii "nan") ∈ members filtered ∧ ¬ Numbers filtered := by
  intro first second s filtered
  have shown : (quoted (ascii "altitude"),ascii "nan") ∈ members filtered := by decide +kernel
  refine ⟨by decide +kernel,by decide +kernel,by unfold OwnFinite; decide +kernel,shown,?_⟩
  intro numbers
  exact absurd (numbers _ shown 110 (by decide)) (by decide)

end UmapTracker.NotANumber
