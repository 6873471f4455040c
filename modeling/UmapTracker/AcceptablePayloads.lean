import UmapTracker.HalfEven
import UmapTracker.NotANumber
import UmapTracker.PayloadText
import UmapTracker.SessionStorage

/-! Whether a queued payload gives a point that could be processed again. Ranges are checked before the filter, and
values are rounded after it. -/
namespace UmapTracker.AcceptablePayloads
open Machine Text Fields Numerals Double GeoTypes KalmanFilter GpsPipeline MessageQueue QueueContents UploadWorker Json PrintedValues HalfEven
open PayloadText NotANumber NotANumber.Number JniBridge SessionStorage

section Decoding

def number (values : List (Bytes × Value)) (name : String) : Option ℚ :=
  match values.lookup (ascii name) with
  | some (.number q) => some q
  | _ => none

/- An unsigned field takes a whole number of 32 bits. -/
def whole (q : ℚ) : Option UInt32 :=
  if q.den = 1 ∧ 0 ≤ q.num ∧ q.num < 2^32 then some (UInt32.ofInt q.num) else none

def unsigned (values : List (Bytes × Value)) (name : String) : Option UInt32 := (number values name).bind whole

-- is_charging is not in the payload
def decodePoint (text : Bytes) : Option (GpsPoint ℚ) := do
  let values ← Json.read text
  let latitude ← number values "lat"
  let longitude ← number values "lon"
  let speedKmh ← number values "speed"
  let bearingDeg ← number values "bearing"
  let altitudeM ← number values "altitude"
  let accuracyM ← number values "accuracy"
  let timestampMs ← unsigned values "timestamp"
  let batteryPercent ← unsigned values "batt"
  let hdop ← number values "hdop"
  some ⟨⟨latitude,longitude⟩,speedKmh,bearingDeg,altitudeM,accuracyM,hdop,timestampMs,batteryPercent,false⟩

/- The text gives a valid point, in the ranges of GpsPoint. -/
def Acceptable (text : Bytes) : Prop :=
  ∃ point, decodePoint text = some point ∧ point.isValid = true ∧ 0 ≤ point.bearingDeg ∧ point.bearingDeg < 360 ∧
    point.batteryPercent.toNat ≤ 100

variable {α : Type} [Double α]

/- The point with its numbers as they are shown. -/
def shownPoint (point : GpsPoint α) : Option (GpsPoint ℚ) := do
  let latitude ← rounded 6 point.location.latitude
  let longitude ← rounded 6 point.location.longitude
  let speedKmh ← rounded 1 point.speedKmh
  let bearingDeg ← rounded 1 point.bearingDeg
  let altitudeM ← rounded 1 point.altitudeM
  let accuracyM ← rounded 1 point.accuracyM
  let hdop ← rounded 1 point.hdop
  some ⟨⟨latitude,longitude⟩,speedKmh,bearingDeg,altitudeM,accuracyM,hdop,point.timestampMs,point.batteryPercent,false⟩

theorem wholeUnsigned (n : UInt32) : whole (n.toNat : ℚ) = some n := by
  have below := n.toNat_lt
  have num : (n.toNat : ℚ).num = n.toNat := Rat.num_natCast n.toNat
  rw [whole,num,if_pos ⟨Rat.den_natCast n.toNat,by omega,by omega⟩,UInt32.ofInt]
  have low : ((n.toNat : Int) % 2^32).toNat = n.toNat := by omega
  rw [low,UInt32.ofNat_toNat]

theorem numberDouble {rs : List (Bytes × Option Value)} {values : List (Bytes × Value)} (known : entries rs = some values)
    (unique : (rs.map Prod.fst).Nodup) {places : Nat} {name : String} {x : α} (mem : double places name x ∈ rs) :
    number values name = rounded places x := by
  obtain ⟨v,value,found⟩ := entriesLookup known unique mem
  obtain ⟨q,shown,rfl⟩ := Option.map_eq_some_iff.mp value
  have here : values.lookup (ascii name) = some (.number q) := found
  rw [number,here,shown]

theorem unsignedInteger {rs : List (Bytes × Option Value)} {values : List (Bytes × Value)} (known : entries rs = some values)
    (unique : (rs.map Prod.fst).Nodup) {name : String} {n : UInt32} (mem : integer name n.toNat ∈ rs) :
    unsigned values name = some n := by
  obtain ⟨v,value,found⟩ := entriesLookup known unique mem
  cases Option.some.inj value
  have here : values.lookup (ascii name) = some (.number n.toNat) := found
  have shown : number values name = some (n.toNat : ℚ) := by rw [number,here]
  rw [unsigned,shown,Option.bind_some,wholeUnsigned]

theorem decodeKnown {point : GpsPoint α} (finite : PayloadText.Finite point) (short : frontLength point < 400) :
    decodePoint (payload point) = shownPoint point := by
  obtain ⟨values,known⟩ := entriesSome.mpr finite
  have unique : ((rounding point).map Prod.fst).Nodup :=
    (by decide : (names.map fun n => n.tail.dropLast).Nodup)
  have listed : double 6 "lat" point.location.latitude ∈ rounding point ∧ double 6 "lon" point.location.longitude ∈ rounding point ∧
      double 1 "speed" point.speedKmh ∈ rounding point ∧ double 1 "bearing" point.bearingDeg ∈ rounding point ∧
      double 1 "altitude" point.altitudeM ∈ rounding point ∧ double 1 "accuracy" point.accuracyM ∈ rounding point ∧
      double 1 "hdop" point.hdop ∈ rounding point ∧ integer "timestamp" point.timestampMs.toNat ∈ rounding point ∧
      integer "batt" point.batteryPercent.toNat ∈ rounding point := by simp [rounding]
  obtain ⟨lat,lon,speed,bearing,altitude,accuracy,hdop,timestamp,batt⟩ := listed
  rw [decodePoint,payloadFits finite short,known]
  simp only [bind,Option.bind_some,numberDouble known unique lat,numberDouble known unique lon,numberDouble known unique speed,
    numberDouble known unique bearing,numberDouble known unique altitude,numberDouble known unique accuracy,
    numberDouble known unique hdop,unsignedInteger known unique timestamp,unsignedInteger known unique batt,shownPoint]

theorem shownFinite {point : GpsPoint α} {q : GpsPoint ℚ} (shown : shownPoint point = some q) : PayloadText.Finite point := by
  simp only [shownPoint,bind,Option.bind_eq_some_iff] at shown
  obtain ⟨_,lat,_,lon,_,speed,_,bearing,_,altitude,_,accuracy,_,hdop,_⟩ := shown
  simp [PayloadText.Finite,rounding,double,integer,lat,lon,speed,bearing,altitude,accuracy,hdop]

theorem decodeIff {point : GpsPoint α} {q : GpsPoint ℚ} :
    decodePoint (payload point) = some q ↔ frontLength point < 400 ∧ shownPoint point = some q := by
  constructor
  · intro decoded
    obtain ⟨values,read,_⟩ := Option.bind_eq_some_iff.mp decoded
    obtain ⟨finite,short,_⟩ := payloadKnown read
    exact ⟨short,decodeKnown finite short ▸ decoded⟩
  · rintro ⟨short,shown⟩
    rw [decodeKnown (shownFinite shown) short,shown]

end Decoding

section Filtered

/- A filter of finite numbers whose estimate keeps to a range around zero. -/
def Bounded (bound : ℚ) (f : KalmanFilter1D Number) : Prop := ∃ g, FilterHull.Sound g ∧ |g.estimate| ≤ bound ∧ f = lift g

/- The filter keeps to the bounds of WGS84, whatever has been measured within them. -/
def Located (k : KalmanFilterND Number) : Prop := Bounded 90 k.latitudeFilter ∧ Bounded 180 k.longitudeFilter

variable {bound : ℚ} {f : KalmanFilter1D Number}

theorem boundedNew (nonneg : 0 ≤ bound) {q r : ℚ} (noise : 0 ≤ q) (measured : 0 < r) : Bounded bound (.new (finite q) (finite r)) :=
  ⟨.new q r,FilterHull.soundNew noise measured,by
    change |(0 : ℚ)| ≤ bound
    simpa using nonneg,rfl⟩

theorem boundedPredict (bounded : Bounded bound f) (dt : ℚ) : Bounded bound (f.predict (finite dt)) := by
  obtain ⟨g,sound,within,rfl⟩ := bounded
  exact ⟨g.predict dt,FilterHull.soundPredict sound dt,within,liftPredict g dt⟩

/- A blend of two numbers of the range is in the range. -/
theorem blendWithin {x z k : ℚ} (old : |x| ≤ bound) (new : |z| ≤ bound) (positive : 0 < k) (below : k < 1) :
    |x + k * (z - x)| ≤ bound := by
  rw [abs_le] at *
  constructor <;> nlinarith

theorem boundedUpdate (bounded : Bounded bound f) {measurement : ℚ} (inside : |measurement| ≤ bound) {weight : ℚ} (positive : 0 < weight) :
    Bounded bound (f.update (finite measurement) (finite weight)) := by
  obtain ⟨g,sound,within,rfl⟩ := bounded
  refine ⟨g.update measurement weight,FilterHull.soundUpdate sound measurement positive,?_,liftUpdate sound measurement positive⟩
  rw [FilterHull.updateSpec g measurement positive]
  split
  · obtain ⟨above,below⟩ := FilterHull.gainBounds sound positive
    exact blendWithin within inside above below
  · exact inside

theorem boundedEstimate (bounded : Bounded bound f) : ∃ x, f.estimate = finite x ∧ |x| ≤ bound := by
  obtain ⟨g,_,within,rfl⟩ := bounded
  exact ⟨g.estimate,rfl,within⟩

theorem locatedNew {q r : ℚ} (noise : 0 ≤ q) (measured : 0 < r) (v a : Number) : Located (.new (finite q) (finite r) v a) :=
  ⟨boundedNew (by norm_num) noise measured,boundedNew (by norm_num) noise measured⟩

/- A valid point has finite numbers where it is checked, within their bounds. -/
theorem validBounds {raw : GpsPoint Number} (valid : raw.isValid = true) :
    ∃ latitude longitude accuracyM, raw.location = ⟨finite latitude,finite longitude⟩ ∧ raw.accuracyM = finite accuracyM ∧
      |latitude| ≤ 90 ∧ |longitude| ≤ 180 ∧ 0 < accuracyM ∧ accuracyM < 1000 := by
  obtain ⟨latitude,longitude,accuracyM,location,accuracy,positive,close⟩ := validNumber valid
  simp only [GpsPoint.isValid,Bool.and_eq_true] at valid
  obtain ⟨⟨placed,_⟩,_⟩ := valid
  rw [location] at placed
  have boxed := (FilterHull.validIff ⟨latitude,longitude⟩).mp placed
  simp only [FilterHull.box,Set.mem_prod,Set.mem_Icc] at boxed
  exact ⟨latitude,longitude,accuracyM,location,accuracy,abs_le.mpr boxed.1,abs_le.mpr boxed.2,positive,close⟩

theorem locatedFilter {p : GpsProcessingPipeline Number} (located : Located p.kalman) {raw : GpsPoint Number} (valid : raw.isValid = true) :
    Located (filter p raw) ∧ (filter p raw).state.latitude = (filter p raw).latitudeFilter.estimate ∧
    (filter p raw).state.longitude = (filter p raw).longitudeFilter.estimate := by
  obtain ⟨dt,passed⟩ := elapsedFinite p raw
  obtain ⟨latitude,longitude,accuracyM,location,accuracy,north,east,positive,close⟩ := validBounds valid
  have weighed : (0 : ℚ) < 100 / accuracyM := div_pos (by norm_num) positive
  have weight : (Double.lit 100 : Number) / finite accuracyM = finite (100 / accuracyM) := finiteDiv 100 positive.ne'
  rw [filter,passed,location,accuracy]
  obtain ⟨latitudeFilter,longitudeFilter,placed⟩ := KalmanFilterND.updateAccepted (p.kalman.predict (finite dt)) (finite latitude)
    (finite longitude) raw.altitudeM (acceptingNumber positive close.le)
  rw [weight] at latitudeFilter longitudeFilter
  refine ⟨⟨?_,?_⟩,placed⟩
  · rw [latitudeFilter]
    exact boundedUpdate (boundedPredict located.1 dt) north weighed
  · rw [longitudeFilter]
    exact boundedUpdate (boundedPredict located.2 dt) east weighed

end Filtered

section Ranges

/- What the message shows of a raw point. -/
def filtered (p : GpsProcessingPipeline Number) (raw : GpsPoint Number) : GpsPoint Number := (filter p raw).populatePoint raw

/- Rounding keeps an accuracy and a bearing in their ranges, a battery level was in its own, the altitudes and the
hdop are numbers, and the text has room for their digits. -/
structure Printable (p : GpsProcessingPipeline Number) (raw : GpsPoint Number) : Prop where
  accuracy : ∃ a, raw.accuracyM = finite a ∧ 1/20 < a ∧ a < 19999/20
  bearing : ∃ b, (filtered p raw).bearingDeg = finite b ∧ -(1/20) ≤ b ∧ b < 7199/20
  battery : raw.batteryPercent.toNat ≤ 100
  altitude : p.kalman.altitudeFilter.estimate.isFinite = true ∧ raw.altitudeM.isFinite = true
  hdop : raw.hdop.isFinite = true
  short : frontLength (filtered p raw) < 400

theorem roundedFinite (places : Nat) (q : ℚ) : rounded places (finite q) = some (roundedTo places q) := roundedRational places q

theorem roundedSome {places : Nat} {x : Number} {q : ℚ} (shown : rounded places x = some q) : x.isFinite = true := by
  cases x with
  | finite _ => rfl
  | notANumber => contradiction

/- A coordinate stays in its bounds when it is rounded, so a rounded point is valid when its accuracy is. -/
theorem validRounded {x y a : ℚ} (north : |x| ≤ 90) (east : |y| ≤ 180) {point : GpsPoint ℚ}
    (location : point.location = ⟨roundedTo 6 x,roundedTo 6 y⟩) (accuracy : point.accuracyM = roundedTo 1 a) :
    point.isValid = true ↔ 0 < roundedTo 1 a ∧ roundedTo 1 a < 1000 := by
  have latitude := abs_le.mp (roundedWithin 6 (n := 90) north)
  have longitude := abs_le.mp (roundedWithin 6 (n := 180) east)
  have placed : point.location.isValid = true := by
    rw [location,FilterHull.validIff]
    exact ⟨latitude,longitude⟩
  rw [GpsPoint.isValid,placed,accuracy,Bool.true_and,Bool.and_eq_true]
  exact and_congr decide_eq_true_iff decide_eq_true_iff

theorem acceptableShown {point : GpsPoint Number} {x y s b a : ℚ} (location : point.location = ⟨finite x,finite y⟩)
    (speed : point.speedKmh = finite s) (bearing : point.bearingDeg = finite b) (accuracy : point.accuracyM = finite a)
    (north : |x| ≤ 90) (east : |y| ≤ 180) (positive : 0 < a) :
    Acceptable (payload point) ↔ (1/20 < a ∧ a < 19999/20) ∧ (-(1/20) ≤ b ∧ b < 7199/20) ∧ point.batteryPercent.toNat ≤ 100 ∧
      point.altitudeM.isFinite = true ∧ point.hdop.isFinite = true ∧ frontLength point < 400 := by
  have shown : shownPoint point = (rounded 1 point.altitudeM).bind fun altitudeM => (rounded 1 point.hdop).bind fun hdop =>
      some ⟨⟨roundedTo 6 x,roundedTo 6 y⟩,roundedTo 1 s,roundedTo 1 b,altitudeM,roundedTo 1 a,hdop,
        point.timestampMs,point.batteryPercent,false⟩ := by
    rw [shownPoint,location,speed,bearing,accuracy]
    simp only [roundedFinite,bind,Option.bind_some]
  rw [← tenthsAccuracy positive,← tenthsCircle]
  constructor
  · rintro ⟨q,decoded,valid,low,high,battery⟩
    obtain ⟨short,given⟩ := decodeIff.mp decoded
    rw [shown] at given
    obtain ⟨altitudeM,altitude,rest⟩ := Option.bind_eq_some_iff.mp given
    obtain ⟨hdopShown,hdop,whole⟩ := Option.bind_eq_some_iff.mp rest
    cases Option.some.inj whole
    exact ⟨(validRounded north east rfl rfl).mp valid,⟨low,high⟩,battery,roundedSome altitude,roundedSome hdop,short⟩
  · rintro ⟨accurate,⟨low,high⟩,battery,altitude,hdop,short⟩
    obtain ⟨z,altitude⟩ := finiteIff.mp altitude
    obtain ⟨h,hdop⟩ := finiteIff.mp hdop
    rw [altitude,hdop] at shown
    exact ⟨_,decodeIff.mpr ⟨short,shown⟩,(validRounded north east rfl rfl).mpr accurate,low,high,battery⟩

/- The text that process_location queues gives an acceptable point exactly when the point is printable. -/
theorem acceptableIff {p : GpsProcessingPipeline Number} {taken : List Number} (located : Located p.kalman) (clean : Clean p.kalman taken)
    {raw : GpsPoint Number} (valid : raw.isValid = true) : Acceptable (text p raw) ↔ Printable p raw := by
  obtain ⟨_,_,a,_,accuracy,_,_,positive,_⟩ := validBounds valid
  obtain ⟨⟨north,east⟩,latitude,longitude⟩ := locatedFilter located valid
  obtain ⟨x,latitudeEstimate,within⟩ := boundedEstimate north
  obtain ⟨y,longitudeEstimate,within'⟩ := boundedEstimate east
  obtain ⟨after,placed,altitude⟩ := cleanFilter clean valid
  obtain ⟨s,speed⟩ := finiteIff.mp placed.speedKmh
  obtain ⟨b,bearing⟩ := finiteIff.mp placed.bearingDeg
  have location : (filtered p raw).location = ⟨finite x,finite y⟩ := by
    rw [← latitudeEstimate,← longitudeEstimate,← latitude,← longitude]
    rfl
  have known : (filtered p raw).altitudeM.isFinite = true ↔
      p.kalman.altitudeFilter.estimate.isFinite = true ∧ raw.altitudeM.isFinite = true := by
    change (filter p raw).state.altitude.isFinite = true ↔ _
    rw [altitude,altitudeFinite after,altitudeFinite clean,List.all_append,Bool.and_eq_true]
    simp
  rw [text,← filtered,acceptableShown location speed bearing accuracy within within' positive,known]
  constructor
  · rintro ⟨accurate,turned,battery,altitude,hdop,short⟩
    exact ⟨⟨a,accuracy,accurate⟩,⟨b,bearing,turned⟩,battery,altitude,hdop,short⟩
  · rintro ⟨⟨a',same,accurate⟩,⟨b',same',turned⟩,battery,altitude,hdop,short⟩
    cases accuracy.symm.trans same
    cases bearing.symm.trans same'
    exact ⟨accurate,turned,battery,altitude,hdop,short⟩

end Ranges

section Runs

/- Every payload of the queue gives an acceptable point. -/
def AllAcceptable (n : Native Number) : Prop := ∀ c, Stored n c → Acceptable c.2.1

/- The filter of a session has only taken valid points. -/
def Healthy (n : Native Number) : Prop :=
  ∀ s, n.session = some s → Located s.pipeline.kalman ∧ ∃ taken, Clean s.pipeline.kalman taken

/- nativeProcessLocation queues a message for a point of the location queue. -/
structure Queues (n : Native Number) (env : EnqueueEnv) (s : Session Number) (raw : GpsPoint Number) : Prop where
  session : n.session = some s
  front : (n.engine.getLocation 0).1 = some raw
  valid : raw.isValid = true
  inserts : Inserts s.impl s.db env.step

/- Only printable points are queued. -/
def TakesPrintable (n : Native Number) : Call Number → Prop
  | .processLocation env => ∀ s raw, Queues n env s raw → Printable s.pipeline raw
  | _ => True

/- A tick adds the message of the point it queues, or leaves the queue alone. -/
theorem storedProcess (n : Native Number) (env : EnqueueEnv) :
    (∃ s raw, Queues n env s raw ∧ ∀ c, Stored (nativeProcessLocation n env).2 c ↔ Stored n c ∨ c = made s raw env.now) ∨
    ((∀ s raw, ¬ Queues n env s raw) ∧ ∀ c, Stored (nativeProcessLocation n env).2 c ↔ Stored n c) := by
  cases here : n.session with
  | none =>
    refine .inr ⟨fun s raw queues => ?_,fun c => by simp [nativeProcessLocation,here]⟩
    have := queues.session
    rw [here] at this
    contradiction
  | some s =>
    have own (c : Entry) : Stored n c ↔ c ∈ contents s.db := by simp [Stored,here]
    rcases given : n.engine.getLocation 0 with ⟨front | raw,engine⟩
    · refine .inr ⟨fun s raw queues => ?_,fun c => ?_⟩
      · have := queues.front
        rw [given] at this
        contradiction
      · rw [own]
        simp [Stored,nativeProcessLocation,here,given]
    · have after (c : Entry) : Stored (nativeProcessLocation n env).2 c ↔
          c ∈ contents (processLocation s.pipeline s.impl s.db raw env.now env.step).2.2 := by
        simp [Stored,nativeProcessLocation,here,given]
      rcases processLocationSpec s.pipeline s.impl s.db raw env.now env.step with ⟨refused,same⟩ | ⟨valid,_,same⟩
      · refine .inr ⟨fun t point queues => ?_,fun c => by rw [after,same,own]⟩
        have := queues.front
        rw [given] at this
        cases Option.some.inj this
        exact absurd queues.valid (by simp [refused])
      · rcases contentsEnqueue s.impl s.db (text s.pipeline raw) env.now env.step with ⟨ok,grown⟩ | ⟨failed,none⟩
        · refine .inl ⟨s,raw,⟨here,by rw [given],valid,acceptedInserts ok⟩,fun c => ?_⟩
          rw [after,same,grown,own,List.mem_append,List.mem_singleton]
          rfl
        · refine .inr ⟨fun t point queues => ?_,fun c => by rw [after,same,failed,own]⟩
          have session := queues.session
          rw [here] at session
          cases Option.some.inj session
          exact none queues.inserts

theorem healthyProcess {n : Native Number} (healthy : Healthy n) (env : EnqueueEnv) : Healthy (nativeProcessLocation n env).2 := by
  unfold nativeProcessLocation
  split
  · exact healthy
  · rename_i s here
    obtain ⟨located,taken,clean⟩ := healthy s here
    split
    · exact fun t same => healthy t same
    · rename_i raw engine _
      rintro t same
      cases Option.some.inj same
      change Located (processLocation s.pipeline s.impl s.db raw env.now env.step).2.1.kalman ∧ _
      cases valid : raw.isValid with
      | false =>
        rcases processLocationSpec s.pipeline s.impl s.db raw env.now env.step with ⟨_,same⟩ | ⟨passed,_⟩
        · rw [same]
          exact ⟨located,taken,clean⟩
        · simp [valid] at passed
      | true =>
        rw [(processValid s.pipeline s.impl s.db env.now env.step valid).1]
        exact ⟨(locatedFilter located valid).1,_,(cleanFilter clean valid).1⟩

/- An upload leaves the filter alone, and adds nothing to the queue. -/
theorem uploadKeeps {n : Native Number} {env : Nat → PassEnv} {t : Session Number}
    (here : (nativeProcessUpload n env).2.session = some t) :
    ∃ s, n.session = some s ∧ t.pipeline = s.pipeline ∧ ∀ c ∈ contents t.db, c ∈ contents s.db := by
  unfold nativeProcessUpload at here
  split at here
  · rename_i none
    rw [none] at here
    contradiction
  · rename_i s session
    cases Option.some.inj here
    exact ⟨s,session,rfl,(sendsProcess Number s.impl s.client s.worker s.db s.mockHttp uploadBatch env).within⟩

theorem initSession {session : Option (Session Number)} {sqlite3Open : Bool} {prepare : Statement → Bool} {s : Session Number}
    (here : nativeInitPipeline session sqlite3Open prepare = some s) : session = some s ∨ openSession sqlite3Open prepare = s := by
  cases session with
  | some t => exact .inl here
  | none => exact .inr (Option.some.inj here)

theorem healthyStep {n : Native Number} (healthy : Healthy n) (call : Call Number) : Healthy (step n call) := by
  cases call with
  | onLocationReceived fix => exact healthy
  | onBatteryChanged percent charging => exact healthy
  | initPipeline sqlite3Open prepare =>
    intro s here
    rcases initSession here with session | rfl
    · exact healthy s session
    · exact ⟨locatedNew (by norm_num) (by norm_num) (finite (1/100)) (finite 10),[],
        cleanNew (by norm_num) (by norm_num) (by norm_num) (finite (1/100))⟩
  | processLocation env => exact healthyProcess healthy env
  | processUpload env =>
    intro t here
    obtain ⟨s,session,same,_⟩ := uploadKeeps here
    exact same ▸ healthy s session
  | shutdownPipeline =>
    intro s here
    simp [step,nativeShutdownPipeline] at here

/- A queue that loses messages keeps to acceptable ones. -/
theorem acceptableWithin {n n' : Native Number} (all : AllAcceptable n) (within : ∀ c, Stored n' c → Stored n c) :
    AllAcceptable n' := fun c stored => all c (within c stored)

theorem acceptableProcess {n : Native Number} (healthy : Healthy n) (all : AllAcceptable n) (env : EnqueueEnv) :
    AllAcceptable (nativeProcessLocation n env).2 ↔ TakesPrintable n (.processLocation env) := by
  rcases storedProcess n env with ⟨s,raw,queues,grown⟩ | ⟨none,same⟩
  · obtain ⟨located,taken,clean⟩ := healthy s queues.session
    have shown := acceptableIff located clean queues.valid
    constructor
    · intro after t point other
      cases Option.some.inj (queues.session.symm.trans other.session)
      cases Option.some.inj (queues.front.symm.trans other.front)
      exact shown.mp (after (made s raw env.now) ((grown _).mpr (.inr rfl)))
    · intro takes c stored
      rcases (grown c).mp stored with old | rfl
      · exact all c old
      · exact shown.mpr (takes s raw queues)
  · exact iff_of_true (acceptableWithin all fun c => (same c).mp) (fun s raw queues => absurd queues (none s raw))

/- A step keeps the queue acceptable exactly when it queues no other than printable points. -/
theorem acceptableStep (n : Native Number) (call : Call Number) (healthy : Healthy n) (all : AllAcceptable n) :
    AllAcceptable (step n call) ↔ TakesPrintable n call := by
  cases call with
  | onLocationReceived fix => exact iff_of_true all trivial
  | onBatteryChanged percent charging => exact iff_of_true all trivial
  | initPipeline sqlite3Open prepare =>
    refine iff_of_true (acceptableWithin all ?_) trivial
    rintro c ⟨s,here,stored⟩
    rcases initSession here with session | rfl
    · exact ⟨s,session,stored⟩
    · simp [openSession,AutoTable.empty,contents] at stored
  | processLocation env => exact acceptableProcess healthy all env
  | processUpload env =>
    refine iff_of_true (acceptableWithin all ?_) trivial
    rintro c ⟨t,here,stored⟩
    obtain ⟨s,session,_,within⟩ := uploadKeeps here
    exact ⟨s,session,within c stored⟩
  | shutdownPipeline =>
    refine iff_of_true (acceptableWithin all ?_) trivial
    rintro c ⟨s,here,_⟩
    simp [step,nativeShutdownPipeline] at here

theorem healthyLoaded : Healthy loaded := by
  intro s here
  simp [loaded] at here

theorem healthyRun (calls : List (Call Number)) : Healthy (run step loaded calls) :=
  runKeeps (I := Healthy) (P := fun _ => True) (fun _ call _ healthy => healthyStep healthy call) (fun _ _ => trivial) healthyLoaded

theorem loadedAcceptable : AllAcceptable loaded := by
  rintro c ⟨s,here,_⟩
  simp [loaded] at here

/- In every run, all queued payloads give acceptable points exactly when only printable points were queued. -/
theorem payloadsAcceptableIff (calls : List (Call Number)) :
    Always step AllAcceptable loaded calls ↔ Allowed step TakesPrintable loaded calls :=
  alwaysExactWith acceptableStep (fun _ call healthy _ _ => healthyStep healthy call) healthyLoaded loadedAcceptable calls

/- One point that is not printable is enough. -/
theorem unprintableQueued {pre : List (Call Number)} {env : EnqueueEnv} {s : Session Number} {raw : GpsPoint Number}
    (queues : Queues (run step loaded pre) env s raw) (bad : ¬ Printable s.pipeline raw) :
    ¬ Always step AllAcceptable loaded (pre ++ [.processLocation env]) := by
  intro always
  have before : AllAcceptable (run step loaded pre) := always pre _ rfl
  have after := alwaysLast always
  rw [runAppend] at after
  exact bad ((acceptableProcess (healthyRun pre) before env).mp after s raw queues)

/- A battery event, a fix and a new session. -/
def prepared (battery : Int32) (latitude longitude accuracy : ℚ) : List (Call Number) :=
  [.onBatteryChanged battery false,.onLocationReceived ⟨finite latitude,finite longitude,finite accuracy,finite 100,finite 1,1000⟩,
   .initPipeline true (fun _ => true)]

def received (battery : UInt32) (latitude longitude accuracy : ℚ) : GpsPoint Number :=
  ⟨⟨finite latitude,finite longitude⟩,finite 0,finite 0,finite 100,finite accuracy,finite 1,1000,battery,false⟩

theorem preparedQueues (battery : Int32) {latitude longitude accuracy : ℚ}
    (valid : (received (UInt32.ofInt battery.toInt) latitude longitude accuracy).isValid = true) :
    Queues (run step loaded (prepared battery latitude longitude accuracy)) ⟨7,.runs⟩ (openSession true (fun _ => true))
      (received (UInt32.ofInt battery.toInt) latitude longitude accuracy) :=
  ⟨rfl,rfl,valid,⟨rfl,rfl,by decide⟩⟩

/- A battery level of minus one is queued as 4294967295, accuracies of 0.03 and 999.97 metres as 0.0 and 1000.0,
and a bearing a little west of north as 360.0. -/
theorem boundsCrossed :
    let queued (battery : Int32) (latitude longitude accuracy : ℚ) := prepared battery latitude longitude accuracy ++ [.processLocation ⟨7,.runs⟩]
    ¬ Always step AllAcceptable loaded (queued (-1) 55 37 5) ∧ ¬ Always step AllAcceptable loaded (queued 80 55 37 (3/100)) ∧
    ¬ Always step AllAcceptable loaded (queued 80 55 37 (99997/100)) ∧
    ¬ Always step AllAcceptable loaded (queued 80 60 (-(3/100)) 5) := by
  refine ⟨unprintableQueued (preparedQueues (-1) (by decide +kernel)) fun printable => ?_,
    unprintableQueued (preparedQueues 80 (by decide +kernel)) fun printable => ?_,
    unprintableQueued (preparedQueues 80 (by decide +kernel)) fun printable => ?_,
    unprintableQueued (preparedQueues 80 (by decide +kernel)) fun printable => ?_⟩
  · exact absurd printable.battery (by decide)
  · obtain ⟨a,same,above,_⟩ := printable.accuracy
    cases same
    norm_num at above
  · obtain ⟨a,same,_,below⟩ := printable.accuracy
    cases same
    norm_num at below
  · obtain ⟨b,same,_,below⟩ := printable.bearing
    have high : Double.le (finite (7199/20)) (filtered (openSession true (fun _ => true)).pipeline
        (received (UInt32.ofInt (80 : Int32).toInt) 60 (-(3/100)) 5)).bearingDeg = true := by decide +kernel
    rw [same] at high
    exact absurd (of_decide_eq_true high) (not_le.mpr below)

end Runs
end UmapTracker.AcceptablePayloads
