import UmapTracker.JniBridge

/-! The time of a location from the JNI call to the encoders. A call hands over 64-bit
milliseconds since the epoch; the point keeps the low 32 bits of them. -/
namespace UmapTracker.LocationTime
open GeoTypes Text Double Fields Machine JniBridge TraccarClient
variable {α : Type} [Double α]

/- Everything that can happen to the engine; nativeProcessLocation takes its point by getLocation. -/
inductive EngineCall (α : Type) where
  | nativeOnLocationReceived (fix : Fix α)
  | nativeOnBatteryChanged (batteryPercent : Int32) (isCharging : Bool)
  | nativeOnError (errorCode : Int32) (message : Option Bytes)
  | getLocation (timeoutMs : UInt32)
  | clearLocationQueue
  | registerLocationCallback (callback : Option Callback)
  | registerBatteryCallback (callback : Option Callback)
  | registerErrorCallback (callback : Option Callback)
  | unregisterCallbacks
  | initializeEngine
  | shutdown
  deriving DecidableEq, Repr

def apply (e : LocationEngine α) : EngineCall α → LocationEngine α
  | .nativeOnLocationReceived fix => JniBridge.nativeOnLocationReceived e fix
  | .nativeOnBatteryChanged percent charging => JniBridge.nativeOnBatteryChanged e percent charging
  | .nativeOnError code message => (e.onErrorOccurred code message).1
  | .getLocation timeoutMs => (e.getLocation timeoutMs).2
  | .clearLocationQueue => e.clearLocationQueue
  | .registerLocationCallback callback => (e.registerLocationCallback callback).2
  | .registerBatteryCallback callback => (e.registerBatteryCallback callback).2
  | .registerErrorCallback callback => (e.registerErrorCallback callback).2
  | .unregisterCallbacks => e.unregisterCallbacks
  | .initializeEngine => e.initializeEngine
  | .shutdown => e.shutdown

/- The engine with its calls remembered: those whose point is still queued, and each point taken
with the call it came from. -/
structure Traced (α : Type) where
  engine : LocationEngine α
  waiting : List (Fix α)
  taken : List (Fix α × GpsPoint α)
  deriving DecidableEq, Repr

def Traced.start : Traced α := ⟨.new,[],[]⟩

def trace (t : Traced α) (c : EngineCall α) : Traced α :=
  let engine := apply t.engine c
  match c with
  | .nativeOnLocationReceived fix =>
      {t with engine, waiting := if t.engine.locationQueue.items.length < 1000 then t.waiting ++ [fix] else t.waiting}
  | .getLocation timeoutMs =>
      {t with engine
              waiting := t.waiting.tail
              taken := t.taken ++ (t.waiting.head?.toList.zip (t.engine.getLocation timeoutMs).1.toList)}
  | .clearLocationQueue | .initializeEngine | .shutdown => {t with engine, waiting := []}
  | _ => {t with engine}

/- What a queued point keeps of its call. -/
structure From (fix : Fix α) (point : GpsPoint α) : Prop where
  location : point.location = ⟨fix.latitude,fix.longitude⟩
  accuracy : point.accuracyM = fix.accuracy
  altitude : point.altitudeM = fix.altitude
  hdop : point.hdop = fix.hdop
  speed : point.speedKmh = lit 0
  bearing : point.bearingDeg = lit 0
  time : point.timestampMs = UInt32.ofInt fix.timestampMs.toInt

structure Sound (t : Traced α) : Prop where
  queued : List.Forall₂ From t.waiting t.engine.locationQueue.items
  taken : ∀ pair ∈ t.taken, From pair.1 pair.2

theorem relatedFronts {β γ : Type} {R : β → γ → Prop} {as : List β} {bs : List γ} (related : List.Forall₂ R as bs) :
    List.Forall₂ R as.tail bs.tail ∧ ∀ pair ∈ as.head?.toList.zip bs.head?.toList, R pair.1 pair.2 := by
  cases related with
  | nil => exact ⟨.nil,by simp⟩
  | cons head tail => exact ⟨tail,by simpa using head⟩

theorem relatedHead {β γ : Type} {R : β → γ → Prop} {as : List β} {bs : List γ} (related : List.Forall₂ R as bs)
    {b : γ} (first : bs.head? = some b) : ∃ a, as.head? = some a := by
  cases related with
  | nil => contradiction
  | cons _ _ => exact ⟨_,rfl⟩

theorem registeredQueue {β : Type} (e : LocationEngine β) (callback : Option Callback) :
    (e.registerLocationCallback callback).2.locationQueue = e.locationQueue ∧
    (e.registerBatteryCallback callback).2.locationQueue = e.locationQueue ∧
    (e.registerErrorCallback callback).2.locationQueue = e.locationQueue := by
  obtain ⟨location,battery,error⟩ := e.registerSpec callback
  rw [location,battery,error]
  exact ⟨rfl,rfl,rfl⟩

theorem sameQueue {t : Traced α} (sound : Sound t) {engine : LocationEngine α}
    (same : engine.locationQueue = t.engine.locationQueue) : Sound {t with engine} :=
  ⟨by rw [same]; exact sound.queued,sound.taken⟩

theorem soundTrace {t : Traced α} (sound : Sound t) (c : EngineCall α) : Sound (trace t c) := by
  obtain ⟨queued,taken⟩ := sound
  cases c with
  | nativeOnLocationReceived fix =>
    refine ⟨?_,taken⟩
    have items := (t.engine.locationQueue.enqueueItems (t.engine.located fix.latitude fix.longitude fix.accuracy
      fix.altitude fix.hdop (UInt32.ofInt fix.timestampMs.toInt))).2
    change List.Forall₂ From (if _ then _ else _) (ThreadSafeQueue.enqueue _ _).2.items
    rw [items]
    split
    · exact List.rel_append queued (.cons ⟨rfl,rfl,rfl,rfl,rfl,rfl,rfl⟩ .nil)
    · exact queued
  | getLocation timeoutMs =>
    obtain ⟨front,rest⟩ := t.engine.locationQueue.dequeueItems timeoutMs
    obtain ⟨still,head⟩ := relatedFronts queued
    refine ⟨?_,?_⟩
    · change List.Forall₂ From t.waiting.tail (t.engine.locationQueue.dequeue timeoutMs).2.items
      rw [rest]
      exact still
    · intro pair mem
      rcases List.mem_append.mp mem with old | new
      · exact taken pair old
      · change pair ∈ t.waiting.head?.toList.zip (t.engine.locationQueue.dequeue timeoutMs).1.toList at new
        rw [front] at new
        exact head pair new
  | clearLocationQueue => exact ⟨.nil,taken⟩
  | initializeEngine => exact ⟨.nil,taken⟩
  | shutdown => exact ⟨.nil,taken⟩
  | registerLocationCallback callback => exact sameQueue ⟨queued,taken⟩ (registeredQueue t.engine callback).1
  | registerBatteryCallback callback => exact sameQueue ⟨queued,taken⟩ (registeredQueue t.engine callback).2.1
  | registerErrorCallback callback => exact sameQueue ⟨queued,taken⟩ (registeredQueue t.engine callback).2.2
  | _ => exact ⟨queued,taken⟩

theorem soundRun (cs : List (EngineCall α)) : Sound (run trace Traced.start cs) :=
  runKeeps (I := Sound) (P := fun _ => True) (fun _ c _ sound => soundTrace sound c) (fun _ _ => trivial)
    ⟨.nil,by simp [Traced.start]⟩

/- No point leaves the engine without the call it came from. -/
theorem everyPointTraced (cs : List (EngineCall α)) {timeoutMs : UInt32} {point : GpsPoint α}
    (given : ((run trace Traced.start cs).engine.getLocation timeoutMs).1 = some point) :
    ∃ fix, (fix,point) ∈ (run trace Traced.start (cs ++ [.getLocation timeoutMs])).taken := by
  have front := ((run trace Traced.start cs).engine.locationQueue.dequeueItems timeoutMs).1
  change ((run trace Traced.start cs).engine.locationQueue.dequeue timeoutMs).1 = some point at given
  rw [front] at given
  obtain ⟨fix,first⟩ := relatedHead (soundRun cs).queued given
  refine ⟨fix,?_⟩
  rw [runAppend]
  refine List.mem_append_right _ ?_
  change (fix,point) ∈ List.zip _ (ThreadSafeQueue.dequeue _ timeoutMs).1.toList
  rw [front,given,first]
  exact List.mem_cons_self

theorem lowBits {t : Int64} (nonneg : 0 ≤ t.toInt) : (UInt32.ofInt t.toInt).toNat = t.toInt.toNat % 2^32 := by
  rw [UInt32.ofInt,UInt32.toNat_ofNat']
  omega

/- Both encodings of the point give the call's time in whole seconds. -/
def TimeKept (client : TraccarClient) (fix : Fix α) (point : GpsPoint α) : Prop :=
  urlTimestamp (client.buildUrl point) = some (fix.timestampMs.toInt.toNat / 1000) ∧
  jsonTimestamp (client.buildJsonPayload point) = some (fix.timestampMs.toInt.toNat / 1000)

/- The JSON text of the location, 102 bytes besides these values, is shorter than its buffer. -/
def JsonRoom (client : TraccarClient) (fix : Fix α) (batteryPercent : UInt32) : Prop :=
  102 + client.deviceId.length + (decimal (fix.timestampMs.toInt.toNat / 1000)).length +
    (print 6 fix.latitude).length + (print 6 fix.longitude).length + (print 1 fix.altitude).length +
    (print 1 fix.accuracy).length + (decimal batteryPercent.toNat).length + (print 1 fix.hdop).length < 1024

instance (client : TraccarClient) (fix : Fix α) (batteryPercent : UInt32) :
    Decidable (JsonRoom client fix batteryPercent) := by unfold JsonRoom; infer_instance

theorem timeKeptIff (client : TraccarClient) (cs : List (EngineCall α)) (fix : Fix α) (point : GpsPoint α)
    (taken : (fix,point) ∈ (run trace Traced.start cs).taken) (nonneg : 0 ≤ fix.timestampMs.toInt) :
    TimeKept client fix point ↔ fix.timestampMs.toInt < 2^32 ∧ JsonRoom client fix point.batteryPercent := by
  have from_call := (soundRun cs).taken _ taken
  have time : point.timestampMs.toNat = fix.timestampMs.toInt.toNat % 2^32 := by rw [from_call.time,lowBits nonneg]
  have zero : (print 1 (lit 0 : α)).length = 3 := by rw [printZero]; decide
  have size := jsonLength client point
  rw [from_call.location,from_call.altitude,from_call.accuracy,from_call.hdop,from_call.speed,from_call.bearing,zero,
    toTraccarTimestamp,time] at size
  rw [TimeKept,urlTimestampBuilt,jsonTimestampBuilt,time,size]
  constructor
  · rintro ⟨url,json⟩
    -- past 2^32 the seconds of the low bits are fewer
    have low : fix.timestampMs.toInt < 2^32 := by
      have := Option.some.inj url
      omega
    rw [Nat.mod_eq_of_lt (by omega)] at json
    split at json <;> try contradiction
    rename_i fits
    exact ⟨low,by simp only [JsonRoom,BUFFER_SIZE] at fits ⊢; omega⟩
  · rintro ⟨low,room⟩
    rw [Nat.mod_eq_of_lt (by omega)]
    refine ⟨rfl,if_pos ?_⟩
    simp only [JsonRoom,BUFFER_SIZE] at room ⊢
    omega

theorem timeKeptInTests :
    let fix : Fix ℚ := ⟨55,37,5,100,1,3000000⟩
    TimeKept JniBridge.client fix ⟨⟨55,37⟩,0,0,100,5,1,3000000,80,true⟩ := by
  intro fix
  exact (timeKeptIff JniBridge.client [.nativeOnBatteryChanged 80 true,.nativeOnLocationReceived fix,.getLocation 0]
    fix _ (by decide +kernel) (by decide)).mpr ⟨by decide,by decide +kernel⟩

/- A fix of November 2023 is reported in February 1970. -/
theorem timeWrapped :
    let fix : Fix ℚ := ⟨55,37,5,100,1,1700000000000⟩
    let point : GpsPoint ℚ := ⟨⟨55,37⟩,0,0,100,5,1,3487918080,0,false⟩
    (fix,point) ∈ (run trace Traced.start [.nativeOnLocationReceived fix,.getLocation 0]).taken ∧
    urlTimestamp (JniBridge.client.buildUrl point) = some 3487918 ∧
    jsonTimestamp (JniBridge.client.buildJsonPayload point) = some 3487918 ∧
    ¬ TimeKept JniBridge.client fix point := by
  intro fix point
  have url : urlTimestamp (JniBridge.client.buildUrl point) = some 3487918 := by decide +kernel
  refine ⟨by decide +kernel,url,by decide +kernel,?_⟩
  intro kept
  rw [TimeKept,url] at kept
  exact absurd kept.1 (by decide +kernel)

end UmapTracker.LocationTime
