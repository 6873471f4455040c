import UmapTracker.AndroidBridge
import UmapTracker.Machine

/-! Sessions of the location engine. initialize and shutdown forget the callbacks and the queue, but
not the last battery state, which goes into every point until the next battery event. -/
namespace UmapTracker.EngineSessions
open Machine GeoTypes Text
variable {α : Type}

inductive Call (α : Type) where
  | registerLocationCallback (callback : Option Callback)
  | registerBatteryCallback (callback : Option Callback)
  | registerErrorCallback (callback : Option Callback)
  | unregisterCallbacks
  | enqueueLocation (latitude longitude accuracyM altitudeM hdop : α) (timestampMs : UInt32)
  | getLocation (timeoutMs : UInt32)
  | locationQueueSize
  | clearLocationQueue
  | onLocationReceived (lat lon accuracy altitude hdop : α) (timestampMs : UInt32)
  | onBatteryChanged (batteryPercent : UInt32) (isCharging : Bool)
  | onErrorOccurred (errorCode : Int32) (message : Option Bytes)
  | isGpsAvailable
  | initializeEngine
  | shutdown
  deriving DecidableEq, Repr

/- What a call returns, and the calls it makes through the registered pointers. -/
inductive Answer (α : Type) where
  | nothing
  | registered (result : Result Unit)
  | stored (accepted : Bool)
  | location (point : Option (GpsPoint α))
  | size (count : UInt32)
  | available (any : Bool)
  | told (invocations : List (Invocation α))
  deriving DecidableEq, Repr

def answer [Double α] (e : LocationEngine α) : Call α → Answer α
  | .registerLocationCallback callback => .registered (e.registerLocationCallback callback).1
  | .registerBatteryCallback callback => .registered (e.registerBatteryCallback callback).1
  | .registerErrorCallback callback => .registered (e.registerErrorCallback callback).1
  | .unregisterCallbacks => .nothing
  | .enqueueLocation latitude longitude accuracyM altitudeM hdop timestampMs =>
      .stored (e.enqueueLocation latitude longitude accuracyM altitudeM hdop timestampMs).1
  | .getLocation timeoutMs => .location (e.getLocation timeoutMs).1
  | .locationQueueSize => .size e.locationQueueSize
  | .clearLocationQueue => .nothing
  | .onLocationReceived lat lon accuracy altitude hdop timestampMs =>
      .told (e.onLocationReceived lat lon accuracy altitude hdop timestampMs).2
  | .onBatteryChanged percent charging => .told (e.onBatteryChanged percent charging).2
  | .onErrorOccurred code message => .told (e.onErrorOccurred code message).2
  | .isGpsAvailable => .available e.isGpsAvailable
  | .initializeEngine => .nothing
  | .shutdown => .nothing

def step [Double α] (e : LocationEngine α) : Call α → LocationEngine α
  | .registerLocationCallback callback => (e.registerLocationCallback callback).2
  | .registerBatteryCallback callback => (e.registerBatteryCallback callback).2
  | .registerErrorCallback callback => (e.registerErrorCallback callback).2
  | .unregisterCallbacks => e.unregisterCallbacks
  | .enqueueLocation latitude longitude accuracyM altitudeM hdop timestampMs =>
      (e.enqueueLocation latitude longitude accuracyM altitudeM hdop timestampMs).2
  | .getLocation timeoutMs => (e.getLocation timeoutMs).2
  | .locationQueueSize => e
  | .clearLocationQueue => e.clearLocationQueue
  | .onLocationReceived lat lon accuracy altitude hdop timestampMs =>
      (e.onLocationReceived lat lon accuracy altitude hdop timestampMs).1
  | .onBatteryChanged percent charging => (e.onBatteryChanged percent charging).1
  | .onErrorOccurred code message => (e.onErrorOccurred code message).1
  | .isGpsAvailable => e
  | .initializeEngine => e.initializeEngine
  | .shutdown => e.shutdown

/- The end of a session. -/
inductive Closing where
  | initializeEngine | shutdown
  deriving DecidableEq, Repr

def Closing.call : Closing → Call α
  | .initializeEngine => .initializeEngine
  | .shutdown => .shutdown

/- The battery state of the last on_battery_changed, or that of a new engine. -/
def note (last : UInt32 × Bool) : Call α → UInt32 × Bool
  | .onBatteryChanged percent charging => (percent,charging)
  | _ => last

def lastBattery (calls : List (Call α)) : UInt32 × Bool := run note (0,false) calls

/- For each waiting location whether it came before the first battery event, and whether there
was one. -/
structure Ages where
  waiting : List Bool
  heard : Bool
  deriving DecidableEq, Repr

def Ages.arrive (g : Ages) : Ages :=
  {g with waiting := if g.waiting.length < 1000 then g.waiting ++ [!g.heard] else g.waiting}

def mark (g : Ages) : Call α → Ages
  | .enqueueLocation _ _ _ _ _ _ => g.arrive
  | .onLocationReceived _ _ _ _ _ _ => g.arrive
  | .getLocation _ => {g with waiting := g.waiting.tail}
  | .onBatteryChanged _ _ => {g with heard := true}
  | .clearLocationQueue | .initializeEngine | .shutdown => {g with waiting := []}
  | _ => g

/- The call takes no location that came before the first battery event. -/
def TakesNoEarly (g : Ages) : Call α → Prop
  | .getLocation _ => g.waiting.head? ≠ some true
  | _ => True

def charged (battery : UInt32 × Bool) (point : GpsPoint α) : GpsPoint α :=
  {point with batteryPercent := battery.1, isCharging := battery.2}

/- The queues of an engine that kept a battery state and of a new one: alike, but for that state in
the early locations. -/
inductive Stocked (battery : UInt32 × Bool) : List Bool → List (GpsPoint α) → List (GpsPoint α) → Prop where
  | nil : Stocked battery [] [] []
  | early {ages xs ys} {point : GpsPoint α} (blank : charged (0,false) point = point) (rest : Stocked battery ages xs ys) :
      Stocked battery (true::ages) (charged battery point::xs) (point::ys)
  | later {ages xs ys} {point : GpsPoint α} (rest : Stocked battery ages xs ys) :
      Stocked battery (false::ages) (point::xs) (point::ys)

theorem stockedAppend {battery : UInt32 × Bool} {ages ages' : List Bool} {xs xs' ys ys' : List (GpsPoint α)}
    (stocked : Stocked battery ages xs ys) (more : Stocked battery ages' xs' ys') :
    Stocked battery (ages ++ ages') (xs ++ xs') (ys ++ ys') := by
  induction stocked with
  | nil => exact more
  | early blank _ ih => exact .early blank ih
  | later _ ih => exact .later ih

theorem stockedLength {battery : UInt32 × Bool} {ages : List Bool} {xs ys : List (GpsPoint α)}
    (stocked : Stocked battery ages xs ys) : xs.length = ys.length ∧ ages.length = ys.length := by
  induction stocked with
  | nil => exact ⟨rfl,rfl⟩
  | early _ _ ih => simpa using ih
  | later _ ih => simpa using ih

theorem stockedTail {battery : UInt32 × Bool} {ages : List Bool} {xs ys : List (GpsPoint α)}
    (stocked : Stocked battery ages xs ys) : Stocked battery ages.tail xs.tail ys.tail := by
  cases stocked with
  | nil => exact .nil
  | early _ rest => exact rest
  | later rest => exact rest

/- The fronts differ exactly where the first location is an early one. -/
theorem stockedHead {battery : UInt32 × Bool} (kept : battery ≠ (0,false)) {ages : List Bool} {xs ys : List (GpsPoint α)}
    (stocked : Stocked battery ages xs ys) : xs.head? = ys.head? ↔ ages.head? ≠ some true := by
  cases stocked with
  | nil => simp
  | later rest => simp
  | @early _ _ _ point blank rest =>
    refine iff_of_false ?_ (fun apart => apart rfl)
    intro same
    have point : charged battery point = charged (0,false) point := (Option.some.inj same).trans blank.symm
    have percent := congrArg GpsPoint.batteryPercent point
    have charging := congrArg GpsPoint.isCharging point
    exact kept (Prod.ext percent charging)

/- An engine that kept a battery state from the session before, against a new one. -/
structure Apart (battery : UInt32 × Bool) (e n : LocationEngine α) (g : Ages) : Prop where
  locationCallback : e.locationCallback = n.locationCallback
  batteryCallback : e.batteryCallback = n.batteryCallback
  errorCallback : e.errorCallback = n.errorCallback
  queue : Stocked battery g.waiting e.locationQueue.items n.locationQueue.items
  heard : g.heard = true → e.lastBatteryPercent = n.lastBatteryPercent ∧ e.lastIsCharging = n.lastIsCharging
  unheard : g.heard = false → (e.lastBatteryPercent,e.lastIsCharging) = battery ∧
    (n.lastBatteryPercent,n.lastIsCharging) = (0,false)

variable {battery : UInt32 × Bool} {e n : LocationEngine α} {g : Ages}

theorem apartTaken (kept : battery ≠ (0,false)) (apart : Apart battery e n g) (timeoutMs : UInt32) :
    ((e.getLocation timeoutMs).1 = (n.getLocation timeoutMs).1 ↔ g.waiting.head? ≠ some true) ∧
    Apart battery (e.getLocation timeoutMs).2 (n.getLocation timeoutMs).2 {g with waiting := g.waiting.tail} := by
  obtain ⟨front,rest⟩ := e.locationQueue.dequeueItems timeoutMs
  obtain ⟨front',rest'⟩ := n.locationQueue.dequeueItems timeoutMs
  refine ⟨?_,apart.locationCallback,apart.batteryCallback,apart.errorCallback,?_,apart.heard,apart.unheard⟩
  · change (e.locationQueue.dequeue timeoutMs).1 = (n.locationQueue.dequeue timeoutMs).1 ↔ _
    rw [front,front']
    exact stockedHead kept apart.queue
  · change Stocked battery _ (e.locationQueue.dequeue timeoutMs).2.items (n.locationQueue.dequeue timeoutMs).2.items
    rw [rest,rest']
    exact stockedTail apart.queue

theorem apartRegistered (apart : Apart battery e n g) (callback : Option Callback) :
    ((e.registerLocationCallback callback).1 = (n.registerLocationCallback callback).1 ∧
      Apart battery (e.registerLocationCallback callback).2 (n.registerLocationCallback callback).2 g) ∧
    ((e.registerBatteryCallback callback).1 = (n.registerBatteryCallback callback).1 ∧
      Apart battery (e.registerBatteryCallback callback).2 (n.registerBatteryCallback callback).2 g) ∧
    ((e.registerErrorCallback callback).1 = (n.registerErrorCallback callback).1 ∧
      Apart battery (e.registerErrorCallback callback).2 (n.registerErrorCallback callback).2 g) := by
  obtain ⟨toLocation,toBattery,toError⟩ := e.registerSpec callback
  obtain ⟨toLocation',toBattery',toError'⟩ := n.registerSpec callback
  obtain ⟨location,battery,error,queue,heard,unheard⟩ := apart
  refine ⟨?_,?_,?_⟩
  · rw [toLocation,toLocation',location]
    exact ⟨rfl,rfl,battery,error,queue,heard,unheard⟩
  · rw [toBattery,toBattery',battery]
    exact ⟨rfl,location,rfl,error,queue,heard,unheard⟩
  · rw [toError,toError',error]
    exact ⟨rfl,location,battery,rfl,queue,heard,unheard⟩

/- initialize, shutdown and their parts leave the two as far apart as they were. -/
theorem apartCleared (apart : Apart battery e n g) :
    Apart battery e.unregisterCallbacks n.unregisterCallbacks g ∧
    Apart battery e.clearLocationQueue n.clearLocationQueue {g with waiting := []} ∧
    Apart battery e.initializeEngine n.initializeEngine {g with waiting := []} :=
  ⟨⟨rfl,rfl,rfl,apart.queue,apart.heard,apart.unheard⟩,
    ⟨apart.locationCallback,apart.batteryCallback,apart.errorCallback,.nil,apart.heard,apart.unheard⟩,
    ⟨rfl,rfl,rfl,.nil,apart.heard,apart.unheard⟩⟩

variable [Double α]

theorem locatedStocked (apart : Apart battery e n g) (latitude longitude accuracyM altitudeM hdop : α) (timestampMs : UInt32) :
    Stocked battery [!g.heard] [e.located latitude longitude accuracyM altitudeM hdop timestampMs]
      [n.located latitude longitude accuracyM altitudeM hdop timestampMs] := by
  cases heard : g.heard with
  | true =>
    obtain ⟨percent,charging⟩ := apart.heard heard
    have same : e.located latitude longitude accuracyM altitudeM hdop timestampMs =
        n.located latitude longitude accuracyM altitudeM hdop timestampMs := by
      rw [LocationEngine.located,LocationEngine.located,percent,charging]
    rw [same]
    exact .later .nil
  | false =>
    obtain ⟨kept,fresh⟩ := apart.unheard heard
    have own : e.located latitude longitude accuracyM altitudeM hdop timestampMs =
        charged battery (n.located latitude longitude accuracyM altitudeM hdop timestampMs) := by
      rw [← kept]
      rfl
    have blank : charged (0,false) (n.located latitude longitude accuracyM altitudeM hdop timestampMs) =
        n.located latitude longitude accuracyM altitudeM hdop timestampMs := by
      rw [← fresh]
      rfl
    rw [own]
    exact .early blank .nil

theorem apartLocated (apart : Apart battery e n g) (latitude longitude accuracyM altitudeM hdop : α) (timestampMs : UInt32) :
    (e.enqueueLocation latitude longitude accuracyM altitudeM hdop timestampMs).1 =
      (n.enqueueLocation latitude longitude accuracyM altitudeM hdop timestampMs).1 ∧
    Apart battery (e.enqueueLocation latitude longitude accuracyM altitudeM hdop timestampMs).2
      (n.enqueueLocation latitude longitude accuracyM altitudeM hdop timestampMs).2 g.arrive := by
  obtain ⟨accepted,items⟩ :=
    e.locationQueue.enqueueItems (e.located latitude longitude accuracyM altitudeM hdop timestampMs)
  obtain ⟨accepted',items'⟩ :=
    n.locationQueue.enqueueItems (n.located latitude longitude accuracyM altitudeM hdop timestampMs)
  obtain ⟨long,aged⟩ := stockedLength apart.queue
  refine ⟨?_,apart.locationCallback,apart.batteryCallback,apart.errorCallback,?_,apart.heard,apart.unheard⟩
  · rw [long] at accepted
    exact accepted.trans accepted'.symm
  · change Stocked battery (if _ then _ else _) (ThreadSafeQueue.enqueue _ _).2.items (ThreadSafeQueue.enqueue _ _).2.items
    rw [items,items',long,aged]
    split
    · exact stockedAppend apart.queue (locatedStocked apart _ _ _ _ _ _)
    · exact apart.queue

theorem apartStep (kept : battery ≠ (0,false)) (apart : Apart battery e n g) (call : Call α) :
    (answer e call = answer n call ↔ TakesNoEarly g call) ∧ Apart battery (step e call) (step n call) (mark g call) := by
  obtain ⟨long,_⟩ := stockedLength apart.queue
  have size : e.locationQueueSize = n.locationQueueSize := congrArg UInt32.ofNat long
  cases call with
  | registerLocationCallback callback =>
    obtain ⟨⟨same,still⟩,_,_⟩ := apartRegistered apart callback
    exact ⟨iff_of_true (congrArg Answer.registered same) trivial,still⟩
  | registerBatteryCallback callback =>
    obtain ⟨_,⟨same,still⟩,_⟩ := apartRegistered apart callback
    exact ⟨iff_of_true (congrArg Answer.registered same) trivial,still⟩
  | registerErrorCallback callback =>
    obtain ⟨_,_,same,still⟩ := apartRegistered apart callback
    exact ⟨iff_of_true (congrArg Answer.registered same) trivial,still⟩
  | unregisterCallbacks => exact ⟨iff_of_true rfl trivial,(apartCleared apart).1⟩
  | enqueueLocation latitude longitude accuracyM altitudeM hdop timestampMs =>
    obtain ⟨same,still⟩ := apartLocated apart latitude longitude accuracyM altitudeM hdop timestampMs
    exact ⟨iff_of_true (congrArg Answer.stored same) trivial,still⟩
  | getLocation timeoutMs =>
    obtain ⟨same,still⟩ := apartTaken kept apart timeoutMs
    refine ⟨?_,still⟩
    rw [answer,answer,Answer.location.injEq]
    exact same
  | locationQueueSize => exact ⟨iff_of_true (congrArg Answer.size size) trivial,apart⟩
  | clearLocationQueue => exact ⟨iff_of_true rfl trivial,(apartCleared apart).2.1⟩
  | onLocationReceived lat lon accuracy altitude hdop timestampMs =>
    obtain ⟨_,still⟩ := apartLocated apart lat lon accuracy altitude hdop timestampMs
    refine ⟨iff_of_true (congrArg Answer.told ?_) trivial,still⟩
    change e.locationCallback.toList.map _ = n.locationCallback.toList.map _
    rw [apart.locationCallback]
  | onBatteryChanged percent charging =>
    refine ⟨iff_of_true (congrArg Answer.told ?_) trivial,apart.locationCallback,apart.batteryCallback,apart.errorCallback,
      apart.queue,fun _ => ⟨rfl,rfl⟩,fun unheard => Bool.noConfusion unheard⟩
    change e.batteryCallback.toList.map _ = n.batteryCallback.toList.map _
    rw [apart.batteryCallback]
  | onErrorOccurred code message =>
    refine ⟨iff_of_true (congrArg Answer.told ?_) trivial,apart⟩
    change e.errorCallback.toList.map _ = n.errorCallback.toList.map _
    rw [apart.errorCallback]
  | isGpsAvailable =>
    refine ⟨iff_of_true (congrArg Answer.available ?_) trivial,apart⟩
    rw [LocationEngine.isGpsAvailable,LocationEngine.isGpsAvailable,size]
  | initializeEngine => exact ⟨iff_of_true rfl trivial,(apartCleared apart).2.2⟩
  | shutdown => exact ⟨iff_of_true rfl trivial,(apartCleared apart).2.2⟩

theorem batteryStep (e : LocationEngine α) (call : Call α) :
    ((step e call).lastBatteryPercent,(step e call).lastIsCharging) = note (e.lastBatteryPercent,e.lastIsCharging) call := by
  cases call with
  | registerLocationCallback callback =>
    rw [step,(e.registerSpec callback).1]
    rfl
  | registerBatteryCallback callback =>
    rw [step,(e.registerSpec callback).2.1]
    rfl
  | registerErrorCallback callback =>
    rw [step,(e.registerSpec callback).2.2]
    rfl
  | _ => rfl

theorem batteryRun (calls : List (Call α)) :
    ((run step LocationEngine.new calls).lastBatteryPercent,(run step LocationEngine.new calls).lastIsCharging) =
      lastBattery calls := by
  have both := bisimulates (R := fun (e : LocationEngine α) last => (e.lastBatteryPercent,e.lastIsCharging) = last)
    (s := LocationEngine.new) (fun e _ call same => ⟨(rfl : () = ()),same ▸ batteryStep e call⟩) rfl calls
  exact both.2

/- A closed engine is a new one but for the battery state. -/
theorem closed (e : LocationEngine α) (closing : Closing) :
    step e closing.call = {LocationEngine.new with lastBatteryPercent := e.lastBatteryPercent, lastIsCharging := e.lastIsCharging} := by
  cases closing <;> rfl

theorem answersAlikeIff (earlier : List (Call α)) (closing : Closing) (later : List (Call α)) :
    labels step answer (step (run step LocationEngine.new earlier) closing.call) later =
      labels step answer LocationEngine.new later ↔
    lastBattery earlier = (0,false) ∨ Allowed mark TakesNoEarly ⟨[],false⟩ later := by
  have battery := batteryRun earlier
  rw [closed]
  by_cases kept : lastBattery earlier = (0,false)
  · obtain ⟨percent,charging⟩ := Prod.mk.inj (battery.trans kept)
    rw [percent,charging]
    exact iff_of_true rfl (.inl kept)
  · have start : Apart (lastBattery earlier)
        {LocationEngine.new with
          lastBatteryPercent := (run step LocationEngine.new earlier).lastBatteryPercent
          lastIsCharging := (run step LocationEngine.new earlier).lastIsCharging}
        (LocationEngine.new : LocationEngine α) ⟨[],false⟩ := by
      rw [← battery]
      exact ⟨rfl,rfl,rfl,.nil,fun heard => Bool.noConfusion heard,fun _ => ⟨rfl,rfl⟩⟩
    have exactly := bisimulatesExact (R := Apart (lastBattery earlier)) (fun _ _ _ call apart => apartStep kept apart call)
      start later
    exact exactly.trans (or_iff_right kept).symm

/- After initialize or shutdown the engine answers as a new one exactly when it kept no battery state,
or when no location from before the first battery event is taken. -/
theorem startsAfreshIff (earlier : List (Call α)) (closing : Closing) :
    let e := step (run step LocationEngine.new earlier) closing.call
    (∀ later, labels step answer e later = labels step answer LocationEngine.new later ↔
      lastBattery earlier = (0,false) ∨ Allowed mark TakesNoEarly ⟨[],false⟩ later) ∧
    ((∀ later, labels step answer e later = labels step answer LocationEngine.new later) ↔ lastBattery earlier = (0,false)) := by
  intro e
  have each := answersAlikeIff earlier closing
  refine ⟨each,?_,fun blank later => (each later).mpr (.inl blank)⟩
  intro always
  -- one location, taken before any battery event
  let probe : List (Call α) := [.onLocationReceived (Double.lit 0) (Double.lit 0) (Double.lit 0) (Double.lit 0) (Double.lit 0) 0,.getLocation 0]
  rcases (each probe).mp (always probe) with blank | never
  · exact blank
  · exact absurd rfl (never [_] (.getLocation 0) [] rfl)

/- A location of the new session carries the battery state of the old one. -/
theorem batterySurvives :
    let e : LocationEngine ℚ := step (run step LocationEngine.new [.onBatteryChanged 80 true]) Closing.initializeEngine.call
    let later : List (Call ℚ) := [.onLocationReceived 55 37 5 100 1 1000,.getLocation 0]
    labels step answer e later = [.told [],.location (some ⟨⟨55,37⟩,0,0,100,5,1,1000,80,true⟩)] ∧
    labels step answer LocationEngine.new later = [.told [],.location (some ⟨⟨55,37⟩,0,0,100,5,1,1000,0,false⟩)] ∧
    labels step answer e later ≠ labels step answer LocationEngine.new later := by
  decide +kernel

end UmapTracker.EngineSessions
