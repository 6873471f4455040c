import UmapTracker.GeoTypes
import UmapTracker.Result
import UmapTracker.Text

/-! platform/android_bridge.h. The bounded queue between the JNI threads and the pipeline, and the
location engine in front of it. Every body holds its lock from end to end and is one step
here; a timed wait is the step at which it ends. -/
namespace UmapTracker
open GeoTypes Text Double

structure ThreadSafeQueue (T : Type) (maxSize : Nat) where
  items : List T
  bounded : items.length ≤ maxSize
  deriving DecidableEq, Repr

namespace ThreadSafeQueue
variable {T : Type} {maxSize : Nat}

def new : ThreadSafeQueue T maxSize := ⟨[],Nat.zero_le _⟩

def enqueue (q : ThreadSafeQueue T maxSize) (item : T) : Bool × ThreadSafeQueue T maxSize :=
  if room : q.items.length < maxSize then
    (true,⟨q.items ++ [item],by simpa using Nat.succ_le_of_lt room⟩)
  else (false,q)

-- with or without a timeout: the front if there is one when the wait ends
def dequeue (q : ThreadSafeQueue T maxSize) (_timeoutMs : UInt32) : Option T × ThreadSafeQueue T maxSize :=
  match q with
  | ⟨[],_⟩ => (none,q)
  | ⟨item::rest,bounded⟩ => (some item,⟨rest,Nat.le_of_succ_le bounded⟩)

def empty (q : ThreadSafeQueue T maxSize) : Bool := q.items.isEmpty

def size (q : ThreadSafeQueue T maxSize) : UInt32 := UInt32.ofNat q.items.length

def clear (_ : ThreadSafeQueue T maxSize) : ThreadSafeQueue T maxSize := new

theorem enqueueItems (q : ThreadSafeQueue T maxSize) (item : T) :
    (q.enqueue item).1 = decide (q.items.length < maxSize) ∧
    (q.enqueue item).2.items = if q.items.length < maxSize then q.items ++ [item] else q.items := by
  unfold enqueue
  split <;> simp_all

theorem dequeueItems (q : ThreadSafeQueue T maxSize) (timeoutMs : UInt32) :
    (q.dequeue timeoutMs).1 = q.items.head? ∧ (q.dequeue timeoutMs).2.items = q.items.tail := by
  unfold dequeue
  split <;> simp

end ThreadSafeQueue

-- the address of a function
abbrev Callback := Nat

/- A call made through a registered pointer. -/
inductive Invocation (α : Type) where
  | location (callback : Callback) (lat lon accuracy : α) (timestampMs : UInt32)
  | battery (callback : Callback) (percent : UInt32) (isCharging : Bool)
  | error (callback : Callback) (code : Int32) (message : Option Bytes)
  deriving DecidableEq, Repr

structure LocationEngine (α : Type) where
  locationCallback : Option Callback
  batteryCallback : Option Callback
  errorCallback : Option Callback
  locationQueue : ThreadSafeQueue (GpsPoint α) 1000
  lastBatteryPercent : UInt32
  lastIsCharging : Bool
  deriving DecidableEq, Repr

namespace LocationEngine
variable {α : Type} [Double α]

def new : LocationEngine α := ⟨none,none,none,.new,0,false⟩

-- the three register_*_callback: null and a second registration are refused
def registered (slot callback : Option Callback) : Result (Option Callback) :=
  match callback,slot with
  | none,_ => .error .invalidConfig
  | some _,some _ => .error .invalidConfig
  | some c,none => .ok (some c)

def registerLocationCallback (e : LocationEngine α) (callback : Option Callback) : Result Unit × LocationEngine α :=
  match registered e.locationCallback callback with
  | .ok slot => (.ok (),{e with locationCallback := slot})
  | .error code => (.error code,e)

def registerBatteryCallback (e : LocationEngine α) (callback : Option Callback) : Result Unit × LocationEngine α :=
  match registered e.batteryCallback callback with
  | .ok slot => (.ok (),{e with batteryCallback := slot})
  | .error code => (.error code,e)

def registerErrorCallback (e : LocationEngine α) (callback : Option Callback) : Result Unit × LocationEngine α :=
  match registered e.errorCallback callback with
  | .ok slot => (.ok (),{e with errorCallback := slot})
  | .error code => (.error code,e)

/- What a registration makes of the slot it is for. -/
def slotted (slot callback : Option Callback) : Result Unit × Option Callback :=
  match registered slot callback with
  | .ok slot => (.ok (),slot)
  | .error code => (.error code,slot)

/- Each of the three answers by its own slot and changes nothing else. -/
theorem registerSpec {β : Type} (e : LocationEngine β) (callback : Option Callback) :
    e.registerLocationCallback callback =
      ((slotted e.locationCallback callback).1,{e with locationCallback := (slotted e.locationCallback callback).2}) ∧
    e.registerBatteryCallback callback =
      ((slotted e.batteryCallback callback).1,{e with batteryCallback := (slotted e.batteryCallback callback).2}) ∧
    e.registerErrorCallback callback =
      ((slotted e.errorCallback callback).1,{e with errorCallback := (slotted e.errorCallback callback).2}) := by
  refine ⟨?_,?_,?_⟩
  · unfold registerLocationCallback slotted
    split <;> rfl
  · unfold registerBatteryCallback slotted
    split <;> rfl
  · unfold registerErrorCallback slotted
    split <;> rfl

def unregisterCallbacks (e : LocationEngine α) : LocationEngine α :=
  {e with locationCallback := none, batteryCallback := none, errorCallback := none}

def located (e : LocationEngine α) (latitude longitude accuracyM altitudeM hdop : α) (timestampMs : UInt32) : GpsPoint α :=
  {GpsPoint.default with
    location := ⟨latitude,longitude⟩
    accuracyM, altitudeM, hdop, timestampMs
    batteryPercent := e.lastBatteryPercent
    isCharging := e.lastIsCharging}

def enqueueLocation (e : LocationEngine α) (latitude longitude accuracyM altitudeM hdop : α) (timestampMs : UInt32) :
    Bool × LocationEngine α :=
  let (stored,locationQueue) :=
    e.locationQueue.enqueue (e.located latitude longitude accuracyM altitudeM hdop timestampMs)
  (stored,{e with locationQueue})

def getLocation (e : LocationEngine α) (timeoutMs : UInt32) : Option (GpsPoint α) × LocationEngine α :=
  let (point,locationQueue) := e.locationQueue.dequeue timeoutMs
  (point,{e with locationQueue})

def locationQueueSize (e : LocationEngine α) : UInt32 := e.locationQueue.size

def clearLocationQueue (e : LocationEngine α) : LocationEngine α := {e with locationQueue := e.locationQueue.clear}

def onLocationReceived (e : LocationEngine α) (lat lon accuracy altitude hdop : α) (timestampMs : UInt32) :
    LocationEngine α × List (Invocation α) :=
  let e := (e.enqueueLocation lat lon accuracy altitude hdop timestampMs).2
  (e,e.locationCallback.toList.map (fun c => .location c lat lon accuracy timestampMs))

def onBatteryChanged (e : LocationEngine α) (batteryPercent : UInt32) (isCharging : Bool) :
    LocationEngine α × List (Invocation α) :=
  let e := {e with lastBatteryPercent := batteryPercent, lastIsCharging := isCharging}
  (e,e.batteryCallback.toList.map (fun c => .battery c batteryPercent isCharging))

def onErrorOccurred (e : LocationEngine α) (errorCode : Int32) (message : Option Bytes) :
    LocationEngine α × List (Invocation α) :=
  (e,e.errorCallback.toList.map (fun c => .error c errorCode message))

def isGpsAvailable (e : LocationEngine α) : Bool := decide (0 < e.locationQueueSize)

-- LocationEngine::initialize
def initializeEngine (e : LocationEngine α) : LocationEngine α := e.unregisterCallbacks.clearLocationQueue

def shutdown (e : LocationEngine α) : LocationEngine α := e.unregisterCallbacks.clearLocationQueue

end LocationEngine
end UmapTracker
