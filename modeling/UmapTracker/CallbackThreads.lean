import UmapTracker.AndroidBridge
import UmapTracker.Mutex

/-! What the location engine does under callbacks_mutex_, statement by statement on any number of threads. The registered callbacks
are called with the mutex held, for as long as they run; the queue of the locations has a mutex of its own. -/
namespace UmapTracker.CallbackThreads
open Machine Mutex Text
variable {κ α : Type} [DecidableEq κ] [Double α]

inductive Slot where
  | location | battery | error
  deriving DecidableEq, Repr

namespace Slot

def get (e : LocationEngine α) : Slot → Option Callback
  | location => e.locationCallback
  | battery => e.batteryCallback
  | error => e.errorCallback

def set (e : LocationEngine α) (callback : Option Callback) : Slot → LocationEngine α
  | location => {e with locationCallback := callback}
  | battery => {e with batteryCallback := callback}
  | error => {e with errorCallback := callback}

end Slot

/- The arguments of on_location_received, on_battery_changed and on_error_occurred. -/
inductive Occurrence (α : Type) where
  | location (lat lon accuracy altitude hdop : α) (timestampMs : UInt32)
  | battery (percent : UInt32) (isCharging : Bool)
  | error (code : Int32) (message : Option Bytes)
  deriving DecidableEq, Repr

namespace Occurrence

def slot : Occurrence α → Slot
  | location _ _ _ _ _ _ => .location
  | battery _ _ => .battery
  | error _ _ => .error

def invocation (callback : Callback) : Occurrence α → Invocation α
  | location lat lon accuracy _ _ timestampMs => .location callback lat lon accuracy timestampMs
  | battery percent isCharging => .battery callback percent isCharging
  | error code message => .error callback code message

/- The engine when the callback is looked for. -/
def noted (e : LocationEngine α) : Occurrence α → LocationEngine α
  | battery percent isCharging => {e with lastBatteryPercent := percent, lastIsCharging := isCharging}
  | _ => e

end Occurrence

inductive Call (α : Type) where
  | register (slot : Slot) (callback : Option Callback)
  | unregisterCallbacks
  | occurs (o : Occurrence α)
  deriving DecidableEq, Repr

inductive Answer (α : Type) where
  | registered (result : Result Unit)
  | unregistered
  | told (invocations : List (Invocation α))
  deriving DecidableEq, Repr

inductive Pc (α : Type) where
  | registerTest (slot : Slot) (callback : Callback)
  | registerWrite (slot : Slot) (callback : Callback)
  | registerReturn
  | clear (slot : Slot)
  | clearReturn
  | writePercent (percent : UInt32) (isCharging : Bool)
  | writeCharging (percent : UInt32) (isCharging : Bool)
  | test (o : Occurrence α)
  | load (o : Occurrence α)
  | running (o : Occurrence α) (callback : Callback)
  -- a call through a null pointer
  | undefined
  deriving DecidableEq, Repr

-- a null callback is refused before the mutex is taken
def entry : Call α → Answer α ⊕ Pc α
  | .register _ none => .inl (.registered (.error .invalidConfig))
  | .register slot (some callback) => .inr (.registerTest slot callback)
  | .unregisterCallbacks => .inr (.clear .location)
  | .occurs (.battery percent isCharging) => .inr (.writePercent percent isCharging)
  | .occurs o => .inr (.test o)

def statement (e : LocationEngine α) : Pc α → LocationEngine α × Next (Pc α) (Answer α)
  | .registerTest slot callback =>
      (e,if (slot.get e).isSome then .leave (.registered (.error .invalidConfig)) else .goto (.registerWrite slot callback))
  | .registerWrite slot callback => (slot.set e (some callback),.goto .registerReturn)
  | .registerReturn => (e,.leave (.registered (.ok ())))
  | .clear .location => (Slot.location.set e none,.goto (.clear .battery))
  | .clear .battery => (Slot.battery.set e none,.goto (.clear .error))
  | .clear .error => (Slot.error.set e none,.goto .clearReturn)
  | .clearReturn => (e,.leave .unregistered)
  | .writePercent percent isCharging => ({e with lastBatteryPercent := percent},.goto (.writeCharging percent isCharging))
  | .writeCharging percent isCharging => ({e with lastIsCharging := isCharging},.goto (.test (.battery percent isCharging)))
  | .test o => (e,if (o.slot.get e).isSome then .goto (.load o) else .leave (.told []))
  | .load o =>
      (e,match o.slot.get e with
        | some callback => .goto (.running o callback)
        | none => .goto .undefined)
  | .running o callback => (e,.leave (.told [o.invocation callback]))
  | .undefined => (e,.goto .undefined)

def body : Body (LocationEngine α) (Call α) (Pc α) (Answer α) := ⟨entry,statement⟩

/- The calls of the engine as they are one after another; on_location_received has put its point into the queue before. -/
def act (e : LocationEngine α) : Call α → Answer α × LocationEngine α
  | .register .location callback => ((e.registerLocationCallback callback).map .registered id)
  | .register .battery callback => ((e.registerBatteryCallback callback).map .registered id)
  | .register .error callback => ((e.registerErrorCallback callback).map .registered id)
  | .unregisterCallbacks => (.unregistered,e.unregisterCallbacks)
  | .occurs (.location lat lon accuracy altitude hdop timestampMs) =>
      (.told (e.onLocationReceived lat lon accuracy altitude hdop timestampMs).2,e)
  | .occurs (.battery percent isCharging) => ((.told (e.onBatteryChanged percent isCharging).2),(e.onBatteryChanged percent isCharging).1)
  | .occurs (.error code message) => (.told (e.onErrorOccurred code message).2,(e.onErrorOccurred code message).1)

theorem actRegister (e : LocationEngine α) (slot : Slot) (callback : Option Callback) :
    act e (.register slot callback) =
      (.registered (LocationEngine.slotted (slot.get e) callback).1,slot.set e (LocationEngine.slotted (slot.get e) callback).2) := by
  obtain ⟨location,battery,error⟩ := e.registerSpec callback
  cases slot with
  | location => rw [act,location]; rfl
  | battery => rw [act,battery]; rfl
  | error => rw [act,error]; rfl

theorem actOccurs (e : LocationEngine α) (o : Occurrence α) :
    act e (.occurs o) = (.told ((o.slot.get e).toList.map (fun c => o.invocation c)),o.noted e) := by
  cases o <;> rfl

/- What has become of the engine that a body found. -/
def Under (before : LocationEngine α) (call : Call α) (now : LocationEngine α) : Pc α → Prop
  | .registerTest slot callback => call = .register slot (some callback) ∧ now = before
  | .registerWrite slot callback => call = .register slot (some callback) ∧ now = before ∧ slot.get before = none
  | .registerReturn => ∃ slot callback, call = .register slot (some callback) ∧ now = slot.set before (some callback) ∧ slot.get before = none
  | .clear .location => call = .unregisterCallbacks ∧ now = before
  | .clear .battery => call = .unregisterCallbacks ∧ now = Slot.location.set before none
  | .clear .error => call = .unregisterCallbacks ∧ now = Slot.battery.set (Slot.location.set before none) none
  | .clearReturn => call = .unregisterCallbacks ∧ now = before.unregisterCallbacks
  | .writePercent percent isCharging => call = .occurs (.battery percent isCharging) ∧ now = before
  | .writeCharging percent isCharging => call = .occurs (.battery percent isCharging) ∧ now = {before with lastBatteryPercent := percent}
  | .test o => call = .occurs o ∧ now = o.noted before
  | .load o => call = .occurs o ∧ now = o.noted before ∧ (o.slot.get before).isSome
  | .running o callback => call = .occurs o ∧ now = o.noted before ∧ o.slot.get before = some callback
  | .undefined => False

omit [Double α] in
theorem notedSlot (e : LocationEngine α) (o : Occurrence α) (slot : Slot) : slot.get (o.noted e) = slot.get e := by
  cases o <;> cases slot <;> rfl

omit [Double α] in
theorem setSame (e : LocationEngine α) (slot : Slot) : slot.set e (slot.get e) = e := by
  cases slot <;> rfl

omit [Double α] in
theorem goes {before now data : LocationEngine α} {call : Call α} {pc pc' : Pc α} (under : Under before call now pc)
    (done : statement now pc = (data,.goto pc')) : Under before call data pc' := by
  cases pc with
  | registerTest slot callback =>
    obtain ⟨rfl,rfl⟩ := under
    simp only [statement] at done
    split at done
    · simp at done
    · rename_i free
      obtain ⟨rfl,⟨⟩⟩ := Prod.mk.inj done
      exact ⟨rfl,rfl,by simpa using free⟩
  | registerWrite slot callback =>
    obtain ⟨rfl,rfl,free⟩ := under
    obtain ⟨rfl,⟨⟩⟩ := Prod.mk.inj done
    exact ⟨slot,callback,rfl,rfl,free⟩
  | registerReturn => simp [statement] at done
  | clear slot =>
    cases slot with
    | location =>
      obtain ⟨rfl,rfl⟩ := under
      obtain ⟨rfl,⟨⟩⟩ := Prod.mk.inj done
      exact ⟨rfl,rfl⟩
    | battery =>
      obtain ⟨rfl,rfl⟩ := under
      obtain ⟨rfl,⟨⟩⟩ := Prod.mk.inj done
      exact ⟨rfl,rfl⟩
    | error =>
      obtain ⟨rfl,rfl⟩ := under
      obtain ⟨rfl,⟨⟩⟩ := Prod.mk.inj done
      exact ⟨rfl,rfl⟩
  | clearReturn => simp [statement] at done
  | writePercent percent isCharging =>
    obtain ⟨rfl,rfl⟩ := under
    obtain ⟨rfl,⟨⟩⟩ := Prod.mk.inj done
    exact ⟨rfl,rfl⟩
  | writeCharging percent isCharging =>
    obtain ⟨rfl,rfl⟩ := under
    obtain ⟨rfl,⟨⟩⟩ := Prod.mk.inj done
    exact ⟨rfl,rfl⟩
  | test o =>
    obtain ⟨rfl,rfl⟩ := under
    simp only [statement] at done
    split at done
    · rename_i some
      obtain ⟨rfl,⟨⟩⟩ := Prod.mk.inj done
      exact ⟨rfl,rfl,by rwa [notedSlot] at some⟩
    · simp at done
  | load o =>
    obtain ⟨rfl,rfl,some⟩ := under
    simp only [statement,notedSlot] at done
    split at done
    · rename_i callback here
      obtain ⟨rfl,⟨⟩⟩ := Prod.mk.inj done
      exact ⟨rfl,rfl,here⟩
    · rename_i none
      rw [none] at some
      contradiction
  | running o callback => simp [statement] at done
  | undefined => exact under.elim

theorem leaves {before now data : LocationEngine α} {call : Call α} {pc : Pc α} {answer : Answer α} (under : Under before call now pc)
    (done : statement now pc = (data,.leave answer)) : act before call = (answer,data) := by
  cases pc with
  | registerTest slot callback =>
    obtain ⟨rfl,rfl⟩ := under
    simp only [statement] at done
    split at done
    · rename_i taken
      obtain ⟨rfl,⟨⟩⟩ := Prod.mk.inj done
      obtain ⟨other,here⟩ := Option.isSome_iff_exists.mp taken
      rw [actRegister,here,LocationEngine.slotted,LocationEngine.registered,← here,setSame]
    · simp at done
  | registerReturn =>
    obtain ⟨slot,callback,rfl,rfl,free⟩ := under
    obtain ⟨rfl,⟨⟩⟩ := Prod.mk.inj done
    rw [actRegister,free]
    rfl
  | clearReturn =>
    obtain ⟨rfl,rfl⟩ := under
    obtain ⟨rfl,⟨⟩⟩ := Prod.mk.inj done
    rfl
  | test o =>
    obtain ⟨rfl,rfl⟩ := under
    simp only [statement,notedSlot] at done
    split at done
    · simp at done
    · rename_i none
      obtain ⟨rfl,⟨⟩⟩ := Prod.mk.inj done
      rw [actOccurs,Option.not_isSome_iff_eq_none.mp none]
      rfl
  | running o callback =>
    obtain ⟨rfl,rfl,here⟩ := under
    obtain ⟨rfl,⟨⟩⟩ := Prod.mk.inj done
    rw [actOccurs,here]
    rfl
  | clear slot => cases slot <;> simp [statement] at done
  | load o =>
    simp only [statement] at done
    split at done <;> simp at done
  | registerWrite slot callback => simp [statement] at done
  | writePercent percent isCharging => simp [statement] at done
  | writeCharging percent isCharging => simp [statement] at done
  | undefined => exact under.elim

theorem implementsEngine : Implements (body : Body (LocationEngine α) (Call α) (Pc α) (Answer α)) act Under where
  refused := by
    intro before call answer refused
    cases call with
    | register slot callback =>
      cases callback with
      | none =>
        cases refused
        rw [actRegister,LocationEngine.slotted,LocationEngine.registered,setSame]
      | some callback => contradiction
    | unregisterCallbacks => contradiction
    | occurs o => cases o <;> contradiction
  entered := by
    intro before call pc enters
    cases call with
    | register slot callback =>
      cases callback with
      | none => contradiction
      | some callback =>
        cases enters
        exact ⟨rfl,rfl⟩
    | unregisterCallbacks =>
      cases enters
      exact ⟨rfl,rfl⟩
    | occurs o =>
      cases o <;> cases enters <;> exact ⟨rfl,rfl⟩
  goes := fun _ _ _ _ _ _ under done => goes under done
  leaves := fun _ _ _ _ _ _ under done => leaves under done

def Running (s : Shared κ (LocationEngine α) (Call α) (Pc α)) (c : κ) (o : Occurrence α) (callback : Callback) : Prop :=
  ∃ call, s.place c = .inside call (.running o callback)

/- No callback is registered. -/
def Quiet (e : LocationEngine α) : Prop := ∀ slot : Slot, slot.get e = none

omit [DecidableEq κ] in
/- Only a registration that succeeds ends the quiet. -/
theorem quietNext {e : LocationEngine α} (quiet : Quiet e) {d : κ × Call α} (refused : answer act e d ≠ .registered (.ok ())) :
    Quiet (next act e d) := by
  obtain ⟨c,call⟩ := d
  cases call with
  | register slot callback =>
    rw [answer,actRegister,quiet slot] at refused
    rw [next,actRegister,quiet slot]
    cases callback with
    | none =>
      have same : slot.set e none = e := by rw [← quiet slot,setSame]
      exact (congrArg Quiet same).mpr quiet
    | some callback => exact absurd rfl refused
  | unregisterCallbacks => exact fun slot => by cases slot <;> rfl
  | occurs o =>
    rw [next,actOccurs]
    exact fun slot => (notedSlot e o slot).trans (quiet slot)

omit [DecidableEq κ] in
theorem quietRun {told : List ((κ × Call α) × Answer α)} {e : LocationEngine α} (quiet : Quiet e)
    (answers : told.map Prod.snd = labels (next act) (answer act) e (told.map Prod.fst))
    (refused : ∀ d ∈ told, d.2 ≠ .registered (.ok ())) : Quiet (run (next act) e (told.map Prod.fst)) := by
  induction told generalizing e with
  | nil => exact quiet
  | cons d told ih =>
    obtain ⟨first,rest⟩ := List.forall_mem_cons.mp refused
    obtain ⟨same,more⟩ := List.cons.inj answers
    exact ih (quietNext quiet (same ▸ first)) more rest

/- However the statements of the threads interleave: the calls answer as one after another in the order of their answers, no null
pointer is called, one callback runs at a time and it is registered all the while. So none runs between the return of
unregister_callbacks and the next registration. -/
theorem callbacksAtomic (e : LocationEngine α) (moves : List (Move κ (Call α))) :
    let s := run (Mutex.step body) (opened e) moves
    let calls := (history body e moves).map Prod.fst
    let now := run (next act) e calls
    (history body e moves).map Prod.snd = labels (next act) (answer act) e calls ∧ (s.lock = none → s.data = now) ∧
    (∀ c call, s.place c ≠ .inside call .undefined) ∧
    (∀ c o callback, Running s c o callback → o.slot.get now = some callback ∧ ∀ c' o' callback', Running s c' o' callback' → c' = c) ∧
    ∀ pre c told post, history body e moves = pre ++ ((c,.unregisterCallbacks),told)::post →
      (∀ d ∈ post, d.2 ≠ .registered (.ok ())) → ∀ c' o callback, ¬ Running s c' o callback := by
  intro s calls now
  obtain ⟨answers,related⟩ := sequential implementsEngine e moves
  have registered : ∀ c o callback, Running s c o callback → o.slot.get now = some callback := by
    rintro c o callback ⟨call,here⟩
    exact ((related.each c).held call _ here).2.2.2
  refine ⟨answers,related.free,?_,?_,?_⟩
  · exact fun c call here => ((related.each c).held call _ here).2
  · rintro c o callback running
    refine ⟨registered c o callback running,?_⟩
    rintro c' o' callback' ⟨call',there⟩
    obtain ⟨call,here⟩ := running
    exact alone related there here
  · intro pre c told post parts refused c' o callback running
    have quiet : Quiet now := by
      rw [parts,List.map_append,List.map_append,labelsAppend] at answers
      have cut := (List.append_inj answers (by rw [labelsLength,List.length_map,List.length_map])).2
      obtain ⟨_,rest⟩ := List.cons.inj cut
      have start : Quiet (next act (run (next act) e (pre.map Prod.fst)) (c,.unregisterCallbacks)) := fun slot => by cases slot <;> rfl
      have last := quietRun start rest refused
      have whole : now = run (next act) (next act (run (next act) e (pre.map Prod.fst)) (c,.unregisterCallbacks)) (post.map Prod.fst) := by
        simp only [now,calls,parts,List.map_append,List.map_cons,runAppend,runCons]
      rwa [whole]
    have some := registered c' o callback running
    rw [quiet o.slot] at some
    contradiction

end UmapTracker.CallbackThreads
