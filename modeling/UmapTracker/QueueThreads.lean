import Mathlib.Data.List.FinRange
import UmapTracker.ConcurrentQueue

/-! android_bridge.h, ThreadSafeQueue statement by statement: n threads that take the mutex, run a body
under it and give it back, or sleep in cv_.wait_for. The bodies are atomic. -/
namespace UmapTracker.QueueThreads
open Machine ConcurrentQueue
variable {T : Type} {n : Nat}

inductive Call (T : Type) where
  | enqueue (item : T)
  | dequeue (timeoutMs : UInt32)
  | clear
  | size
  | empty
  deriving DecidableEq, Repr

/- The statement a thread executes next under the lock. In a dequeue, `woken` is none until the thread has
slept in wait_for, and then tells whether the wait it came back from timed out. -/
inductive Pc (T : Type) where
  | enqueueTest (item : T)
  | enqueuePush (item : T)
  | enqueueNotify (item : T)
  | enqueueReturn (item : T)
  | dequeueBranch (timeoutMs : UInt32)
  | dequeuePoll
  | waitTest (timeoutMs : UInt32) (woken : Option Bool)
  | dequeueTest (timeoutMs : UInt32) (woken : Option Bool)
  | dequeueFront (timeoutMs : UInt32) (woken : Option Bool)
  | dequeuePop (timeoutMs : UInt32) (woken : Option Bool) (item : T)
  | dequeueReturn (timeoutMs : UInt32) (woken : Option Bool) (item : T)
  | clearTest
  | clearPop
  | sizeRead
  | emptyRead
  deriving DecidableEq, Repr

inductive Place (T : Type) where
  | outside
  | locking (call : Call T)
  | inside (pc : Pc T)
  -- in wait_for: asleep without the lock, or on the way back to it
  | asleep (timeoutMs : UInt32)
  | awake (timeoutMs : UInt32)
  | undefined
  deriving DecidableEq, Repr

def Place.isInside : Place T → Bool
  | .inside _ => true
  | _ => false

def Place.isAsleep : Place T → Bool
  | .asleep _ => true
  | _ => false

def Place.isAwake : Place T → Bool
  | .awake _ => true
  | _ => false

structure State (T : Type) (n : Nat) where
  items : List T
  lock : Option (Fin n)
  place : Fin n → Place T

def State.new : State T n := ⟨[],none,fun _ => .outside⟩

inductive Move (T : Type) (n : Nat) where
  | call (thread : Fin n) (call : Call T)
  | acquire (thread : Fin n) (timedOut : Bool)
  | go (thread notified : Fin n)
  -- a timeout, or a wakeup for no reason
  | rouse (thread : Fin n)
  deriving DecidableEq, Repr

/- What follows a statement. -/
inductive Next (T : Type) where
  | goto (pc : Pc T)
  | leave (answer : Answer T)
  | sleep (timeoutMs : UInt32)
  | undefined
  deriving DecidableEq, Repr

def entry : Call T → Pc T
  | .enqueue item => .enqueueTest item
  | .dequeue timeoutMs => .dequeueBranch timeoutMs
  | .clear => .clearTest
  | .size => .sizeRead
  | .empty => .emptyRead

def statement (maxSize : UInt32) (items : List T) : Pc T → List T × Next T
  | .enqueueTest item =>
      (items,if maxSize.toNat ≤ items.length then .leave (.enqueued item false) else .goto (.enqueuePush item))
  | .enqueuePush item => (items ++ [item],.goto (.enqueueNotify item))
  | .enqueueNotify item => (items,.goto (.enqueueReturn item))
  | .enqueueReturn item => (items,.leave (.enqueued item true))
  | .dequeueBranch timeoutMs => (items,.goto (if timeoutMs = 0 then .dequeuePoll else .waitTest timeoutMs none))
  | .dequeuePoll => (items,if items.isEmpty then .leave (.dequeued none) else .goto (.dequeueTest 0 none))
  -- while (!pred()) if (wait_until(..) == timeout) return pred();
  | .waitTest timeoutMs woken =>
      (items,if items.isEmpty then if woken = some true then .leave (.dequeued none) else .sleep timeoutMs
        else .goto (.dequeueTest timeoutMs woken))
  | .dequeueTest timeoutMs woken =>
      (items,if items.isEmpty then .leave (.dequeued none) else .goto (.dequeueFront timeoutMs woken))
  | .dequeueFront timeoutMs woken =>
      (items,match items with
        | [] => .undefined
        | item::_ => .goto (.dequeuePop timeoutMs woken item))
  | .dequeuePop timeoutMs woken item =>
      match items with
      | [] => ([],.undefined)
      | _::rest => (rest,.goto (.dequeueReturn timeoutMs woken item))
  | .dequeueReturn _ _ item => (items,.leave (.dequeued (some item)))
  | .clearTest => (items,if items.isEmpty then .leave .cleared else .goto .clearPop)
  | .clearPop =>
      match items with
      | [] => ([],.undefined)
      | _::rest => (rest,.goto .clearTest)
  | .sizeRead => (items,.leave (.counted (UInt32.ofNat items.length)))
  | .emptyRead => (items,.leave (.isEmpty items.isEmpty))

-- cv_.notify_one(): one of the sleeping threads, whichever the system picks
def notifyOne (place : Fin n → Place T) (notified : Fin n) : Fin n → Place T :=
  match (notified::List.finRange n).find? (fun k => (place k).isAsleep) with
  | none => place
  | some k => rouse place k
where
  rouse (place : Fin n → Place T) (k : Fin n) : Fin n → Place T :=
    match place k with
    | .asleep timeoutMs => Function.update place k (.awake timeoutMs)
    | _ => place

def signalled (place : Fin n → Place T) (notified : Fin n) : Pc T → Fin n → Place T
  | .enqueueNotify _ => notifyOne place notified
  | _ => place

def follow (s : State T n) (thread : Fin n) (items : List T) (place : Fin n → Place T) : Next T → State T n
  | .goto pc => ⟨items,s.lock,Function.update place thread (.inside pc)⟩
  | .leave _ => ⟨items,none,Function.update place thread .outside⟩
  | .sleep timeoutMs => ⟨items,none,Function.update place thread (.asleep timeoutMs)⟩
  | .undefined => ⟨items,s.lock,Function.update place thread .undefined⟩

def acquire (s : State T n) (thread : Fin n) (timedOut : Bool) : State T n :=
  match s.lock,s.place thread with
  | none,.locking call => {s with lock := some thread, place := Function.update s.place thread (.inside (entry call))}
  | none,.awake timeoutMs =>
      {s with lock := some thread, place := Function.update s.place thread (.inside (.waitTest timeoutMs (some timedOut)))}
  | _,_ => s

def step (maxSize : UInt32) (s : State T n) : Move T n → State T n
  | .call thread call =>
      match s.place thread with
      | .outside => {s with place := Function.update s.place thread (.locking call)}
      | _ => s
  | .acquire thread timedOut => acquire s thread timedOut
  | .go thread notified =>
      match s.place thread with
      | .inside pc =>
          let (items,next) := statement maxSize s.items pc
          follow s thread items (signalled s.place notified pc) next
      | _ => s
  | .rouse thread => {s with place := notifyOne.rouse s.place thread}

def dequeueEvent (thread : Fin n) (timeoutMs : UInt32) : Option Bool → Event (Fin n) T
  | none => .dequeue thread timeoutMs
  | some timedOut => .wake thread timedOut

/- The call of the queue, or the return from its wait, that the statement belongs to. -/
def event (thread : Fin n) : Pc T → Event (Fin n) T
  | .enqueueTest item | .enqueuePush item | .enqueueNotify item | .enqueueReturn item => .enqueue thread item
  | .dequeueBranch timeoutMs => .dequeue thread timeoutMs
  | .dequeuePoll => .dequeue thread 0
  | .waitTest timeoutMs woken | .dequeueTest timeoutMs woken | .dequeueFront timeoutMs woken
  | .dequeuePop timeoutMs woken _ | .dequeueReturn timeoutMs woken _ => dequeueEvent thread timeoutMs woken
  | .clearTest | .clearPop => .clear thread
  | .sizeRead => .size thread
  | .emptyRead => .empty thread

/- What a move tells the caller: a body that gives the lock up answers, or waits. -/
def told (maxSize : UInt32) (s : State T n) : Move T n → Option (Event (Fin n) T × Answer T)
  | .go thread _ =>
      match s.place thread with
      | .inside pc =>
          match (statement maxSize s.items pc).2 with
          | .leave answer => some (event thread pc,answer)
          | .sleep _ => some (event thread pc,.waits)
          | _ => none
      | _ => none
  | _ => none

/- What the items under the lock have become, from those there when it was taken. -/
def Under (maxSize : UInt32) (before items : List T) : Pc T → Prop
  | .waitTest timeoutMs woken => items = before ∧ (woken = none → timeoutMs ≠ 0)
  | .enqueuePush _ => items = before ∧ before.length < maxSize.toNat
  | .enqueueNotify item | .enqueueReturn item => items = before ++ [item] ∧ before.length < maxSize.toNat
  | .dequeueTest _ _ | .dequeueFront _ _ => items = before ∧ before ≠ []
  | .dequeuePop _ _ item => items = before ∧ before.head? = some item
  | .dequeueReturn _ _ item => before = item::items
  | .clearTest => True
  | .clearPop => items ≠ []
  | _ => items = before

/- The timeout of the wait that the thread has not come back from. -/
def waitsFor : Place T → Option UInt32
  | .asleep timeoutMs | .awake timeoutMs => some timeoutMs
  | .inside (.waitTest timeoutMs woken) | .inside (.dequeueTest timeoutMs woken) | .inside (.dequeueFront timeoutMs woken)
  | .inside (.dequeuePop timeoutMs woken _) | .inside (.dequeueReturn timeoutMs woken _) => woken.map fun _ => timeoutMs
  | _ => none

/- A thread's place fits the lock, the items under it and the waits of the queue whose bodies are one event each. -/
structure Fits (maxSize : UInt32) (lock : Option (Fin n)) (items before : List T) (waits : Option UInt32) (k : Fin n)
    (place : Place T) : Prop where
  waiting : waits = waitsFor place
  holder : lock = some k ↔ place.isInside
  held : ∀ pc, place = .inside pc → Under maxSize before items pc
  defined : place ≠ .undefined

structure Related {maxSize : UInt32} (s : State T n) (r : Shared (Fin n) T maxSize) : Prop where
  free : s.lock = none → s.items = r.queue.items
  each : ∀ k, Fits maxSize s.lock s.items r.queue.items (r.waiting k) k (s.place k)

theorem fitsOutside {maxSize : UInt32} {lock : Option (Fin n)} {items before : List T} {k : Fin n} {place : Place T}
    (out : place.isInside = false) (defined : place ≠ .undefined) (lacks : lock ≠ some k) :
    Fits maxSize lock items before (waitsFor place) k place where
  waiting := rfl
  holder := by simp [out,lacks]
  held := by
    rintro pc rfl
    cases out
  defined := defined

theorem fitsInside {maxSize : UInt32} {items before : List T} {k : Fin n} {pc : Pc T} (under : Under maxSize before items pc) :
    Fits maxSize (some k) items before (waitsFor (.inside pc)) k (.inside pc) where
  waiting := rfl
  holder := by simp [Place.isInside]
  held := by
    rintro pc ⟨⟩
    exact under
  defined := by simp

/- What happens under the lock of another thread does not concern this one. -/
theorem fitsOther {maxSize : UInt32} {lock lock' : Option (Fin n)} {items before items' before' : List T}
    {waits : Option UInt32} {k : Fin n} {place : Place T} (fits : Fits maxSize lock items before waits k place)
    (lacks : lock ≠ some k) (lacks' : lock' ≠ some k) : Fits maxSize lock' items' before' waits k place := by
  have out : place.isInside = false := by simpa using lacks ∘ fits.holder.mpr
  rw [fits.waiting]
  exact fitsOutside out fits.defined lacks'

theorem relatedNew (maxSize : UInt32) : Related (State.new : State T n) (Shared.new : Shared (Fin n) T maxSize) where
  free := fun _ => rfl
  each := by
    intro k
    refine ⟨rfl,by simp [State.new,Place.isInside],?_,by simp [State.new]⟩
    rintro pc ⟨⟩

/- The event of a body does to the queue what its statements have done. -/
structure Acts {maxSize : UInt32} (r : Shared (Fin n) T maxSize) (thread : Fin n) (e : Event (Fin n) T) (answer : Answer T)
    (items : List T) (waits : Option UInt32) : Prop where
  answer : answer = ConcurrentQueue.answer r e
  items : items = (ConcurrentQueue.step r e).queue.items
  waiting : (ConcurrentQueue.step r e).waiting = Function.update r.waiting thread waits

theorem actsCall {maxSize : UInt32} {r : Shared (Fin n) T maxSize} {thread : Fin n} {e : Event (Fin n) T}
    {answer : Answer T} {items : List T} (queue : ThreadSafeQueue T maxSize.toNat) (idle : r.waiting thread = none)
    (body : act r e = call r thread (answer,{r with queue})) (same : items = queue.items) : Acts r thread e answer items none := by
  have here : act r e = (answer,{r with queue}) := by rw [body,call,idle]
  refine ⟨?_,?_,?_⟩
  · rw [ConcurrentQueue.answer,here]
  · rw [ConcurrentQueue.step,here,same]
  · rw [ConcurrentQueue.step,here,← idle,Function.update_eq_self]

section Dequeue
variable {maxSize : UInt32} {r : Shared (Fin n) T maxSize} {thread : Fin n} {timeoutMs : UInt32} {woken : Option Bool}

theorem actsTaken {item : T} {rest : List T} (waiting : r.waiting thread = woken.map fun _ => timeoutMs)
    (stored : r.queue.items = item::rest) :
    Acts r thread (dequeueEvent thread timeoutMs woken) (.dequeued (some item)) rest none := by
  obtain ⟨front,remaining⟩ := r.queue.dequeueItems timeoutMs
  rw [stored] at front remaining
  have some_stored : r.queue.empty = false := by rw [ThreadSafeQueue.empty,stored,List.isEmpty_cons]
  cases woken with
  | none =>
    refine actsCall (r.queue.dequeue timeoutMs).2 waiting ?_ remaining.symm
    simp [act,dequeueEvent,dequeueBody,some_stored,front]
  | some timedOut =>
    have here : act r (.wake thread timedOut) =
        (.dequeued (some item),⟨(r.queue.dequeue timeoutMs).2,Function.update r.waiting thread none⟩) := by
      simp [act,wakeBody,waiting,some_stored,front]
    exact ⟨by rw [dequeueEvent,ConcurrentQueue.answer,here],by rw [dequeueEvent,ConcurrentQueue.step,here,remaining,List.tail_cons],
      by rw [dequeueEvent,ConcurrentQueue.step,here]⟩

theorem actsNothing (waiting : r.waiting thread = woken.map fun _ => timeoutMs) (nothing : r.queue.items = [])
    (ended : woken = none ∧ timeoutMs = 0 ∨ woken = some true) :
    Acts r thread (dequeueEvent thread timeoutMs woken) (.dequeued none) [] none := by
  obtain ⟨front,remaining⟩ := r.queue.dequeueItems timeoutMs
  rw [nothing] at front remaining
  rcases ended with ⟨rfl,rfl⟩ | rfl
  · refine actsCall (r.queue.dequeue 0).2 waiting ?_ remaining.symm
    simp [act,dequeueEvent,dequeueBody,front]
  · have here : act r (.wake thread true) =
        (.dequeued none,⟨(r.queue.dequeue timeoutMs).2,Function.update r.waiting thread none⟩) := by
      simp [act,wakeBody,waiting,front]
    exact ⟨by rw [dequeueEvent,ConcurrentQueue.answer,here],by rw [dequeueEvent,ConcurrentQueue.step,here,remaining,List.tail_nil],
      by rw [dequeueEvent,ConcurrentQueue.step,here]⟩

theorem actsWaits (waiting : r.waiting thread = woken.map fun _ => timeoutMs) (nothing : r.queue.items = [])
    (patient : woken = none → timeoutMs ≠ 0) (early : woken ≠ some true) :
    Acts r thread (dequeueEvent thread timeoutMs woken) .waits [] (some timeoutMs) := by
  have empty : r.queue.empty = true := by rw [ThreadSafeQueue.empty,nothing,List.isEmpty_nil]
  cases woken with
  | none =>
    have here : act r (.dequeue thread timeoutMs) =
        (.waits,{r with waiting := Function.update r.waiting thread (some timeoutMs)}) := by
      have idle : r.waiting thread = none := waiting
      simp [act,call,idle,dequeueBody,empty,patient rfl]
    exact ⟨by rw [dequeueEvent,ConcurrentQueue.answer,here],by rw [dequeueEvent,ConcurrentQueue.step,here,nothing],
      by rw [dequeueEvent,ConcurrentQueue.step,here]⟩
  | some timedOut =>
    have untimely : timedOut = false := by simpa using early
    subst untimely
    have here : act r (.wake thread false) = (.waits,r) := by simp [act,wakeBody,waiting,empty]
    refine ⟨by rw [dequeueEvent,ConcurrentQueue.answer,here],by rw [dequeueEvent,ConcurrentQueue.step,here,nothing],?_⟩
    have same : some timeoutMs = r.waiting thread := waiting.symm
    rw [dequeueEvent,ConcurrentQueue.step,here,same,Function.update_eq_self]

end Dequeue

/- A statement stays within the body's event, or ends it as the event does. -/
def Sound {maxSize : UInt32} (r : Shared (Fin n) T maxSize) (thread : Fin n) (pc : Pc T) : List T × Next T → Prop
  | (items,.goto after) => Under maxSize r.queue.items items after ∧ event thread after = event thread pc ∧
      waitsFor (.inside after) = waitsFor (.inside pc)
  | (items,.leave answer) => Acts r thread (event thread pc) answer items none
  | (items,.sleep timeoutMs) => Acts r thread (event thread pc) .waits items (some timeoutMs)
  | (_,.undefined) => False

theorem soundStatement {maxSize : UInt32} {r : Shared (Fin n) T maxSize} {thread : Fin n} {pc : Pc T} {items : List T}
    (waiting : r.waiting thread = waitsFor (.inside pc)) (under : Under maxSize r.queue.items items pc) :
    Sound r thread pc (statement maxSize items pc) := by
  cases pc with
  | enqueueTest item =>
    have same : items = r.queue.items := under
    subst same
    obtain ⟨stored,kept⟩ := r.queue.enqueueItems item
    simp only [statement]
    split
    · rename_i full
      have refused : ¬r.queue.items.length < maxSize.toNat := Nat.not_lt.mpr full
      rw [decide_eq_false refused] at stored
      rw [if_neg refused] at kept
      exact actsCall (r.queue.enqueue item).2 waiting (by rw [← stored]; rfl) kept.symm
    · rename_i room
      exact ⟨⟨rfl,Nat.lt_of_not_le room⟩,rfl,rfl⟩
  | enqueuePush item => exact ⟨⟨by rw [under.1],under.2⟩,rfl,rfl⟩
  | enqueueNotify item => exact ⟨under,rfl,rfl⟩
  | enqueueReturn item =>
    obtain ⟨same,room⟩ := under
    obtain ⟨stored,kept⟩ := r.queue.enqueueItems item
    rw [decide_eq_true room] at stored
    rw [if_pos room] at kept
    exact actsCall (r.queue.enqueue item).2 waiting (by rw [← stored]; rfl) (same.trans kept.symm)
  | dequeueBranch timeoutMs =>
    have same : items = r.queue.items := under
    simp only [statement]
    split
    · rename_i poll
      exact ⟨same,by rw [poll]; rfl,rfl⟩
    · rename_i patient
      exact ⟨⟨same,fun _ => patient⟩,rfl,rfl⟩
  | dequeuePoll =>
    have same : items = r.queue.items := under
    simp only [statement]
    split
    · rename_i nothing
      have empty := List.isEmpty_iff.mp nothing
      have stored := same.symm.trans empty
      subst empty
      exact actsNothing waiting stored (.inl ⟨rfl,rfl⟩)
    · rename_i stored
      exact ⟨⟨same,by simpa [same] using stored⟩,rfl,rfl⟩
  | waitTest timeoutMs woken =>
    obtain ⟨same,patient⟩ := under
    simp only [statement]
    split
    · rename_i nothing
      have empty := List.isEmpty_iff.mp nothing
      have stored := same.symm.trans empty
      subst empty
      split
      · rename_i ended
        exact actsNothing waiting stored (.inr ended)
      · rename_i early
        exact actsWaits waiting stored patient early
    · rename_i stored
      exact ⟨⟨same,by simpa [same] using stored⟩,rfl,rfl⟩
  | dequeueTest timeoutMs woken =>
    obtain ⟨rfl,stored⟩ := under
    have test : r.queue.items.isEmpty = false := by simpa using stored
    rw [statement,test]
    exact ⟨⟨rfl,stored⟩,rfl,rfl⟩
  | dequeueFront timeoutMs woken =>
    obtain ⟨rfl,stored⟩ := under
    obtain ⟨item,rest,front⟩ := List.exists_cons_of_ne_nil stored
    rw [front]
    exact ⟨⟨front.symm,by rw [front]; rfl⟩,rfl,rfl⟩
  | dequeuePop timeoutMs woken item =>
    obtain ⟨rfl,front⟩ := under
    obtain ⟨rest,stored⟩ := List.head?_eq_some_iff.mp front
    rw [stored]
    exact ⟨stored,rfl,rfl⟩
  | dequeueReturn timeoutMs woken item => exact actsTaken waiting under
  | clearTest =>
    simp only [statement]
    split
    · rename_i nothing
      exact actsCall r.queue.clear waiting rfl (List.isEmpty_iff.mp nothing)
    · rename_i stored
      have some_stored : items ≠ [] := by simpa using stored
      exact ⟨some_stored,rfl,rfl⟩
  | clearPop =>
    obtain ⟨item,rest,front⟩ := List.exists_cons_of_ne_nil under
    rw [front]
    exact ⟨trivial,rfl,rfl⟩
  | sizeRead =>
    have same : items = r.queue.items := under
    subst same
    exact actsCall r.queue waiting rfl rfl
  | emptyRead =>
    have same : items = r.queue.items := under
    subst same
    exact actsCall r.queue waiting rfl rfl

/- A thread asks for the lock, or is woken; the body under the lock does not notice. -/
def Quiet (before after : Place T) : Prop :=
  after = before ∨ (∃ call, before = .outside ∧ after = .locking call) ∨ ∃ timeoutMs, before = .asleep timeoutMs ∧ after = .awake timeoutMs

theorem quietUpdate {place : Fin n → Place T} {thread : Fin n} {after : Place T} (quiet : Quiet (place thread) after)
    (k : Fin n) : Quiet (place k) (Function.update place thread after k) := by
  by_cases same : k = thread
  · subst same
    rwa [Function.update_self]
  · rw [Function.update_of_ne same]
    exact .inl rfl

theorem quietRouse (place : Fin n → Place T) (thread k : Fin n) : Quiet (place k) (notifyOne.rouse place thread k) := by
  cases here : place thread with
  | asleep timeoutMs =>
    rw [notifyOne.rouse,here]
    exact quietUpdate (.inr (.inr ⟨timeoutMs,here,rfl⟩)) k
  | _ =>
    rw [notifyOne.rouse,here]
    exact .inl rfl

theorem quietNotifyOne (place : Fin n → Place T) (notified k : Fin n) : Quiet (place k) (notifyOne place notified k) := by
  unfold notifyOne
  cases (notified::List.finRange n).find? fun k => (place k).isAsleep with
  | none => exact .inl rfl
  | some sleeper => exact quietRouse place sleeper k

theorem quietSignalled (place : Fin n → Place T) (notified : Fin n) (pc : Pc T) (k : Fin n) :
    Quiet (place k) (signalled place notified pc k) := by
  cases pc with
  | enqueueNotify item => exact quietNotifyOne place notified k
  | _ => exact .inl rfl

theorem quietWaitsFor {before after : Place T} (quiet : Quiet before after) : waitsFor after = waitsFor before := by
  obtain rfl | ⟨call,rfl,rfl⟩ | ⟨timeoutMs,rfl,rfl⟩ := quiet <;> rfl

theorem quietIsInside {before after : Place T} (quiet : Quiet before after) : after.isInside = before.isInside := by
  obtain rfl | ⟨call,rfl,rfl⟩ | ⟨timeoutMs,rfl,rfl⟩ := quiet <;> rfl

theorem quietInside {before after : Place T} {pc : Pc T} (quiet : Quiet before after) :
    after = .inside pc ↔ before = .inside pc := by
  obtain rfl | ⟨call,rfl,rfl⟩ | ⟨timeoutMs,rfl,rfl⟩ := quiet <;> simp

theorem quietDefined {before after : Place T} (quiet : Quiet before after) : after = .undefined ↔ before = .undefined := by
  obtain rfl | ⟨call,rfl,rfl⟩ | ⟨timeoutMs,rfl,rfl⟩ := quiet <;> simp

theorem relatedQuiet {maxSize : UInt32} {s : State T n} {r : Shared (Fin n) T maxSize} (related : Related s r)
    {place : Fin n → Place T} (quiet : ∀ k, Quiet (s.place k) (place k)) : Related {s with place} r where
  free := related.free
  each := by
    intro k
    obtain ⟨waiting,holder,held,defined⟩ := related.each k
    refine ⟨waiting.trans (quietWaitsFor (quiet k)).symm,by rw [quietIsInside (quiet k)]; exact holder,?_,?_⟩
    · exact fun pc here => held pc ((quietInside (quiet k)).mp here)
    · exact fun here => defined ((quietDefined (quiet k)).mp here)

section Bodies
variable {maxSize : UInt32} {s : State T n} {r : Shared (Fin n) T maxSize} {thread : Fin n} {pc : Pc T} {items : List T}

theorem relatedEntered (related : Related s r) (free : s.lock = none) (waiting : waitsFor (.inside pc) = waitsFor (s.place thread))
    (under : Under maxSize r.queue.items r.queue.items pc) :
    Related {s with lock := some thread, place := Function.update s.place thread (.inside pc)} r where
  free := by
    intro none
    cases none
  each := by
    rw [Function.forall_update_iff s.place (fun k place => Fits maxSize (some thread) s.items r.queue.items (r.waiting k) k place)]
    refine ⟨?_,?_⟩
    · rw [(related.each thread).waiting,← waiting,related.free free]
      exact fitsInside under
    · intro k other
      exact fitsOther (related.each k) (by simp [free]) (by simpa using Ne.symm other)

theorem holds (related : Related s r) (here : s.place thread = .inside pc) : s.lock = some thread :=
  (related.each thread).holder.mpr (by rw [here]; rfl)

/- The body goes on. -/
theorem relatedGoto {after : Pc T} (related : Related s r) (here : s.place thread = .inside pc)
    (under : Under maxSize r.queue.items items after) (waiting : waitsFor (.inside after) = waitsFor (.inside pc)) :
    Related ⟨items,s.lock,Function.update s.place thread (.inside after)⟩ r where
  free := by
    intro none
    rw [holds related here] at none
    cases none
  each := by
    rw [Function.forall_update_iff s.place (fun k place => Fits maxSize s.lock items r.queue.items (r.waiting k) k place)]
    refine ⟨?_,?_⟩
    · rw [(related.each thread).waiting,here,← waiting,holds related here]
      exact fitsInside under
    · intro k other
      have lacks : s.lock ≠ some k := by simpa [holds related here] using Ne.symm other
      exact fitsOther (related.each k) lacks lacks

/- The body ends, or sleeps: its event has happened. -/
theorem relatedEnded {e : Event (Fin n) T} {answer : Answer T} (after : Place T) (related : Related s r)
    (here : s.place thread = .inside pc) (acts : Acts r thread e answer items (waitsFor after)) (out : after.isInside = false)
    (defined : after ≠ .undefined) :
    Related ⟨items,none,Function.update s.place thread after⟩ (ConcurrentQueue.step r e) where
  free := fun _ => acts.items
  each := by
    rw [acts.waiting,Function.forall_update_iff s.place (fun k place => Fits maxSize none items
      (ConcurrentQueue.step r e).queue.items (Function.update r.waiting thread (waitsFor after) k) k place)]
    refine ⟨?_,?_⟩
    · rw [Function.update_self]
      exact fitsOutside out defined (by simp)
    · intro k other
      rw [Function.update_of_ne other]
      exact fitsOther (related.each k) (by simpa [holds related here] using Ne.symm other) (by simp)

theorem underEntry (call : Call T) (items : List T) : Under maxSize items items (entry call) := by
  cases call with
  | clear => trivial
  | _ => rfl

theorem relatedAcquire (related : Related s r) (thread : Fin n) (timedOut : Bool) : Related (acquire s thread timedOut) r := by
  unfold acquire
  split
  · rename_i call free locking
    refine relatedEntered related free ?_ (underEntry call _)
    rw [locking]
    cases call <;> rfl
  · rename_i timeoutMs free awake
    refine relatedEntered related free ?_ ⟨rfl,by simp⟩
    rw [awake]
    rfl
  · exact related

theorem relatedGo (related : Related s r) (thread notified : Fin n) :
    Answered Related ConcurrentQueue.answer ConcurrentQueue.step (step maxSize s (.go thread notified)) r
      (told maxSize s (.go thread notified)) := by
  cases here : s.place thread with
  | inside pc =>
    have fits := related.each thread
    rw [here] at fits
    have sound := soundStatement fits.waiting (fits.held pc rfl)
    have quiet := relatedQuiet related (quietSignalled s.place notified pc)
    have still := (quietInside (quietSignalled s.place notified pc thread)).mpr here
    obtain ⟨items,next,done⟩ : ∃ items next, statement maxSize s.items pc = (items,next) := ⟨_,_,rfl⟩
    rw [done] at sound
    cases next with
    | goto after =>
      obtain ⟨under,_,same⟩ := sound
      simp only [told,step,here,done,follow]
      exact relatedGoto quiet still under same
    | leave answer =>
      have ended := relatedEnded .outside quiet still sound rfl (by simp)
      simp only [told,step,here,done,follow]
      exact ⟨sound.answer,ended⟩
    | sleep timeoutMs =>
      have ended := relatedEnded (.asleep timeoutMs) quiet still sound rfl (by simp)
      simp only [told,step,here,done,follow]
      exact ⟨sound.answer,ended⟩
    | undefined => exact sound.elim
  | _ =>
    simp only [told,step,here]
    exact related

theorem relatedStep (related : Related s r) (m : Move T n) :
    Answered Related ConcurrentQueue.answer ConcurrentQueue.step (step maxSize s m) r (told maxSize s m) := by
  cases m with
  | call thread call =>
    simp only [told,step]
    split
    · rename_i outside
      exact relatedQuiet related (quietUpdate (.inr (.inl ⟨call,outside,rfl⟩)))
    · exact related
  | acquire thread timedOut => exact relatedAcquire related thread timedOut
  | go thread notified => exact relatedGo related thread notified
  | rouse thread => exact relatedQuiet related (quietRouse s.place thread)

end Bodies

/- What the calls learned, each with its event, in the order in which the bodies ended. -/
def history (maxSize : UInt32) (moves : List (Move T n)) : List (Event (Fin n) T × Answer T) :=
  (labels (step maxSize) (told maxSize) State.new moves).reduceOption

def state (maxSize : UInt32) (moves : List (Move T n)) : State T n := run (step maxSize) State.new moves

theorem relatedRun (maxSize : UInt32) (moves : List (Move T n)) :
    let events := (history maxSize moves).map Prod.fst
    (history maxSize moves).map Prod.snd = answers maxSize events ∧
      Related (state maxSize moves) (ConcurrentQueue.state maxSize events) :=
  simulatesWeakly (R := Related) (fun _ _ m related => relatedStep related m) (relatedNew maxSize) moves

structure Atomic (maxSize : UInt32) (moves : List (Move T n)) : Prop where
  answers : (history maxSize moves).map Prod.snd = answers maxSize ((history maxSize moves).map Prod.fst)
  items : (state maxSize moves).lock = none →
    (state maxSize moves).items = (ConcurrentQueue.state maxSize ((history maxSize moves).map Prod.fst)).queue.items
  exclusive : ∀ i j, ((state maxSize moves).place i).isInside → ((state maxSize moves).place j).isInside → i = j
  defined : ∀ k, (state maxSize moves).place k ≠ .undefined

/- However the threads' statements interleave, the calls learn what they would if each body were one event. -/
theorem atomic (maxSize : UInt32) (moves : List (Move T n)) : Atomic maxSize moves := by
  obtain ⟨answers,related⟩ := relatedRun maxSize moves
  refine ⟨answers,related.free,?_,fun k => (related.each k).defined⟩
  intro i j first second
  have holds := (related.each i).holder.mpr first
  rw [(related.each j).holder.mpr second] at holds
  exact (Option.some.inj holds).symm

end UmapTracker.QueueThreads
