import Mathlib.Logic.Function.Basic
import UmapTracker.AndroidBridge
import UmapTracker.Machine

/-! Any number of threads on one ThreadSafeQueue. Every body runs under the lock and is one event,
but a timed dequeue that finds nothing gives the lock up: it returns at a later event, when
its thread gets the lock back. -/
namespace UmapTracker.ConcurrentQueue
open Machine
variable {κ T : Type} {maxSize : UInt32}

structure Shared (κ T : Type) (maxSize : UInt32) where
  queue : ThreadSafeQueue T maxSize.toNat
  -- the timeouts of the threads inside cv_.wait_for
  waiting : κ → Option UInt32

def Shared.new : Shared κ T maxSize := ⟨.new,fun _ => none⟩

inductive Event (κ T : Type) where
  | enqueue (thread : κ) (item : T)
  | dequeue (thread : κ) (timeoutMs : UInt32)
  | wake (thread : κ) (timedOut : Bool)
  | clear (thread : κ)
  | size (thread : κ)
  | empty (thread : κ)
  deriving DecidableEq, Repr

/- What the thread of the event learns from it. -/
inductive Answer (T : Type) where
  | enqueued (item : T) (stored : Bool)
  | dequeued (item : Option T)
  | cleared
  | counted (size : UInt32)
  | isEmpty (empty : Bool)
  | waits
  | absent
  deriving DecidableEq, Repr

/- The items that dequeue returned, and those that enqueue accepted, in order. -/
def returned (answers : List (Answer T)) : List T :=
  answers.filterMap fun | .dequeued item => item | _ => none

def accepted (answers : List (Answer T)) : List T :=
  answers.filterMap fun | .enqueued item true => some item | _ => none

structure Tally (T : Type) where
  kept : List T
  handedOut : Nat

-- a clear removes the segment of the accepted items behind those handed out
def Tally.count (t : Tally T) : Answer T → Tally T
  | .enqueued item true => {t with kept := t.kept ++ [item]}
  | .dequeued (some _) => {t with handedOut := t.handedOut+1}
  | .cleared => {t with kept := t.kept.take t.handedOut}
  | _ => t

def tally (answers : List (Answer T)) : Tally T := answers.foldl Tally.count ⟨[],0⟩

/- The accepted items in order, without the cleared segments. -/
def uncleared (answers : List (Answer T)) : List T := (tally answers).kept

/- What one event does to the stored items. -/
inductive Acted (s : Shared κ T maxSize) : Answer T → List T → Prop where
  | enqueued (item : T) : s.queue.items.length < maxSize.toNat → Acted s (.enqueued item true) (s.queue.items ++ [item])
  | refused (item : T) : s.queue.items.length = maxSize.toNat → Acted s (.enqueued item false) s.queue.items
  | dequeued (item : T) (rest : List T) : s.queue.items = item::rest → Acted s (.dequeued (some item)) rest
  | nothing : s.queue.items = [] → Acted s (.dequeued none) s.queue.items
  | cleared : Acted s .cleared []
  | counted : Acted s (.counted (UInt32.ofNat s.queue.items.length)) s.queue.items
  | isEmpty : Acted s (.isEmpty s.queue.items.isEmpty) s.queue.items
  | waits : Acted s .waits s.queue.items
  | absent : Acted s .absent s.queue.items

theorem actedEnqueue (s : Shared κ T maxSize) (item : T) :
    Acted s (.enqueued item (s.queue.enqueue item).1) (s.queue.enqueue item).2.items := by
  obtain ⟨stored,items⟩ := s.queue.enqueueItems item
  rw [stored,items]
  split
  · rename_i room
    rw [decide_eq_true room]
    exact .enqueued item room
  · rename_i full
    rw [decide_eq_false full]
    exact .refused item (Nat.le_antisymm s.queue.bounded (Nat.le_of_not_lt full))

theorem actedDequeue (s : Shared κ T maxSize) (timeoutMs : UInt32) :
    Acted s (.dequeued (s.queue.dequeue timeoutMs).1) (s.queue.dequeue timeoutMs).2.items := by
  obtain ⟨front,rest⟩ := s.queue.dequeueItems timeoutMs
  rw [front,rest]
  cases h : s.queue.items with
  | nil => simpa [h] using Acted.nothing h
  | cons item rest => exact .dequeued item rest h

theorem nothingStored {s : Shared κ T maxSize} {after : List T} (done : Acted s (.dequeued none) after) :
    s.queue.items = [] := by
  cases done
  assumption

theorem refusedFull {s : Shared κ T maxSize} {item : T} {stored : Bool} {after : List T}
    (done : Acted s (.enqueued item stored) after) : stored = false ↔ s.queue.items.length = maxSize.toNat := by
  cases done with
  | enqueued _ room => simp [Nat.ne_of_lt room]
  | refused _ full => simp [full]

theorem countedStored {s : Shared κ T maxSize} {size : UInt32} {after : List T} (done : Acted s (.counted size) after) :
    size.toNat = s.queue.items.length := by
  cases done
  have low := s.queue.bounded
  have top := maxSize.toNat_lt
  exact UInt32.toNat_ofNat_of_lt' (by simp only [UInt32.size]; omega)

theorem tallyNext (as : List (Answer T)) (a : Answer T) : tally (as ++ [a]) = (tally as).count a := by
  rw [tally,List.foldl_append]
  rfl

theorem returnedAppend (as bs : List (Answer T)) : returned (as ++ bs) = returned as ++ returned bs :=
  List.filterMap_append

theorem acceptedAppend (as bs : List (Answer T)) : accepted (as ++ bs) = accepted as ++ accepted bs :=
  List.filterMap_append

/- What was handed out and what is stored are what was accepted and not cleared. -/
structure Conserved (as : List (Answer T)) (stored : List T) : Prop where
  kept : uncleared as = returned as ++ stored
  handedOut : (tally as).handedOut = (returned as).length

theorem conservedStep {as : List (Answer T)} {s : Shared κ T maxSize} (before : Conserved as s.queue.items)
    {a : Answer T} {stored : List T} (done : Acted s a stored) : Conserved (as ++ [a]) stored := by
  obtain ⟨kept,handedOut⟩ := before
  refine ⟨?_,?_⟩
  · rw [uncleared,tallyNext,returnedAppend,List.append_assoc]
    cases done with
    | enqueued item room =>
      change uncleared as ++ [item] = returned as ++ (s.queue.items ++ [item])
      rw [kept,List.append_assoc]
    | dequeued item rest front =>
      change uncleared as = returned as ++ item::stored
      rw [kept,front]
    | cleared =>
      change (uncleared as).take (tally as).handedOut = returned as ++ []
      rw [kept,handedOut,List.take_left,List.append_nil]
    | _ => exact kept
  · rw [tallyNext,returnedAppend,List.length_append,← handedOut]
    cases done <;> rfl

theorem unclearedSublist (as : List (Answer T)) : (uncleared as).Sublist (accepted as) := by
  induction as using List.reverseRecOn with
  | nil => exact .refl _
  | append_singleton as a ih =>
    rw [uncleared,tallyNext,acceptedAppend]
    cases a with
    | enqueued item stored =>
      cases stored with
      | true => exact ih.append (.refl [item])
      | false => exact ih.trans (List.sublist_append_left _ _)
    | dequeued item => cases item <;> exact ih.trans (List.sublist_append_left _ _)
    | cleared => exact ((List.take_sublist _ _).trans ih).trans (List.sublist_append_left _ _)
    | _ => exact ih.trans (List.sublist_append_left _ _)

theorem unclearedAll {as : List (Answer T)} (none : .cleared ∉ as) : uncleared as = accepted as := by
  induction as using List.reverseRecOn with
  | nil => rfl
  | append_singleton as a ih =>
    have before := ih (fun mem => none (List.mem_append_left _ mem))
    rw [uncleared,tallyNext,acceptedAppend,← before]
    cases a with
    | enqueued item stored => cases stored <;> simp [Tally.count,accepted,uncleared]
    | dequeued item => cases item <;> simp [Tally.count,accepted,uncleared]
    | cleared => simp at none
    | _ => simp [Tally.count,accepted,uncleared]

-- a thread that waits makes no calls
def call (s : Shared κ T maxSize) (thread : κ) (body : Answer T × Shared κ T maxSize) : Answer T × Shared κ T maxSize :=
  match s.waiting thread with
  | some _ => (.absent,s)
  | none => body

theorem actedCall {s : Shared κ T maxSize} {body : Answer T × Shared κ T maxSize} (done : Acted s body.1 body.2.queue.items)
    (thread : κ) : Acted s (call s thread body).1 (call s thread body).2.queue.items := by
  unfold call
  split
  · exact .absent
  · exact done

section Threads
variable [DecidableEq κ]

def dequeueBody (s : Shared κ T maxSize) (thread : κ) (timeoutMs : UInt32) : Answer T × Shared κ T maxSize :=
  if s.queue.empty && timeoutMs != 0 then
    (.waits,{s with waiting := Function.update s.waiting thread (some timeoutMs)})
  else
    let (item,queue) := s.queue.dequeue timeoutMs
    (.dequeued item,{s with queue})

-- the predicate of wait_for is evaluated again: a timeout ends the wait, any other wakeup only if it holds
def wakeBody (s : Shared κ T maxSize) (thread : κ) (timedOut : Bool) : Answer T × Shared κ T maxSize :=
  match s.waiting thread with
  | none => (.absent,s)
  | some timeoutMs =>
    if s.queue.empty && !timedOut then (.waits,s)
    else
      let (item,queue) := s.queue.dequeue timeoutMs
      (.dequeued item,⟨queue,Function.update s.waiting thread none⟩)

def act (s : Shared κ T maxSize) : Event κ T → Answer T × Shared κ T maxSize
  | .enqueue thread item =>
      call s thread (.enqueued item (s.queue.enqueue item).1,{s with queue := (s.queue.enqueue item).2})
  | .dequeue thread timeoutMs => call s thread (dequeueBody s thread timeoutMs)
  | .wake thread timedOut => wakeBody s thread timedOut
  | .clear thread => call s thread (.cleared,{s with queue := s.queue.clear})
  | .size thread => call s thread (.counted s.queue.size,s)
  | .empty thread => call s thread (.isEmpty s.queue.empty,s)

def step (s : Shared κ T maxSize) (e : Event κ T) : Shared κ T maxSize := (act s e).2

def answer (s : Shared κ T maxSize) (e : Event κ T) : Answer T := (act s e).1

theorem acted (s : Shared κ T maxSize) (e : Event κ T) : Acted s (answer s e) (step s e).queue.items := by
  cases e with
  | enqueue thread item => exact actedCall (actedEnqueue s item) thread
  | dequeue thread timeoutMs =>
    refine actedCall ?_ thread
    unfold dequeueBody
    split
    · exact .waits
    · exact actedDequeue s timeoutMs
  | wake thread timedOut =>
    change Acted s (wakeBody s thread timedOut).1 (wakeBody s thread timedOut).2.queue.items
    unfold wakeBody
    split
    · exact .absent
    · rename_i timeoutMs _
      split
      · exact .waits
      · exact actedDequeue s timeoutMs
  | clear thread => exact actedCall .cleared thread
  | size thread => exact actedCall .counted thread
  | empty thread => exact actedCall .isEmpty thread

def state (maxSize : UInt32) (es : List (Event κ T)) : Shared κ T maxSize := run step Shared.new es

def answers (maxSize : UInt32) (es : List (Event κ T)) : List (Answer T) :=
  labels step answer (Shared.new : Shared κ T maxSize) es

theorem conserved (es : List (Event κ T)) : Conserved (answers maxSize es) (state maxSize es).queue.items := by
  induction es using List.reverseRecOn with
  | nil => exact ⟨rfl,rfl⟩
  | append_singleton es e ih =>
    rw [answers,labelsAppend,state,runAppend]
    exact conservedStep ih (acted (state maxSize es) e)

structure FirstInFirstOut (maxSize : UInt32) (es : List (Event κ T)) : Prop where
  order : returned (answers maxSize es) ++ (state maxSize es).queue.items = uncleared (answers maxSize es)
  sublist : (uncleared (answers maxSize es)).Sublist (accepted (answers maxSize es))
  whole : .cleared ∉ answers maxSize es → uncleared (answers maxSize es) = accepted (answers maxSize es)
  cleared : uncleared (answers maxSize es ++ [.cleared]) = returned (answers maxSize es)
  bounded : (state maxSize es).queue.items.length ≤ maxSize.toNat
  counted : ∀ thread size, answer (state maxSize es) (.size thread) = .counted size →
    size.toNat = (state maxSize es).queue.items.length
  refused : ∀ thread item stored, answer (state maxSize es) (.enqueue thread item) = .enqueued item stored →
    (stored = false ↔ (state maxSize es).queue.items.length = maxSize.toNat)
  nothing : ∀ e, answer (state maxSize es) e = .dequeued none → (state maxSize es).queue.items = []

theorem firstInFirstOut (maxSize : UInt32) (es : List (Event κ T)) : FirstInFirstOut maxSize es where
  order := (conserved es).kept.symm
  sublist := unclearedSublist _
  whole := unclearedAll
  cleared := by
    have after := (conservedStep (conserved es) (Acted.cleared (s := state maxSize es))).kept
    rwa [returnedAppend,List.append_nil,show returned [Answer.cleared] = ([] : List T) from rfl,List.append_nil] at after
  bounded := (state maxSize es).queue.bounded
  counted := fun thread _ told => countedStored (told ▸ acted (state maxSize es) (.size thread))
  refused := fun thread item _ told => refusedFull (told ▸ acted (state maxSize es) (.enqueue thread item))
  nothing := fun e told => nothingStored (told ▸ acted (state maxSize es) e)

end Threads
end UmapTracker.ConcurrentQueue
