import Mathlib.Data.Fintype.Fin
import UmapTracker.QueueThreads
import UmapTracker.Weights

/-! ThreadSafeQueue: the notification of an enqueue is not lost, and every body gives the mutex back. -/
namespace UmapTracker.QueueThreads
open Machine ConcurrentQueue Weights
variable {T : Type} {n : Nat}

/- A thread that is about to look at the queue again, or to take from it, or to wake another. -/
def credit : Place T → Nat
  | .awake _ => 1
  | .inside (.waitTest _ (some _)) | .inside (.dequeueTest _ _) | .inside (.dequeueFront _ _) | .inside (.dequeuePop _ _ _) => 1
  | .inside (.enqueueNotify _) => 1
  | _ => 0

/- While a thread sleeps, no more items are stored than there are threads to look after them. -/
def Attended (items : List T) (place : Fin n → Place T) : Prop :=
  (∃ k, (place k).isAsleep) → items.length ≤ total credit place

theorem attendedUpdate {items after : List T} {place : Fin n → Place T} {thread : Fin n} {p : Place T}
    (attended : Attended items place) (awake : p.isAsleep → after = [])
    (pays : after ≠ [] → after.length + credit (place thread) ≤ items.length + credit p) :
    Attended after (Function.update place thread p) := by
  rintro ⟨k,asleep⟩
  by_cases nothing : after = []
  · simp [nothing]
  · have others : k ≠ thread := by
      rintro rfl
      rw [Function.update_self] at asleep
      exact nothing (awake asleep)
    rw [Function.update_of_ne others] at asleep
    have before := attended ⟨k,asleep⟩
    have sums := totalUpdate credit place thread p
    have paid := pays nothing
    omega

theorem attendedRouse {items : List T} {place : Fin n → Place T} (attended : Attended items place) (thread : Fin n) :
    Attended items (notifyOne.rouse place thread) := by
  cases here : place thread with
  | asleep timeoutMs =>
    rw [notifyOne.rouse,here]
    exact attendedUpdate attended (by simp [Place.isAsleep]) (by simp [here,credit])
  | _ =>
    rw [notifyOne.rouse,here]
    exact attended

/- A notification is spent on a sleeper if there is one. -/
theorem notified {place : Fin n → Place T} (woken : Fin n) (sleeps : ∃ k, (place k).isAsleep) :
    total credit (notifyOne place woken) = total credit place + 1 := by
  cases found : (woken::List.finRange n).find? (fun k => (place k).isAsleep) with
  | none =>
    obtain ⟨k,asleep⟩ := sleeps
    have never := List.find?_eq_none.mp found k (List.mem_cons_of_mem _ (List.mem_finRange k))
    exact absurd asleep never
  | some k =>
    have asleep := List.find?_some found
    cases here : place k with
    | asleep timeoutMs =>
      have sums := totalUpdate credit place k (.awake timeoutMs)
      rw [here] at sums
      simpa [notifyOne,found,notifyOne.rouse,here,credit] using sums
    | _ => simp [here,Place.isAsleep] at asleep

theorem sleepersBefore {place : Fin n → Place T} {woken k : Fin n} (asleep : (notifyOne place woken k).isAsleep) :
    (place k).isAsleep := by
  rcases quietNotifyOne place woken k with same | ⟨call,_,locking⟩ | ⟨timeoutMs,_,awake⟩
  · rwa [← same]
  · simp [locking,Place.isAsleep] at asleep
  · simp [awake,Place.isAsleep] at asleep

/- Where the thread is after the statement. -/
def Next.place : Next T → Place T
  | .goto pc => .inside pc
  | .leave _ => .outside
  | .sleep timeoutMs => .asleep timeoutMs
  | .undefined => .undefined

theorem followItems (s : State T n) (thread : Fin n) (items : List T) (place : Fin n → Place T) (next : Next T) :
    (follow s thread items place next).items = items := by
  cases next <;> rfl

theorem followPlace (s : State T n) (thread : Fin n) (items : List T) (place : Fin n → Place T) (next : Next T) :
    (follow s thread items place next).place = Function.update place thread next.place := by
  cases next <;> rfl

/- A statement but the notification leaves nothing stored, or pays for what it leaves. -/
theorem statementPays (maxSize : UInt32) (items : List T) {pc : Pc T} (other : ∀ item, pc ≠ .enqueueNotify item) :
    ((statement maxSize items pc).2.place.isAsleep → (statement maxSize items pc).1 = []) ∧
    ((statement maxSize items pc).1 ≠ [] →
      (statement maxSize items pc).1.length + credit (.inside pc) ≤ items.length + credit (statement maxSize items pc).2.place) := by
  cases pc with
  | enqueueTest item =>
    simp only [statement]
    split <;> simp [Next.place,Place.isAsleep,credit]
  | enqueuePush item => simp [statement,Next.place,Place.isAsleep,credit]
  | enqueueNotify item => exact absurd rfl (other item)
  | enqueueReturn item => simp [statement,Next.place,Place.isAsleep,credit]
  | dequeueBranch timeoutMs =>
    simp only [statement]
    split <;> simp [Next.place,Place.isAsleep,credit]
  | dequeuePoll => cases items <;> simp [statement,Next.place,Place.isAsleep,credit]
  | waitTest timeoutMs woken =>
    cases items with
    | nil => simp [statement]
    | cons item rest => cases woken <;> simp [statement,Next.place,Place.isAsleep,credit]
  | dequeueTest timeoutMs woken => cases items <;> simp [statement,Next.place,Place.isAsleep,credit]
  | dequeueFront timeoutMs woken => cases items <;> simp [statement,Next.place,Place.isAsleep,credit]
  | dequeuePop timeoutMs woken item => cases items <;> simp [statement,Next.place,Place.isAsleep,credit]
  | dequeueReturn timeoutMs woken item => simp [statement,Next.place,Place.isAsleep,credit]
  | clearTest => cases items <;> simp [statement,Next.place,Place.isAsleep,credit]
  | clearPop => cases items <;> simp [statement,Next.place,Place.isAsleep,credit]
  | sizeRead => simp [statement,Next.place,Place.isAsleep,credit]
  | emptyRead => simp [statement,Next.place,Place.isAsleep,credit]

theorem attendedGo {maxSize : UInt32} {s : State T n} (attended : Attended s.items s.place) (thread woken : Fin n) :
    Attended (step maxSize s (.go thread woken)).items (step maxSize s (.go thread woken)).place := by
  cases here : s.place thread with
  | inside pc =>
    simp only [step,here,followItems,followPlace]
    by_cases other : ∀ item, pc ≠ .enqueueNotify item
    · obtain ⟨awake,pays⟩ := statementPays maxSize s.items other
      have same : signalled s.place woken pc = s.place := by
        cases pc with
        | enqueueNotify item => exact absurd rfl (other item)
        | _ => rfl
      rw [same]
      exact attendedUpdate attended awake (by rwa [here])
    · obtain ⟨item,notify⟩ := not_forall_not.mp other
      subst notify
      -- the notifier gives up its credit, and the sleeper it wakes gets one
      rintro ⟨k,asleep⟩
      have others : k ≠ thread := by
        rintro rfl
        simp [statement,Next.place,Place.isAsleep] at asleep
      rw [Function.update_of_ne others] at asleep
      have slept : ∃ k, (s.place k).isAsleep := ⟨k,sleepersBefore asleep⟩
      have still := (quietInside (quietNotifyOne s.place woken thread)).mpr here
      have sums := totalUpdate credit (notifyOne s.place woken) thread (.inside (.enqueueReturn item))
      rw [still,notified woken slept] at sums
      have before := attended slept
      simp only [credit] at sums
      simp only [statement,signalled,Next.place]
      omega
  | _ =>
    simp only [step,here]
    exact attended

theorem attendedStep {maxSize : UInt32} {s : State T n} (attended : Attended s.items s.place) (m : Move T n) :
    Attended (step maxSize s m).items (step maxSize s m).place := by
  cases m with
  | call thread call =>
    simp only [step]
    split
    · rename_i outside
      exact attendedUpdate attended (by simp [Place.isAsleep]) (by simp [outside,credit])
    · exact attended
  | acquire thread timedOut =>
    simp only [step]
    unfold acquire
    split
    · rename_i call _ locking
      exact attendedUpdate attended (by simp [Place.isAsleep]) (by cases call <;> simp [locking,entry,credit])
    · rename_i timeoutMs _ awake
      exact attendedUpdate attended (by simp [Place.isAsleep]) (by simp [awake,credit])
    · exact attended
  | go thread woken => exact attendedGo attended thread woken
  | rouse thread => exact attendedRouse attended thread

theorem attendedRun (maxSize : UInt32) (moves : List (Move T n)) :
    Attended (state maxSize moves).items (state maxSize moves).place := by
  refine runKeeps (I := fun s : State T n => Attended s.items s.place) (P := fun _ => True)
    (fun s m _ attended => attendedStep attended m) (fun _ _ => trivial) ?_
  rintro ⟨k,asleep⟩
  simp [State.new]

/- With the mutex free, only those on their way back from a wait have a credit. -/
theorem creditsFree {maxSize : UInt32} {s : State T n} {r : Shared (Fin n) T maxSize} (related : Related s r)
    (free : s.lock = none) : total credit s.place = (Finset.univ.filter fun k => (s.place k).isAwake).card := by
  refine totalCount (fun k => ?_)
  have out : ¬(s.place k).isInside := fun inside => by simpa [free] using (related.each k).holder.mpr inside
  cases here : s.place k with
  | inside pc => simp [here,Place.isInside] at out
  | _ => simp [Place.isAwake,credit]

/- No wakeup is lost: while a thread sleeps in wait_for, each stored item has a thread that looks after it,
and with the mutex free that is a woken one. -/
theorem noLostWakeup (maxSize : UInt32) (moves : List (Move T n)) {k : Fin n}
    (sleeps : ((state maxSize moves).place k).isAsleep) :
    (state maxSize moves).items.length ≤ total credit (state maxSize moves).place ∧
      ((state maxSize moves).lock = none → total credit (state maxSize moves).place =
        (Finset.univ.filter fun k => ((state maxSize moves).place k).isAwake).card) :=
  ⟨attendedRun maxSize moves ⟨k,sleeps⟩,creditsFree (relatedRun maxSize moves).2⟩

/- Two threads sleep, a third enqueues one item, and one of the two is on its way to it. -/
def twoSleepers : List (Move Nat 3) :=
  (List.map (fun k : Fin 3 => [.call k (.dequeue 50),.acquire k false,.go k k,.go k k]) [0,1]).flatten ++
    [.call 2 (.enqueue 7),.acquire 2 false,.go 2 0,.go 2 0,.go 2 0,.go 2 0]

theorem noLostWakeupTwo : ((state 5 twoSleepers).place 1).isAsleep ∧ (state 5 twoSleepers).items = [7] ∧
    (state 5 twoSleepers).items.length ≤ total credit (state 5 twoSleepers).place :=
  ⟨by decide,by decide,(noLostWakeup 5 twoSleepers (k := 1) (by decide)).1⟩

/- The statements a body can still execute before it gives the lock up. -/
def left (items : List T) : Pc T → Nat
  | .enqueueTest _ => 4
  | .enqueuePush _ => 3
  | .enqueueNotify _ => 2
  | .enqueueReturn _ => 1
  | .dequeueBranch _ => 6
  | .dequeuePoll | .waitTest _ _ => 5
  | .dequeueTest _ _ => 4
  | .dequeueFront _ _ => 3
  | .dequeuePop _ _ _ => 2
  | .dequeueReturn _ _ _ => 1
  | .clearTest => 2*items.length + 1
  | .clearPop => 2*items.length
  | .sizeRead | .emptyRead => 1

theorem leftLess {maxSize : UInt32} {items after : List T} {pc next : Pc T}
    (goes : statement maxSize items pc = (after,.goto next)) : left after next < left items pc := by
  cases pc with
  | enqueueTest item =>
    simp only [statement] at goes
    split at goes <;> simp at goes
    obtain ⟨rfl,rfl⟩ := goes
    simp [left]
  | dequeueBranch timeoutMs =>
    simp only [statement] at goes
    split at goes <;> simp at goes <;> obtain ⟨rfl,rfl⟩ := goes <;> simp [left]
  | enqueuePush item | enqueueNotify item =>
    simp only [statement,Prod.mk.injEq,Next.goto.injEq] at goes
    obtain ⟨rfl,rfl⟩ := goes
    simp [left]
  | enqueueReturn | dequeueReturn | sizeRead | emptyRead => simp [statement] at goes
  | waitTest timeoutMs woken =>
    cases items with
    | nil =>
      simp only [statement,List.isEmpty_nil,if_true] at goes
      split at goes <;> simp at goes
    | cons item rest =>
      simp only [statement,List.isEmpty_cons,Prod.mk.injEq] at goes
      obtain ⟨rfl,go⟩ := goes
      cases go
      simp [left]
  | dequeuePoll | dequeueTest | dequeueFront | dequeuePop | clearTest =>
    cases items <;> simp [statement] at goes
    obtain ⟨rfl,rfl⟩ := goes
    simp [left]
  | clearPop =>
    cases items <;> simp [statement] at goes
    obtain ⟨rfl,rfl⟩ := goes
    simp only [left,List.length_cons]
    omega

def goes (thread : Fin n) : Move T n → Bool
  | .go other _ => other == thread
  | _ => false

/- A statement of another thread, or a step outside, leaves the body under the lock where it is. -/
theorem bodyStays {maxSize : UInt32} {s : State T n} {r : Shared (Fin n) T maxSize} {thread : Fin n} {pc : Pc T}
    (related : Related s r) (here : s.place thread = .inside pc) {m : Move T n} (other : goes thread m = false) :
    (step maxSize s m).items = s.items ∧ (step maxSize s m).place thread = .inside pc := by
  cases m with
  | call k call =>
    simp only [step]
    split
    · rename_i outside
      have quiet : Quiet _ _ := quietUpdate (.inr (.inl ⟨call,outside,rfl⟩)) thread
      exact ⟨rfl,(quietInside quiet).mpr here⟩
    · exact ⟨rfl,here⟩
  | acquire k timedOut =>
    simp only [step]
    rw [acquire,holds related here]
    exact ⟨rfl,here⟩
  | go k woken =>
    have apart : k ≠ thread := by simpa [goes] using other
    have lacks : s.lock ≠ some k := by simpa [holds related here] using Ne.symm apart
    have out : ¬(s.place k).isInside := fun inside => lacks ((related.each k).holder.mpr inside)
    cases there : s.place k with
    | inside pc => simp [there,Place.isInside] at out
    | _ => simp [step,there,here]
  | rouse k => exact ⟨rfl,(quietInside (quietRouse s.place k thread)).mpr here⟩

theorem bodyGoes {maxSize : UInt32} {s : State T n} {r : Shared (Fin n) T maxSize} {thread : Fin n} {pc : Pc T}
    (related : Related s r) (here : s.place thread = .inside pc) (woken : Fin n) :
    (step maxSize s (.go thread woken)).lock = none ∨
      ∃ next, (step maxSize s (.go thread woken)).place thread = .inside next ∧
        left (step maxSize s (.go thread woken)).items next < left s.items pc := by
  have fits := related.each thread
  rw [here] at fits
  have sound := soundStatement fits.waiting (fits.held pc rfl)
  obtain ⟨items,after,done⟩ : ∃ items after, statement maxSize s.items pc = (items,after) := ⟨_,_,rfl⟩
  rw [done] at sound
  simp only [step,here,done]
  cases after with
  | goto next => exact .inr ⟨next,Function.update_self ..,leftLess done⟩
  | leave answer => exact .inl rfl
  | sleep timeoutMs => exact .inl rfl
  | undefined => exact sound.elim

theorem relatedAfter {maxSize : UInt32} {s : State T n} {r : Shared (Fin n) T maxSize} (related : Related s r) (m : Move T n) :
    ∃ r' : Shared (Fin n) T maxSize, Related (step maxSize s m) r' := by
  have one := relatedStep related m
  cases emits : told maxSize s m with
  | none =>
    rw [emits] at one
    exact ⟨r,one⟩
  | some pair =>
    rw [emits] at one
    exact ⟨_,one.2⟩

theorem bodyEnds {maxSize : UInt32} {thread : Fin n} (moves : List (Move T n)) {s : State T n} {r : Shared (Fin n) T maxSize}
    {pc : Pc T} (related : Related s r) (here : s.place thread = .inside pc)
    (enough : left s.items pc ≤ moves.countP (goes thread)) :
    ∃ pre post, moves = pre ++ post ∧ (run (step maxSize) s pre).lock = none := by
  induction moves generalizing s r pc with
  | nil =>
    -- a body always has a statement left
    have some_left := enough
    cases pc <;> simp [left] at some_left
    have fits := (related.each thread).held _ here
    exact absurd some_left fits
  | cons m moves ih =>
    obtain ⟨r',after⟩ := relatedAfter related m
    by_cases own : goes thread m
    · obtain ⟨k,woken,rfl⟩ : ∃ k woken, m = .go k woken := by cases m <;> simp_all [goes]
      obtain rfl : k = thread := by simpa [goes] using own
      rcases bodyGoes related here woken with free | ⟨next,there,less⟩
      · exact ⟨[.go k woken],moves,rfl,free⟩
      · rw [List.countP_cons_of_pos own] at enough
        obtain ⟨pre,post,rfl,free⟩ := ih after there (by omega)
        exact ⟨.go k woken::pre,post,rfl,free⟩
    · obtain ⟨items,there⟩ := bodyStays related here (m := m) (by simpa using own)
      rw [List.countP_cons_of_neg own] at enough
      obtain ⟨pre,post,rfl,free⟩ := ih after there (by rwa [items])
      exact ⟨m::pre,post,rfl,free⟩

/- Whatever the other threads do meanwhile, a thread inside gives the mutex back once it has executed the
statements its body has left: no body loops, blocks or keeps the lock. -/
theorem lockGivenBack (maxSize : UInt32) (moves : List (Move T n)) {thread : Fin n} {pc : Pc T}
    (here : (state maxSize moves).place thread = .inside pc) (more : List (Move T n))
    (enough : left (state maxSize moves).items pc ≤ more.countP (goes thread)) :
    ∃ pre post, more = pre ++ post ∧ (state maxSize (moves ++ pre)).lock = none := by
  obtain ⟨pre,post,same,free⟩ := bodyEnds more (relatedRun maxSize moves).2 here enough
  refine ⟨pre,post,same,?_⟩
  rwa [state,runAppend]

/- A clear of one item, with another thread at the door: five statements, and the door is open. -/
theorem lockGivenBackClear :
    let moves : List (Move Nat 2) := [.call 0 (.enqueue 7),.acquire 0 false,.go 0 0,.go 0 0,.go 0 0,.go 0 0,.call 0 .clear,
      .acquire 0 false]
    let more : List (Move Nat 2) := [.call 1 .size,.acquire 1 false,.go 0 0,.go 0 0,.go 1 0,.go 0 0]
    (∃ pre post, more = pre ++ post ∧ (state 5 (moves ++ pre)).lock = none) ∧ (state 5 (moves ++ more)).lock = none :=
  ⟨lockGivenBack 5 _ (rfl : (state 5 _).place 0 = .inside .clearTest) _ (by decide),rfl⟩

end UmapTracker.QueueThreads
