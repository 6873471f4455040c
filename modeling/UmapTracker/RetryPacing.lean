import Mathlib.Algebra.BigOperators.Intervals
import Mathlib.Algebra.Order.BigOperators.Group.Finset
import UmapTracker.Draining

/-! How often a message is sent, over any calls of process_pending with enqueues, purges and resets between
them: a failed message waits at least its delay before the next request for it. -/
namespace UmapTracker.RetryPacing
open AutoTable MessageQueue QueueContents QueueView UploadWorker UploadPass UploadBatch Draining Backoff GeoTypes HttpClient Machine

/- The reading at which the message of the attempt was handed out. -/
def handedAt (a : Attempt) : Int := a.message.nextRetryAt - leaseSeconds

/- The delay that mark_failed gives a message with n failures behind it. -/
def wait (n : Nat) : Int := calculateBackoff (UInt32.ofNat n + 1)

def waits (n k : Nat) : Int := ∑ j ∈ Finset.range k, wait (n+j)

theorem waitsSucc (n k : Nat) : waits n (k+1) = waits n k + wait (n+k) := Finset.sum_range_succ _ _

theorem waitClosed {n : Nat} (small : n+1 < 2^32) : wait n = min (2^(n+2)) 3600 := by
  have count : (UInt32.ofNat n + 1).toNat = n+1 := by
    rw [UInt32.toNat_add,UInt32.toNat_ofNat']
    simp only [UInt32.reduceToNat]
    omega
  rw [wait,backoffClosed,count]

theorem waitHour {n : Nat} (many : 10 ≤ n) (small : n+1 < 2^32) : wait n = 3600 := by
  have large : (3600 : Int) ≤ 2^(n+2) := le_trans (by norm_num) (pow_le_pow_right₀ (by norm_num : (1 : Int) ≤ 2) (by omega : 12 ≤ n+2))
  rw [waitClosed small,min_eq_right large]

theorem waitPositive (n : Nat) : 0 ≤ wait n := by
  rw [wait,backoffClosed]
  exact le_min (pow_nonneg (by norm_num) _) (by norm_num)

/- From the eleventh failure on a message waits an hour each time. -/
theorem waitsHours (n k : Nat) (small : n+k < 2^32) : 3600*((k : Int)-10) ≤ waits n k := by
  induction k with
  | zero => simp [waits]
  | succ k ih =>
    have before := ih (by omega)
    have one := waitPositive (n+k)
    rw [waitsSucc]
    by_cases many : 10 ≤ k
    · rw [waitHour (by omega) (by omega)]
      push_cast
      omega
    · have sum : 0 ≤ waits n k := Finset.sum_nonneg (fun j _ => waitPositive (n+j))
      push_cast
      omega

def tries (row : Row Message) (attempts : List Attempt) : List Attempt := attempts.filter (of row)

/- The requests made for the message of `row` since it had the columns of `row`. -/
structure Paced (row : Row Message) (db : Db) (attempts : List Attempt) : Prop where
  issued : row.id ≤ db.sequence
  counted : ∀ m, cell db row.id = some m → m.retryCount = row.cols.retryCount + (tries row attempts).length
  resting : ∀ m, cell db row.id = some m → ∀ first ∈ (tries row attempts).head?,
    handedAt first + waits row.cols.retryCount (tries row attempts).length ≤ m.nextRetryAt
  apart : ∀ first ∈ (tries row attempts).head?, ∀ i a, (tries row attempts)[i]? = some a →
    handedAt first + waits row.cols.retryCount i ≤ handedAt a

/- Nothing happens to the message, or it is taken out. -/
theorem pacedKept {row : Row Message} {db after : Db} {attempts : List Attempt} (paced : Paced row db attempts)
    (sequence : db.sequence ≤ after.sequence) (kept : cell after row.id = none ∨ cell after row.id = cell db row.id) :
    Paced row after attempts := by
  have before : ∀ m, cell after row.id = some m → cell db row.id = some m := by
    intro m stored
    rcases kept with gone | same
    · rw [gone] at stored
      contradiction
    · rwa [← same]
  exact ⟨paced.issued.trans sequence,fun m stored => paced.counted m (before m stored),
    fun m stored => paced.resting m (before m stored),paced.apart⟩

/- A request for the message: it was due, and has failed again unless it is gone. -/
theorem pacedTried {row : Row Message} {db after : Db} {attempts : List Attempt} {a : Attempt} {m : Message} {failedAt : Int}
    (paced : Paced row db attempts) (sequence : db.sequence ≤ after.sequence) (own : of row a = true) (stored : cell db row.id = some m)
    (due : m.nextRetryAt ≤ handedAt a) (later : handedAt a ≤ failedAt)
    (fate : ∀ n, cell after row.id = some n → n.retryCount = m.retryCount+1 ∧ n.nextRetryAt = failedAt + wait m.retryCount) :
    Paced row after (attempts ++ [a]) := by
  obtain ⟨issued,counted,resting,apart⟩ := paced
  have grown : tries row (attempts ++ [a]) = tries row attempts ++ [a] := by simp [tries,own]
  have count := counted m stored
  -- the first request of all may be this one
  have first_of : ∀ first ∈ (tries row (attempts ++ [a])).head?,
      handedAt first + waits row.cols.retryCount (tries row attempts).length ≤ handedAt a := by
    intro first mem
    cases earlier : tries row attempts with
    | nil =>
      rw [grown,earlier] at mem
      cases Option.some.inj mem
      simp [waits]
    | cons b rest =>
      rw [grown,earlier] at mem
      have there : first ∈ (tries row attempts).head? := by rw [earlier]; exact mem
      rw [← earlier]
      exact (resting m stored first there).trans due
  refine ⟨issued.trans sequence,?_,?_,?_⟩
  · intro n kept
    rw [grown,List.length_append,(fate n kept).1,count]
    rfl
  · intro n kept first mem
    have until_now := first_of first mem
    rw [(fate n kept).2,grown,List.length_append,List.length_singleton,waitsSucc,count]
    omega
  · intro first mem i b found
    rw [grown] at found
    rcases Nat.lt_or_ge i (tries row attempts).length with early | last
    · rw [List.getElem?_append_left early] at found
      cases earlier : tries row attempts with
      | nil => simp [earlier] at early
      | cons c rest =>
        rw [grown,earlier] at mem
        have there : first ∈ (tries row attempts).head? := by rw [earlier]; exact mem
        exact apart first there i b found
    · rw [List.getElem?_append_right last] at found
      have end_of : i = (tries row attempts).length := by
        by_contra beyond
        rw [List.getElem?_eq_none (by simp; omega)] at found
        contradiction
      rw [end_of,Nat.sub_self] at found
      cases Option.some.inj found
      rw [end_of]
      exact first_of first mem

theorem pacedOther {row : Row Message} {db after : Db} {attempts : List Attempt} {a : Attempt} (paced : Paced row db attempts)
    (sequence : db.sequence ≤ after.sequence) (other : of row a = false) (same : cell after row.id = cell db row.id) :
    Paced row after (attempts ++ [a]) := by
  have still : tries row (attempts ++ [a]) = tries row attempts := by simp [tries,other]
  obtain ⟨issued,counted,resting,apart⟩ := pacedKept paced sequence (.inr same)
  exact ⟨issued,by rwa [still],by rwa [still],by rwa [still]⟩

inductive Event where
  | upload (round : Round)
  | enqueue (payload : Option Text.Bytes) (now : Int)
  | purgeExpired (ttlHours : UInt32) (now : Int)
  | reset

/- No pass reports its failure at an earlier time than it took its message. -/
def Orderly : Event → Prop
  | .upload r => ∀ i, i < r.maxBatch.toNat → (r.clocks i).dequeueAt ≤ (r.clocks i).failedAt
  | _ => True

section Runs
variable {σ : Type} [IHttpClient σ] (α : Type) [Double α] (client : TraccarClient)

def step (u : Upload σ) : Event → Upload σ
  | .upload r => uploadRound α client u r
  | .enqueue payload now => {u with db := QueueRuns.apply u.db (.enqueue payload now)}
  | .purgeExpired ttlHours now => {u with db := QueueRuns.apply u.db (.purgeExpired ttlHours now)}
  | .reset => {u with db := QueueRuns.apply u.db .reset}

theorem pacedTick {row : Row Message} {earlier : List Attempt} {u : Upload σ} (paced : Paced row u.db (earlier ++ u.attempts)) {c : Clock}
    (ordered : c.dequeueAt ≤ c.failedAt) :
    Paced row (tick α client u c).db (earlier ++ (tick α client u c).attempts) := by
  have step := ticked α client u c
  have still : (tick α client u c).db.sequence = u.db.sequence := passSequence α .opened client u c.env
  generalize tick α client u c = next at step still
  cases step with
  | idle => exact paced
  | ended => exact paced
  | sent hit a db _ _ _ mem due made cells =>
    have id : a.message.id.toNat = hit.id := by
      rw [made]
      exact rowidRoundTrip mem
    have reading : handedAt a = c.dequeueAt := by
      rw [made]
      exact Int.add_sub_cancel c.dequeueAt leaseSeconds
    rw [← List.append_assoc]
    by_cases own : hit.id = row.id
    · have there : cell u.db row.id = some hit.cols := by rw [← own]; exact cellOfRow mem
      refine pacedTried paced still.ge (by simp [of,id,own]) there (by rw [reading]; exact of_decide_eq_true due)
        (reading.le.trans ordered) ?_
      intro n kept
      have fate := (cells row.id).symm.trans kept
      rw [if_pos own.symm,markedOpened] at fate
      split at fate
      · contradiction
      · cases Option.some.inj fate
        exact ⟨rfl,rfl⟩
    · refine pacedOther paced still.ge (by simp [of,id,own]) ?_
      exact (cells row.id).trans (if_neg (Ne.symm own))

theorem pacedRound {row : Row Message} {u : Upload σ} (paced : Paced row u.db u.attempts) {r : Round} (ordered : Orderly (.upload r)) :
    Paced row (uploadRound α client u r).db (uploadRound α client u r).attempts := by
  have call : Paced row (batch α client u.worker u.db u.http r.maxBatch r.clocks).db
      (u.attempts ++ (batch α client u.worker u.db u.http r.maxBatch r.clocks).attempts) := by
    rw [batchAfter]
    refine runKeeps (I := fun v : Upload σ => Paced row v.db (u.attempts ++ v.attempts)) (P := fun c => c.dequeueAt ≤ c.failedAt)
      (fun _ _ ordered paced => pacedTick α client paced ordered) ?_ (by simpa using paced)
    intro c mem
    obtain ⟨i,inside,rfl⟩ := List.mem_map.mp mem
    exact ordered i (List.mem_range.mp inside)
  exact call

theorem pacedStep {row : Row Message} {u : Upload σ} (paced : Paced row u.db u.attempts) {e : Event} (ordered : Orderly e) :
    Paced row (step α client u e).db (step α client u e).attempts := by
  cases e with
  | upload r => exact pacedRound α client paced ordered
  | enqueue payload now =>
    refine pacedKept paced (QueueRuns.sequenceRun u.db [.enqueue payload now]) (.inr ?_)
    cases payload with
    | none => rfl
    | some text =>
      rcases @QueueRuns.applyEnqueue u.db text now with ⟨_,_,inserted⟩ | ⟨_,_,same⟩
      · have older : row.id ≠ u.db.sequence+1 := Nat.ne_of_lt (Nat.lt_succ_of_le paced.issued)
        exact (cellInsert inserted row.id).trans (if_neg older)
      · simp only [step,same]
  | purgeExpired ttlHours now =>
    refine pacedKept paced (QueueRuns.sequenceRun u.db [.purgeExpired ttlHours now]) ?_
    change cell (sqlPurgeExpired u.db _) row.id = none ∨ cell (sqlPurgeExpired u.db _) row.id = _
    rw [sqlPurgeExpired,cellDelete]
    cases cell u.db row.id with
    | none => exact .inl rfl
    | some m => simp only [Option.filter]; split <;> simp
  | reset =>
    refine pacedKept paced (QueueRuns.sequenceRun u.db [.reset]) (.inl ?_)
    change cell (delete u.db fun _ => true) row.id = none
    rw [cellDelete]
    cases cell u.db row.id <;> rfl

/- The i-th request for a message after the first comes no earlier than the delays of the failures between them
allow; with fewer than 2^32 failures, an hour each from the eleventh on. -/
theorem retriesPaced (worker : UploadWorker) (db : Db) (http : σ) {row : Row Message} (stored : row ∈ db.rows)
    {events : List Event} (ordered : ∀ e ∈ events, Orderly e) :
    let requests := tries row (run (step α client) ⟨db,http,worker,0,false,[]⟩ events).attempts
    ∀ first ∈ requests.head?, ∀ i a, requests[i]? = some a →
      handedAt first + waits row.cols.retryCount i ≤ handedAt a ∧
      (row.cols.retryCount + i < 2^32 → handedAt first + 3600*((i : Int)-10) ≤ handedAt a) := by
  have start : Paced row db [] := by
    refine ⟨(db.issued row stored).2,?_,by simp [tries],by simp [tries]⟩
    intro m there
    rw [cellOfRow stored] at there
    cases Option.some.inj there
    rfl
  have paced : Paced row (run (step α client) ⟨db,http,worker,0,false,[]⟩ events).db
      (run (step α client) ⟨db,http,worker,0,false,[]⟩ events).attempts :=
    runKeeps (I := fun u : Upload σ => Paced row u.db u.attempts) (P := Orderly)
      (fun _ _ ordered paced => pacedStep α client paced ordered) ordered start
  intro requests first mem i a found
  have apart := paced.apart first mem i a found
  refine ⟨apart,fun small => ?_⟩
  have hours := waitsHours row.cols.retryCount i small
  omega

end Runs

/- A server that is down: requests at 0, 5 and 13, where failures at 1 and 5 allow the second at 5 and the third at 13. -/
theorem retriesPacedDown :
    let db : Db := QueueRuns.history [.enqueue (some []) 0]
    let http := MockHttpClient.new.setShouldFail true
    let events : List Event := [0,5,13].map (fun t => .upload ⟨1,fun _ => ⟨t,0,t,max t 1⟩⟩)
    let requests := tries ⟨1,[],0,0,0⟩ (run (step ℚ ⟨[],[]⟩) ⟨db,http,UploadWorker.new,0,false,[]⟩ events).attempts
    requests.map handedAt = [0,5,13] ∧ waits 0 2 = 12 ∧
    ∀ first ∈ requests.head?, ∀ a, requests[2]? = some a → handedAt first + waits 0 2 ≤ handedAt a := by
  intro db http events requests
  have stored : (⟨1,[],0,0,0⟩ : Row Message) ∈ db.rows := by decide
  have ordered : ∀ e ∈ events, Orderly e := by
    intro e mem
    obtain ⟨t,_,rfl⟩ := List.mem_map.mp mem
    exact fun _ _ => le_max_left t 1
  refine ⟨by decide +kernel,by decide,?_⟩
  intro first mem a found
  exact (retriesPaced ℚ ⟨[],[]⟩ UploadWorker.new db http stored ordered first mem 2 a found).1

end UmapTracker.RetryPacing
