import UmapTracker.UploadPass

/-! One call of process_pending on an open queue whose statements SQLite executes, under any
readings of the clock, any resolution of ties and any answers of the network: what it does to the
messages, and what it counts. -/
namespace UmapTracker.UploadBatch
open AutoTable MessageQueue QueueContents QueueView UploadWorker UploadPass Backoff GeoTypes HttpClient Machine

/- The readings of one pass. -/
structure Clock where
  dequeueAt : Int
  tie : Nat
  sendAt : Int
  failedAt : Int

def Clock.env (c : Clock) : PassEnv := ⟨⟨c.dequeueAt,.runs,c.tie,.runs⟩,c.sendAt,.runs,⟨c.failedAt,.runs,.runs⟩⟩

section Loop
variable {σ : Type} [IHttpClient σ] (α : Type) [Double α]

def tick (client : TraccarClient) (u : Upload σ) (c : Clock) : Upload σ := pass α .opened client u c.env

theorem ticked (client : TraccarClient) (u : Upload σ) (c : Clock) : Tried α .opened client u c.env (tick α client u c) :=
  tried α .opened client u c.env

/- The call after its first n passes. -/
def after (client : TraccarClient) (worker : UploadWorker) (db : Db) (http : σ) (clocks : Nat → Clock) (n : Nat) : Upload σ :=
  run (tick α client) ⟨db,http,worker,0,false,[]⟩ ((List.range n).map clocks)

def batch (client : TraccarClient) (worker : UploadWorker) (db : Db) (http : σ) (maxBatch : UInt32) (clocks : Nat → Clock) :
    Upload σ :=
  processPending α .opened client worker db http maxBatch (fun i => (clocks i).env)

theorem batchAfter (client : TraccarClient) (worker : UploadWorker) (db : Db) (http : σ) (maxBatch : UInt32) (clocks : Nat → Clock) :
    batch α client worker db http maxBatch clocks = after α client worker db http clocks maxBatch.toNat := by
  simp only [batch,processPending,after,run,List.foldl_map]
  rfl

end Loop

def of (r : Row Message) (a : Attempt) : Bool := a.message.id.toNat == r.id

/- The queue, the client and the counters against the attempts made since `db`. -/
structure Settled {σ : Type} [IHttpClient σ] (worker : UploadWorker) (db : Db) (http : σ) (u : Upload σ) : Prop where
  requested : u.http = u.attempts.foldl (fun h a => (IHttpClient.get h a.url).2) http
  nothingNew : ∀ r ∈ u.db.rows, ∃ s ∈ db.rows, s.id = r.id
  deleted : ∀ r ∈ db.rows, cell u.db r.id = none ↔ ∃ a ∈ u.attempts, of r a = true ∧ a.delivered = true
  survivors : ∀ r ∈ db.rows, ∀ m, cell u.db r.id = some m → m.payload = r.cols.payload ∧ m.createdAt = r.cols.createdAt ∧
    m.retryCount = r.cols.retryCount + u.attempts.countP (fun a => of r a && !a.delivered)
  untouched : ∀ r ∈ db.rows, (∀ a ∈ u.attempts, of r a = false) → r ∈ u.db.rows
  sent : u.sent = UInt32.ofNat (gone db u.db)
  totalSent : u.worker.totalSent = worker.totalSent + UInt32.ofNat (gone db u.db)
  totalFailed : u.worker.totalFailed = worker.totalFailed + UInt32.ofNat (u.attempts.countP (fun a => !a.delivered))

/- At most max_batch requests, and fewer only when nothing was ready at the next dequeue. -/
structure BatchLaw {σ : Type} [IHttpClient σ] (worker : UploadWorker) (db : Db) (http : σ) (maxBatch : UInt32) (clocks : Nat → Clock)
    (u : Upload σ) : Prop extends Settled worker db http u where
  atMost : u.attempts.length ≤ maxBatch.toNat
  early : u.attempts.length < maxBatch.toNat → ∀ r ∈ u.db.rows, ready (clocks u.attempts.length).dequeueAt r = false

theorem settledStart {σ : Type} [IHttpClient σ] (worker : UploadWorker) (db : Db) (http : σ) : Settled worker db http ⟨db,http,worker,0,false,[]⟩ := by
  refine ⟨rfl,fun r mem => ⟨r,mem,rfl⟩,?_,?_,fun r mem _ => mem,?_,?_,?_⟩
  · intro r mem
    simp [cellOfRow mem]
  · intro r mem m stored
    rw [cellOfRow mem] at stored
    cases Option.some.inj stored
    simp
  · rw [goneSelf]; rfl
  · rw [goneSelf]; simp
  · simp

/- What becomes of the message of an attempt: it is deleted, or it has failed once more. -/
structure Fate (a : Attempt) (before : Message) (fate : Option Message) : Prop where
  deleted : fate = none ↔ a.delivered = true
  failed : ∀ m, fate = some m → m.payload = before.payload ∧ m.createdAt = before.createdAt ∧ m.retryCount = before.retryCount+1

/- The table after an attempt: the row of its message has met its fate, and no other row has changed. -/
structure Change (before after : Db) (row : Row Message) (a : Attempt) (fate : Option Message) : Prop where
  mem : row ∈ before.rows
  own : a.message.id.toNat = row.id
  fated : Fate a row.cols fate
  cells : ∀ i, cell after i = if i = row.id then fate else cell before i

section Attempt
variable {db before after : Db} {row : Row Message} {a : Attempt} {fate : Option Message} {attempts : List Attempt}

theorem ofRow (change : Change before after row a fate) (r : Row Message) : of r a = true ↔ r.id = row.id := by
  rw [of,change.own,beq_iff_eq,eq_comm]

theorem changePresent (change : Change before after row a fate) : cell before row.id ≠ none := by
  simp [cellOfRow change.mem]

theorem changeGone (change : Change before after row a fate) (known : ∃ s ∈ db.rows, s.id = row.id) :
    gone db after = gone db before + if a.delivered then 1 else 0 := by
  rw [goneFate known (changePresent change) change.cells]
  simp only [Option.isNone_iff_eq_none,change.fated.deleted]

theorem changeKnown (change : Change before after row a fate) (known : ∀ r ∈ before.rows, ∃ s ∈ db.rows, s.id = r.id) :
    ∀ r ∈ after.rows, ∃ s ∈ db.rows, s.id = r.id := by
  intro r stored
  by_cases same : r.id = row.id
  · rw [same]
    exact known row change.mem
  · have earlier := (change.cells r.id).symm.trans (cellOfRow stored)
    rw [if_neg same] at earlier
    exact known ⟨r.id,r.cols⟩ (cellMem.mp earlier)

theorem changeDeleted (change : Change before after row a fate) {r : Row Message}
    (deleted : cell before r.id = none ↔ ∃ b ∈ attempts, of r b = true ∧ b.delivered = true) :
    cell after r.id = none ↔ ∃ b ∈ attempts ++ [a], of r b = true ∧ b.delivered = true := by
  simp only [List.mem_append,List.mem_singleton,or_and_right,exists_or,exists_eq_left,ofRow change,change.cells]
  by_cases same : r.id = row.id
  · have earlier : ¬ ∃ b ∈ attempts, of r b = true ∧ b.delivered = true := by
      rw [← deleted,same]
      exact changePresent change
    simp [same,earlier,change.fated.deleted]
  · simp [same,deleted]

theorem changeSurvivor (change : Change before after row a fate) {r : Row Message}
    (survivor : ∀ m, cell before r.id = some m → m.payload = r.cols.payload ∧ m.createdAt = r.cols.createdAt ∧
      m.retryCount = r.cols.retryCount + attempts.countP (fun b => of r b && !b.delivered)) {m : Message}
    (kept : cell after r.id = some m) : m.payload = r.cols.payload ∧ m.createdAt = r.cols.createdAt ∧
      m.retryCount = r.cols.retryCount + (attempts ++ [a]).countP (fun b => of r b && !b.delivered) := by
  rw [change.cells] at kept
  simp only [List.countP_append,List.countP_singleton]
  by_cases same : r.id = row.id
  · rw [if_pos same] at kept
    have failed : a.delivered = false := by
      by_contra delivered
      rw [change.fated.deleted.mpr (by simpa using delivered)] at kept
      contradiction
    have earlier := survivor row.cols (same ▸ cellOfRow change.mem)
    have now := change.fated.failed m kept
    simp only [(ofRow change r).mpr same,failed,Bool.not_false,Bool.and_self,if_true]
    exact ⟨now.1.trans earlier.1,now.2.1.trans earlier.2.1,by omega⟩
  · rw [if_neg same] at kept
    have other : of r a = false := Bool.eq_false_iff.mpr (fun hit => same ((ofRow change r).mp hit))
    simpa [other] using survivor m kept

theorem changeUntouched (change : Change before after row a fate) {r : Row Message}
    (untouched : (∀ b ∈ attempts, of r b = false) → r ∈ before.rows) (free : ∀ b ∈ attempts ++ [a], of r b = false) :
    r ∈ after.rows := by
  have other : r.id ≠ row.id := by
    intro same
    have hit := (ofRow change r).mpr same
    rw [free a (List.mem_append_right _ List.mem_cons_self)] at hit
    contradiction
  refine cellMem.mp ?_
  rw [change.cells,if_neg other]
  exact cellOfRow (untouched (fun b hb => free b (List.mem_append_left _ hb)))

end Attempt

theorem settledAttempt {σ : Type} [IHttpClient σ] {worker : UploadWorker} {db : Db} {http : σ} {u : Upload σ}
    (settled : Settled worker db http u) {row : Row Message} {a : Attempt} {after : Db} {fate : Option Message}
    (change : Change u.db after row a fate) :
    Settled worker db http ⟨after,(IHttpClient.get u.http a.url).2,count u.worker a.delivered,
        if a.delivered then u.sent+1 else u.sent,false,u.attempts ++ [a]⟩ := by
  obtain ⟨requested,nothingNew,deleted,survivors,untouched,sent,totalSent,totalFailed⟩ := settled
  have removed := changeGone change (nothingNew row change.mem)
  refine ⟨by simp [requested],changeKnown change nothingNew,fun r stored => changeDeleted change (deleted r stored),
    fun r stored _ => changeSurvivor change (survivors r stored),fun r stored => changeUntouched change (untouched r stored),?_,?_,?_⟩
  · rw [removed]
    by_cases delivered : a.delivered = true <;> simp [delivered,sent,UInt32.ofNat_add]
  · rw [removed]
    by_cases delivered : a.delivered = true <;> simp [delivered,count,totalSent,UInt32.ofNat_add,UInt32.add_assoc]
  · simp only [List.countP_append,List.countP_singleton]
    by_cases delivered : a.delivered = true <;> simp [delivered,count,totalFailed,UInt32.ofNat_add,UInt32.add_assoc]

/- A failed message, put off. -/
def retried (c : Clock) (m : Message) : Message :=
  {m with retryCount := m.retryCount+1, nextRetryAt := c.failedAt + calculateBackoff (UInt32.ofNat m.retryCount + 1)}

theorem markedOpened (c : Clock) (delivered : Bool) (m : Message) :
    marked .opened c.env delivered (leased c.env.dequeue m) = if delivered then none else some (retried c m) := rfl

theorem polled (c : Clock) : Polls .opened c.env.dequeue := ⟨rfl,rfl,rfl⟩

theorem fated (c : Clock) (a : Attempt) (m : Message) : Fate a m (if a.delivered then none else some (retried c m)) := by
  by_cases delivered : a.delivered = true
  · simp only [delivered,if_true]
    exact ⟨iff_of_true rfl delivered,fun _ none => by contradiction⟩
  · simp only [delivered,Bool.false_eq_true,if_false]
    refine ⟨iff_of_false (by simp) delivered,?_⟩
    intro m' same
    cases Option.some.inj same
    exact ⟨rfl,rfl,rfl⟩

section Call
variable {σ : Type} [IHttpClient σ] (α : Type) [Double α] (client : TraccarClient) (worker : UploadWorker) (db : Db) (http : σ)

theorem settledTick {u : Upload σ} (settled : Settled worker db http u) (c : Clock) : Settled worker db http (tick α client u c) := by
  have step := ticked α client u c
  generalize tick α client u c = next at step
  cases step with
  | idle => exact settled
  | ended => exact {settled with}
  | sent row a after _ _ _ mem _ made cells =>
    have own : a.message.id.toNat = row.id := by
      rw [made]
      exact rowidRoundTrip mem
    exact settledAttempt settled ⟨mem,own,fated c a row.cols,fun i => (cells i).trans (by rw [markedOpened])⟩

/- How far the call is: an attempt in every pass, or stopped at the first pass that found nothing. -/
def Reached (clocks : Nat → Clock) (n : Nat) (u : Upload σ) : Prop :=
  (u.stopped = false ∧ u.attempts.length = n) ∨
  (u.stopped = true ∧ u.attempts.length < n ∧ ∀ r ∈ u.db.rows, ready (clocks u.attempts.length).dequeueAt r = false)

theorem reachedTick {clocks : Nat → Clock} {n : Nat} {u : Upload σ} (reached : Reached clocks n u) :
    Reached clocks (n+1) (tick α client u (clocks n)) := by
  have step := ticked α client u (clocks n)
  generalize tick α client u (clocks n) = next at step
  cases step with
  | idle stopped =>
    rcases reached with ⟨running,_⟩ | ⟨_,short,nothing⟩
    · rw [stopped] at running
      contradiction
    · exact .inr ⟨stopped,Nat.lt_succ_of_lt short,nothing⟩
  | ended running nothing =>
    rcases reached with ⟨_,all⟩ | ⟨stopped,_⟩
    · refine .inr ⟨rfl,by simp [all],?_⟩
      simp only [all]
      exact nothing (polled (clocks n))
    · rw [running] at stopped
      contradiction
  | sent row a after running =>
    rcases reached with ⟨_,all⟩ | ⟨stopped,_⟩
    · exact .inl ⟨rfl,by simp [all]⟩
    · rw [running] at stopped
      contradiction

theorem afterSucc (clocks : Nat → Clock) (n : Nat) :
    after α client worker db http clocks (n+1) = tick α client (after α client worker db http clocks n) (clocks n) := by
  simp only [after,List.range_succ,List.map_append,runAppend,List.map_cons,List.map_nil,runCons,runNil]

theorem reachedAfter (clocks : Nat → Clock) (n : Nat) : Reached clocks n (after α client worker db http clocks n) := by
  induction n with
  | zero => exact .inl ⟨rfl,rfl⟩
  | succ n ih =>
    rw [afterSucc]
    exact reachedTick α client ih

theorem settledAfter (clocks : Nat → Clock) (n : Nat) : Settled worker db http (after α client worker db http clocks n) :=
  runKeeps (I := Settled worker db http) (P := fun _ => True) (fun _ c _ settled => settledTick α client worker db http settled c)
    (fun _ _ => trivial) (settledStart worker db http)

theorem batchLaw (maxBatch : UInt32) (clocks : Nat → Clock) :
    BatchLaw worker db http maxBatch clocks (batch α client worker db http maxBatch clocks) := by
  rw [batchAfter]
  have settled := settledAfter α client worker db http clocks maxBatch.toNat
  have reached := reachedAfter α client worker db http clocks maxBatch.toNat
  refine {settled with atMost := ?_, early := ?_}
  · rcases reached with ⟨_,all⟩ | ⟨_,short,_⟩
    · exact all.le
    · exact short.le
  · intro short
    rcases reached with ⟨_,all⟩ | ⟨_,_,nothing⟩
    · exact absurd all short.ne
    · exact nothing

end Call
end UmapTracker.UploadBatch
