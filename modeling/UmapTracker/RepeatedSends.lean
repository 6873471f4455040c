import UmapTracker.JniBridge
import UmapTracker.UploadBatch

/-! Whether one call of process_pending sends a message twice. mark_failed puts a message off from
the moment its request has failed, and the select prefers the oldest message: a call that takes
longer than the delay meets the same message again. -/
namespace UmapTracker.RepeatedSends
open AutoTable MessageQueue QueueContents QueueView UploadWorker UploadPass UploadBatch Backoff GeoTypes HttpClient Machine

/- A mark_failed of the call: its message, its reading, and the retry count before it. -/
structure Failure where
  id : UInt64
  failedAt : Int
  retryCount : UInt32
  deriving DecidableEq, Repr

def Failure.dueAt (f : Failure) : Int := f.failedAt + calculateBackoff (f.retryCount+1)

structure Watched (σ : Type) where
  upload : Upload σ
  failures : List Failure

def watch {σ : Type} [IHttpClient σ] (α : Type) [Double α] (client : TraccarClient) (w : Watched σ) (c : Clock) : Watched σ :=
  let next := tick α client w.upload c
  let failed := (next.attempts.drop w.upload.attempts.length).filter (fun a => !a.delivered)
  ⟨next,w.failures ++ failed.map (fun a => ⟨a.message.id,c.failedAt,a.message.retryCount⟩)⟩

/- The message that the next dequeue selects has not failed in this call, or its delay is not over. -/
def NotDue {σ : Type} (w : Watched σ) (c : Clock) : Prop :=
  w.upload.stopped = false → ∀ row, sqlDequeueSelect w.upload.db c.dequeueAt c.tie = some row →
    ∀ f ∈ w.failures, f.id = UInt64.ofNat row.id → c.dequeueAt < f.dueAt

def ids {σ : Type} (u : Upload σ) : List UInt64 := u.attempts.map (fun a => a.message.id)

/- No message is sent twice. -/
def Once {σ : Type} (w : Watched σ) : Prop := (ids w.upload).Nodup

/- A message that was sent and is still stored has failed, and waits for its delay. -/
structure Waiting {σ : Type} (w : Watched σ) : Prop where
  sent : ∀ f ∈ w.failures, f.id ∈ ids w.upload
  failed : ∀ id ∈ ids w.upload, cell w.upload.db id.toNat ≠ none → ∃ f ∈ w.failures, f.id = id
  waits : ∀ f ∈ w.failures, ∀ m, cell w.upload.db f.id.toNat = some m → m.nextRetryAt = f.dueAt

theorem notSentBefore {σ : Type} {w : Watched σ} (waiting : Waiting w) {c : Clock} (guarded : NotDue w c)
    (running : w.upload.stopped = false) {row : Row Message} (mem : row ∈ w.upload.db.rows)
    (selected : sqlDequeueSelect w.upload.db c.dequeueAt c.tie = some row) (wanted : ready c.dequeueAt row = true) :
    UInt64.ofNat row.id ∉ ids w.upload := by
  intro before
  have stored : cell w.upload.db (UInt64.ofNat row.id).toNat = some row.cols := by
    rw [rowidRoundTrip mem]
    exact cellOfRow mem
  obtain ⟨f,failure,own⟩ := waiting.failed _ before (by rw [stored]; exact Option.some_ne_none _)
  have due := waiting.waits f failure row.cols (own ▸ stored)
  have early := guarded running row selected f failure own
  have now : row.cols.nextRetryAt ≤ c.dequeueAt := of_decide_eq_true wanted
  omega

/- A pass makes no attempt, or one for the message its dequeue selects. -/
inductive Seen {σ : Type} (w : Watched σ) (c : Clock) : Watched σ → Prop where
  | quiet (stopped : Bool) : (w.upload.stopped = false → sqlDequeueSelect w.upload.db c.dequeueAt c.tie = none) →
      Seen w c {w with upload := {w.upload with stopped}}
  | sent (row : Row Message) (a : Attempt) (next : Upload σ) : w.upload.stopped = false →
      sqlDequeueSelect w.upload.db c.dequeueAt c.tie = some row → row ∈ w.upload.db.rows → ready c.dequeueAt row = true →
      a.message = queued c.dequeueAt row → next.attempts = w.upload.attempts ++ [a] →
      (∀ i, cell next.db i = if i = row.id then (if a.delivered then none else some (retried c row.cols)) else cell w.upload.db i) →
      Seen w c ⟨next,w.failures ++ if a.delivered then [] else [⟨UInt64.ofNat row.id,c.failedAt,UInt32.ofNat row.cols.retryCount⟩]⟩

theorem seen {σ : Type} [IHttpClient σ] (α : Type) [Double α] (client : TraccarClient) (w : Watched σ) (c : Clock) :
    Seen w c (watch α client w c) := by
  have step := ticked α client w.upload c
  unfold watch
  generalize tick α client w.upload c = next at step
  cases step with
  | idle stopped =>
    simp only [List.drop_length,List.filter_nil,List.map_nil,List.append_nil]
    exact .quiet w.upload.stopped (fun running => absurd (stopped.symm.trans running) (by decide))
  | ended running nothing =>
    simp only [List.drop_length,List.filter_nil,List.map_nil,List.append_nil]
    exact .quiet true (fun _ => selectFirstNone.mpr (nothing (polled c)))
  | sent row a after running _ selected mem wanted made cells =>
    have message : a.message = queued c.dequeueAt row := by rw [made]; rfl
    have failures : ([a].filter (fun a => !a.delivered)).map (fun a => (⟨a.message.id,c.failedAt,a.message.retryCount⟩ : Failure)) =
        if a.delivered then [] else [⟨UInt64.ofNat row.id,c.failedAt,UInt32.ofNat row.cols.retryCount⟩] := by
      by_cases delivered : a.delivered = true <;> simp [delivered,message,queued]
    simp only [List.drop_left,failures]
    exact .sent row a _ running selected mem wanted message rfl (fun i => (cells i).trans (by rw [markedOpened]))

theorem idsSent {σ : Type} {u next : Upload σ} {row : Row Message} {a : Attempt} {now : Int} (message : a.message = queued now row)
    (attempts : next.attempts = u.attempts ++ [a]) : ids next = ids u ++ [UInt64.ofNat row.id] := by
  rw [ids,attempts,List.map_append,List.map_singleton,message]
  rfl

theorem memFailures {failures : List Failure} {delivered : Bool} {f new : Failure} :
    f ∈ failures ++ (if delivered then [] else [new]) ↔ f ∈ failures ∨ delivered = false ∧ f = new := by
  cases delivered <;> simp

/- The delays of a call: a pass keeps them when the message it takes was not due again. -/
theorem waitingKept {σ : Type} {w next : Watched σ} {c : Clock} (seen : Seen w c next) (waiting : Waiting w) (guarded : NotDue w c) :
    Waiting next := by
  cases seen with
  | quiet => exact ⟨waiting.sent,waiting.failed,waiting.waits⟩
  | sent row a upload running selected mem wanted message attempts cells =>
    have fresh := notSentBefore waiting guarded running mem selected wanted
    have all := idsSent message attempts
    refine ⟨?_,?_,?_⟩
    · intro f failure
      rw [all]
      rcases memFailures.mp failure with old | ⟨_,rfl⟩
      · exact List.mem_append_left _ (waiting.sent f old)
      · exact List.mem_append_right _ List.mem_cons_self
    · intro id sent stored
      rw [cells] at stored
      by_cases here : id.toNat = row.id
      · rw [if_pos here] at stored
        have failed : a.delivered = false := by
          by_contra delivered
          simp [delivered] at stored
        refine ⟨_,memFailures.mpr (.inr ⟨failed,rfl⟩),?_⟩
        exact UInt64.toNat_inj.mp ((rowidRoundTrip mem).trans here.symm)
      · rw [if_neg here] at stored
        rw [all] at sent
        rcases List.mem_append.mp sent with old | new
        · obtain ⟨f,failure,same⟩ := waiting.failed id old stored
          exact ⟨f,memFailures.mpr (.inl failure),same⟩
        · rw [List.mem_singleton.mp new,rowidRoundTrip mem] at here
          contradiction
    · intro f failure m stored
      rw [cells] at stored
      rcases memFailures.mp failure with old | ⟨failed,rfl⟩
      · have other : f.id.toNat ≠ row.id := by
          intro same
          refine fresh ?_
          rw [← UInt64.toNat_inj.mp (same.trans (rowidRoundTrip mem).symm)]
          exact waiting.sent f old
        rw [if_neg other] at stored
        exact waiting.waits f old m stored
      · rw [if_pos (rowidRoundTrip mem),failed] at stored
        cases Option.some.inj stored
        rfl

/- A pass sends no message again exactly when the message it takes was not due again. -/
theorem onceKept {σ : Type} {w next : Watched σ} {c : Clock} (seen : Seen w c next) (waiting : Waiting w) (once : Once w) :
    Once next ↔ NotDue w c := by
  cases seen with
  | quiet stopped nothing =>
    refine iff_of_true once ?_
    intro running row selected
    rw [nothing running] at selected
    contradiction
  | sent row a upload running selected mem wanted message attempts cells =>
    have all := idsSent message attempts
    have fresh : Once ⟨upload,w.failures ++ if a.delivered then [] else [⟨UInt64.ofNat row.id,c.failedAt,UInt32.ofNat row.cols.retryCount⟩]⟩ ↔
        UInt64.ofNat row.id ∉ ids w.upload := by
      rw [Once,all,List.nodup_append]
      refine ⟨fun apart before => apart.2.2 _ before _ List.mem_cons_self rfl,?_⟩
      intro new
      refine ⟨once,List.nodup_singleton _,?_⟩
      intro id before other last same
      exact new ((same.trans (List.mem_singleton.mp last)) ▸ before)
    rw [fresh]
    constructor
    · intro new _ row' selected' f failure own'
      rw [selected] at selected'
      cases Option.some.inj selected'
      exact absurd (own' ▸ waiting.sent f failure) new
    · intro guarded
      exact notSentBefore waiting guarded running mem selected wanted

theorem onceBack {σ : Type} {w next : Watched σ} {c : Clock} (seen : Seen w c next) (once : Once next) : Once w := by
  cases seen with
  | quiet => exact once
  | sent row a upload _ _ _ _ _ attempts =>
    rw [Once,ids,attempts,List.map_append] at once
    exact (List.nodup_append.mp once).1

section Call
variable {σ : Type} [IHttpClient σ] (α : Type) [Double α]

def begun (worker : UploadWorker) (db : Db) (http : σ) : Watched σ := ⟨⟨db,http,worker,0,false,[]⟩,[]⟩

theorem watchedBatch (client : TraccarClient) (worker : UploadWorker) (db : Db) (http : σ) (maxBatch : UInt32) (clocks : Nat → Clock) :
    (run (watch α client) (begun worker db http) ((List.range maxBatch.toNat).map clocks)).upload =
      batch α client worker db http maxBatch clocks := by
  rw [batchAfter]
  exact (List.foldl_hom Watched.upload (fun _ _ => rfl)).symm

theorem onceIff (client : TraccarClient) (worker : UploadWorker) (db : Db) (http : σ) (clocks : List Clock) :
    Once (run (watch α client) (begun worker db http) clocks) ↔ Allowed (watch α client) NotDue (begun worker db http) clocks := by
  have waiting : Waiting (begun worker db http) := ⟨by simp [begun],by simp [begun,ids],by simp [begun]⟩
  rw [← alwaysExactWith (I := Once) (J := Waiting) (fun w c => onceKept (seen α client w c))
    (fun w c waiting _ => waitingKept (seen α client w c) waiting) waiting List.nodup_nil]
  exact (alwaysIffLast (J := fun _ => True) (fun _ _ _ => trivial) (fun w c _ => onceBack (seen α client w c)) trivial).symm

/- One call sends no message twice exactly when none of its dequeues selects a message that has failed
in the call and whose delay is over. -/
theorem sentOnceIff (client : TraccarClient) (worker : UploadWorker) (db : Db) (http : σ) (maxBatch : UInt32) (clocks : Nat → Clock) :
    (ids (batch α client worker db http maxBatch clocks)).Nodup ↔
      Allowed (watch α client) NotDue (begun worker db http) ((List.range maxBatch.toNat).map clocks) := by
  rw [← watchedBatch]
  exact onceIff α client worker db http _

theorem failureRead (client : TraccarClient) {w : Watched σ} {cs : List Clock} {f : Failure}
    (mem : f ∈ (run (watch α client) w cs).failures) : f ∈ w.failures ∨ ∃ c ∈ cs, f.failedAt = c.failedAt := by
  induction cs generalizing w with
  | nil => exact .inl mem
  | cons c cs ih =>
    rcases ih mem with here | ⟨c',later,same⟩
    · rcases List.mem_append.mp here with old | new
      · exact .inl old
      · obtain ⟨a,_,rfl⟩ := List.mem_map.mp new
        exact .inr ⟨c,List.mem_cons_self,rfl⟩
    · exact .inr ⟨c',List.mem_cons_of_mem _ later,same⟩

/- The shortest delay is two seconds, so a call that takes less sends no message twice. -/
theorem sentOnceQuickly (client : TraccarClient) (worker : UploadWorker) (db : Db) (http : σ) (maxBatch : UInt32) (clocks : Nat → Clock)
    (quick : ((List.range maxBatch.toNat).map clocks).Pairwise (fun c c' => c'.dequeueAt < c.failedAt + 2)) :
    (ids (batch α client worker db http maxBatch clocks)).Nodup := by
  rw [← watchedBatch]
  refine (onceIff α client worker db http _).mpr ?_
  intro pre c post same _ row _ f failure _
  rw [same,List.pairwise_append] at quick
  rcases failureRead α client failure with none | ⟨c',earlier,read⟩
  · simp [begun] at none
  · have soon := quick.2.2 c' earlier c List.mem_cons_self
    have delay : 2 ≤ calculateBackoff (f.retryCount+1) := by
      rw [backoffClosed]
      have large : (2 : Int)^1 ≤ 2^((f.retryCount+1).toNat+1) := pow_le_pow_right₀ (by norm_num) (by omega)
      exact le_min large (by norm_num)
    rw [Failure.dueAt,read]
    omega

end Call

/- Three messages and a server that never answers within ten seconds: the third request goes to the
first message again, and none to the third. -/
theorem slowServerStarves :
    let db : Db := ((sqlEnqueue empty [] 97 97 >>= (sqlEnqueue · [] 98 98)) >>= (sqlEnqueue · [] 99 99)).getD empty
    let clocks : Nat → Clock := fun i => ⟨100+10*i,0,100+10*i,110+10*i⟩
    let u := batch ℚ JniBridge.client .new db (MockHttpClient.new.setShouldFail true) 3 clocks
    ids u = [1,2,1] ∧ ¬ (ids u).Nodup := by
  decide +kernel

end UmapTracker.RepeatedSends
