import UmapTracker.Machine
import UmapTracker.QueueContents
import UmapTracker.TraccarClient

/-! data/upload_worker.cpp. One pass of the loop of process_pending takes a message, sends a
point for it and marks it. `attempts` records the calls of client_.send with the answer
each got: the source keeps no such list. -/
namespace UmapTracker
open AutoTable MessageQueue QueueContents GeoTypes HttpClient Machine Text

structure UploadWorker where
  totalSent : UInt32
  totalFailed : UInt32
  deriving DecidableEq, Repr

namespace UploadWorker

def new : UploadWorker := ⟨0,0⟩

/- What one pass meets: its clock readings, the answers of SQLite, and the reading of the clock
at the moment the request goes out, which the source does not take. -/
structure PassEnv where
  dequeue : DequeueEnv
  sendAt : Int
  markSent : Exec
  markFailed : MarkFailedEnv

structure Attempt where
  message : QueuedMessage
  url : Bytes
  sendAt : Int
  answer : Result HttpResponse
  deriving DecidableEq

def Attempt.delivered (a : Attempt) : Bool := TraccarClient.accepted a.answer

structure Upload (σ : Type) where
  db : Db
  http : σ
  worker : UploadWorker
  sent : UInt32
  stopped : Bool
  attempts : List Attempt

section Loop
variable {σ : Type} [IHttpClient σ] (α : Type) [Double α]

-- GpsPoint point; point.timestamp_ms = static_cast<uint32_t>(queued.created_at)
def reported (createdAt : Int) : GpsPoint α := {GpsPoint.default with timestampMs := UInt32.ofInt createdAt}

def mark (impl : Impl) (db : Db) (messageId : UInt64) (delivered : Bool) (env : PassEnv) : Db :=
  if delivered then (markSent impl db messageId env.markSent).2
  else (markFailed impl db messageId env.markFailed).2

def count (w : UploadWorker) (delivered : Bool) : UploadWorker :=
  if delivered then {w with totalSent := w.totalSent+1} else {w with totalFailed := w.totalFailed+1}

def pass (impl : Impl) (client : TraccarClient) (u : Upload σ) (env : PassEnv) : Upload σ :=
  if u.stopped then u
  else
    match dequeue impl u.db env.dequeue with
    | (.error _,db) => {u with db, stopped := true}
    | (.ok queued,db) =>
      let (result,http) := client.send u.http (reported α queued.createdAt)
      let delivered := Result.hasValue result
      let url := client.buildUrl (reported α queued.createdAt)
      ⟨mark impl db queued.id delivered env,http,count u.worker delivered,
        if delivered then u.sent+1 else u.sent,false,
        u.attempts ++ [⟨queued,url,env.sendAt,(IHttpClient.get u.http url).1⟩]⟩

def processPending (impl : Impl) (client : TraccarClient) (worker : UploadWorker) (db : Db) (http : σ)
    (maxBatch : UInt32) (env : Nat → PassEnv) : Upload σ :=
  run (pass α impl client) ⟨db,http,worker,0,false,[]⟩ ((List.range maxBatch.toNat).map env)

/- One pass: nothing any more, the end of the loop at a dequeue that reports an error, or an
attempt for the oldest ready message. -/
inductive Passed (impl : Impl) (client : TraccarClient) (u : Upload σ) (env : PassEnv) : Upload σ → Prop where
  | idle : u.stopped = true → Passed impl client u env u
  | ended : u.stopped = false →
      (Polls impl env.dequeue → ∀ r ∈ u.db.rows, ready env.dequeue.now r = false) →
      Passed impl client u env {u with stopped := true}
  | attempted (row : Row Message) (db : Db) (http : σ) (answer : Result HttpResponse) : u.stopped = false →
      Polls impl env.dequeue → row ∈ u.db.rows → ready env.dequeue.now row = true →
      (∀ r ∈ u.db.rows, ready env.dequeue.now r = true → row.cols.createdAt ≤ r.cols.createdAt) →
      contents db = contents u.db →
      Passed impl client u env
        ⟨mark impl db (queued env.dequeue.now row).id (TraccarClient.accepted answer) env,http,
          count u.worker (TraccarClient.accepted answer),
          if TraccarClient.accepted answer then u.sent+1 else u.sent,false,
          u.attempts ++ [⟨queued env.dequeue.now row,client.buildUrl (reported α row.cols.createdAt),
            env.sendAt,answer⟩]⟩

theorem passed (impl : Impl) (client : TraccarClient) (u : Upload σ) (env : PassEnv) : Passed α impl client u env (pass α impl client u env) := by
  cases running : u.stopped with
  | true =>
    have same : pass α impl client u env = u := by simp [pass,running]
    rw [same]
    exact .idle running
  | false =>
    cases dequeueSpec impl u.db env.dequeue with
    | refused e same nothing =>
      have same : pass α impl client u env = {u with stopped := true} := by simp [pass,running,same]
      rw [same]
      exact .ended running nothing
    | message row polls mem wanted least same =>
      have kept := contentsDequeue impl u.db env.dequeue
      rw [same] at kept
      simp only [pass,running,same,Bool.false_eq_true,if_false,TraccarClient.sendAccepted]
      exact .attempted row _ _ _ running polls mem wanted least kept

theorem contentsMark (impl : Impl) (db : Db) (id : UInt64) (delivered : Bool) (env : PassEnv) (c : Entry) :
    (c ∈ contents (mark impl db id delivered env) → c ∈ contents db) ∧
    (c ∈ contents db → c ∈ contents (mark impl db id delivered env) ∨ delivered = true ∧ c.1 = id.toNat) := by
  cases delivered with
  | true =>
    have sent := contentsMarkSent impl db id env.markSent c
    exact ⟨sent.1,fun stored => (sent.2 stored).imp_right (fun own => ⟨rfl,own⟩)⟩
  | false =>
    have same := contentsMarkFailed impl db id env.markFailed
    simp only [mark,Bool.false_eq_true,if_false,same]
    exact ⟨fun h => h,.inl⟩

/- Nothing is stored that `db` did not hold, and each attempt sends the point made from created_at
for a message of `db`. -/
structure Sends (client : TraccarClient) (db : Db) (u : Upload σ) : Prop where
  within : ∀ c ∈ contents u.db, c ∈ contents db
  made : ∀ a ∈ u.attempts, entry a.message ∈ contents db ∧ a.url = client.buildUrl (reported α a.message.createdAt)

theorem sendsPass {impl : Impl} {client : TraccarClient} {db : Db} {u : Upload σ} (sends : Sends α client db u)
    (env : PassEnv) : Sends α client db (pass α impl client u env) := by
  obtain ⟨within,made⟩ := sends
  have step := passed α impl client u env
  generalize pass α impl client u env = next at step
  cases step with
  | idle => exact ⟨within,made⟩
  | ended => exact ⟨within,made⟩
  | attempted row after http answer _ _ stored _ _ kept =>
    refine ⟨?_,?_⟩
    · intro c hc
      have := (contentsMark impl after _ (TraccarClient.accepted answer) env c).1 hc
      exact within c (kept ▸ this)
    · intro a ha
      rcases List.mem_append.mp ha with old | new
      · exact made a old
      · cases List.mem_singleton.mp new
        refine ⟨?_,rfl⟩
        rw [queuedEntry stored]
        exact within _ (List.mem_map_of_mem stored)

theorem sendsProcess (impl : Impl) (client : TraccarClient) (worker : UploadWorker) (db : Db) (http : σ)
    (maxBatch : UInt32) (env : Nat → PassEnv) : Sends α client db (processPending α impl client worker db http maxBatch env) :=
  runKeeps (I := Sends α client db) (P := fun _ => True) (fun _ env _ sends => sendsPass α sends env)
    (fun _ _ => trivial) ⟨fun _ stored => stored,by simp⟩

/- The attempts of a call are for messages that were stored when it began, and each sends the
point made from created_at. -/
theorem attemptsStored (impl : Impl) (client : TraccarClient) (worker : UploadWorker) (db : Db) (http : σ)
    (maxBatch : UInt32) (env : Nat → PassEnv) {a : Attempt}
    (mem : a ∈ (processPending α impl client worker db http maxBatch env).attempts) :
    entry a.message ∈ contents db ∧ a.url = client.buildUrl (reported α a.message.createdAt) :=
  (sendsProcess α impl client worker db http maxBatch env).made a mem

/- The message is stored, or a request for it was delivered. -/
def Accounted (c : Entry) (u : Upload σ) : Prop :=
  c ∈ contents u.db ∨ ∃ a ∈ u.attempts, a.delivered = true ∧ entry a.message = c

theorem accountedPass {impl : Impl} {client : TraccarClient} {c : Entry} {u : Upload σ} (accounted : Accounted c u)
    (env : PassEnv) : Accounted c (pass α impl client u env) := by
  have step := passed α impl client u env
  generalize pass α impl client u env = next at step
  cases step with
  | idle => exact accounted
  | ended => exact accounted
  | attempted row after http answer _ _ mem _ _ kept =>
    rcases accounted with here | ⟨a,ha,done⟩
    · rcases (contentsMark impl after _ (TraccarClient.accepted answer) env c).2 (kept ▸ here) with still | ⟨sent,own⟩
      · exact .inl still
      · have message := queuedEntry mem env.dequeue.now
        have same : c = rowEntry row := contentsUnique here mem (own.trans (congrArg Prod.fst message))
        exact .inr ⟨_,List.mem_append_right _ List.mem_cons_self,sent,message.trans same.symm⟩
    · exact .inr ⟨a,List.mem_append_left _ ha,done⟩

/- A message that is stored when a call begins is stored when it ends, or one of its requests
was delivered. -/
theorem storedOrDelivered (impl : Impl) (client : TraccarClient) (worker : UploadWorker) (db : Db) (http : σ)
    (maxBatch : UInt32) (env : Nat → PassEnv) {c : Entry} (stored : c ∈ contents db) :
    c ∈ contents (processPending α impl client worker db http maxBatch env).db ∨
    ∃ a ∈ (processPending α impl client worker db http maxBatch env).attempts, a.delivered = true ∧ entry a.message = c :=
  runKeeps (I := Accounted c) (P := fun _ => True) (fun _ env _ accounted => accountedPass α accounted env)
    (fun _ _ => trivial) (.inl stored)

end Loop
end UploadWorker
end UmapTracker
