import UmapTracker.Backoff
import UmapTracker.UploadWorker

/-! What one pass of process_pending leaves of the table, whatever SQLite and the network answer:
the row of the message it takes is changed by the statements that were executed, and no
other row. -/
namespace UmapTracker.UploadPass
open AutoTable MessageQueue QueueContents QueueView UploadWorker Backoff GeoTypes HttpClient Machine

/- The row after the UPDATE of the dequeue. -/
def leased (env : DequeueEnv) (m : Message) : Message :=
  if env.mark = .runs then {m with nextRetryAt := env.now+leaseSeconds} else m

/- mark_sent deletes the message. -/
def Acknowledges (impl : Impl) (env : PassEnv) : Prop := impl.has .markSent = true ∧ env.markSent = .runs
instance (impl : Impl) (env : PassEnv) : Decidable (Acknowledges impl env) := by unfold Acknowledges; infer_instance

/- mark_failed puts the message off. -/
def Delays (impl : Impl) (env : PassEnv) : Prop := impl.has .markFailed = true ∧ env.markFailed.mark = .runs
instance (impl : Impl) (env : PassEnv) : Decidable (Delays impl env) := by unfold Delays; infer_instance

/- What becomes of the message of a pass. -/
def marked (impl : Impl) (env : PassEnv) (delivered : Bool) (m : Message) : Option Message :=
  if delivered then (if Acknowledges impl env then none else some m)
  else some (if Delays impl env then delayed impl env.markFailed m else m)

theorem leasedCell {db : Db} {row : Row Message} {env : DequeueEnv} (mem : row ∈ db.rows) (i : Nat) :
    cell (env.mark.change db (sqlDequeueMark db (env.now+leaseSeconds) (UInt64.ofNat row.id))) i =
      if i = row.id then some (leased env row.cols) else cell db i := by
  cases executed : env.mark with
  | fails code =>
    by_cases own : i = row.id
    · simp [Exec.change,leased,executed,own,cellOfRow mem]
    · simp [Exec.change,own]
  | runs =>
    simp only [Exec.change,sqlDequeueMark,cellUpdateOwn,rowidRoundTrip mem,leased,executed]
    by_cases own : i = row.id
    · simp [own,cellOfRow mem]
    · simp [own]

theorem notAcknowledged {impl : Impl} {env : PassEnv} (missed : ¬ Acknowledges impl env) (db : Db) (id : UInt64) :
    (markSent impl db id env.markSent).2 = db := by
  unfold markSent
  split
  · rename_i prepared
    cases step : env.markSent with
    | fails code => rfl
    | runs => exact absurd ⟨prepared,step⟩ missed
  · rfl

theorem notDelayed {impl : Impl} {env : PassEnv} (missed : ¬ Delays impl env) (db : Db) (id : UInt64) :
    (markFailed impl db id env.markFailed).2 = db := by
  unfold markFailed
  split
  · rename_i prepared
    cases step : env.markFailed.mark with
    | fails code => rfl
    | runs => exact absurd ⟨prepared,step⟩ missed
  · rfl

theorem markCell (impl : Impl) {db : Db} {row : Row Message} (env : PassEnv) (delivered : Bool) (mem : row ∈ db.rows) (i : Nat) :
    cell (mark impl db (UInt64.ofNat row.id) delivered env) i =
      if i = row.id then marked impl env delivered row.cols else cell db i := by
  have same : cell db i = if i = row.id then some row.cols else cell db i := by
    split
    · rename_i own
      rw [own,cellOfRow mem]
    · rfl
  cases delivered with
  | true =>
    simp only [mark,marked,if_true]
    by_cases executes : Acknowledges impl env
    · simp only [executes,if_true,markSent,executes.1,executes.2,sqlMarkSent,cellDeleteOwn,rowidRoundTrip mem]
    · rw [notAcknowledged executes,if_neg executes]
      exact same
  | false =>
    simp only [mark,marked,Bool.false_eq_true,if_false]
    by_cases executes : Delays impl env
    · rw [if_pos executes]
      exact markFailedCell executes.1 executes.2 mem i
    · rw [notDelayed executes,if_neg executes]
      exact same

/- The message that a dequeue returns is the one its SELECT found. -/
theorem selectedRow {impl : Impl} {db after : Db} {env : DequeueEnv} {row : Row Message} (mem : row ∈ db.rows)
    (same : dequeue impl db env = (.ok (queued env.now row),after)) : sqlDequeueSelect db env.now env.tie = some row := by
  unfold dequeue at same
  split at same
  · split at same
    · rename_i found answer
      have selected : sqlDequeueSelect db env.now env.tie = some found := by
        cases select : env.select with
        | fails code => simp [select,Exec.outcome] at answer
        | runs => simpa [select,Exec.outcome] using answer
      have ids := congrArg QueuedMessage.id (Except.ok.inj (Prod.mk.inj same).1)
      have stored := (selectFirstSome selected).1
      have id : found.id = row.id := by
        rw [← rowidRoundTrip stored,← rowidRoundTrip mem]
        exact congrArg UInt64.toNat ids
      rw [selected,uniqueId stored mem id]
    · simp at same
  · simp at same

section Loop
variable {σ : Type} [IHttpClient σ] (α : Type) [Double α]

/- The attempt a pass makes for a row. -/
def attemptFor (client : TraccarClient) (http : σ) (env : PassEnv) (row : Row Message) : Attempt :=
  let url := client.buildUrl (reported α row.cols.createdAt)
  ⟨queued env.dequeue.now row,url,env.sendAt,(IHttpClient.get http url).1⟩

/- A pass, as far as later passes see it. -/
inductive Tried (impl : Impl) (client : TraccarClient) (u : Upload σ) (env : PassEnv) : Upload σ → Prop where
  | idle : u.stopped = true → Tried impl client u env u
  | ended : u.stopped = false →
      (Polls impl env.dequeue → ∀ r ∈ u.db.rows, ready env.dequeue.now r = false) →
      Tried impl client u env {u with stopped := true}
  | sent (row : Row Message) (a : Attempt) (db : Db) : u.stopped = false → Polls impl env.dequeue →
      sqlDequeueSelect u.db env.dequeue.now env.dequeue.tie = some row → row ∈ u.db.rows →
      ready env.dequeue.now row = true → a = attemptFor α client u.http env row →
      (∀ i, cell db i = if i = row.id then marked impl env a.delivered (leased env.dequeue row.cols) else cell u.db i) →
      Tried impl client u env ⟨db,(IHttpClient.get u.http a.url).2,count u.worker a.delivered,
        if a.delivered then u.sent+1 else u.sent,false,u.attempts ++ [a]⟩

theorem tried (impl : Impl) (client : TraccarClient) (u : Upload σ) (env : PassEnv) :
    Tried α impl client u env (pass α impl client u env) := by
  cases running : u.stopped with
  | true =>
    have same : pass α impl client u env = u := by simp [UploadWorker.pass,running]
    rw [same]
    exact .idle running
  | false =>
    cases dequeueSpec impl u.db env.dequeue with
    | refused e same nothing =>
      have same : pass α impl client u env = {u with stopped := true} := by simp [UploadWorker.pass,running,same]
      rw [same]
      exact .ended running nothing
    | message row polls mem wanted _ same =>
      simp only [UploadWorker.pass,running,same,Bool.false_eq_true,if_false,TraccarClient.sendAccepted,TraccarClient.sendHttp]
      refine .sent row (attemptFor α client u.http env row) _ running polls (selectedRow mem same) mem wanted rfl ?_
      intro i
      let here : Row Message := ⟨row.id,leased env.dequeue row.cols⟩
      have stored : here ∈ (env.dequeue.mark.change u.db
          (sqlDequeueMark u.db (env.dequeue.now+leaseSeconds) (UInt64.ofNat row.id))).rows :=
        cellMem.mp ((leasedCell mem row.id).trans (if_pos rfl))
      refine (markCell impl env _ stored i).trans ?_
      rw [leasedCell mem i]
      by_cases own : i = row.id
      · rw [if_pos own,if_pos own]
        rfl
      · rw [if_neg own,if_neg own,if_neg own]

end Loop
end UmapTracker.UploadPass
