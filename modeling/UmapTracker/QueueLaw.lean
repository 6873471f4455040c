import Mathlib.Data.List.Find
import UmapTracker.QueueRuns

/-! What the table of messages holds after any history of calls: the enqueued messages
that no call has removed, under ids that are never given twice. -/
namespace UmapTracker.QueueLaw
open AutoTable MessageQueue QueueView QueueRuns Machine Text

def nextId (ops : List Op) : Nat := (history ops).sequence+1

def Accepted (ops : List Op) (payload : Bytes) (now : Int) : Prop :=
  (enqueue .opened (history ops) (some payload) now .runs).1 = .ok ()

theorem historyAppend (pre post : List Op) : history (pre ++ post) = run apply (history pre) post :=
  runAppend _ _ _

theorem acceptedRow {ops : List Op} {payload : Bytes} {now : Int} (h : Accepted ops payload now) :
    (⟨nextId ops,payload,0,now,now⟩ : Row Message) ∈ (apply (history ops) (.enqueue (some payload) now)).rows ∧
    (apply (history ops) (.enqueue (some payload) now)).sequence = nextId ops := by
  rcases applyEnqueue with ⟨_,_,after⟩ | ⟨_,failed,_⟩
  · have rows := insertRows after
    exact ⟨by rw [rows]; simp [nextId],insertSequence after⟩
  · rw [Accepted,failed] at h
    contradiction

/- Going back one call: a row of the new table is a row of the old one, or the call is the
enqueue that wrote it. -/
theorem rowOrigin {db : Db} {op : Op} {row : Row Message} (mem : row ∈ (apply db op).rows) :
    (∃ old ∈ db.rows, old.id = row.id) ∨
    ∃ payload now, op = .enqueue (some payload) now ∧
      (enqueue .opened db (some payload) now .runs).1 = .ok () ∧ row.id = db.sequence+1 := by
  by_cases low : row.id ≤ db.sequence
  · cases h : cell db row.id with
    | some c => exact .inl ⟨_,cellMem.mp h,rfl⟩
    | none =>
      have gone : (view (apply db op)).item row.id = none := by
        have empty : (view db).item row.id = none := by simp [h]
        rw [square,Outbox.itemApply low,empty,Outbox.Label.effectNone]
      rw [viewItem,cellOfRow mem] at gone
      contradiction
  · have high := ((apply db op).issued row mem).2
    cases op with
    | enqueue payload now =>
      cases payload with
      | none => exact absurd high low
      | some payload =>
        rcases applyEnqueue with ⟨_,accepted,after⟩ | ⟨_,_,same⟩
        · have := insertSequence after
          exact .inr ⟨payload,now,rfl,accepted,by omega⟩
        · rw [same] at high
          exact absurd high low
    | dequeue now tie =>
      rcases applyDequeue db now tie with ⟨_,_,_,_,_,_,after⟩ | ⟨_,_,_,after⟩ <;>
        rw [after] at high <;> exact absurd high low
    | _ => exact absurd high low

theorem historyOrigin {ops : List Op} {row : Row Message} (mem : row ∈ (history ops).rows) :
    ∃ pre payload now post, ops = pre ++ .enqueue (some payload) now::post ∧
      Accepted pre payload now ∧ row.id = nextId pre := by
  induction ops using List.reverseRecOn generalizing row with
  | nil => simp [history] at mem
  | append_singleton ops op ih =>
    rw [historyAppend] at mem
    rcases rowOrigin mem with ⟨old,hold,same⟩ | ⟨payload,now,rfl,accepted,id⟩
    · obtain ⟨pre,payload,now,post,rfl,accepted,id⟩ := ih hold
      exact ⟨pre,payload,now,post ++ [op],by simp,accepted,same.symm.trans id⟩
    · exact ⟨ops,payload,now,[],rfl,accepted,id⟩

theorem sqlGetRetryCell (db : Db) (id : UInt64) :
    sqlGetRetry db id = (cell db id.toNat).map Message.retryCount := by
  have agree : db.rows.find? (addresses id) = db.rows.find? (fun r => r.id == id.toNat) :=
    List.find?_congr (fun r mem => addressesRow mem id)
  rw [sqlGetRetry,agree,cell,Option.map_map]
  rfl

/- Consecutive dequeues at one clock reading, each with its own resolution of ties. -/
def drained (db : Db) (now : Int) (ties : Nat → Nat) : Nat → Db
  | 0 => db
  | k+1 => apply (drained db now ties k) (.dequeue now (ties k))

theorem pendingAfterDequeue (db : Db) (now : Int) (tie : Nat) :
    (returned db now tie).isSome = decide (0 < sqlPendingCount db now) ∧
    sqlPendingCount (apply db (.dequeue now tie)) now = sqlPendingCount db now - 1 := by
  rcases applyDequeue db now tie with ⟨row,mem,wanted,_,_,same,after⟩ | ⟨none,_,same,after⟩
  · have one := countWithout mem wanted
    have rest : sqlPendingCount (sqlDequeueMark db (now+leaseSeconds) (UInt64.ofNat row.id)) now =
        db.rows.countP (fun s => ready now s && !(s.id == row.id)) := by
      rw [sqlPendingCount,sqlDequeueMark,update,List.countP_map]
      apply List.countP_congr
      intro s hs
      have known := addressesRow hs (UInt64.ofNat row.id)
      rw [rowidRoundTrip mem] at known
      by_cases here : s.id = row.id
      · simp [rewrite,known,here,ready,leaseSeconds]
      · simp [rewrite,known,here]
    rw [same,after,rest]
    simp only [sqlPendingCount,one]
    simp
  · have zero : sqlPendingCount db now = 0 := by
      rw [sqlPendingCount,List.countP_eq_zero]
      intro row mem
      simp [none row mem]
    rw [same,after,zero]
    simp

theorem pendingDrained (db : Db) (now : Int) (ties : Nat → Nat) (k : Nat) :
    sqlPendingCount (drained db now ties k) now = sqlPendingCount db now - k := by
  induction k with
  | zero => rfl
  | succ k ih =>
    rw [drained,(pendingAfterDequeue _ _ _).2,ih]
    omega

structure TableLaw (ops : List Op) : Prop where
  stored : ∀ row ∈ (history ops).rows, ∃ pre payload now post,
    ops = pre ++ .enqueue (some payload) now::post ∧ Accepted pre payload now ∧
    row.id = nextId pre ∧ row.cols.payload = payload ∧ row.cols.createdAt = now ∧
    (∀ op ∈ post, ¬ Removes row.id now op) ∧ row.cols.retryCount = post.countP (fails row.id)
  kept : ∀ pre payload now post, ops = pre ++ .enqueue (some payload) now::post →
    Accepted pre payload now → (∀ op ∈ post, ¬ Removes (nextId pre) now op) →
    ∃ row ∈ (history ops).rows, row.id = nextId pre
  unchanged : ∀ pre post, ops = pre ++ post → ∀ a ∈ (history pre).rows, ∀ b ∈ (history ops).rows,
    b.id = a.id → b.cols.payload = a.cols.payload ∧ b.cols.createdAt = a.cols.createdAt
  neverReused : ∀ pre payload now mid payload' now' post,
    ops = pre ++ .enqueue (some payload) now::mid ++ .enqueue (some payload') now'::post →
    Accepted pre payload now → nextId pre < nextId (pre ++ .enqueue (some payload) now::mid)
  onlyOwn : ∀ (messageId : UInt64) (now : Int) (row : Row Message), row.id ≠ messageId.toNat →
    (row ∈ (history (ops ++ [.markSent messageId])).rows ↔ row ∈ (history ops).rows) ∧
    (row ∈ (history (ops ++ [.markFailed messageId now])).rows ↔ row ∈ (history ops).rows)
  retries : ∀ pre payload now post, ops = pre ++ .enqueue (some payload) now::post →
    Accepted pre payload now → ∀ row ∈ (history ops).rows, row.id = nextId pre →
    getRetryCount .opened (history ops) (UInt64.ofNat row.id) .runs =
      .ok (UInt32.ofNat (post.countP (fails row.id)))
  total : (history ops).rows.length < 2^31 →
    (totalCount .opened (history ops) .runs).toNat = (history ops).rows.length
  pending : (history ops).rows.length < 2^31 → ∀ now ties k,
    (returned (drained (history ops) now ties k) now (ties k)).isSome = true ↔
      k < (pendingCount .opened (history ops) now .runs).toNat

theorem fateOfAccepted {pre post : List Op} {payload : Bytes} {now : Int} (accepted : Accepted pre payload now) :
    ((∃ r ∈ (history (pre ++ .enqueue (some payload) now::post)).rows, r.id = nextId pre) ↔
      ∀ op ∈ post, ¬ Removes (nextId pre) now op) ∧
    ∀ r ∈ (history (pre ++ .enqueue (some payload) now::post)).rows, r.id = nextId pre →
      r.cols.payload = payload ∧ r.cols.createdAt = now ∧ r.cols.retryCount = post.countP (fails r.id) := by
  have fate := rowFate (acceptedRow accepted).1 post
  rw [historyAppend,runCons]
  refine ⟨fate.1,?_⟩
  intro r mem same
  obtain ⟨p,c,n⟩ := fate.2 r mem same
  exact ⟨p,c,by rw [n,same]; simp⟩

theorem rowCell {db : Db} {row : Row Message} : row ∈ db.rows ↔ cell db row.id = some row.cols :=
  cellMem.symm

theorem otherRows {db : Db} {row : Row Message} {messageId : UInt64} (other : row.id ≠ messageId.toNat) :
    (row ∈ (apply db (.markSent messageId)).rows ↔ row ∈ db.rows) ∧
    ∀ now, row ∈ (apply db (.markFailed messageId now)).rows ↔ row ∈ db.rows := by
  refine ⟨?_,fun now => ?_⟩
  · have same : cell (apply db (.markSent messageId)) row.id = cell db row.id :=
      (cellDeleteOwn db messageId row.id).trans (if_neg other)
    rw [rowCell,rowCell,same]
  · have same : cell (apply db (.markFailed messageId now)) row.id = cell db row.id :=
      (cellUpdateOwn db messageId _ row.id).trans (if_neg other)
    rw [rowCell,rowCell,same]

theorem countBelow {db : Db} (few : db.rows.length < 2^31) (now : Int) :
    (UInt32.ofNat (sqlPendingCount db now)).toNat = sqlPendingCount db now ∧
    (UInt32.ofNat (sqlTotalCount db)).toNat = sqlTotalCount db := by
  have bound : sqlPendingCount db now ≤ db.rows.length := List.countP_le_length
  have total : sqlTotalCount db = db.rows.length := rfl
  exact ⟨UInt32.toNat_ofNat_of_lt' (by simp only [UInt32.size]; omega),
    UInt32.toNat_ofNat_of_lt' (by simp only [UInt32.size]; omega)⟩

theorem tableLaw (ops : List Op) : TableLaw ops where
  stored := by
    intro row mem
    obtain ⟨pre,payload,now,post,rfl,accepted,id⟩ := historyOrigin mem
    obtain ⟨present,values⟩ := fateOfAccepted accepted
    obtain ⟨p,c,n⟩ := values row mem id
    exact ⟨pre,payload,now,post,rfl,accepted,id,p,c,by rw [id]; exact present.mp ⟨row,mem,id⟩,n⟩
  kept := by
    rintro pre payload now post rfl accepted untouched
    exact (fateOfAccepted accepted).1.mpr untouched
  unchanged := by
    rintro pre post rfl a ha b hb same
    rw [historyAppend] at hb
    obtain ⟨p,c,_⟩ := (rowFate ha post).2 b hb same
    exact ⟨p,c⟩
  neverReused := by
    rintro pre payload now mid payload' now' post - accepted
    have grown := sequenceRun (apply (history pre) (.enqueue (some payload) now)) mid
    rw [(acceptedRow accepted).2] at grown
    rw [nextId,nextId,historyAppend,runCons]
    exact Nat.succ_le_succ grown
  onlyOwn := by
    intro messageId now row other
    rw [historyAppend,historyAppend]
    exact ⟨(otherRows other).1,(otherRows other).2 now⟩
  retries := by
    rintro pre payload now post rfl accepted row mem id
    obtain ⟨_,_,n⟩ := (fateOfAccepted accepted).2 row mem id
    simp only [getRetryCount,openedHas,if_pos,Exec.outcome,sqlGetRetryCell,rowidRoundTrip mem,cellOfRow mem,
      Option.map_some,n]
  total := fun few => (countBelow few 0).2
  pending := by
    intro few now ties k
    have exact_count : (pendingCount .opened (history ops) now .runs).toNat = sqlPendingCount (history ops) now :=
      (countBelow few now).1
    rw [(pendingAfterDequeue _ _ _).1,pendingDrained,exact_count]
    simp only [decide_eq_true_eq]
    omega

end UmapTracker.QueueLaw
