import UmapTracker.QueueView

/-! Runs of one message queue on an open database whose statements SQLite executes as
written. A history is the list of calls since the table was created; every call
carries its own clock reading, so the readings may jump in any direction. -/
namespace UmapTracker.QueueRuns
open AutoTable MessageQueue Outbox QueueView Machine Text

inductive Op where
  | enqueue (payload : Option Bytes) (now : Int)
  | dequeue (now : Int) (tie : Nat)
  | markSent (messageId : UInt64)
  | markFailed (messageId : UInt64) (now : Int)
  | purgeExpired (ttlHours : UInt32) (now : Int)
  | reset
  deriving DecidableEq, Repr

def apply (db : Db) : Op → Db
  | .enqueue payload now => (enqueue .opened db payload now .runs).2
  | .dequeue now tie => (dequeue .opened db ⟨now,.runs,tie,.runs⟩).2
  | .markSent messageId => (markSent .opened db messageId .runs).2
  | .markFailed messageId now => (markFailed .opened db messageId ⟨now,.runs,.runs⟩).2
  | .purgeExpired ttlHours now => (purgeExpired .opened db ttlHours now .runs).2
  | .reset => reset .opened db .runs

def history (ops : List Op) : Db := run apply empty ops

def returned (db : Db) (now : Int) (tie : Nat) : Option QueuedMessage :=
  (dequeue .opened db ⟨now,.runs,tie,.runs⟩).1.toOption

def label (db : Db) : Op → Label Content Int
  | .enqueue none _ => .quiet
  | .enqueue (some payload) now =>
      if db.sequence < maxRowid then .accept (payload,now) now else .quiet
  | .dequeue now tie =>
      match sqlDequeueSelect db now tie with
      | some row => .lease row.id now
      | none => .quiet
  | .markSent messageId => .remove (fun i _ => i == messageId.toNat)
  | .markFailed messageId now =>
      .fail messageId.toNat (now + calculateBackoff (knownRetries (getRetryCount .opened db messageId .runs) + 1))
  | .purgeExpired ttlHours now => .remove (fun _ c => decide (c.2 ≤ now - ttlHours.toNat*secondsPerHour))
  | .reset => .remove (fun _ _ => true)

theorem applyEnqueue {db : Db} {payload : Bytes} {now : Int} :
    (db.sequence < maxRowid ∧ (enqueue .opened db (some payload) now .runs).1 = .ok () ∧
      sqlEnqueue db payload now now = some (apply db (.enqueue (some payload) now))) ∨
    (¬ db.sequence < maxRowid ∧ (enqueue .opened db (some payload) now .runs).1 = .error .internalError ∧
      apply db (.enqueue (some payload) now) = db) := by
  cases h : sqlEnqueue db payload now now with
  | none =>
    have full := insertNone.mp h
    exact .inr ⟨by omega,by simp [enqueue,Exec.outcome,h],by simp [apply,enqueue,Exec.outcome,h]⟩
  | some after =>
    have room : db.sequence < maxRowid := by
      by_contra full
      have none : sqlEnqueue db payload now now = none := insertNone.mpr (by have := db.bounded; omega)
      rw [none] at h
      contradiction
    exact .inl ⟨room,by simp [enqueue,Exec.outcome,h],by simp [apply,enqueue,Exec.outcome,h]⟩

/- A dequeue finds a row that is ready and has the least created_at of the ready rows, and
leases it; or no row is ready and nothing changes. -/
theorem applyDequeue (db : Db) (now : Int) (tie : Nat) :
    (∃ row ∈ db.rows, ready now row = true ∧
      (∀ s ∈ db.rows, ready now s = true → row.cols.createdAt ≤ s.cols.createdAt) ∧
      sqlDequeueSelect db now tie = some row ∧ returned db now tie = some (queued now row) ∧
      apply db (.dequeue now tie) = sqlDequeueMark db (now+leaseSeconds) (UInt64.ofNat row.id)) ∨
    ((∀ row ∈ db.rows, ready now row = false) ∧ sqlDequeueSelect db now tie = none ∧
      returned db now tie = none ∧ apply db (.dequeue now tie) = db) := by
  cases h : sqlDequeueSelect db now tie with
  | none =>
    exact .inr ⟨selectFirstNone.mp h,rfl,by simp [returned,dequeue,Exec.outcome,h,Except.toOption],
      by simp [apply,dequeue,Exec.outcome,h]⟩
  | some row =>
    obtain ⟨mem,wanted,least⟩ := selectFirstSome h
    exact .inl ⟨row,mem,wanted,least,rfl,by simp [returned,dequeue,Exec.outcome,h,Except.toOption],
      by simp [apply,dequeue,Exec.outcome,Exec.change,h,queued]⟩

theorem returnedRow {db : Db} {now : Int} {tie : Nat} {m : QueuedMessage} (h : returned db now tie = some m) :
    ∃ row ∈ db.rows, ready now row = true ∧ sqlDequeueSelect db now tie = some row ∧ m = queued now row := by
  rcases applyDequeue db now tie with ⟨row,mem,wanted,_,found,same,_⟩ | ⟨_,_,none,_⟩
  · exact ⟨row,mem,wanted,found,Option.some.inj (h.symm.trans same)⟩
  · rw [none] at h
    contradiction

theorem square (db : Db) (op : Op) : view (apply db op) = (label db op).apply leaseSeconds (view db) := by
  cases op with
  | enqueue payload now =>
    cases payload with
    | none => rfl
    | some payload =>
      rcases applyEnqueue with ⟨room,_,after⟩ | ⟨full,_,same⟩
      · rw [label,if_pos room]
        exact viewEnqueue after
      · rw [label,if_neg full,same]
        rfl
  | dequeue now tie =>
    rcases applyDequeue db now tie with ⟨row,mem,_,_,found,_,after⟩ | ⟨_,none,_,same⟩
    · rw [after,viewDequeueMark,rowidRoundTrip mem,label,found]
    · rw [same,label,none]
      rfl
  | markSent messageId => exact viewMarkSent db messageId
  | markFailed messageId now => exact viewMarkFailed db _ messageId
  | purgeExpired ttlHours now => exact viewPurgeExpired db _
  | reset => exact viewReset db

theorem legal (db : Db) (op : Op) : Label.Legal (view db) (label db op) := by
  cases op with
  | dequeue now tie =>
    rcases applyDequeue db now tie with ⟨row,mem,wanted,_,found,_,_⟩ | ⟨_,none,_,_⟩
    · rw [label,found]
      exact ⟨item row.cols,viewStored.mpr ⟨row.cols,mem,rfl⟩,of_decide_eq_true wanted⟩
    · rw [label,none]
      trivial
  | enqueue payload now =>
    cases payload with
    | none => trivial
    | some payload => simp only [label]; split <;> trivial
  | _ => trivial

theorem viewRun (db : Db) (ops : List Op) :
    view (run apply db ops) = run (Label.apply leaseSeconds) (view db) (labels apply label db ops) :=
  simulates square db ops

theorem legalRun (db : Db) (ops : List Op) :
    Allowed (Label.apply leaseSeconds) Label.Legal (view db) (labels apply label db ops) :=
  simulatesAllowed square legal db ops

theorem sequenceRun (db : Db) (ops : List Op) : db.sequence ≤ (run apply db ops).sequence := by
  have grown := issuedRun leaseSeconds (view db) (labels apply label db ops)
  rw [← viewRun] at grown
  exact grown

/- A call that takes the message `id`, created at `createdAt`, out of the table. -/
def Removes (id : Nat) (createdAt : Int) : Op → Prop
  | .markSent messageId => messageId.toNat = id
  | .purgeExpired ttlHours now => createdAt + ttlHours.toNat*secondsPerHour ≤ now
  | .reset => True
  | _ => False
instance (id createdAt op) : Decidable (Removes id createdAt op) := by
  cases op <;> unfold Removes <;> infer_instance

def fails (id : Nat) : Op → Bool
  | .markFailed messageId _ => id == messageId.toNat
  | _ => false

theorem labelRemoves (db : Db) (op : Op) (id : Nat) (payload : Bytes) (createdAt : Int) :
    (label db op).Removes id (payload,createdAt) ↔ Removes id createdAt op := by
  cases op with
  | enqueue payload now =>
    cases payload with
    | none => exact Iff.rfl
    | some payload => simp only [label]; split <;> exact Iff.rfl
  | dequeue now tie => simp only [label]; split <;> exact Iff.rfl
  | markSent messageId =>
    change (id == messageId.toNat) = true ↔ messageId.toNat = id
    rw [beq_iff_eq]
    exact eq_comm
  | markFailed messageId now => exact Iff.rfl
  | purgeExpired ttlHours now =>
    change decide (createdAt ≤ now - ttlHours.toNat*secondsPerHour) = true ↔ createdAt + ttlHours.toNat*secondsPerHour ≤ now
    rw [decide_eq_true_eq]
    omega
  | reset => exact ⟨fun _ => trivial,fun _ => rfl⟩

theorem labelFails (id : Nat) (db : Db) (op : Op) : (label db op).fails id = fails id op := by
  cases op with
  | enqueue payload now =>
    cases payload with
    | none => rfl
    | some payload => simp only [label]; split <;> rfl
  | dequeue now tie => simp only [label]; split <;> rfl
  | _ => rfl

/- The fate of a stored message under any further calls. -/
theorem rowFate {db : Db} {row : Row Message} (mem : row ∈ db.rows) (ops : List Op) :
    ((∃ r ∈ (run apply db ops).rows, r.id = row.id) ↔ ∀ op ∈ ops, ¬ Removes row.id row.cols.createdAt op) ∧
    ∀ r ∈ (run apply db ops).rows, r.id = row.id →
      r.cols.payload = row.cols.payload ∧ r.cols.createdAt = row.cols.createdAt ∧
      r.cols.retryCount = row.cols.retryCount + ops.countP (fails row.id) := by
  have stored : (view db).item row.id = some (item row.cols) := viewStored.mpr ⟨row.cols,mem,rfl⟩
  have fate := survives leaseSeconds stored (labels apply label db ops)
  rw [← viewRun] at fate
  refine ⟨?_,?_⟩
  · have removed : (∀ l ∈ labels apply label db ops, ¬ l.Removes row.id (item row.cols).content) ↔
        ∀ op ∈ ops, ¬ Removes row.id row.cols.createdAt op := by
      constructor
      · intro h op member
        obtain ⟨pre,post,rfl⟩ := List.append_of_mem member
        rw [← labelRemoves (run apply db pre) op row.id row.cols.payload]
        exact h _ (labelsMem.mpr ⟨pre,op,post,rfl,rfl⟩)
      · intro h l member
        obtain ⟨pre,op,post,rfl,rfl⟩ := labelsMem.mp member
        rw [item,labelRemoves]
        exact h op (by simp)
    rw [← removed,← fate.1]
    constructor
    · rintro ⟨r,hr,same⟩
      exact ⟨item r.cols,viewStored.mpr ⟨r.cols,by rw [← same]; exact hr,rfl⟩⟩
    · rintro ⟨m,found⟩
      obtain ⟨c,hc,_⟩ := viewStored.mp found
      exact ⟨_,hc,rfl⟩
  · intro r hr same
    have values := fate.2 (item r.cols) (viewStored.mpr ⟨r.cols,by rw [← same]; exact hr,rfl⟩)
    rw [labelsCount (labelFails row.id)] at values
    obtain ⟨content,failures⟩ := values
    exact ⟨congrArg Prod.fst content,congrArg Prod.snd content,failures⟩

end UmapTracker.QueueRuns
