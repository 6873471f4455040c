import Mathlib.Algebra.Order.Group.Int
import UmapTracker.MessageQueue
import UmapTracker.Outbox

/-! The table of messages read as an outbox: each C++ operation, under any answers of
SQLite, takes one step of the abstract store. The content of a message is its payload
with its created_at; next_retry_at is its availability. -/
namespace UmapTracker.QueueView
open AutoTable MessageQueue Outbox Text

abbrev Content := Bytes × Int

def item (m : Message) : Item Content Int := ⟨(m.payload,m.createdAt),m.retryCount,m.nextRetryAt⟩

def view (db : Db) : Store Content Int where
  issued := db.sequence
  item := fun i => (cell db i).map item
  fresh := by
    intro i above
    simp [cellAbove above]

@[simp] theorem viewItem (db : Db) (i : Nat) : (view db).item i = (cell db i).map item := rfl

theorem viewStored {db : Db} {i : Nat} {m : Item Content Int} :
    (view db).item i = some m ↔ ∃ c, (⟨i,c⟩ : Row Message) ∈ db.rows ∧ item c = m := by
  simp [cellMem]

theorem rowidFits {db : Db} {r : Row Message} (mem : r ∈ db.rows) : r.id < 2^63 := by
  have low := (db.issued r mem).2
  have high := db.bounded
  simp only [maxRowid] at high
  omega

theorem rowidRoundTrip {db : Db} {r : Row Message} (mem : r ∈ db.rows) :
    (UInt64.ofNat r.id).toNat = r.id := by
  have := rowidFits mem
  exact UInt64.toNat_ofNat_of_lt' (by simp only [UInt64.size]; omega)

/- A stored row has a positive 63-bit id, so the signed comparison of the WHERE clause
is a comparison of the unsigned ids. -/
theorem addressesRow {db : Db} {r : Row Message} (mem : r ∈ db.rows) (id : UInt64) :
    addresses id r = (r.id == id.toNat) := by
  have := rowidFits mem
  have := id.toNat_lt
  simp only [addresses,asInt64,Bool.beq_eq_decide_eq,decide_eq_decide]
  split <;> omega

/- The statements that name a message touch its row alone. -/
theorem cellUpdateOwn (db : Db) (id : UInt64) (f : Message → Message) (i : Nat) :
    cell (update db (addresses id) f) i = if i = id.toNat then (cell db i).map f else cell db i := by
  rw [cellUpdate]
  cases h : cell db i with
  | none => simp
  | some c =>
    have known : addresses id ⟨i,c⟩ = (i == id.toNat) := addressesRow (cellMem.mp h) id
    by_cases own : i = id.toNat
    · simp [known,if_pos own]
    · simp [known,if_neg own]

theorem cellDeleteOwn (db : Db) (id : UInt64) (i : Nat) :
    cell (delete db (addresses id)) i = if i = id.toNat then none else cell db i := by
  rw [cellDelete]
  cases h : cell db i with
  | none => simp
  | some c =>
    have known : addresses id ⟨i,c⟩ = (i == id.toNat) := addressesRow (cellMem.mp h) id
    by_cases own : i = id.toNat
    · simp [Option.filter,known,if_pos own]
    · simp [Option.filter,known,if_neg own]

theorem viewUpdate {db : Db} {p : Row Message → Bool} {f : Message → Message} {id : Nat}
    {l : Label Content Int} {g : Item Content Int → Item Content Int}
    (label : ∀ i o, l.effect leaseSeconds i o = if i = id then o.map g else o)
    (issued : (l.apply leaseSeconds (view db)).issued = db.sequence)
    (columns : ∀ c, item (f c) = g (item c)) (known : ∀ r ∈ db.rows, p r = (r.id == id)) :
    view (update db p f) = l.apply leaseSeconds (view db) := by
  apply Store.ext
  · exact issued.symm
  · funext i
    by_cases low : i ≤ db.sequence
    · rw [itemApply low,label,viewItem,viewItem,cellUpdate]
      cases h : cell db i with
      | none => simp
      | some c =>
        have row := known _ (cellMem.mp h)
        by_cases same : i = id
        · subst same
          simp [row,columns]
        · simp [row,same]
    · have above : db.sequence < i := by omega
      have gone := (l.apply leaseSeconds (view db)).fresh i (by omega)
      simp [gone,cellUpdate,cellAbove above]

theorem viewDelete {db : Db} {p : Row Message → Bool} {gone : Nat → Content → Bool}
    (known : ∀ r ∈ db.rows, p r = gone r.id (item r.cols).content) :
    view (delete db p) = (Label.remove gone).apply leaseSeconds (view db) := by
  apply Store.ext
  · rfl
  · funext i
    change (cell (delete db p) i).map item = ((cell db i).map item).filter _
    rw [cellDelete]
    cases h : cell db i with
    | none => rfl
    | some c =>
      have row := known _ (cellMem.mp h)
      by_cases out : gone i (item c).content = true <;> simp [Option.filter,row,out]

theorem viewEnqueue {db after : Db} {payload : Bytes} {createdAt nextRetryAt : Int}
    (h : sqlEnqueue db payload createdAt nextRetryAt = some after) :
    view after = (Label.accept (payload,createdAt) nextRetryAt).apply leaseSeconds (view db) := by
  apply Store.ext
  · exact insertSequence h
  · funext i
    change (cell after i).map item = if i = db.sequence+1 then _ else _
    rw [cellInsert h]
    split <;> rfl

theorem viewDequeueMark (db : Db) (now : Int) (id : UInt64) :
    view (sqlDequeueMark db (now+leaseSeconds) id) = (Label.lease id.toNat now).apply leaseSeconds (view db) :=
  viewUpdate (fun _ _ => rfl) rfl (fun _ => rfl) (fun _ hs => addressesRow hs id)

theorem viewMarkFailed (db : Db) (next : Int) (id : UInt64) :
    view (sqlMarkFailed db next id) = (Label.fail id.toNat next).apply leaseSeconds (view db) :=
  viewUpdate (fun _ _ => rfl) rfl (fun _ => rfl) (fun _ hs => addressesRow hs id)

theorem viewMarkSent (db : Db) (id : UInt64) :
    view (sqlMarkSent db id) = (Label.remove (fun i _ => i == id.toNat)).apply leaseSeconds (view db) :=
  viewDelete (fun _ hs => addressesRow hs id)

theorem viewPurgeExpired (db : Db) (cutoff : Int) :
    view (sqlPurgeExpired db cutoff) =
      (Label.remove (fun _ c => decide (c.2 ≤ cutoff))).apply leaseSeconds (view db) :=
  viewDelete (fun _ _ => rfl)

theorem viewReset (db : Db) :
    view (delete db (fun _ => true)) = (Label.remove (fun _ _ => true)).apply leaseSeconds (view db) :=
  viewDelete (fun _ _ => rfl)

end UmapTracker.QueueView
