import UmapTracker.QueueView

/-! What a message is to its sender: its id, its payload and its created_at. These calls may meet
any answer of SQLite; none of them changes a message, an enqueue adds one, and a
mark_sent takes out its own. -/
namespace UmapTracker.QueueContents
open AutoTable MessageQueue QueueView Text

abbrev Entry := Nat × Bytes × Int

def rowEntry (r : Row Message) : Entry := (r.id,r.cols.payload,r.cols.createdAt)

def entry (m : QueuedMessage) : Entry := (m.id.toNat,m.payload,m.createdAt)

def contents (db : Db) : List Entry := db.rows.map rowEntry

theorem queuedEntry {db : Db} {row : Row Message} (mem : row ∈ db.rows) (now : Int) :
    entry (queued now row) = rowEntry row := by
  simp only [entry,queued,rowEntry,rowidRoundTrip mem]

theorem contentsUnique {db : Db} {c : Entry} {row : Row Message} (stored : c ∈ contents db) (mem : row ∈ db.rows)
    (same : c.1 = row.id) : c = rowEntry row := by
  obtain ⟨r,hr,rfl⟩ := List.mem_map.mp stored
  rw [uniqueId hr mem same]

theorem contentsUpdate {db : Db} {p : Row Message → Bool} {f : Message → Message}
    (same : ∀ m, (f m).payload = m.payload ∧ (f m).createdAt = m.createdAt) :
    contents (update db p f) = contents db := by
  simp only [contents,update,List.map_map]
  apply List.map_congr_left
  intro r _
  by_cases hit : p r = true <;> simp [rewrite,rowEntry,hit,same]

/- The SELECT of a dequeue is executed. -/
def Polls (impl : Impl) (env : DequeueEnv) : Prop :=
  impl.has .dequeueSelect = true ∧ impl.has .dequeueMark = true ∧ env.select = .runs

/- What a dequeue does, whatever SQLite answers: it finds the oldest ready message, or it
reports an error and leaves the table alone. -/
inductive Dequeued (impl : Impl) (db : Db) (env : DequeueEnv) : Prop where
  | message (row : Row Message) (polls : Polls impl env) (mem : row ∈ db.rows) (wanted : ready env.now row = true)
      (least : ∀ r ∈ db.rows, ready env.now r = true → row.cols.createdAt ≤ r.cols.createdAt)
      (same : dequeue impl db env = (.ok (queued env.now row),
        env.mark.change db (sqlDequeueMark db (env.now+leaseSeconds) (UInt64.ofNat row.id))))
  | refused (e : ErrorCode) (same : dequeue impl db env = (.error e,db))
      (nothing : Polls impl env → ∀ r ∈ db.rows, ready env.now r = false)

theorem dequeueSpec (impl : Impl) (db : Db) (env : DequeueEnv) : Dequeued impl db env := by
  by_cases prepared : (impl.has .dequeueSelect && impl.has .dequeueMark) = true
  · obtain ⟨select,mark⟩ := Bool.and_eq_true_iff.mp prepared
    cases hs : env.select with
    | fails code =>
      exact .refused .notFound (by simp [dequeue,prepared,hs,Exec.outcome]) (by simp [Polls,hs])
    | runs =>
      cases found : sqlDequeueSelect db env.now env.tie with
      | none =>
        exact .refused .notFound (by simp [dequeue,prepared,hs,Exec.outcome,found]) (fun _ => selectFirstNone.mp found)
      | some row =>
        obtain ⟨mem,wanted,least⟩ := selectFirstSome found
        exact .message row ⟨select,mark,hs⟩ mem wanted least
          (by simp [dequeue,prepared,hs,Exec.outcome,found,queued])
  · refine .refused .invalidConfig (by simp [dequeue,prepared]) ?_
    rintro ⟨select,mark,_⟩
    rw [select,mark] at prepared
    contradiction

theorem contentsDequeue (impl : Impl) (db : Db) (env : DequeueEnv) : contents (dequeue impl db env).2 = contents db := by
  cases dequeueSpec impl db env with
  | refused e same => rw [same]
  | message row polls mem wanted least same =>
    rw [same]
    cases env.mark with
    | fails code => rfl
    | runs => exact contentsUpdate (fun _ => ⟨rfl,rfl⟩)

theorem contentsMarkFailed (impl : Impl) (db : Db) (id : UInt64) (env : MarkFailedEnv) :
    contents (markFailed impl db id env).2 = contents db := by
  unfold markFailed
  split
  · cases env.mark with
    | fails code => rfl
    | runs => exact contentsUpdate (fun _ => ⟨rfl,rfl⟩)
  · rfl

theorem contentsSqlMarkSent (db : Db) (id : UInt64) (c : Entry) :
    c ∈ contents (sqlMarkSent db id) ↔ c ∈ contents db ∧ c.1 ≠ id.toNat := by
  simp only [contents,sqlMarkSent,delete,List.mem_map,List.mem_filter]
  constructor
  · rintro ⟨r,⟨mem,other⟩,rfl⟩
    rw [addressesRow mem] at other
    exact ⟨⟨r,mem,rfl⟩,by simpa [rowEntry] using other⟩
  · rintro ⟨⟨r,mem,rfl⟩,other⟩
    refine ⟨r,⟨mem,?_⟩,rfl⟩
    rw [addressesRow mem]
    simpa [rowEntry] using other

theorem contentsMarkSent (impl : Impl) (db : Db) (id : UInt64) (step : Exec) (c : Entry) :
    (c ∈ contents (markSent impl db id step).2 → c ∈ contents db) ∧
    (c ∈ contents db → c ∈ contents (markSent impl db id step).2 ∨ c.1 = id.toNat) := by
  unfold markSent
  split
  · cases step with
    | fails code => exact ⟨fun h => h,.inl⟩
    | runs =>
      have kept := contentsSqlMarkSent db id c
      refine ⟨fun h => (kept.mp h).1,?_⟩
      intro stored
      by_cases own : c.1 = id.toNat
      · exact .inr own
      · exact .inl (kept.mpr ⟨stored,own⟩)
  · exact ⟨fun h => h,.inl⟩

/- SQLite has room for the row and executes the INSERT. -/
def Inserts (impl : Impl) (db : Db) (step : Exec) : Prop :=
  impl.has .enqueue = true ∧ step = .runs ∧ db.sequence < maxRowid

/- An enqueue stores its text under the next id, or nothing when the INSERT is not executed. -/
theorem contentsEnqueue (impl : Impl) (db : Db) (text : Bytes) (now : Int) (step : Exec) :
    ((enqueue impl db (some text) now step).1 = .ok () ∧
      contents (enqueue impl db (some text) now step).2 = contents db ++ [(db.sequence+1,text,now)]) ∨
    ((enqueue impl db (some text) now step).2 = db ∧ ¬ Inserts impl db step) := by
  by_cases prepared : impl.has .enqueue = true
  · cases step with
    | fails code => exact .inr ⟨by simp [enqueue,prepared,Exec.outcome],by simp [Inserts]⟩
    | runs =>
      cases inserted : sqlEnqueue db text now now with
      | none =>
        have full := insertNone.mp inserted
        exact .inr ⟨by simp [enqueue,prepared,Exec.outcome,inserted],by simp [Inserts,full]⟩
      | some after =>
        refine .inl ⟨by simp [enqueue,prepared,Exec.outcome,inserted],?_⟩
        simp only [enqueue,prepared,if_pos,Exec.outcome,inserted,contents,insertRows inserted,List.map_append]
        rfl
  · exact .inr ⟨by simp [enqueue,prepared],fun inserts => prepared inserts.1⟩

theorem acceptedInserts {impl : Impl} {db : Db} {text : Bytes} {now : Int} {step : Exec}
    (accepted : (enqueue impl db (some text) now step).1 = .ok ()) : Inserts impl db step := by
  unfold enqueue at accepted
  dsimp only at accepted
  split at accepted <;> try contradiction
  rename_i prepared
  cases step with
  | fails code => contradiction
  | runs =>
    refine ⟨prepared,rfl,Nat.lt_of_le_of_ne db.bounded (fun full => ?_)⟩
    have none : sqlEnqueue db text now now = none := insertNone.mpr full
    simp [Exec.outcome,none] at accepted

end UmapTracker.QueueContents
