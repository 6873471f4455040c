import UmapTracker.Config
import UmapTracker.QueueLaw

/-! The number of stored messages against RuntimeConfig::max_queue_size(). An enqueue only
inserts: it reads no limit and removes no row. -/
namespace UmapTracker.QueueLimit
open AutoTable MessageQueue QueueRuns QueueLaw Config Machine Text

def limit (config : RuntimeConfig) : Nat := config.maxQueueSize.toNat

def enqueued (payload : Bytes) (now : Int) (db : Db) : Row Message := ⟨db.sequence+1,payload,0,now,now⟩

/- The eviction policy: the enqueue succeeds, and of the stored messages exactly one with the least
created_at is gone. -/
def EvictsOldest (db : Db) (payload : Bytes) (now : Int) : Prop :=
  (enqueue .opened db (some payload) now .runs).1 = .ok () ∧
  ∃ oldest ∈ db.rows, (∀ r ∈ db.rows, oldest.cols.createdAt ≤ r.cols.createdAt) ∧
    (apply db (.enqueue (some payload) now)).rows = db.rows.erase oldest ++ [enqueued payload now db]

structure WithinLimit (config : RuntimeConfig) (ops : List Op) : Prop where
  bounded : ∀ pre post, ops = pre ++ post → totalCount .opened (history pre) .runs ≤ config.maxQueueSize
  evicts : ∀ pre payload now post, ops = pre ++ .enqueue (some payload) now::post →
    limit config ≤ (history pre).rows.length → EvictsOldest (history pre) payload now

/- The call is not an enqueue on a queue that already holds max_queue_size() messages. -/
def Room (config : RuntimeConfig) (db : Db) : Op → Prop
  | .enqueue (some _) _ => db.rows.length < limit config
  | _ => True

def NeverFull (config : RuntimeConfig) (ops : List Op) : Prop := Allowed apply (Room config) empty ops

theorem enqueueLength (db : Db) (payload : Bytes) (now : Int) :
    (apply db (.enqueue (some payload) now)).rows.length = db.rows.length+1 ∨
    ((enqueue .opened db (some payload) now .runs).1 = .error .internalError ∧
      apply db (.enqueue (some payload) now) = db) := by
  rcases applyEnqueue with ⟨_,_,after⟩ | ⟨_,failed,same⟩
  · exact .inl (by rw [insertRows after]; simp)
  · exact .inr ⟨failed,same⟩

theorem updateLength (db : Db) (p : Row Message → Bool) (f : Message → Message) :
    (update db p f).rows.length = db.rows.length := List.length_map _

theorem deleteLength (db : Db) (p : Row Message → Bool) : (delete db p).rows.length ≤ db.rows.length :=
  List.length_filter_le _ _

theorem roomKeeps {config : RuntimeConfig} {db : Db} {op : Op} (room : Room config db op)
    (low : db.rows.length ≤ limit config) : (apply db op).rows.length ≤ limit config := by
  cases op with
  | enqueue payload now =>
    cases payload with
    | none => exact low
    | some payload =>
      have below : db.rows.length < limit config := room
      rcases enqueueLength db payload now with grown | ⟨_,same⟩
      · omega
      · rwa [same]
  | dequeue now tie =>
    rcases applyDequeue db now tie with ⟨_,_,_,_,_,_,after⟩ | ⟨_,_,_,after⟩
    · rw [after]
      exact (updateLength _ _ _).trans_le low
    · rwa [after]
  | markSent messageId => exact (deleteLength _ _).trans low
  | markFailed messageId now => exact (updateLength _ _ _).trans_le low
  | purgeExpired ttlHours now => exact (deleteLength _ _).trans low
  | reset => exact (deleteLength _ _).trans low

theorem totalWithin {config : RuntimeConfig} {ops : List Op} (room : NeverFull config ops) :
    totalCount .opened (history ops) .runs ≤ config.maxQueueSize := by
  have low : (history ops).rows.length ≤ limit config :=
    runKeepsAllowed (I := fun db : Db => db.rows.length ≤ limit config)
      (fun _ _ guard held => roomKeeps guard held) room (Nat.zero_le _)
  have small := config.maxQueueSize.toNat_lt
  have count : (totalCount .opened (history ops) .runs).toNat = (history ops).rows.length :=
    UInt32.toNat_ofNat_of_lt' (by simp only [UInt32.size,limit] at *; exact low.trans_lt small)
  rw [UInt32.le_iff_toNat_le,count]
  exact low

theorem neverEvicts {db : Db} {payload : Bytes} {now : Int} : ¬ EvictsOldest db payload now := by
  rintro ⟨accepted,oldest,mem,_,rows⟩
  rcases enqueueLength db payload now with grown | ⟨failed,_⟩
  · have positive := List.length_pos_of_mem mem
    rw [rows,List.length_append,List.length_erase_of_mem mem,List.length_singleton] at grown
    omega
  · rw [failed] at accepted
    contradiction

theorem withinLimitIff (config : RuntimeConfig) (ops : List Op) : WithinLimit config ops ↔ NeverFull config ops := by
  constructor
  · intro law pre op post same
    cases op with
    | enqueue payload now =>
      cases payload with
      | none => trivial
      | some payload =>
        by_contra full
        exact neverEvicts (law.evicts pre payload now post same (Nat.le_of_not_lt full))
    | _ => trivial
  · intro room
    refine ⟨?_,?_⟩
    · rintro pre post rfl
      exact totalWithin (allowedAppend.mp room).1
    · intro pre payload now post same full
      have below : (history pre).rows.length < limit config := room pre _ post same
      omega

/- max_queue_size() is 1 and two messages are enqueued: both succeed and both stay. -/
theorem secondMessageKept :
    (enqueue .opened (history [.enqueue (some [97]) 0]) (some [98]) 0 .runs).1 = .ok () ∧
    totalCount .opened (history [.enqueue (some [97]) 0,.enqueue (some [98]) 0]) .runs = 2 ∧
    ¬ WithinLimit (setMaxQueueSize resetToDefaults 1) [.enqueue (some [97]) 0,.enqueue (some [98]) 0] := by
  refine ⟨by decide,by decide,?_⟩
  intro law
  exact absurd (law.bounded [.enqueue (some [97]) 0,.enqueue (some [98]) 0] [] rfl) (by decide)

end UmapTracker.QueueLimit
