import UmapTracker.QueueLaw

/-! Which ready message a dequeue returns while the clock does not step back. created_at
follows the order of the enqueues, but only to the second: ORDER BY created_at leaves
the messages of one second in no order. -/
namespace UmapTracker.QueueOrder
open AutoTable MessageQueue QueueView QueueRuns QueueLaw

def clock : Op → Option Int
  | .enqueue _ now => some now
  | .dequeue now _ => some now
  | .markFailed _ now => some now
  | .purgeExpired _ now => some now
  | .markSent _ => none
  | .reset => none

/- The clock readings of the calls and then of `now` do not decrease. -/
def Nondecreasing (ops : List Op) (now : Int) : Prop := (ops.filterMap clock ++ [now]).Pairwise (· ≤ ·)
instance (ops now) : Decidable (Nondecreasing ops now) := by unfold Nondecreasing; infer_instance

theorem nextIdGrows (pre post : List Op) : nextId pre ≤ nextId (pre ++ post) := by
  rw [nextId,nextId,historyAppend]
  exact Nat.succ_le_succ (sequenceRun _ _)

theorem enqueuedEarlier {ops : List Op} {a b : Row Message} (ha : a ∈ (history ops).rows)
    (hb : b ∈ (history ops).rows) (less : a.id < b.id) :
    ∃ pre p mid q post, ops = pre ++ .enqueue (some p) a.cols.createdAt::(mid ++ .enqueue (some q) b.cols.createdAt::post) := by
  obtain ⟨pre,p,now,post,rfl,accepted,ida⟩ := historyOrigin ha
  obtain ⟨_,createdA,_⟩ := (fateOfAccepted accepted).2 a ha ida
  obtain ⟨pre',q,now',post',same,accepted',idb⟩ := historyOrigin hb
  rw [same] at hb
  obtain ⟨_,createdB,_⟩ := (fateOfAccepted accepted').2 b hb idb
  rw [createdA,createdB]
  rw [ida,idb] at less
  rcases List.append_eq_append_iff.mp same with ⟨mid,rfl,rest⟩ | ⟨mid,rfl,_⟩
  · cases mid with
    | nil => rw [List.append_nil] at less; omega
    | cons op mid =>
      obtain ⟨rfl,rfl⟩ := List.cons.inj rest
      exact ⟨pre,p,mid,q,post',rfl⟩
  · have := nextIdGrows pre' mid
    omega

theorem createdInOrder {ops : List Op} {now : Int} (steady : Nondecreasing ops now) {a b : Row Message}
    (ha : a ∈ (history ops).rows) (hb : b ∈ (history ops).rows) (before : a.id ≤ b.id) :
    a.cols.createdAt ≤ b.cols.createdAt := by
  rcases Nat.lt_or_eq_of_le before with less | same
  · obtain ⟨pre,p,mid,q,post,rfl⟩ := enqueuedEarlier ha hb less
    simp only [Nondecreasing,List.filterMap_append,List.filterMap_cons,clock,List.append_assoc,
      List.cons_append] at steady
    have tail := (List.pairwise_append.mp steady).2.1
    exact (List.pairwise_cons.mp tail).1 _ (by simp)
  · rw [uniqueId ha hb same]

/- Whatever row of a tie SQLite picks, the dequeue returns the ready message that was enqueued first. -/
def FirstInFirstOut (db : Db) (now : Int) : Prop :=
  ∀ tie, (∃ r ∈ db.rows, ready now r = true) →
    ∃ row ∈ db.rows, ready now row = true ∧ returned db now tie = some (queued now row) ∧
      ∀ r ∈ db.rows, ready now r = true → row.id ≤ r.id

/- No second ready message was created in the second of the oldest ready one. -/
def OldestAlone (db : Db) (now : Int) : Prop :=
  ∀ a ∈ db.rows, ∀ b ∈ db.rows, ready now a = true → ready now b = true →
    (∀ r ∈ db.rows, ready now r = true → a.cols.createdAt ≤ r.cols.createdAt) →
    a.cols.createdAt = b.cols.createdAt → a.id = b.id

theorem orderedByAge {db : Db} {now : Int} (alone : OldestAlone db now)
    (order : ∀ a ∈ db.rows, ∀ b ∈ db.rows, a.id ≤ b.id → a.cols.createdAt ≤ b.cols.createdAt) :
    FirstInFirstOut db now := by
  rintro tie ⟨r,mem,wanted⟩
  rcases applyDequeue db now tie with ⟨row,hrow,isReady,least,_,same,_⟩ | ⟨none,_,_,_⟩
  · refine ⟨row,hrow,isReady,same,?_⟩
    intro s hs ps
    by_contra earlier
    -- a smaller id is at least as old, hence ties with the row returned
    have tied : row.cols.createdAt = s.cols.createdAt :=
      Int.le_antisymm (least s hs ps) (order s hs row hrow (by omega))
    have := alone row hrow s hs isReady ps least tied
    omega
  · rw [none r mem] at wanted
    contradiction

theorem tieIsAmbiguous {db : Db} {now : Int} (fifo : FirstInFirstOut db now) : OldestAlone db now := by
  intro a ha b hb pa pb least tied
  have first : ∀ x ∈ db.rows, ready now x = true → x.cols.createdAt = a.cols.createdAt →
      ∀ r ∈ db.rows, ready now r = true → x.id ≤ r.id := by
    intro x hx px same r hr pr
    obtain ⟨tie,found⟩ : ∃ tie, sqlDequeueSelect db now tie = some x :=
      selectFirstReaches hx px (by intro s hs ps; rw [same]; exact least s hs ps)
    obtain ⟨row,hrow,_,answer,smallest⟩ := fifo tie ⟨x,hx,px⟩
    rcases applyDequeue db now tie with ⟨row',hrow',_,_,found',answer',_⟩ | ⟨_,none,_,_⟩
    · have picked : row' = x := Option.some.inj (found'.symm.trans found)
      have ids := congrArg (fun m => m.id.toNat) (Option.some.inj (answer.symm.trans answer'))
      simp only [queued,rowidRoundTrip hrow,rowidRoundTrip hrow'] at ids
      rw [← picked,← ids]
      exact smallest r hr pr
    · rw [found] at none
      contradiction
  exact Nat.le_antisymm (first a ha pa rfl b hb pb) (first b hb pb tied.symm a ha pa)

theorem dequeueInOrderIff (ops : List Op) (now : Int) (steady : Nondecreasing ops now) :
    FirstInFirstOut (history ops) now ↔ OldestAlone (history ops) now :=
  ⟨tieIsAmbiguous,fun alone => orderedByAge alone (fun _ ha _ hb before => createdInOrder steady ha hb before)⟩

theorem dequeueInOrderDistinctSeconds :
    FirstInFirstOut (history [.enqueue (some [97]) 100,.enqueue (some [98]) 101]) 101 :=
  (dequeueInOrderIff [.enqueue (some [97]) 100,.enqueue (some [98]) 101] 101 (by decide)).mpr (by
    unfold OldestAlone
    decide)

/- Two messages of one second; the first is taken, fails and becomes ready again after its
backoff. Both are then ready and tie, and the later one may be returned. -/
theorem retriedMessageOvertaken :
    Nondecreasing [.enqueue (some [97]) 100,.enqueue (some [98]) 100,.dequeue 100 0,.markFailed 1 100] 110 ∧
    returned (history [.enqueue (some [97]) 100,.enqueue (some [98]) 100,.dequeue 100 0,.markFailed 1 100]) 110 1 =
      some ⟨2,[98],0,100,86510⟩ ∧
    ¬ FirstInFirstOut (history [.enqueue (some [97]) 100,.enqueue (some [98]) 100,.dequeue 100 0,.markFailed 1 100]) 110 := by
  have later : returned (history [.enqueue (some [97]) 100,.enqueue (some [98]) 100,.dequeue 100 0,.markFailed 1 100]) 110 1 =
      some ⟨2,[98],0,100,86510⟩ := by decide
  refine ⟨by decide,later,?_⟩
  intro fifo
  obtain ⟨row,mem,_,answer,smallest⟩ := fifo 1 ⟨⟨1,[97],1,100,104⟩,by decide,by decide⟩
  have id := congrArg QueuedMessage.id (Option.some.inj (answer.symm.trans later))
  have low := smallest ⟨1,[97],1,100,104⟩ (by decide) (by decide)
  have := congrArg UInt64.toNat id
  simp only [queued,rowidRoundTrip mem] at this
  simp at this low
  omega

end UmapTracker.QueueOrder
