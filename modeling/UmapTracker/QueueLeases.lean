import UmapTracker.QueueLaw

/-! Who may hold a message and when it is ready. A dequeue leases its message for 86400
seconds of the clock it read; availability is a comparison with the current reading,
whatever the clock did in between. -/
namespace UmapTracker.QueueLeases
open AutoTable MessageQueue Outbox QueueView QueueRuns QueueLaw Machine

/- No dequeue of `ops`, made after `before`, hands out the message `id`. -/
def NotHandedOut (before : Db) (ops : List Op) (id : Nat) : Prop :=
  ∀ pre now tie post, ops = pre ++ .dequeue now tie::post →
    ∀ m, returned (run apply before pre) now tie = some m → m.id.toNat ≠ id

theorem labelLeases {db : Db} {op : Op} {id : Nat} (h : (label db op).leases id = true) :
    ∃ now tie m, op = .dequeue now tie ∧ returned db now tie = some m ∧ m.id.toNat = id := by
  cases op with
  | enqueue payload now =>
    cases payload with
    | none => contradiction
    | some payload => simp only [label] at h; split at h <;> contradiction
  | dequeue now tie =>
    rcases applyDequeue db now tie with ⟨row,mem,_,_,found,same,_⟩ | ⟨_,none,_,_⟩
    · simp only [label,found,Label.leases,beq_iff_eq] at h
      exact ⟨now,tie,_,rfl,same,(rowidRoundTrip mem).trans h.symm⟩
    · simp [label,none,Label.leases] at h
  | _ => contradiction

theorem sparedByCalls {db : Db} {ops : List Op} {id : Nat} {content : Content}
    (kept : ∀ op ∈ ops, ¬ Removes id content.2 op) (noFail : ∀ op ∈ ops, fails id op = false)
    (waiting : NotHandedOut db ops id) :
    ∀ l ∈ labels apply label db ops, Spares id content l := by
  intro l member
  obtain ⟨pre,op,post,rfl,rfl⟩ := labelsMem.mp member
  refine ⟨by rw [labelFails]; exact noFail op (by simp),?_,?_⟩
  · by_contra leased
    obtain ⟨now,tie,m,rfl,found,same⟩ := labelLeases (by simpa using leased)
    exact waiting pre now tie post rfl m found same
  · rw [show content = (content.1,content.2) from rfl,labelRemoves]
    exact kept op (by simp)

theorem dequeueLabel {db : Db} {now : Int} {tie : Nat} {row : Row Message}
    (found : sqlDequeueSelect db now tie = some row) : label db (.dequeue now tie) = .lease row.id now := by
  simp [label,found]

theorem exclusiveLease {db : Db} {mid : List Op} {now later : Int} {tie tie' : Nat} {m m' : QueuedMessage}
    (first : returned db now tie = some m)
    (second : returned (run apply db (.dequeue now tie::mid)) later tie' = some m')
    (same : m'.id = m.id) (noFail : ∀ op ∈ mid, fails m.id.toNat op = false) : now+leaseSeconds ≤ later := by
  obtain ⟨row,mem,_,found,rfl⟩ := returnedRow first
  obtain ⟨row',mem',_,found',rfl⟩ := returnedRow second
  have ids : row'.id = row.id := by
    have := congrArg UInt64.toNat same
    simpa only [queued,rowidRoundTrip mem,rowidRoundTrip mem'] using this
  simp only [queued,rowidRoundTrip mem] at noFail
  have legal := legalRun db (.dequeue now tie::mid ++ [.dequeue later tie'])
  rw [labelsAppend,labels,dequeueLabel found,labels,dequeueLabel found',labels,ids] at legal
  refine leaseExclusive (by decide) legal ?_
  intro l member
  obtain ⟨pre,op,post,rfl,rfl⟩ := labelsMem.mp member
  rw [labelFails]
  exact noFail op (by simp)

theorem leasedRow {db : Db} {mid : List Op} {now : Int} {tie : Nat} {row : Row Message}
    (mem : row ∈ db.rows) (found : sqlDequeueSelect db now tie = some row)
    (kept : ∀ op ∈ mid, ¬ Removes row.id row.cols.createdAt op) (noFail : ∀ op ∈ mid, fails row.id op = false)
    (waiting : NotHandedOut (apply db (.dequeue now tie)) mid row.id) :
    (⟨row.id,{row.cols with nextRetryAt := now+leaseSeconds}⟩ : Row Message) ∈
      (run apply db (.dequeue now tie::mid)).rows := by
  have stored : (view db).item row.id = some (item row.cols) := viewStored.mpr ⟨row.cols,mem,rfl⟩
  have spared : ∀ l ∈ labels apply label (apply db (.dequeue now tie)) mid, Spares row.id (item row.cols).content l :=
    sparedByCalls kept noFail waiting
  have back : (view (run apply db (.dequeue now tie::mid))).item row.id =
      some {item row.cols with available := now+leaseSeconds} := by
    rw [viewRun,labels,dequeueLabel found]
    exact leaseReturns stored spared
  obtain ⟨c,hc,same⟩ := viewStored.mp back
  have columns : c = {row.cols with nextRetryAt := now+leaseSeconds} := by
    cases c
    simpa [item,and_assoc,and_left_comm] using same
  exact columns ▸ hc

/- After a dequeue that returned `m` at `now`: nobody is handed `m` again before a mark_failed
of it or the end of the lease, and untouched it is ready from then on as it was. -/
theorem leaseOfDequeue (pre mid : List Op) (now : Int) (tie : Nat) (m : QueuedMessage)
    (taken : returned (history pre) now tie = some m) :
    (∀ later tie' m', returned (history (pre ++ .dequeue now tie::mid)) later tie' = some m' → m'.id = m.id →
      (∃ op ∈ mid, fails m.id.toNat op = true) ∨ now+86400 ≤ later) ∧
    ((∀ op ∈ mid, ¬ Removes m.id.toNat m.createdAt op) → (∀ op ∈ mid, fails m.id.toNat op = false) →
      NotHandedOut (history (pre ++ [.dequeue now tie])) mid m.id.toNat →
      ∃ before ∈ (history pre).rows, ∃ row ∈ (history (pre ++ .dequeue now tie::mid)).rows,
        before.id = m.id.toNat ∧ row.id = m.id.toNat ∧ row.cols.payload = m.payload ∧
        row.cols.payload = before.cols.payload ∧ row.cols.retryCount = before.cols.retryCount ∧
        ∀ later, ready later row = true ↔ now+86400 ≤ later) := by
  rw [historyAppend,historyAppend]
  refine ⟨?_,?_⟩
  · intro later tie' m' again same
    by_cases noFail : ∀ op ∈ mid, fails m.id.toNat op = false
    · exact .inr (exclusiveLease taken again same noFail)
    · simp only [not_forall,Bool.not_eq_false] at noFail
      obtain ⟨op,member,failed⟩ := noFail
      exact .inl ⟨op,member,failed⟩
  · obtain ⟨before,mem,_,found,rfl⟩ := returnedRow taken
    simp only [queued,rowidRoundTrip mem]
    intro kept noFail waiting
    exact ⟨before,mem,_,leasedRow mem found kept noFail waiting,rfl,rfl,rfl,rfl,rfl,fun later => decide_eq_true_iff⟩

theorem leaseOfFirstMessage :
    returned (history [.enqueue (some [97]) 5,.enqueue (some [98]) 5]) 6 0 = some ⟨1,[97],0,5,86406⟩ ∧
    ∃ row ∈ (history ([.enqueue (some [97]) 5,.enqueue (some [98]) 5] ++ .dequeue 6 0::[.markFailed 2 3])).rows,
      row.cols.payload = [97] ∧ ready 86406 row = true := by
  have taken : returned (history [.enqueue (some [97]) 5,.enqueue (some [98]) 5]) 6 0 =
      some ⟨1,[97],0,5,86406⟩ := by decide
  have waiting : NotHandedOut (history ([.enqueue (some [97]) 5,.enqueue (some [98]) 5] ++ [.dequeue 6 0]))
      [.markFailed 2 3] 1 := by
    intro pre now tie post same
    have member : Op.dequeue now tie ∈ [Op.markFailed 2 3] := by rw [same]; simp
    simp at member
  obtain ⟨_,_,row,mem,_,_,payload,_,_,available⟩ :=
    (leaseOfDequeue _ [.markFailed 2 3] 6 0 _ taken).2 (by decide) (by decide) waiting
  exact ⟨taken,row,mem,payload,(available 86406).mpr (by decide)⟩

theorem notHandedOutLater {before : Db} {pre post : List Op} {id : Nat} (h : NotHandedOut before (pre ++ post) id) :
    NotHandedOut (run apply before pre) post id := by
  rintro mid now tie rest rfl m found
  rw [← runAppend] at found
  exact h (pre ++ mid) now tie rest (by simp) m found

/- A message that was neither handed out nor marked failed is available from the reading of its
own enqueue on, and from no earlier reading. -/
theorem untouchedRow {ops : List Op} {row : Row Message} (mem : row ∈ (history ops).rows)
    (waiting : NotHandedOut empty ops row.id) (noFail : ∀ op ∈ ops, fails row.id op = false) :
    ∃ pre payload post, ops = pre ++ .enqueue (some payload) row.cols.createdAt::post ∧
      row.id = nextId pre ∧ row.cols.nextRetryAt = row.cols.createdAt := by
  obtain ⟨pre,payload,now,post,rfl,accepted,id⟩ := historyOrigin mem
  obtain ⟨present,values⟩ := fateOfAccepted accepted
  obtain ⟨_,created,_⟩ := values row mem id
  have start := (acceptedRow accepted).1
  have stored : (view (apply (history pre) (.enqueue (some payload) now))).item (nextId pre) =
      some (item ⟨payload,0,now,now⟩) := viewStored.mpr ⟨_,start,rfl⟩
  have spared : ∀ l ∈ labels apply label (apply (history pre) (.enqueue (some payload) now)) post,
      Spares (nextId pre) (item ⟨payload,0,now,now⟩).content l := by
    refine sparedByCalls (present.mp ⟨row,mem,id⟩) ?_ ?_
    · intro op member
      rw [← id]
      exact noFail op (by simp [member])
    · rw [← id]
      have later : NotHandedOut empty ((pre ++ [.enqueue (some payload) now]) ++ post) row.id := by simpa using waiting
      have := notHandedOutLater later
      rw [runAppend] at this
      exact this
  have back : (view (history (pre ++ .enqueue (some payload) now::post))).item row.id =
      some (item ⟨payload,0,now,now⟩) := by
    rw [historyAppend,runCons,viewRun,id]
    exact sparedStays stored spared
  rw [viewItem,cellOfRow mem,Option.map_some,Option.some.injEq] at back
  refine ⟨pre,payload,post,by rw [created],id,?_⟩
  rw [created]
  exact congrArg Item.available back

theorem drainedKeeps {db : Db} {now : Int} {ties : Nat → Nat} {row : Row Message} (mem : row ∈ db.rows) (k : Nat) :
    (∃ j < k, returned (drained db now ties j) now (ties j) = some (queued now row)) ∨
    row ∈ (drained db now ties k).rows := by
  induction k with
  | zero => exact .inr mem
  | succ k ih =>
    rcases ih with ⟨j,before,found⟩ | still
    · exact .inl ⟨j,by omega,found⟩
    · rcases applyDequeue (drained db now ties k) now (ties k) with ⟨head,hm,_,_,_,same,after⟩ | ⟨_,_,_,after⟩
      · by_cases this : head = row
        · exact .inl ⟨k,Nat.lt_succ_self k,by rw [same,this]⟩
        · have other : row.id ≠ head.id := fun same => this (uniqueId hm still same.symm)
          have away : addresses (UInt64.ofNat head.id) row = false := by
            rw [addressesRow still,rowidRoundTrip hm]
            simpa using other
          have kept : rewrite (addresses (UInt64.ofNat head.id))
              (fun m => {m with nextRetryAt := now+leaseSeconds}) row = row := by simp [rewrite,away]
          rw [drained,after]
          exact .inr (List.mem_map.mpr ⟨row,still,kept⟩)
      · rw [drained,after]
        exact .inr still

theorem drainReturns {db : Db} {now : Int} {row : Row Message} (mem : row ∈ db.rows) (wanted : ready now row = true)
    (ties : Nat → Nat) :
    ∃ k < sqlPendingCount db now, returned (drained db now ties k) now (ties k) = some (queued now row) := by
  rcases drainedKeeps mem (sqlPendingCount db now) with found | still
  · exact found
  · have none := pendingDrained db now ties (sqlPendingCount db now)
    rw [Nat.sub_self,sqlPendingCount,List.countP_eq_zero] at none
    exact absurd wanted (none row still)

theorem untouchedMessageReady (ops : List Op) (row : Row Message) (mem : row ∈ (history ops).rows)
    (waiting : NotHandedOut empty ops row.id) (noFail : ∀ op ∈ ops, fails row.id op = false) :
    (∃ pre payload post, ops = pre ++ .enqueue (some payload) row.cols.createdAt::post ∧ row.id = nextId pre) ∧
    ∀ now, row.cols.createdAt ≤ now → ready now row = true ∧
      pendingCount .opened (history ops) now .runs =
        UInt32.ofNat ((history ops).rows.filter (ready now)).length ∧
      ∀ ties, ∃ k < ((history ops).rows.filter (ready now)).length,
        returned (drained (history ops) now ties k) now (ties k) = some (queued now row) := by
  obtain ⟨pre,payload,post,same,id,available⟩ := untouchedRow mem waiting noFail
  refine ⟨⟨pre,payload,post,same,id⟩,?_⟩
  intro now reached
  have wanted : ready now row = true := by
    rw [ready,available]
    exact decide_eq_true reached
  rw [← List.countP_eq_length_filter]
  exact ⟨wanted,rfl,drainReturns mem wanted⟩

theorem untouchedMessageReadyAtOnce :
    ∃ k < 1, returned (drained (history [.enqueue (some [97]) 100]) 100 (fun _ => 0) k) 100 0 =
      some ⟨1,[97],0,100,86500⟩ := by
  have waiting : NotHandedOut empty [.enqueue (some [97]) 100] 1 := by
    intro pre now tie post same
    have member : Op.dequeue now tie ∈ [Op.enqueue (some [97]) 100] := by rw [same]; simp
    simp at member
  obtain ⟨_,always⟩ := untouchedMessageReady [.enqueue (some [97]) 100] ⟨1,[97],0,100,100⟩ (by decide) waiting (by decide)
  exact (always 100 (by decide)).2.2 (fun _ => 0)

/- The clock steps back by 50 seconds after an enqueue, or a caller marks the waiting message as
failed: never handed out, it is not ready. -/
theorem waitingMessageHidden :
    (∃ row ∈ (history [.enqueue (some [97]) 100]).rows, NotHandedOut empty [.enqueue (some [97]) 100] row.id ∧
      ready 50 row = false ∧ pendingCount .opened (history [.enqueue (some [97]) 100]) 50 .runs = 0 ∧
      ∀ ties k, returned (drained (history [.enqueue (some [97]) 100]) 50 ties k) 50 (ties k) = none) ∧
    ∃ row ∈ (history [.enqueue (some [97]) 100,.markFailed 1 100]).rows,
      NotHandedOut empty [.enqueue (some [97]) 100,.markFailed 1 100] row.id ∧ ready 100 row = false := by
  have never : ∀ ops : List Op, (∀ now tie, Op.dequeue now tie ∉ ops) → ∀ id, NotHandedOut empty ops id := by
    intro ops absent id pre now tie post same
    exact absurd (by rw [same]; simp) (absent now tie)
  refine ⟨⟨⟨1,[97],0,100,100⟩,by decide,never _ (by simp) _,by decide,by decide,?_⟩,
    ⟨1,[97],1,100,104⟩,by decide,never _ (by simp) _,by decide⟩
  intro ties k
  have none := (pendingAfterDequeue (drained (history [.enqueue (some [97]) 100]) 50 ties k) 50 (ties k)).1
  rw [pendingDrained,show sqlPendingCount (history [.enqueue (some [97]) 100]) 50 = 0 by decide] at none
  simpa using none

end UmapTracker.QueueLeases
