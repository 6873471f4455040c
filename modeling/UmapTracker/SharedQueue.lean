import Mathlib.Logic.Function.Basic
import UmapTracker.QueueRuns

/-! Several MessageQueue objects on one database file. SQLite makes each statement atomic,
but a dequeue is two statements: other objects may run theirs between its SELECT and
its UPDATE. -/
namespace UmapTracker.SharedQueue
open AutoTable MessageQueue Outbox QueueView QueueRuns Machine Text
variable {κ : Type} [DecidableEq κ]

/- The locals of a dequeue between its two statements: the reading and the message it returns. -/
structure Selected where
  now : Int
  msg : QueuedMessage
  deriving DecidableEq, Repr

structure Shared (κ : Type) where
  db : Db
  selected : κ → Option Selected

def opened (db : Db) : Shared κ := ⟨db,fun _ => none⟩

/- The statements of the calls. The UPDATE of a mark_failed may come long after its SELECT, so the
retry count it uses is free. -/
inductive Event (κ : Type) where
  | select (client : κ) (now : Int) (tie : Nat)
  | mark (client : κ)
  | enqueue (payload : Option Bytes) (now : Int)
  | markSent (messageId : UInt64)
  | markFailed (messageId : UInt64) (retryCount : UInt32) (now : Int)
  | purgeExpired (ttlHours : UInt32) (now : Int)
  | reset
  deriving DecidableEq, Repr

def step (s : Shared κ) : Event κ → Shared κ
  | .select client now tie =>
    match s.selected client,sqlDequeueSelect s.db now tie with
    | none,some row => {s with selected := Function.update s.selected client (some ⟨now,queued now row⟩)}
    | _,_ => s
  | .mark client =>
    match s.selected client with
    | some d => ⟨sqlDequeueMark s.db d.msg.nextRetryAt d.msg.id,Function.update s.selected client none⟩
    | none => s
  | .enqueue payload now => {s with db := apply s.db (.enqueue payload now)}
  | .markSent messageId => {s with db := apply s.db (.markSent messageId)}
  | .markFailed messageId retryCount now =>
      {s with db := sqlMarkFailed s.db (now + calculateBackoff (retryCount+1)) messageId}
  | .purgeExpired ttlHours now => {s with db := apply s.db (.purgeExpired ttlHours now)}
  | .reset => {s with db := apply s.db .reset}

def fails (id : UInt64) : Event κ → Bool
  | .markFailed messageId _ _ => id == messageId
  | _ => false

def label (s : Shared κ) : Event κ → Label Content Int
  | .select _ _ _ => .quiet
  | .mark client =>
    match s.selected client with
    | some d => .lease d.msg.id.toNat d.now
    | none => .quiet
  | .enqueue payload now => QueueRuns.label s.db (.enqueue payload now)
  | .markSent messageId => QueueRuns.label s.db (.markSent messageId)
  | .markFailed messageId retryCount now => .fail messageId.toNat (now + calculateBackoff (retryCount+1))
  | .purgeExpired ttlHours now => QueueRuns.label s.db (.purgeExpired ttlHours now)
  | .reset => QueueRuns.label s.db .reset

/- Undisturbed, the two statements are the dequeue of one object. -/
theorem selectThenMark (s : Shared κ) (client : κ) (now : Int) (tie : Nat) (free : s.selected client = none) :
    (run step s [.select client now tie,.mark client]).db = apply s.db (.dequeue now tie) ∧
    ((step s (.select client now tie)).selected client).map Selected.msg = returned s.db now tie := by
  rcases applyDequeue s.db now tie with ⟨row,_,_,_,found,same,after⟩ | ⟨_,none,same,after⟩
  · rw [after,same]
    simp [step,free,found,queued]
  · rw [after,same]
    simp [step,free,none]

/- What the objects hold: messages that were in the table, each held by one object, for the
lease its UPDATE is going to write. -/
structure Held (s : Shared κ) : Prop where
  known : ∀ c x, s.selected c = some x → x.msg.id.toNat ≤ s.db.sequence ∧ x.msg.nextRetryAt = x.now+leaseSeconds
  apart : ∀ c d x y, s.selected c = some x → s.selected d = some y → x.msg.id = y.msg.id → c = d

/- The SELECT does not find a message that another object has selected and not leased yet. -/
def Unclaimed (s : Shared κ) : Event κ → Prop
  | .select client now tie => s.selected client = none → ∀ row, sqlDequeueSelect s.db now tie = some row →
      ∀ other x, other ≠ client → s.selected other = some x → x.msg.id.toNat ≠ row.id
  | _ => True

theorem viewStep {s : Shared κ} (held : Held s) (e : Event κ) :
    view (step s e).db = (label s e).apply leaseSeconds (view s.db) := by
  cases e with
  | select client now tie => simp only [step]; split <;> rfl
  | mark client =>
    cases h : s.selected client with
    | none => simp only [step,label,h]; rfl
    | some d =>
      simp only [step,label,h,(held.known client d h).2]
      exact viewDequeueMark s.db d.now d.msg.id
  | enqueue payload now => exact square s.db _
  | markSent messageId => exact square s.db _
  | markFailed messageId retryCount now => exact viewMarkFailed s.db _ messageId
  | purgeExpired ttlHours now => exact square s.db _
  | reset => exact square s.db _

theorem sequenceStep {s : Shared κ} (held : Held s) (e : Event κ) : s.db.sequence ≤ (step s e).db.sequence := by
  have grown := issuedApply leaseSeconds (view s.db) (label s e)
  rw [← viewStep held] at grown
  exact grown

/- The message an object holds after a statement: the one it held, or the one the SELECT found. -/
theorem selectedStep {s : Shared κ} {e : Event κ} {c : κ} {x : Selected} (h : (step s e).selected c = some x) :
    s.selected c = some x ∨ ∃ now tie row, e = .select c now tie ∧ s.selected c = none ∧
      sqlDequeueSelect s.db now tie = some row ∧ x = ⟨now,queued now row⟩ := by
  cases e with
  | select client now tie =>
    simp only [step] at h
    split at h
    · rename_i row free found
      by_cases same : c = client
      · subst same
        simp only [Function.update_self] at h
        exact .inr ⟨now,tie,row,rfl,free,found,(Option.some.inj h).symm⟩
      · simp only [Function.update_of_ne same] at h
        exact .inl h
    · exact .inl h
  | mark client =>
    simp only [step] at h
    split at h
    · by_cases same : c = client
      · subst same
        simp only [Function.update_self] at h
        contradiction
      · simp only [Function.update_of_ne same] at h
        exact .inl h
    · exact .inl h
  | _ => exact .inl h

theorem selectedRow {db : Db} {now : Int} {tie : Nat} {row : Row Message} (h : sqlDequeueSelect db now tie = some row) :
    row ∈ db.rows ∧ row.cols.nextRetryAt ≤ now ∧ (queued now row).id.toNat = row.id := by
  obtain ⟨mem,wanted,_⟩ := selectFirstSome h
  exact ⟨mem,of_decide_eq_true wanted,rowidRoundTrip mem⟩

theorem heldStep {s : Shared κ} {e : Event κ} (unclaimed : Unclaimed s e) (held : Held s) : Held (step s e) := by
  have fresh : ∀ c d now tie row y, e = .select c now tie → s.selected c = none →
      sqlDequeueSelect s.db now tie = some row → s.selected d = some y → (queued now row).id ≠ y.msg.id := by
    rintro c d now tie row y rfl free found hy same
    have other : d ≠ c := by rintro rfl; rw [free] at hy; contradiction
    refine unclaimed free row found d y other hy ?_
    rw [← same,(selectedRow found).2.2]
  refine ⟨?_,?_⟩
  · intro c x hx
    rcases selectedStep hx with old | ⟨now,tie,row,rfl,_,found,rfl⟩
    · obtain ⟨low,lease⟩ := held.known c x old
      exact ⟨low.trans (sequenceStep held e),lease⟩
    · obtain ⟨mem,_,id⟩ := selectedRow found
      exact ⟨by rw [id]; exact ((s.db.issued row mem).2).trans (sequenceStep held _),rfl⟩
  · intro c d x y hx hy same
    rcases selectedStep hx with oldx | ⟨now,tie,row,ex,freex,foundx,rfl⟩ <;>
      rcases selectedStep hy with oldy | ⟨now',tie',row',ey,freey,foundy,rfl⟩
    · exact held.apart c d x y oldx oldy same
    · exact absurd same.symm (fresh d c now' tie' row' x ey freey foundy oldx)
    · exact absurd same (fresh c d now tie row y ex freex foundx oldy)
    · rw [ex] at ey
      exact (Event.select.inj ey).1

/- The message `i` is leased until `bound` at least, and who holds it has read a clock past that. -/
def Waiting (i : Nat) (bound : Int) (s : Shared κ) : Prop :=
  (∀ m, (view s.db).item i = some m → bound ≤ m.available) ∧
  ∀ c x, s.selected c = some x → x.msg.id.toNat = i → bound ≤ x.now

theorem waitingStep {i : UInt64} {bound : Int} {s : Shared κ} {e : Event κ} (held : Held s)
    (known : i.toNat ≤ s.db.sequence) (noFail : fails i e = false) (waiting : Waiting i.toNat bound s) :
    Waiting i.toNat bound (step s e) := by
  refine ⟨?_,?_⟩
  · rw [viewStep held]
    have quiet : (label s e).fails i.toNat = false := by
      cases e with
      | markFailed messageId retryCount now =>
        simp only [fails,beq_eq_false_iff_ne] at noFail
        simpa [label,Label.fails] using fun same => noFail (UInt64.toNat_inj.mp same)
      | select client now tie => rfl
      | mark client => simp only [label]; split <;> rfl
      | enqueue payload now => exact labelFails i.toNat s.db (.enqueue payload now)
      | markSent messageId => rfl
      | purgeExpired ttlHours now => rfl
      | reset => rfl
    refine availableApply known waiting.1 quiet ?_
    intro now leased
    -- only the UPDATE of an object that holds the message leases it
    cases e with
    | mark client =>
      simp only [label] at leased
      split at leased <;> try contradiction
      rename_i d hd
      obtain ⟨id,rfl⟩ := Label.lease.inj leased
      have := waiting.2 client d hd id
      simp only [leaseSeconds]
      omega
    | enqueue payload now =>
      cases payload with
      | none => contradiction
      | some payload => simp only [label,QueueRuns.label] at leased; split at leased <;> contradiction
    | _ => contradiction
  · intro c x hx same
    rcases selectedStep hx with old | ⟨now,tie,row,rfl,_,found,rfl⟩
    · exact waiting.2 c x old same
    · obtain ⟨mem,ready,id⟩ := selectedRow found
      have stored : (view s.db).item i.toNat = some (item row.cols) :=
        viewStored.mpr ⟨row.cols,by rw [← same,id]; exact mem,rfl⟩
      exact (waiting.1 _ stored).trans ready

/- Two objects are handed one message only with a mark_failed of it between the two returns, or
when the second one's reading is past the lease of the first. -/
def Exclusive (db : Db) (es : List (Event κ)) : Prop :=
  ∀ pre c mid c' post x y, es = pre ++ .mark c::(mid ++ .mark c'::post) → c ≠ c' →
    (run step (opened db) pre).selected c = some x →
    (run step (opened db) (pre ++ .mark c::mid)).selected c' = some y → y.msg.id = x.msg.id →
    (∃ e ∈ mid, fails x.msg.id e = true) ∨ x.now+86400 ≤ y.now

theorem heldRun {es : List (Event κ)} {s : Shared κ} (clear : Allowed step Unclaimed s es) (held : Held s) :
    Held (run step s es) :=
  runKeepsAllowed (fun _ _ unclaimed held => heldStep unclaimed held) clear held

theorem waitingRun {i : UInt64} {bound : Int} {es : List (Event κ)} {s : Shared κ}
    (clear : Allowed step Unclaimed s es) (held : Held s) (known : i.toNat ≤ s.db.sequence)
    (noFail : ∀ e ∈ es, fails i e = false) (waiting : Waiting i.toNat bound s) :
    Waiting i.toNat bound (run step s es) := by
  have keep : ∀ (x : Shared κ) e, Unclaimed x e ∧ fails i e = false →
      (Held x ∧ i.toNat ≤ x.db.sequence ∧ Waiting i.toNat bound x) →
      Held (step x e) ∧ i.toNat ≤ (step x e).db.sequence ∧ Waiting i.toNat bound (step x e) := by
    rintro x e ⟨unclaimed,alone⟩ ⟨held,known,waiting⟩
    exact ⟨heldStep unclaimed held,known.trans (sequenceStep held e),waitingStep held known alone waiting⟩
  exact (runKeepsAllowed (I := fun x : Shared κ => Held x ∧ i.toNat ≤ x.db.sequence ∧ Waiting i.toNat bound x)
    keep (allowedEach clear noFail) ⟨held,known,waiting⟩).2.2

theorem leasedByMark {s : Shared κ} {c : κ} {x : Selected} (held : Held s) (hx : s.selected c = some x) :
    Waiting x.msg.id.toNat (x.now+leaseSeconds) (step s (.mark c)) := by
  obtain ⟨known,lease⟩ := held.known c x hx
  refine ⟨?_,?_⟩
  · intro m found
    rw [viewStep held,itemApply known,label,hx,Label.effect,if_pos rfl] at found
    obtain ⟨_,_,rfl⟩ := Option.map_eq_some_iff.mp found
    exact Int.le_refl _
  · intro d y hy same
    rcases selectedStep hy with old | ⟨_,_,_,select,_⟩
    · have one : c = d := held.apart c d x y hx old (UInt64.toNat_inj.mp same.symm)
      subst one
      simp [step,hx] at hy
    · contradiction

theorem exclusiveUnclaimed (db : Db) (es : List (Event κ)) (clear : Allowed step Unclaimed (opened db) es) :
    Exclusive db es := by
  rintro pre c mid c' post x y rfl _ hx hy same
  by_cases noFail : ∀ e ∈ mid, fails x.msg.id e = false
  · obtain ⟨before,rest⟩ := allowedAppend.mp clear
    obtain ⟨first,rest⟩ := allowedCons.mp rest
    have held := heldRun before ⟨by simp [opened],by simp [opened]⟩
    have known := (held.known c x hx).1.trans (sequenceStep held (.mark c))
    have waiting := waitingRun (allowedAppend.mp rest).1 (heldStep first held) known noFail (leasedByMark held hx)
    rw [runAppend,runCons] at hy
    exact .inr (waiting.2 c' y hy (by rw [same]))
  · simp only [not_forall,Bool.not_eq_false] at noFail
    obtain ⟨e,member,failed⟩ := noFail
    exact .inl ⟨e,member,failed⟩

theorem exclusiveInTurn :
    Exclusive empty [.enqueue (some [97]) 100,.select false 100 0,.mark false,.select true 86500 0,.mark true] ∧
    ((run step (opened empty) [.enqueue (some [97]) 100,.select false 100 0,.mark false,.select true 86500 0]).selected
      true).map Selected.msg = some ⟨1,[97],0,100,172900⟩ := by
  refine ⟨exclusiveUnclaimed empty _ ?_,by decide⟩
  have free : ∀ {s : Shared Bool} {client now tie}, s.selected (!client) = none → Unclaimed s (.select client now tie) := by
    intro s client now tie nobody _ row _ other x different hx
    rw [Bool.eq_not.mpr different,nobody] at hx
    contradiction
  exact allowedCons.mpr ⟨trivial,allowedCons.mpr ⟨free (by decide),allowedCons.mpr ⟨trivial,
    allowedCons.mpr ⟨free (by decide),allowedCons.mpr ⟨trivial,allowedNil⟩⟩⟩⟩⟩

/- Both objects select the only message before either leases it: both return it in the same second. -/
theorem selectedTwice :
    ((run step (opened empty) [.enqueue (some [97]) 100,.select false 100 0,.select true 100 0]).selected false).map
      Selected.msg = some ⟨1,[97],0,100,86500⟩ ∧
    ((run step (opened empty) [.enqueue (some [97]) 100,.select false 100 0,.select true 100 0,.mark false]).selected
      true).map Selected.msg = some ⟨1,[97],0,100,86500⟩ ∧
    ¬ Exclusive empty [.enqueue (some [97]) 100,.select false 100 0,.select true 100 0,.mark false,.mark true] := by
  refine ⟨by decide,by decide,?_⟩
  intro exclusive
  have := exclusive [.enqueue (some [97]) 100,.select false 100 0,.select true 100 0] false [] true []
    ⟨100,⟨1,[97],0,100,86500⟩⟩ ⟨100,⟨1,[97],0,100,86500⟩⟩ rfl (by decide) (by decide) (by decide) rfl
  simp at this

end UmapTracker.SharedQueue
