import UmapTracker.GpsPipeline
import UmapTracker.QueueContents

/-! What a caller is told when a step of SQLite fails. process_location counts an enqueue that
failed and still reports success; dequeue does not look at what its UPDATE answers, and
reports every answer of its SELECT but a row as an empty queue. -/
namespace UmapTracker.FailureReports
open AutoTable MessageQueue QueueContents GeoTypes GpsPipeline

section Process
variable {α : Type} [Double α]

/- Success means that the point's message is stored, and an error that the pipeline is as it was. -/
structure Honest (p : GpsProcessingPipeline α) (impl : Impl) (db : Db) (raw : GpsPoint α) (now : Int) (step : Exec) :
    Prop where
  stored : (processLocation p impl db raw now step).1 = .ok () ↔
    contents (processLocation p impl db raw now step).2.2 = contents db ++ [(db.sequence+1,text p raw,now)]
  unchanged : ∀ e, (processLocation p impl db raw now step).1 = .error e → (processLocation p impl db raw now step).2.1 = p

theorem honestIff (p : GpsProcessingPipeline α) (impl : Impl) (db : Db) {raw : GpsPoint α} (now : Int) (step : Exec)
    (valid : raw.isValid = true) : Honest p impl db raw now step ↔ Inserts impl db step := by
  rcases processLocationSpec p impl db raw now step with ⟨refused,_⟩ | ⟨_,success,queued⟩
  · simp [valid] at refused
  have noError : ∀ e, (processLocation p impl db raw now step).1 ≠ .error e := by simp [success]
  constructor
  · intro honest
    by_contra missed
    have stored := honest.stored.mp success
    rw [queued] at stored
    rcases contentsEnqueue impl db (text p raw) now step with ⟨accepted,_⟩ | ⟨same,_⟩
    · exact missed (acceptedInserts accepted)
    · rw [same] at stored
      simp at stored
  · intro inserts
    refine ⟨iff_of_true success ?_,fun e failed => absurd failed (noError e)⟩
    rw [queued]
    rcases contentsEnqueue impl db (text p raw) now step with ⟨_,added⟩ | ⟨_,missed⟩
    · exact added
    · exact absurd inserts missed

theorem honestStored :
    let raw : GpsPoint ℚ := ⟨⟨55,37⟩,0,0,100,5,1,1000,80,false⟩
    raw.isValid = true ∧ Honest .default .opened empty raw 7 .runs := by
  intro raw
  have valid : raw.isValid = true := by decide +kernel
  exact ⟨valid,(honestIff .default .opened empty 7 .runs valid).mpr ⟨rfl,rfl,by decide⟩⟩

/- The disk is full, SQLITE_FULL, and the point is reported as processed. -/
theorem lostAsSuccess :
    let raw : GpsPoint ℚ := ⟨⟨55,37⟩,0,0,100,5,1,1000,80,false⟩
    let after := processLocation .default .opened empty raw 7 (.fails 13)
    raw.isValid = true ∧ after.1 = .ok () ∧ contents after.2.2 = [] ∧ ¬ Honest .default .opened empty raw 7 (.fails 13) := by
  intro raw after
  have success : after.1 = .ok () := by decide +kernel
  have nothing : contents after.2.2 = [] := by decide +kernel
  refine ⟨by decide +kernel,success,nothing,?_⟩
  intro honest
  have stored := honest.stored.mp success
  rw [nothing] at stored
  simp [contents] at stored

end Process

/- A message is returned with its lease written, NotFound means that nothing is ready, and an error
leaves the table as it was. -/
structure Faithful (impl : Impl) (db : Db) (env : DequeueEnv) : Prop where
  leased : ∀ m, (dequeue impl db env).1 = .ok m →
    env.mark = .runs ∧ (dequeue impl db env).2 = sqlDequeueMark db m.nextRetryAt m.id
  empty : (dequeue impl db env).1 = .error .notFound → ∀ r ∈ db.rows, ready env.now r = false
  unchanged : ∀ e, (dequeue impl db env).1 = .error e → (dequeue impl db env).2 = db

/- Both statements of a dequeue that has a message to find are executed. -/
def Executes (impl : Impl) (db : Db) (env : DequeueEnv) : Prop :=
  impl.has .dequeueSelect = true → impl.has .dequeueMark = true → (∃ r ∈ db.rows, ready env.now r = true) →
    env.select = .runs ∧ env.mark = .runs

theorem refusedKind {impl : Impl} {db after : Db} {env : DequeueEnv} {e : ErrorCode}
    (same : dequeue impl db env = (.error e,after)) :
    e = .notFound ↔ impl.has .dequeueSelect = true ∧ impl.has .dequeueMark = true := by
  unfold dequeue at same
  rw [← Bool.and_eq_true_iff]
  split at same
  · rename_i prepared
    split at same
    · simp at same
    · obtain ⟨code,_⟩ := Prod.mk.inj same
      exact iff_of_true (Except.error.inj code).symm prepared
  · rename_i unprepared
    obtain ⟨code,_⟩ := Prod.mk.inj same
    cases Except.error.inj code
    exact iff_of_false (by decide) unprepared

theorem faithfulIff (impl : Impl) (db : Db) (env : DequeueEnv) : Faithful impl db env ↔ Executes impl db env := by
  constructor
  · rintro faithful select mark ⟨r,mem,wanted⟩
    cases dequeueSpec impl db env with
    | message row polls _ _ _ same =>
      exact ⟨polls.2.2,(faithful.leased (queued env.now row) (by rw [same])).1⟩
    | refused e same nothing =>
      have answer : (dequeue impl db env).1 = .error .notFound := by
        rw [same,(refusedKind same).mpr ⟨select,mark⟩]
      have none := faithful.empty answer r mem
      rw [wanted] at none
      contradiction
  · intro executes
    cases dequeueSpec impl db env with
    | message row polls mem wanted _ same =>
      have marked := (executes polls.1 polls.2.1 ⟨row,mem,wanted⟩).2
      refine ⟨?_,by simp [same],by simp [same]⟩
      intro m returned
      rw [same] at returned ⊢
      cases Except.ok.inj returned
      exact ⟨marked,by rw [marked]; rfl⟩
    | refused e same nothing =>
      refine ⟨by simp [same],?_,fun _ _ => by rw [same]⟩
      intro answer r mem
      rw [same] at answer
      cases Except.error.inj answer
      obtain ⟨select,mark⟩ := (refusedKind same).mp rfl
      by_contra wanted
      have executed := (executes select mark ⟨r,mem,by simpa using wanted⟩).1
      exact wanted (nothing ⟨select,mark,executed⟩ r mem)

/- The UPDATE meets SQLITE_BUSY: the message is returned, and the next dequeue returns it again. In
the same table a SELECT that meets SQLITE_IOERR reports an empty queue. -/
theorem failuresHidden :
    let db : Db := (enqueue .opened empty (some []) 100 .runs).2
    (dequeue .opened db ⟨100,.runs,0,.fails 5⟩).1 = .ok ⟨1,[],0,100,86500⟩ ∧
    (dequeue .opened (dequeue .opened db ⟨100,.runs,0,.fails 5⟩).2 ⟨100,.runs,0,.runs⟩).1 = .ok ⟨1,[],0,100,86500⟩ ∧
    ¬ Faithful .opened db ⟨100,.runs,0,.fails 5⟩ ∧
    (dequeue .opened db ⟨100,.fails 10,0,.runs⟩).1 = .error .notFound ∧ ¬ Faithful .opened db ⟨100,.fails 10,0,.runs⟩ := by
  intro db
  have returned : (dequeue .opened db ⟨100,.runs,0,.fails 5⟩).1 = .ok ⟨1,[],0,100,86500⟩ := by decide
  have reported : (dequeue .opened db ⟨100,.fails 10,0,.runs⟩).1 = .error .notFound := by decide
  refine ⟨returned,by decide,?_,reported,?_⟩
  · intro faithful
    have marked := (faithful.leased _ returned).1
    contradiction
  · intro faithful
    exact absurd (faithful.empty reported) (by decide)

end UmapTracker.FailureReports
