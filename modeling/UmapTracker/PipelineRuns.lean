import UmapTracker.GpsPipeline
import UmapTracker.Machine

/-! Runs of one pipeline over its queue. A reset leaves nothing of the points before it. -/
namespace UmapTracker.PipelineRuns
open Machine GpsPipeline GeoTypes KalmanFilter MessageQueue Text
variable {α : Type} [Double α]

inductive Call (α : Type) where
  | process (raw : GpsPoint α)
  | reset

/- What an enqueue of the call meets: the clock, and what SQLite makes of the INSERT. -/
structure Reading where
  now : Int
  exec : Exec

structure Site (α : Type) where
  pipeline : GpsProcessingPipeline α
  db : Db

def step (impl : Impl) (s : Site α) : Call α × Reading → Site α
  | (.process raw,reading) => ⟨(processLocation s.pipeline impl s.db raw reading.now reading.exec).2.1,
      (processLocation s.pipeline impl s.db raw reading.now reading.exec).2.2⟩
  | (.reset,_) => {s with pipeline := s.pipeline.reset}

/- What a call shows of the pipeline, but for the count of accepted messages: the result, the text
handed to the queue, the filter and the count of points after it. -/
structure Shows (α : Type) where
  result : Option (Result Unit)
  payload : Option Bytes
  filter : KalmanFilterND α
  processedCount : UInt32

def shows (impl : Impl) (s : Site α) (e : Call α × Reading) : Shows α :=
  let after := (step impl s e).pipeline
  match e with
  | (.process raw,reading) => ⟨some (processLocation s.pipeline impl s.db raw reading.now reading.exec).1,
      if raw.isValid then some (text s.pipeline raw) else none,after.kalman,after.processedCount⟩
  | (.reset,_) => ⟨none,none,after.kalman,after.processedCount⟩

/- What happens to the count of accepted messages. -/
inductive Tally where
  | counted | uncounted | cleared
  deriving DecidableEq, Repr

def tally (impl : Impl) (s : Site α) : Call α × Reading → Tally
  | (.process raw,reading) =>
      if raw.isValid && Result.hasValue (enqueue impl s.db (some (text s.pipeline raw)) reading.now reading.exec).1
      then .counted else .uncounted
  | (.reset,_) => .cleared

def count : UInt32 → Tally → UInt32
  | n,.counted => n+1
  | n,.uncounted => n
  | _,.cleared => 0

/- The count is a function of what the queue answers. -/
theorem queuedStep (impl : Impl) (s : Site α) (e : Call α × Reading) :
    (step impl s e).pipeline.queuedCount = count s.pipeline.queuedCount (tally impl s e) := by
  obtain ⟨call,reading⟩ := e
  cases call with
  | reset => rfl
  | process raw =>
    cases valid : raw.isValid with
    | false => simp [step,tally,count,processLocation,valid]
    | true =>
      cases accepted : Result.hasValue (enqueue impl s.db (some (text s.pipeline raw)) reading.now reading.exec).1 with
      | false =>
        simp only [text] at accepted
        simp [step,tally,count,processLocation,valid,text,accepted]
      | true =>
        simp only [text] at accepted
        simp [step,tally,count,processLocation,valid,text,accepted]

theorem queuedRun (impl : Impl) (s : Site α) (calls : List (Call α × Reading)) :
    (run (step impl) s calls).pipeline.queuedCount = run count s.pipeline.queuedCount (labels (step impl) (tally impl) s calls) := by
  let queued (s : Site α) : UInt32 := s.pipeline.queuedCount
  have square : ∀ s e, queued (step impl s e) = count (queued s) (tally impl s e) := queuedStep impl
  exact simulates square s calls

/- Alike but for the count of accepted messages. -/
structure Alike (p p' : GpsProcessingPipeline α) : Prop where
  kalman : p.kalman = p'.kalman
  lastTimestampMs : p.lastTimestampMs = p'.lastTimestampMs
  processedCount : p.processedCount = p'.processedCount
  initialized : p.initialized = p'.initialized

theorem alikeStep (impl impl' : Impl) {s s' : Site α} (call : Call α) (reading reading' : Reading)
    (alike : Alike s.pipeline s'.pipeline) :
    shows impl s (call,reading) = shows impl' s' (call,reading') ∧
    Alike (step impl s (call,reading)).pipeline (step impl' s' (call,reading')).pipeline := by
  obtain ⟨⟨kalman,_,_,_,_⟩,db⟩ := s
  obtain ⟨⟨kalman',_,_,_,_⟩,db'⟩ := s'
  obtain ⟨rfl,rfl,rfl,rfl⟩ := alike
  cases call with
  | reset => exact ⟨rfl,rfl,rfl,rfl,rfl⟩
  | process raw =>
    cases valid : raw.isValid with
    | false =>
      simp only [shows,step,processLocation,valid]
      exact ⟨rfl,rfl,rfl,rfl,rfl⟩
    | true =>
      simp only [shows,step,processLocation,valid]
      exact ⟨rfl,rfl,rfl,rfl,rfl⟩

/- The noise parameters survive every call, so the reset of what a run leaves is the pipeline as
it was constructed. -/
theorem resetRun (q r a : α) (impl : Impl) (db : Db) (calls : List (Call α × Reading)) :
    (run (step impl) ⟨.new q r a,db⟩ calls).pipeline.reset = .new q r a := by
  have keep : ∀ (s : Site α) e, True → s.pipeline.reset = .new q r a → (step impl s e).pipeline.reset = .new q r a := by
    rintro s ⟨call,reading⟩ _ same
    cases call with
    | reset => exact same
    | process raw => exact (processReset s.pipeline impl s.db raw reading.now reading.exec).trans same
  exact runKeeps keep (fun _ _ => trivial) rfl

/- After a reset, whatever came before it, a pipeline shows what a new one with its noise parameters
shows, on any other queue too; on its own queue the two are one. -/
theorem resetForgets (q r a : α) (impl impl' : Impl) (db db' : Db) (earlier : List (Call α × Reading))
    (later : List (Call α × Reading × Reading)) :
    let s := run (step impl) ⟨.new q r a,db⟩ earlier
    let again : Site α := ⟨s.pipeline.reset,s.db⟩
    let fresh : Site α := ⟨.new q r a,db'⟩
    let calls := later.map fun e => (e.1,e.2.1)
    let calls' := later.map fun e => (e.1,e.2.2)
    labels (step impl) (shows impl) again calls = labels (step impl') (shows impl') fresh calls' ∧
    (run (step impl) again calls).pipeline.queuedCount = run count 0 (labels (step impl) (tally impl) again calls) ∧
    (run (step impl') fresh calls').pipeline.queuedCount = run count 0 (labels (step impl') (tally impl') fresh calls') ∧
    run (step impl) again calls = run (step impl) ⟨.new q r a,s.db⟩ calls := by
  intro s again fresh calls calls'
  have same : again = ⟨.new q r a,s.db⟩ := congrArg (Site.mk · s.db) (resetRun q r a impl db earlier)
  have start : Alike again.pipeline fresh.pipeline := by
    rw [same]
    exact ⟨rfl,rfl,rfl,rfl⟩
  refine ⟨?_,queuedRun impl again calls,queuedRun impl' fresh calls',congrArg (run (step impl) · calls) same⟩
  have answers := bisimulates (R := fun s s' : Site α => Alike s.pipeline s'.pipeline)
    (fun _ _ (e : Call α × Reading × Reading) => alikeStep impl impl' e.1 e.2.1 e.2.2) start later
  rw [labelsMap,labelsMap]
  exact answers.1

end UmapTracker.PipelineRuns
