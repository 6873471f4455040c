import UmapTracker.Machine
import UmapTracker.TrackerService

/-! Runs of the service. START and RESUME post the runnable whether or not one is pending, and
they start tracking whether or not the native pipeline is still there. -/
namespace UmapTracker.ServiceRuns
open Machine Tracker
open JniBridge (loaded nativeProcessLocation nativeShutdownPipeline nativeInitPipeline)
variable {α : Type} [Double α]

def Single (t : Tracker α) : Prop := t.service.pending.length ≤ 1

/- Nothing is pending when tracking is switched on. -/
def Quiet (t : Tracker α) : Event α → Prop
  | .intent (some .start) => t.service.pending = []
  | .intent (some .resume) => t.service.pending = []
  | _ => True

theorem postedSingle (pending : List Nat) : (pending ++ [0]).length ≤ 1 ↔ pending = [] := by
  rw [List.length_append,List.length_singleton,← List.length_eq_zero_iff]
  omega

theorem singleStep (t : Tracker α) (event : Event α) (single : Single t) : Single (step t event) ↔ Quiet t event := by
  cases event with
  | intent action =>
    cases action with
    | none => exact iff_of_true single trivial
    | some action =>
      cases action with
      | start => exact postedSingle t.service.pending
      | pause => exact iff_of_true single trivial
      | resume => exact postedSingle t.service.pending
      | stop => exact iff_of_true (Nat.zero_le 1) trivial
  | dispatch i env =>
    have fewer := (dispatchSpec t i env).2.1
    exact iff_of_true (fewer.trans single) trivial
  | onLocationReceived fix => exact iff_of_true single trivial
  | onBatteryChanged percent charging => exact iff_of_true single trivial

/- One runnable at most is pending all along exactly when none is where START or RESUME comes. -/
theorem onePendingIff (native : Native α) (sqlite3Open : Bool) (prepare : MessageQueue.Statement → Bool)
    (events : List (Event α)) :
    Always step Single (onCreate native sqlite3Open prepare) events ↔
    Allowed step Quiet (onCreate native sqlite3Open prepare) events := by
  have start : Single (onCreate native sqlite3Open prepare) := Nat.zero_le 1
  exact alwaysExact singleStep start events

-- SQLite executes every statement, and the clock stands still
def calm (now : Int) : TickEnv := ⟨⟨now,.runs⟩,fun _ => ⟨⟨now,.runs,0,.runs⟩,now,.runs,⟨now,.runs,.runs⟩⟩⟩

/- PAUSE leaves the runnable of the next second pending, and RESUME posts another beside it. -/
theorem pausedLoopDoubles :
    let events : List (Event ℚ) := [.intent (some .start),.dispatch 0 (calm 7),.intent (some .pause),.intent (some .resume)]
    (run step (onCreate loaded true (fun _ => true)) events).service.pending = [1000,0] ∧
    ¬ Always step Single (onCreate loaded true (fun _ => true)) events := by
  intro events
  have pending : (run step (onCreate loaded true (fun _ => true)) events).service.pending = [1000,0] := rfl
  refine ⟨pending,?_⟩
  intro always
  have single : (run step (onCreate loaded true (fun _ => true)) events).service.pending.length ≤ 1 := alwaysLast always
  rw [pending] at single
  exact absurd single (by decide)

/- While the service tracks, the native objects are there. -/
def Served (t : Tracker α) : Prop := t.service.isTracking = true → t.native.session.isSome = true

/- The event does not switch tracking on without them. -/
def Backed (t : Tracker α) : Event α → Prop
  | .intent (some .start) => t.native.session.isSome = true
  | .intent (some .resume) => t.native.session.isSome = true
  | _ => True

theorem servedStep (t : Tracker α) (event : Event α) (served : Served t) : Served (step t event) ↔ Backed t event := by
  cases event with
  | intent action =>
    cases action with
    | none => exact iff_of_true served trivial
    | some action =>
      cases action with
      | start => exact ⟨fun after => after rfl,fun backed _ => backed⟩
      | pause => exact iff_of_true (fun on => Bool.noConfusion on) trivial
      | resume => exact ⟨fun after => after rfl,fun backed _ => backed⟩
      | stop => exact iff_of_true (fun on => Bool.noConfusion on) trivial
  | dispatch i env =>
    obtain ⟨tracking,_,session⟩ := dispatchSpec t i env
    refine iff_of_true ?_ trivial
    intro on
    change (t.dispatch i env).service.isTracking = true at on
    change (t.dispatch i env).native.session.isSome = true
    rw [session]
    exact served (tracking ▸ on)
  | onLocationReceived fix => exact iff_of_true served trivial
  | onBatteryChanged percent charging => exact iff_of_true served trivial

/- Only STOP takes the native objects away, and no event brings them back. -/
theorem sessionStep (t : Tracker α) (event : Event α) :
    (step t event).native.session.isSome = true ↔ t.native.session.isSome = true ∧ event ≠ .intent (some .stop) := by
  cases event with
  | intent action =>
    cases action with
    | none => simp [step,onStartCommand]
    | some action => cases action <;> simp [step,onStartCommand,stop,nativeShutdownPipeline]
  | dispatch i env => simp [step,(dispatchSpec t i env).2.2]
  | onLocationReceived fix => simp [step,JniBridge.step]
  | onBatteryChanged percent charging => simp [step,JniBridge.step]

theorem sessionUntilStop (native : Native α) (sqlite3Open : Bool) (prepare : MessageQueue.Statement → Bool)
    (events : List (Event α)) :
    (run step (onCreate native sqlite3Open prepare) events).native.session.isSome = true ↔
    .intent (some .stop) ∉ events := by
  have created : (onCreate native sqlite3Open prepare).native.session.isSome = true := by
    unfold onCreate nativeInitPipeline
    cases native.session <;> rfl
  refine (runExact (I := fun t : Tracker α => t.native.session.isSome = true) sessionStep _ events).trans ?_
  rw [allowedEvery]
  constructor
  · rintro ⟨_,never⟩ stopped
    exact never _ stopped rfl
  · intro never
    exact ⟨created,fun event mem same => never (same ▸ mem)⟩

/- Neither START nor RESUME comes after a STOP. -/
def NeverRestarted (events : List (Event α)) : Prop :=
  ∀ pre action post, events = pre ++ .intent (some action)::post → action = .start ∨ action = .resume →
    .intent (some .stop) ∉ pre

/- A tracking service has its native objects in every state exactly when it is not started or
resumed once it has been stopped. -/
theorem servedIff (native : Native α) (sqlite3Open : Bool) (prepare : MessageQueue.Statement → Bool)
    (events : List (Event α)) :
    Always step Served (onCreate native sqlite3Open prepare) events ↔ NeverRestarted events := by
  have start : Served (onCreate native sqlite3Open prepare) := fun on => Bool.noConfusion on
  rw [alwaysExact servedStep start]
  constructor
  · intro allowed pre action post same switches
    rw [← sessionUntilStop native sqlite3Open prepare]
    rcases switches with rfl | rfl
    · exact allowed pre _ post same
    · exact allowed pre _ post same
  · intro never pre event post same
    cases event with
    | intent action =>
      cases action with
      | none => trivial
      | some action =>
        cases action with
        | start => exact (sessionUntilStop native sqlite3Open prepare pre).mpr (never pre .start post same (.inl rfl))
        | resume => exact (sessionUntilStop native sqlite3Open prepare pre).mpr (never pre .resume post same (.inr rfl))
        | _ => trivial
    | _ => trivial

/- START after STOP: the service tracks, and a tick with a location waiting processes nothing. -/
theorem restartedUnserved :
    let fix : Fix ℚ := ⟨0,0,5,100,1,1000⟩
    let events : List (Event ℚ) := [.intent (some .stop),.intent (some .start),.onLocationReceived fix]
    let t := run step (onCreate loaded true (fun _ => true)) events
    t.service.isTracking = true ∧ t.native.session.isNone = true ∧ t.native.engine.locationQueueSize = 1 ∧
    (t.dispatch 0 (calm 7)).native.engine.locationQueueSize = 1 ∧
    (nativeProcessLocation t.native ⟨7,.runs⟩).1 = 0 ∧
    ¬ Always step Served (onCreate loaded true (fun _ => true)) events := by
  intro fix events t
  refine ⟨rfl,rfl,by decide +kernel,by decide +kernel,rfl,?_⟩
  intro always
  have served : Served t := alwaysLast always
  exact absurd (served rfl) (by decide)

end UmapTracker.ServiceRuns
