import UmapTracker.Result
import UmapTracker.Text

/-! core/state_machine.h. The states of location tracking, their transitions, and the callbacks
that report them. -/
namespace UmapTracker.StateMachine
open Text

inductive LocationState where
  | idle | acquiring | tracking | uploading | paused | error
  deriving DecidableEq, Repr

inductive StateEvent where
  | startTracking | stopTracking | locationAcquired | locationLost | uploadStarted | uploadCompleted
  | uploadFailed | pauseTracking | resumeTracking | errorOccurred | errorRecovered
  deriving DecidableEq, Repr

-- the target of a std::function
abbrev Target := Nat

/- A call made through a registered callback. -/
inductive Invocation where
  | stateChange (callback : Target) (fromState toState : LocationState)
  | error (callback : Target) (code : Int32) (message : Bytes)
  deriving DecidableEq, Repr

structure LocationStateMachine where
  currentState : LocationState
  stateChangeCallback : Option Target
  errorCallback : Option Target
  deriving DecidableEq, Repr

-- the current state where no transition is listed
def getNextState : LocationState → StateEvent → LocationState
  | .idle,.startTracking => .acquiring
  | .acquiring,.locationAcquired => .tracking
  | .acquiring,.stopTracking => .idle
  | .acquiring,.errorOccurred => .error
  | .tracking,.locationLost => .acquiring
  | .tracking,.uploadStarted => .uploading
  | .tracking,.pauseTracking => .paused
  | .tracking,.stopTracking => .idle
  | .tracking,.errorOccurred => .error
  | .uploading,.uploadCompleted => .tracking
  | .uploading,.uploadFailed => .tracking
  | .uploading,.stopTracking => .idle
  | .uploading,.errorOccurred => .error
  | .paused,.resumeTracking => .tracking
  | .paused,.stopTracking => .idle
  | .paused,.errorOccurred => .error
  | .error,.errorRecovered => .idle
  | .error,.stopTracking => .idle
  | current,_ => current

namespace LocationStateMachine

def new : LocationStateMachine := ⟨.idle,none,none⟩

def getState (m : LocationStateMachine) : LocationState := m.currentState

def processEvent (m : LocationStateMachine) (event : StateEvent) :
    Result Unit × LocationStateMachine × List Invocation :=
  let nextState := getNextState m.currentState event
  if nextState = m.currentState then (.error .invalidConfig,m,[])
  else (.ok (),{m with currentState := nextState},
    m.stateChangeCallback.toList.map (fun c => .stateChange c m.currentState nextState))

def registerStateCallback (m : LocationStateMachine) (callback : Option Target) : Result Unit × LocationStateMachine :=
  match callback with
  | none => (.error .invalidConfig,m)
  | some c => (.ok (),{m with stateChangeCallback := some c})

def registerErrorCallback (m : LocationStateMachine) (callback : Option Target) : Result Unit × LocationStateMachine :=
  match callback with
  | none => (.error .invalidConfig,m)
  | some c => (.ok (),{m with errorCallback := some c})

def unregisterCallbacks (m : LocationStateMachine) : LocationStateMachine :=
  {m with stateChangeCallback := none, errorCallback := none}

def reset (m : LocationStateMachine) : LocationStateMachine := {m with currentState := .idle}

def canTransition (state : LocationState) (event : StateEvent) : Bool := getNextState state event != state

/- No transition, and nothing happens; or the machine moves and tells its callback. -/
theorem processEventSpec (m : LocationStateMachine) (event : StateEvent) :
    (getNextState m.currentState event = m.currentState ∧ m.processEvent event = (.error .invalidConfig,m,[])) ∨
    (getNextState m.currentState event ≠ m.currentState ∧
      m.processEvent event = (.ok (),{m with currentState := getNextState m.currentState event},
        m.stateChangeCallback.toList.map (fun c => .stateChange c m.currentState (getNextState m.currentState event)))) := by
  by_cases stays : getNextState m.currentState event = m.currentState
  · exact .inl ⟨stays,if_pos stays⟩
  · exact .inr ⟨stays,if_neg stays⟩

/- An event is accepted exactly where can_transition says so, and a rejected one changes nothing. -/
theorem processEventAccepted (m : LocationStateMachine) (event : StateEvent) :
    (m.processEvent event).1.hasValue = canTransition m.currentState event ∧
    ((m.processEvent event).1.hasValue = false → (m.processEvent event).2 = (m,[])) := by
  rcases processEventSpec m event with ⟨stays,same⟩ | ⟨moves,same⟩
  · rw [same]
    simp [canTransition,stays]
  · rw [same]
    simp [canTransition,moves]

end LocationStateMachine

/- Only ErrorOccurred enters Error, and it does so from every other state but Idle. -/
theorem entersError {state : LocationState} (event : StateEvent) (outside : state ≠ .error) :
    getNextState state event = .error ↔ event = .errorOccurred ∧ state ≠ .idle := by
  cases state <;> cases event <;> simp_all [getNextState]

end UmapTracker.StateMachine
