import UmapTracker.Machine
import UmapTracker.StateMachine

/-! What the callbacks of a LocationStateMachine are told, against what the machine does. reset
assigns the state without a call, and the error callback is stored but never called. -/
namespace UmapTracker.StateObserver
open StateMachine Machine Text

inductive Call where
  | processEvent (event : StateEvent)
  | reset
  deriving DecidableEq, Repr

/- The machine, the calls its callbacks got, and how often it went into Error. -/
structure Observed where
  machine : LocationStateMachine
  told : List StateMachine.Invocation
  entries : Nat
  deriving DecidableEq, Repr

def entered (before after : LocationStateMachine) : Nat :=
  if before.getState ≠ .error ∧ after.getState = .error then 1 else 0

def step (o : Observed) : Call → Observed
  | .processEvent event =>
      let (_,machine,told) := o.machine.processEvent event
      ⟨machine,o.told ++ told,o.entries + entered o.machine machine⟩
  | .reset => {o with machine := o.machine.reset, entries := o.entries + entered o.machine o.machine.reset}

-- both callbacks are registered on a new machine
def registered (stateCallback errorCallback : Target) : LocationStateMachine :=
  ((LocationStateMachine.new.registerStateCallback (some stateCallback)).2.registerErrorCallback (some errorCallback)).2

def watched (stateCallback errorCallback : Target) : Observed := ⟨registered stateCallback errorCallback,[],0⟩

def changes (told : List StateMachine.Invocation) : List (LocationState × LocationState) :=
  told.filterMap fun | .stateChange _ fromState toState => some (fromState,toState) | .error _ _ _ => none

def errors (told : List StateMachine.Invocation) : Nat := told.countP fun | .error _ _ _ => true | .stateChange _ _ _ => false

/- The end of a chain of pairs that starts at `s`; none where there is a gap. -/
def follow {S : Type} [DecidableEq S] (s : S) : List (S × S) → Option S
  | [] => some s
  | (a,b)::rest => if a = s then follow b rest else none

theorem followAppend {S : Type} [DecidableEq S] (s : S) (xs ys : List (S × S)) :
    follow s (xs ++ ys) = (follow s xs).bind (fun t => follow t ys) := by
  induction xs generalizing s with
  | nil => rfl
  | cons x xs ih =>
    obtain ⟨a,b⟩ := x
    simp only [List.cons_append,follow]
    split
    · exact ih b
    · rfl

/- The state callback has seen every change, and the error callback every entry into Error. -/
structure Informed (o : Observed) : Prop where
  chain : follow .idle (changes o.told) = some o.machine.getState
  errors : errors o.told = o.entries

/- The call is not a reset outside Idle, and does not take the machine into Error. -/
def Noticed (o : Observed) : Call → Prop
  | .reset => o.machine.getState = .idle
  | .processEvent event => event = .errorOccurred → o.machine.getState = .idle ∨ o.machine.getState = .error

theorem callbackStays (o : Observed) (call : Call) :
    (step o call).machine.stateChangeCallback = o.machine.stateChangeCallback := by
  cases call with
  | reset => rfl
  | processEvent event =>
    rcases o.machine.processEventSpec event with ⟨_,same⟩ | ⟨_,same⟩ <;> simp only [step,same]

theorem informedReset {o : Observed} (informed : Informed o) : Informed (step o .reset) ↔ Noticed o .reset := by
  have calm : entered o.machine o.machine.reset = 0 := if_neg (by simp [LocationStateMachine.reset,LocationStateMachine.getState])
  constructor
  · intro after
    have chain := after.chain
    change follow .idle (changes o.told) = some .idle at chain
    rw [informed.chain] at chain
    exact Option.some.inj chain
  · intro idle
    refine ⟨informed.chain.trans (congrArg some idle),?_⟩
    change StateObserver.errors o.told = o.entries + _
    rw [calm]
    exact informed.errors

theorem stateAfter (o : Observed) (event : StateEvent) :
    (step o (.processEvent event)).machine.getState = getNextState o.machine.currentState event := by
  rcases o.machine.processEventSpec event with ⟨stays,same⟩ | ⟨_,same⟩
  · simp only [step,same,LocationStateMachine.getState,stays]
  · simp only [step,same,LocationStateMachine.getState]

/- An event enters Error exactly where it is not one of those allowed. -/
theorem calmIff (o : Observed) (event : StateEvent) :
    entered o.machine (step o (.processEvent event)).machine = 0 ↔ Noticed o (.processEvent event) := by
  rw [entered,stateAfter]
  by_cases error : o.machine.currentState = .error
  · exact iff_of_true (if_neg fun h => h.1 error) (fun _ => .inr error)
  · constructor
    · intro calm occurred
      refine .inl (Classical.byContradiction fun busy => ?_)
      rw [if_pos ⟨error,(entersError event error).mpr ⟨occurred,busy⟩⟩] at calm
      exact absurd calm Nat.one_ne_zero
    · intro noticed
      refine if_neg fun enters => ?_
      obtain ⟨occurred,busy⟩ := (entersError event error).mp enters.2
      rcases noticed occurred with idle | inError
      · exact busy idle
      · exact error inError

/- The state callback hears of an event that moves the machine, and the error callback of none. -/
theorem heardEvent {o : Observed} {callback : Target} (listens : o.machine.stateChangeCallback = some callback)
    (chain : follow .idle (changes o.told) = some o.machine.getState) (event : StateEvent) :
    follow .idle (changes (step o (.processEvent event)).told) = some (step o (.processEvent event)).machine.getState ∧
    errors (step o (.processEvent event)).told = errors o.told := by
  rw [stateAfter]
  rcases o.machine.processEventSpec event with ⟨stays,same⟩ | ⟨_,same⟩
  · have told : (step o (.processEvent event)).told = o.told := by simp only [step,same,List.append_nil]
    rw [told,stays]
    exact ⟨chain,rfl⟩
  · have seen : changes (step o (.processEvent event)).told =
        changes o.told ++ [(o.machine.currentState,getNextState o.machine.currentState event)] := by
      simp only [step,same,listens,changes,List.filterMap_append]
      rfl
    refine ⟨?_,?_⟩
    · rw [seen,followAppend,chain]
      exact if_pos rfl
    · simp only [step,same,listens,errors,List.countP_append]
      rfl

theorem informedEvent {o : Observed} {callback : Target} (listens : o.machine.stateChangeCallback = some callback)
    (informed : Informed o) (event : StateEvent) : Informed (step o (.processEvent event)) ↔ Noticed o (.processEvent event) := by
  obtain ⟨linked,unheard⟩ := heardEvent listens informed.chain event
  have counted : (step o (.processEvent event)).entries =
      o.entries + entered o.machine (step o (.processEvent event)).machine := rfl
  have before := informed.errors
  rw [← calmIff]
  constructor
  · intro after
    have := after.errors
    omega
  · intro calm
    exact ⟨linked,by omega⟩

theorem informedStart (c d : Target) : Informed (watched c d) := ⟨rfl,rfl⟩

/- Both callbacks know all, after every call, exactly where no call is one they are not told of. -/
theorem informedIff (c d : Target) (calls : List Call) :
    Always step Informed (watched c d) calls ↔ Allowed step Noticed (watched c d) calls := by
  have one : ∀ o call, o.machine.stateChangeCallback = some c → Informed o → (Informed (step o call) ↔ Noticed o call) := by
    intro o call listens informed
    cases call with
    | reset => exact informedReset informed
    | processEvent event => exact informedEvent listens informed event
  exact alwaysExactWith (J := fun o : Observed => o.machine.stateChangeCallback = some c) one
    (fun o call listens _ _ => (callbackStays o call).trans listens) rfl (informedStart c d) calls

/- From Acquiring back to Idle by reset; from Acquiring into Error without a call. -/
theorem callbacksMiss : ¬ ∀ (c d : Target) (calls : List Call), Always step Informed (watched c d) calls := by
  intro all
  have last := alwaysLast (all 1 2 [.processEvent .startTracking,.reset])
  exact absurd last.chain (by decide)

end UmapTracker.StateObserver
