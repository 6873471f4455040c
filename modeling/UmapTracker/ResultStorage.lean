import UmapTracker.Machine
import UmapTracker.Result
import UmapTracker.Weights

/-! utils/result.h, the union of Result<T> by hand: which member is alive, when a T is built and destroyed,
and what its users must check. Reading the member that is not alive, or building over a live object, has no
defined behaviour; an operation is then `none`. -/
namespace UmapTracker.ResultStorage
open Machine Weights
variable {T : Type}

inductive Member (T : Type) where
  | value (value : T)
  | error (error : ErrorCode)
  deriving DecidableEq, Repr

-- union { T value_; ErrorCode error_; } and has_value_
structure Storage (T : Type) where
  member : Member T
  hasValue : Bool
  deriving DecidableEq, Repr

/- The constructor and destructor calls of T. -/
structure Traffic where
  built : Nat
  destroyed : Nat
  deriving DecidableEq, Repr

namespace Storage

def readValue (s : Storage T) : Option T :=
  match s.member with
  | .value value => some value
  | .error _ => none

def readError (s : Storage T) : Option ErrorCode :=
  match s.member with
  | .value _ => none
  | .error error => some error

-- Result(const T&) and Result(T&&)
def ofValue (value : T) : Storage T × Traffic := (⟨.value value,true⟩,⟨1,0⟩)

def ofUnexpected (error : ErrorCode) : Storage T × Traffic := (⟨.error error,false⟩,⟨0,0⟩)

def ofNothing : Storage T × Traffic := (⟨.error .ok,false⟩,⟨0,0⟩)

-- Result(const Result&) and Result(Result&&)
def construct (other : Storage T) : Option (Storage T × Traffic) :=
  if other.hasValue then do
    let value ← other.readValue
    some (⟨.value value,true⟩,⟨1,0⟩)
  else do
    let error ← other.readError
    some (⟨.error error,false⟩,⟨0,0⟩)

-- the two operator=, for an other that is not this
def assign (s other : Storage T) : Option (Storage T × Traffic) :=
  match s.hasValue,other.hasValue with
  | true,true => do
      let _ ← s.readValue
      let value ← other.readValue
      some (⟨.value value,true⟩,⟨0,0⟩)
  | true,false => do
      let _ ← s.readValue
      let error ← other.readError
      some (⟨.error error,false⟩,⟨0,1⟩)
  | false,true => do
      let value ← other.readValue
      some (⟨.value value,true⟩,⟨1,0⟩)
  | false,false => do
      let error ← other.readError
      some (⟨.error error,false⟩,⟨0,0⟩)

-- ~Result()
def destroy (s : Storage T) : Option Traffic :=
  if s.hasValue then do
    let _ ← s.readValue
    some ⟨0,1⟩
  else some ⟨0,0⟩

/- What a move from the value leaves in it; a copy leaves it as it is. -/
def moveFrom (left : T → T) (s : Storage T) : Storage T :=
  if s.hasValue then {s with member := match s.member with | .value value => .value (left value) | .error error => .error error}
  else s

end Storage

/- The statements of a program on its variables of type Result<T>. -/
inductive Op (κ T : Type) where
  | ofValue (x : κ) (value : T)
  | ofUnexpected (x : κ) (error : ErrorCode)
  | ofNothing (x : κ)
  | copy (x y : κ)
  | move (x y : κ)
  | copyAssign (x y : κ)
  | moveAssign (x y : κ)
  | destroy (x : κ)
  | hasValue (x : κ)
  | isError (x : κ)
  | value (x : κ)
  | setValue (x : κ) (value : T)
  | error (x : κ)
  deriving DecidableEq, Repr

inductive Answer (T : Type) where
  | done
  | flag (flag : Bool)
  | value (value : T)
  | error (error : ErrorCode)
  deriving DecidableEq, Repr

variable {κ : Type} [DecidableEq κ]

structure Variables (κ T : Type) where
  slot : κ → Option (Storage T)
  traffic : Traffic

def Variables.new : Variables κ T := ⟨fun _ => none,⟨0,0⟩⟩

namespace Variables

def put (s : Variables κ T) (x : κ) (made : Storage T × Traffic) : Variables κ T :=
  ⟨Function.update s.slot x (some made.1),⟨s.traffic.built + made.2.built,s.traffic.destroyed + made.2.destroyed⟩⟩

def replace (s : Variables κ T) (x : κ) (storage : Storage T) : Variables κ T := s.put x (storage,⟨0,0⟩)

-- a constructor runs in storage of its own
def declare (s : Variables κ T) (x : κ) (made : Storage T × Traffic) : Option (Answer T × Variables κ T) :=
  match s.slot x with
  | none => some (.done,s.put x made)
  | some _ => none

def declareFrom (left : T → T) (s : Variables κ T) (x y : κ) : Option (Answer T × Variables κ T) := do
  let other ← s.slot y
  let made ← other.construct
  (s.replace y (other.moveFrom left)).declare x made

def assign (left : T → T) (s : Variables κ T) (x y : κ) : Option (Answer T × Variables κ T) := do
  let storage ← s.slot x
  let other ← s.slot y
  if x = y then some (.done,s)
  else
    let made ← storage.assign other
    some (.done,(s.replace y (other.moveFrom left)).put x made)

def leave (s : Variables κ T) (x : κ) : Option (Answer T × Variables κ T) := do
  let storage ← s.slot x
  let traffic ← storage.destroy
  some (.done,⟨Function.update s.slot x none,⟨s.traffic.built + traffic.built,s.traffic.destroyed + traffic.destroyed⟩⟩)

def ask (s : Variables κ T) (x : κ) (answer : Storage T → Option (Answer T)) : Option (Answer T × Variables κ T) := do
  let storage ← s.slot x
  let answer ← answer storage
  some (answer,s)

end Variables

/- `left`: the value that T's move operations leave behind. -/
def exec (left : T → T) (s : Variables κ T) : Op κ T → Option (Answer T × Variables κ T)
  | .ofValue x value => s.declare x (Storage.ofValue value)
  | .ofUnexpected x error => s.declare x (Storage.ofUnexpected error)
  | .ofNothing x => s.declare x Storage.ofNothing
  | .copy x y => s.declareFrom id x y
  | .move x y => s.declareFrom left x y
  | .copyAssign x y => s.assign id x y
  | .moveAssign x y => s.assign left x y
  | .destroy x => s.leave x
  | .hasValue x => s.ask x (fun storage => some (.flag storage.hasValue))
  | .isError x => s.ask x (fun storage => some (.flag !storage.hasValue))
  | .value x => s.ask x (fun storage => storage.readValue.map .value)
  | .setValue x value => do
      let storage ← s.slot x
      let _ ← storage.readValue
      some (.done,s.replace x {storage with member := .value value})
  | .error x => s.ask x (fun storage => storage.readError.map .error)

/- The variables hold values or errors. -/
abbrev Results (κ T : Type) := κ → Option (Result T)

def Results.moved (left : T → T) (r : Results κ T) (y : κ) : Results κ T :=
  Function.update r y ((r y).map (fun result => result.map left))

def next (left : T → T) (r : Results κ T) : Op κ T → Results κ T
  | .ofValue x value => Function.update r x (some (.ok value))
  | .ofUnexpected x error => Function.update r x (some (.error error))
  | .ofNothing x => Function.update r x (some (.error .ok))
  | .copy x y => Function.update r x (r y)
  | .move x y => Function.update (Results.moved left r y) x (r y)
  | .copyAssign x y => Function.update r x (r y)
  | .moveAssign x y => if x = y then r else Function.update (Results.moved left r y) x (r y)
  | .destroy x => Function.update r x none
  | .setValue x value => Function.update r x (some (.ok value))
  | _ => r

def answer (r : Results κ T) : Op κ T → Answer T
  | .hasValue x => .flag ((r x).any Result.hasValue)
  | .isError x => .flag !((r x).any Result.hasValue)
  | .value x =>
      match r x with
      | some (.ok value) => .value value
      | _ => .done
  | .error x =>
      match r x with
      | some (.error error) => .error error
      | _ => .done
  | _ => .done

/- A variable is declared once and used within its scope, its value is read only when there is one, its
error only when there is none. -/
def Guard (r : Results κ T) : Op κ T → Prop
  | .ofValue x _ | .ofUnexpected x _ | .ofNothing x => r x = none
  | .copy x y | .move x y => r x = none ∧ (r y).isSome
  | .copyAssign x y | .moveAssign x y => (r x).isSome ∧ (r y).isSome
  | .destroy x | .hasValue x | .isError x => (r x).isSome
  | .value x | .setValue x _ => ∃ value, r x = some (.ok value)
  | .error x => ∃ error, r x = some (.error error)

def store : Result T → Storage T
  | .ok value => ⟨.value value,true⟩
  | .error error => ⟨.error error,false⟩

def holds (result : Option (Result T)) : Nat := if result.any Result.hasValue then 1 else 0

theorem constructStore (result : Result T) : (store result).construct = some (store result,⟨holds (some result),0⟩) := by
  cases result <;> rfl

theorem assignStore (before after : Result T) : ∃ traffic, (store before).assign (store after) = some (store after,traffic) ∧
    traffic.built + holds (some before) = traffic.destroyed + holds (some after) := by
  cases before <;> cases after <;> exact ⟨_,rfl,rfl⟩

theorem destroyStore (result : Result T) : (store result).destroy = some ⟨0,holds (some result)⟩ := by
  cases result <;> rfl

theorem moveFromStore (left : T → T) (result : Result T) : (store result).moveFrom left = store (result.map left) := by
  cases result <;> rfl

theorem holdsMap (left : T → T) (result : Result T) : holds (some (result.map left)) = holds (some result) := by
  cases result <;> rfl

/- The storage of each variable is that of its result, and a T is alive for each result with a value. -/
structure Represents [Fintype κ] (s : Variables κ T) (r : Results κ T) : Prop where
  slot : ∀ x, s.slot x = (r x).map store
  balance : s.traffic.built = s.traffic.destroyed + total holds r

theorem movedId (r : Results κ T) (y : κ) : Results.moved id r y = r := by
  have same : (r y).map (fun result => result.map id) = r y := by
    rcases r y with _ | result
    · rfl
    · cases result <;> rfl
  rw [Results.moved,same,Function.update_eq_self]

section Programs
variable [Fintype κ] {s : Variables κ T} {r : Results κ T}

omit [DecidableEq κ] in
theorem representsNew : Represents (Variables.new : Variables κ T) (fun _ => none) where
  slot := fun _ => rfl
  balance := by
    have zero : total holds (fun _ : κ => (none : Option (Result T))) = 0 := totalZero (fun _ => rfl)
    rw [zero]
    rfl

theorem representsPut (represents : Represents s r) (x : κ) (result : Result T) {traffic : Traffic}
    (pays : traffic.built + holds (r x) = traffic.destroyed + holds (some result)) :
    Represents (s.put x (store result,traffic)) (Function.update r x (some result)) where
  slot := by
    intro y
    by_cases same : y = x
    · subst same
      simp [Variables.put]
    · simp [Variables.put,same,represents.slot y]
  balance := by
    have sums := totalUpdate holds r x (some result)
    have before := represents.balance
    simp only [Variables.put]
    omega

/- A copy leaves the source alone, and a move leaves a value in it where there was one. -/
theorem representsMoved (represents : Represents s r) (left : T → T) (y : κ) {result : Result T} (stored : r y = some result) :
    Represents (s.replace y ((store result).moveFrom left)) (Results.moved left r y) := by
  rw [moveFromStore,Results.moved,stored]
  exact representsPut represents y _ (by simp [stored,holdsMap])

theorem declared (represents : Represents s r) {x : κ} (fresh : r x = none) (result : Result T) :
    ∃ t, s.declare x (store result,⟨holds (some result),0⟩) = some (.done,t) ∧
      Represents t (Function.update r x (some result)) := by
  have out := represents.slot x
  rw [fresh] at out
  exact ⟨_,by rw [Variables.declare,out]; rfl,representsPut represents x result (by simp [fresh,holds])⟩

theorem declaredFrom (represents : Represents s r) (left : T → T) {x y : κ} (fresh : r x = none) {result : Result T}
    (stored : r y = some result) :
    ∃ t, s.declareFrom left x y = some (.done,t) ∧ Represents t (Function.update (Results.moved left r y) x (r y)) := by
  have source : s.slot y = some (store result) := by rw [represents.slot y,stored]; rfl
  have apart : x ≠ y := by
    rintro rfl
    simp [fresh] at stored
  have still : Results.moved left r y x = none := by rw [Results.moved,Function.update_of_ne apart,fresh]
  obtain ⟨t,one,after⟩ := declared (representsMoved represents left y stored) still result
  refine ⟨t,?_,by rwa [stored]⟩
  simp [Variables.declareFrom,source,constructStore,one]

theorem assigned (represents : Represents s r) (left : T → T) {x y : κ} (apart : x ≠ y) {before after : Result T}
    (target : r x = some before) (stored : r y = some after) :
    ∃ t, s.assign left x y = some (.done,t) ∧ Represents t (Function.update (Results.moved left r y) x (r y)) := by
  have there : s.slot x = some (store before) := by rw [represents.slot x,target]; rfl
  have source : s.slot y = some (store after) := by rw [represents.slot y,stored]; rfl
  obtain ⟨traffic,made,pays⟩ := assignStore before after
  have still : Results.moved left r y x = some before := by rw [Results.moved,Function.update_of_ne apart,target]
  have done : s.assign left x y = some (.done,(s.replace y ((store after).moveFrom left)).put x (store after,traffic)) := by
    simp [Variables.assign,there,source,apart,made]
  refine ⟨_,done,?_⟩
  rw [stored]
  exact representsPut (representsMoved represents left y stored) x after (by rw [still]; exact pays)

theorem destroyed (represents : Represents s r) {x : κ} {result : Result T} (stored : r x = some result) :
    ∃ t, s.leave x = some (.done,t) ∧ Represents t (Function.update r x none) := by
  have there : s.slot x = some (store result) := by rw [represents.slot x,stored]; rfl
  have done : s.leave x = some (.done,⟨Function.update s.slot x none,
      ⟨s.traffic.built,s.traffic.destroyed + holds (some result)⟩⟩) := by
    simp [Variables.leave,there,destroyStore]
  refine ⟨_,done,?_,?_⟩
  · intro y
    by_cases same : y = x
    · subst same
      simp
    · simp [same,represents.slot y]
  · have sums := totalUpdate holds r x none
    have before := represents.balance
    have zero : holds (none : Option (Result T)) = 0 := rfl
    rw [stored] at sums
    simp only
    omega

omit [DecidableEq κ] in
theorem asked (represents : Represents s r) {x : κ} {result : Result T} (stored : r x = some result)
    (answer : Storage T → Option (Answer T)) :
    s.ask x answer = (answer (store result)).map (fun told => (told,s)) := by
  have there : s.slot x = some (store result) := by rw [represents.slot x,stored]; rfl
  simp [Variables.ask,there,Option.map_eq_bind]

theorem execAllowed (left : T → T) (represents : Represents s r) (op : Op κ T) (guarded : Guard r op) :
    ∃ t, exec left s op = some (answer r op,t) ∧ Represents t (next left r op) := by
  cases op with
  | ofValue x value => exact declared represents guarded (.ok value)
  | ofUnexpected x error => exact declared represents guarded (.error error)
  | ofNothing x => exact declared represents guarded (.error .ok)
  | copy x y =>
    obtain ⟨fresh,some_result⟩ := guarded
    obtain ⟨result,stored⟩ := Option.isSome_iff_exists.mp some_result
    have copied := declaredFrom represents id fresh stored
    rwa [movedId] at copied
  | move x y =>
    obtain ⟨fresh,some_result⟩ := guarded
    obtain ⟨result,stored⟩ := Option.isSome_iff_exists.mp some_result
    exact declaredFrom represents left fresh stored
  | copyAssign x y =>
    obtain ⟨target,some_result⟩ := guarded
    obtain ⟨before,target⟩ := Option.isSome_iff_exists.mp target
    obtain ⟨after,stored⟩ := Option.isSome_iff_exists.mp some_result
    by_cases same : x = y
    · subst same
      have there : s.slot x = some (store before) := by rw [represents.slot x,target]; rfl
      refine ⟨s,by simp [exec,Variables.assign,there,answer],?_⟩
      rwa [next,Function.update_eq_self]
    · have copied := assigned represents id same target stored
      rwa [movedId] at copied
  | moveAssign x y =>
    obtain ⟨target,some_result⟩ := guarded
    obtain ⟨before,target⟩ := Option.isSome_iff_exists.mp target
    obtain ⟨after,stored⟩ := Option.isSome_iff_exists.mp some_result
    by_cases same : x = y
    · subst same
      have there : s.slot x = some (store before) := by rw [represents.slot x,target]; rfl
      refine ⟨s,by simp [exec,Variables.assign,there,answer],?_⟩
      rwa [next,if_pos rfl]
    · rw [next,if_neg same]
      exact assigned represents left same target stored
  | destroy x =>
    obtain ⟨result,stored⟩ := Option.isSome_iff_exists.mp guarded
    exact destroyed represents stored
  | hasValue x =>
    obtain ⟨result,stored⟩ := Option.isSome_iff_exists.mp guarded
    refine ⟨s,?_,represents⟩
    rw [exec,asked represents stored,answer,stored]
    cases result <;> rfl
  | isError x =>
    obtain ⟨result,stored⟩ := Option.isSome_iff_exists.mp guarded
    refine ⟨s,?_,represents⟩
    rw [exec,asked represents stored,answer,stored]
    cases result <;> rfl
  | value x =>
    obtain ⟨value,stored⟩ := guarded
    refine ⟨s,?_,represents⟩
    rw [exec,asked represents stored,answer,stored]
    rfl
  | error x =>
    obtain ⟨error,stored⟩ := guarded
    refine ⟨s,?_,represents⟩
    rw [exec,asked represents stored,answer,stored]
    rfl
  | setValue x value =>
    obtain ⟨before,stored⟩ := guarded
    have there : s.slot x = some (store (.ok before)) := by rw [represents.slot x,stored]; rfl
    have done : exec left s (.setValue x value) = some (.done,s.put x (store (.ok value),⟨0,0⟩)) := by
      simp [exec,there,store,Storage.readValue,Variables.replace]
    exact ⟨_,done,representsPut represents x (.ok value) (by rw [stored]; rfl)⟩

/- A program that breaks the rules has no defined behaviour from there on. -/
theorem execRefused (left : T → T) (represents : Represents s r) (op : Op κ T) (broken : ¬Guard r op) :
    exec left s op = none := by
  have slot := represents.slot
  cases op with
  | ofValue x _ | ofUnexpected x _ | ofNothing x =>
    obtain ⟨result,stored⟩ := Option.ne_none_iff_exists'.mp broken
    simp [exec,Variables.declare,slot x,stored]
  | copy x y | move x y =>
    rcases stored : r y with _ | result
    · simp [exec,Variables.declareFrom,slot y,stored]
    · rcases target : r x with _ | before
      · exact absurd ⟨target,by simp [stored]⟩ broken
      · -- x is a variable already, whether it is y or not
        by_cases same : x = y
        · simp [exec,Variables.declareFrom,slot y,stored,Variables.declare,Variables.replace,Variables.put,same]
        · simp [exec,Variables.declareFrom,slot y,stored,Variables.declare,Variables.replace,Variables.put,same,slot x,target]
  | copyAssign x y | moveAssign x y =>
    rcases target : r x with _ | before
    · simp [exec,Variables.assign,slot x,target]
    · rcases stored : r y with _ | after
      · simp [exec,Variables.assign,slot x,slot y,target,stored]
      · exact absurd ⟨by simp [target],by simp [stored]⟩ broken
  | destroy x =>
    have out : r x = none := by simpa [Guard] using broken
    simp [exec,Variables.leave,slot x,out]
  | hasValue x | isError x =>
    have out : r x = none := by simpa [Guard] using broken
    simp [exec,Variables.ask,slot x,out]
  | value x | setValue x _ =>
    rcases stored : r x with _ | result
    · simp [exec,Variables.ask,slot x,stored]
    · cases result with
      | ok value => exact absurd ⟨value,stored⟩ broken
      | error error => simp [exec,Variables.ask,slot x,stored,store,Storage.readValue]
  | error x =>
    rcases stored : r x with _ | result
    · simp [exec,Variables.ask,slot x,stored]
    · cases result with
      | ok value => simp [exec,Variables.ask,slot x,stored,store,Storage.readError]
      | error error => exact absurd ⟨error,stored⟩ broken

end Programs

structure Sound [Fintype κ] (left : T → T) (ops : List (Op κ T)) (after : Variables κ T) : Prop where
  answers : (attempt (exec left) (Variables.new : Variables κ T) ops).map Prod.fst =
    some (labels (next left) answer (fun _ => none) ops)
  ends : (attempt (exec left) (Variables.new : Variables κ T) ops).map Prod.snd = some after
  slot : ∀ x, after.slot x = (run (next left) (fun _ => none) ops x).map store
  balance : after.traffic.built = after.traffic.destroyed + total holds (run (next left) (fun _ => none) ops)

/- A program on Result variables is defined exactly when it keeps to the rules. Then it computes on values
and errors, and every T that was built and not destroyed is the value of a variable in scope. -/
theorem definedExactly [Fintype κ] (left : T → T) (ops : List (Op κ T)) :
    (Allowed (next left) Guard (fun _ => none) ops → ∃ after, Sound left ops after) ∧
    (¬Allowed (next left) Guard (fun _ => none) ops → attempt (exec left) (Variables.new : Variables κ T) ops = none) := by
  obtain ⟨succeed,fail⟩ := attemptExact (R := Represents) (fun _ _ op represents => execAllowed left represents op)
    (fun _ _ op represents => execRefused left represents op) representsNew ops
  refine ⟨?_,fail⟩
  intro allowed
  obtain ⟨after,ran,represents⟩ := succeed allowed
  exact ⟨after,by rw [ran]; rfl,by rw [ran]; rfl,represents.slot,represents.balance⟩

/- A value is moved over an error, both are read, and both leave scope: two built, two destroyed. -/
def moves : List (Op (Fin 2) Nat) :=
  [.ofValue 0 5,.ofUnexpected 1 .notFound,.moveAssign 1 0,.value 1,.value 0,.destroy 0,.destroy 1]

theorem definedExactlyMoves : ∃ after, Sound (fun _ => 0) moves after := by
  refine (definedExactly (fun _ => 0) moves).1 ?_
  simp [moves,allowedCons,allowedNil,Guard,next,Results.moved,Function.update]
  exact ⟨0,rfl⟩

end UmapTracker.ResultStorage
