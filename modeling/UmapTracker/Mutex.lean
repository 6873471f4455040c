import Mathlib.Logic.Function.Basic
import UmapTracker.Machine

/-! An object behind one mutex, statement by statement. Each thread calls it again and again: a call is answered at once,
or takes the mutex, runs a body on the data and gives the mutex up with an answer. Bodies that do what
one step of a sequential object does make the calls atomic. -/
namespace UmapTracker.Mutex
open Machine
variable {κ σ γ π ℓ : Type} [DecidableEq κ]

inductive Next (π ℓ : Type) where
  | goto (pc : π)
  | leave (answer : ℓ)
  deriving DecidableEq, Repr

/- On data σ, for calls γ with answers ℓ; π is where in a body a thread is. -/
structure Body (σ γ π ℓ : Type) where
  entry : γ → ℓ ⊕ π
  statement : σ → π → σ × Next π ℓ

inductive Place (γ π : Type) where
  | outside
  | locking (call : γ) (pc : π)
  | inside (call : γ) (pc : π)
  deriving DecidableEq, Repr

structure Shared (κ σ γ π : Type) where
  data : σ
  lock : Option κ
  place : κ → Place γ π

def opened (data : σ) : Shared κ σ γ π := ⟨data,none,fun _ => .outside⟩

inductive Move (κ γ : Type) where
  | call (c : κ) (call : γ)
  | acquire (c : κ)
  | go (c : κ)
  deriving DecidableEq, Repr

def follow (s : Shared κ σ γ π) (c : κ) (call : γ) : σ × Next π ℓ → Shared κ σ γ π
  | (data,.goto pc) => {s with data, place := Function.update s.place c (.inside call pc)}
  | (data,.leave _) => ⟨data,none,Function.update s.place c .outside⟩

def step (b : Body σ γ π ℓ) (s : Shared κ σ γ π) : Move κ γ → Shared κ σ γ π
  | .call c call =>
    match s.place c,b.entry call with
    | .outside,.inr pc => {s with place := Function.update s.place c (.locking call pc)}
    | _,_ => s
  | .acquire c =>
    match s.lock,s.place c with
    | none,.locking call pc => {s with lock := some c, place := Function.update s.place c (.inside call pc)}
    | _,_ => s
  | .go c =>
    match s.place c with
    | .inside call pc => follow s c call (b.statement s.data pc)
    | _ => s

/- The call that a move answers. -/
def told (b : Body σ γ π ℓ) (s : Shared κ σ γ π) : Move κ γ → Option ((κ × γ) × ℓ)
  | .call c call =>
    match s.place c,b.entry call with
    | .outside,.inl answer => some ((c,call),answer)
    | _,_ => none
  | .acquire _ => none
  | .go c =>
    match s.place c with
    | .inside call pc =>
      match (b.statement s.data pc).2 with
      | .leave answer => some ((c,call),answer)
      | .goto _ => none
    | _ => none

/- The calls that were answered, in the order of their answers. -/
def history (b : Body σ γ π ℓ) (data : σ) (moves : List (Move κ γ)) : List ((κ × γ) × ℓ) :=
  (labels (step b) (told b) (opened data) moves).reduceOption

/- What one body does from its entry on: `act` says what the whole call is to do to the data it finds, and `Under` what has become of
them when the thread is at pc. -/
structure Implements (b : Body σ γ π ℓ) (act : σ → γ → ℓ × σ) (Under : σ → γ → σ → π → Prop) : Prop where
  refused : ∀ before call answer, b.entry call = .inl answer → act before call = (answer,before)
  entered : ∀ before call pc, b.entry call = .inr pc → Under before call before pc
  goes : ∀ before call now pc data pc', Under before call now pc → b.statement now pc = (data,.goto pc') → Under before call data pc'
  leaves : ∀ before call now pc data answer, Under before call now pc → b.statement now pc = (data,.leave answer) →
    act before call = (answer,data)

/- A thread on its way into a body has asked for it; one inside has the mutex, and has done its part of the body. -/
structure Fits (b : Body σ γ π ℓ) (Under : σ → γ → σ → π → Prop) (lock : Option κ) (data r : σ) (k : κ) (place : Place γ π) : Prop where
  asked : ∀ call pc, place = .locking call pc → b.entry call = .inr pc
  held : ∀ call pc, place = .inside call pc → lock = some k ∧ Under r call data pc

/- The object as it is between the bodies, with the mutex free or about to be given up. -/
structure Related (b : Body σ γ π ℓ) (Under : σ → γ → σ → π → Prop) (s : Shared κ σ γ π) (r : σ) : Prop where
  free : s.lock = none → s.data = r
  each : ∀ k, Fits b Under s.lock s.data r k (s.place k)

def next (act : σ → γ → ℓ × σ) (r : σ) (d : κ × γ) : σ := (act r d.2).2

def answer (act : σ → γ → ℓ × σ) (r : σ) (d : κ × γ) : ℓ := (act r d.2).1

section Fits
variable {b : Body σ γ π ℓ} {Under : σ → γ → σ → π → Prop} {lock : Option κ} {data r : σ} {k : κ}

omit [DecidableEq κ] in
theorem fitsOutside : Fits b Under lock data r k .outside where
  asked := by rintro _ _ ⟨⟩
  held := by rintro _ _ ⟨⟩

omit [DecidableEq κ] in
theorem fitsLocking {call : γ} {pc : π} (enters : b.entry call = .inr pc) : Fits b Under lock data r k (.locking call pc) where
  asked := by
    rintro _ _ ⟨⟩
    exact enters
  held := by rintro _ _ ⟨⟩

omit [DecidableEq κ] in
theorem fitsInside {call : γ} {pc : π} (under : Under r call data pc) : Fits b Under (some k) data r k (.inside call pc) where
  asked := by rintro _ _ ⟨⟩
  held := by
    rintro _ _ ⟨⟩
    exact ⟨rfl,under⟩

omit [DecidableEq κ] in
/- What happens under the mutex of another thread does not concern this one. -/
theorem fitsOther {place : Place γ π} (fits : Fits b Under lock data r k place) (lacks : lock ≠ some k) (lock' : Option κ) (data' r' : σ) :
    Fits b Under lock' data' r' k place where
  asked := fits.asked
  held := fun call pc inside => absurd (fits.held call pc inside).1 lacks

end Fits

section Atomic
variable {b : Body σ γ π ℓ} {act : σ → γ → ℓ × σ} {Under : σ → γ → σ → π → Prop}

/- The thread c moves to a place that fits, and no other thread had the mutex. -/
theorem eachUpdate {s : Shared κ σ γ π} {r r' : σ} (related : Related b Under s r) {c : κ} {place : Place γ π} {lock' : Option κ} {data' : σ}
    (fits : Fits b Under lock' data' r' c place) (lacks : ∀ k, k ≠ c → s.lock ≠ some k) (k : κ) :
    Fits b Under lock' data' r' k (Function.update s.place c place k) := by
  by_cases same : k = c
  · subst same
    rwa [Function.update_self]
  · rw [Function.update_of_ne same]
    exact fitsOther (related.each k) (lacks k same) lock' data' r'

theorem relatedGo (implements : Implements b act Under) {s : Shared κ σ γ π} {r : σ} (related : Related b Under s r) (c : κ) :
    Answered (Related b Under) (answer act) (next act) (step b s (.go c)) r (told b s (.go c)) := by
  cases here : s.place c with
  | inside call pc =>
    obtain ⟨holds,under⟩ := (related.each c).held call pc here
    have lacks : ∀ k, k ≠ c → s.lock ≠ some k := fun k other => by simpa [holds] using Ne.symm other
    simp only [told,step,here]
    obtain ⟨data,after,done⟩ : ∃ data after, b.statement s.data pc = (data,after) := ⟨_,_,rfl⟩
    rw [done]
    cases after with
    | goto pc' =>
      have further : Fits b Under s.lock data r c (.inside call pc') := by
        rw [holds]
        exact fitsInside (implements.goes r call s.data pc data pc' under done)
      exact ⟨fun none => by rw [follow,holds] at none; contradiction,eachUpdate related further lacks⟩
    | leave told =>
      have acts := implements.leaves r call s.data pc data told under done
      exact ⟨by rw [answer,acts],fun _ => by rw [next,acts]; rfl,eachUpdate related fitsOutside lacks⟩
  | _ =>
    simp only [told,step,here]
    exact related

theorem relatedStep (implements : Implements b act Under) {s : Shared κ σ γ π} {r : σ} (related : Related b Under s r) (m : Move κ γ) :
    Answered (Related b Under) (answer act) (next act) (step b s m) r (told b s m) := by
  cases m with
  | call c call =>
    simp only [step,told]
    cases here : s.place c with
    | outside =>
      cases enters : b.entry call with
      | inl refusal =>
        have acts := implements.refused r call refusal enters
        exact ⟨by rw [answer,acts],by rw [next,acts]; exact related⟩
      | inr pc =>
        refine ⟨related.free,?_⟩
        refine (Function.forall_update_iff s.place (p := fun k place => Fits b Under s.lock s.data r k place)).mpr ⟨?_,?_⟩
        · exact fitsLocking enters
        · exact fun k _ => related.each k
    | _ => exact related
  | acquire c =>
    simp only [step,told]
    split
    · rename_i call pc free here
      have enters := (related.each c).asked call pc here
      have under : Under r call s.data pc := by
        rw [related.free free]
        exact implements.entered r call pc enters
      exact ⟨fun none => by contradiction,eachUpdate related (fitsInside under) (fun k _ => by simp [free])⟩
    · exact related
  | go c => exact relatedGo implements related c

/- The answers of a run are those of the sequential object to the same calls, in the order in which the mutex was given up. -/
theorem sequential (implements : Implements b act Under) (data : σ) (moves : List (Move κ γ)) :
    let calls := (history b data moves).map Prod.fst
    (history b data moves).map Prod.snd = labels (next act) (answer act) data calls ∧
      Related b Under (run (step b) (opened data) moves) (run (next act) data calls) := by
  have start : Related b Under (opened data : Shared κ σ γ π) data := ⟨fun _ => rfl,fun _ => fitsOutside⟩
  exact simulatesWeakly (R := Related b Under) (fun _ _ m related => relatedStep implements related m) start moves

omit [DecidableEq κ] in
/- One body at a time. -/
theorem alone {s : Shared κ σ γ π} {r : σ} (related : Related b Under s r) {i j : κ} {call call' : γ} {pc pc' : π}
    (first : s.place i = .inside call pc) (second : s.place j = .inside call' pc') : i = j := by
  have holds := ((related.each i).held call pc first).1
  rw [((related.each j).held call' pc' second).1] at holds
  exact (Option.some.inj holds).symm

end Atomic
end UmapTracker.Mutex
