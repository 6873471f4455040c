import Mathlib.Data.List.ReduceOption
import Mathlib.Tactic.TypeStar

/-! Runs of a step function, what a run keeps, and simulation of one machine by
another. Labels are computed in the state in which their event is taken, so they
also serve as the outputs of a run. -/
namespace UmapTracker.Machine
variable {σ ε : Type} {step : σ → ε → σ}

def run (step : σ → ε → σ) (s : σ) (es : List ε) : σ := es.foldl step s

@[simp] theorem runNil (s : σ) : run step s [] = s := rfl
@[simp] theorem runCons (s : σ) (e : ε) (es : List ε) :
    run step s (e::es) = run step (step s e) es := rfl
@[simp] theorem runAppend (s : σ) (a b : List ε) :
    run step s (a ++ b) = run step (run step s a) b := List.foldl_append

/- An event is allowed in the state the run has reached before it. -/
def Allowed (step : σ → ε → σ) (guard : σ → ε → Prop) (s : σ) (es : List ε) : Prop :=
  ∀ pre e post, es = pre ++ e::post → guard (run step s pre) e

theorem allowedCons {guard : σ → ε → Prop} {s : σ} {e : ε} {es : List ε} :
    Allowed step guard s (e::es) ↔ guard s e ∧ Allowed step guard (step s e) es := by
  constructor
  · intro h
    refine ⟨h [] e es rfl,?_⟩
    intro pre x post same
    exact h (e::pre) x post (by simp [same])
  · rintro ⟨head,tail⟩ pre x post same
    cases pre with
    | nil =>
      obtain ⟨rfl,rfl⟩ := List.cons.inj same
      exact head
    | cons a pre =>
      obtain ⟨rfl,rest⟩ := List.cons.inj same
      exact tail pre x post rest

theorem allowedNil {guard : σ → ε → Prop} {s : σ} : Allowed step guard s [] := by
  intro pre e post same
  simp at same

instance allowedDecidable (guard : σ → ε → Prop) [∀ s e, Decidable (guard s e)] (s : σ) : (es : List ε) → Decidable (Allowed step guard s es)
  | [] => .isTrue allowedNil
  | e::es =>
    have := allowedDecidable guard (step s e) es
    decidable_of_iff (guard s e ∧ Allowed step guard (step s e) es) allowedCons.symm

theorem allowedAppend {guard : σ → ε → Prop} {s : σ} {a b : List ε} :
    Allowed step guard s (a ++ b) ↔ Allowed step guard s a ∧ Allowed step guard (run step s a) b := by
  induction a generalizing s with
  | nil => simp [allowedNil]
  | cons e a ih => rw [List.cons_append,allowedCons,allowedCons,ih,runCons,and_assoc]

theorem allowedEach {guard : σ → ε → Prop} {P : ε → Prop} {s : σ} {es : List ε} (allowed : Allowed step guard s es)
    (each : ∀ e ∈ es, P e) : Allowed step (fun s e => guard s e ∧ P e) s es := by
  intro pre e post same
  exact ⟨allowed pre e post same,each e (by simp [same])⟩

/- A guard that does not look at the state is a condition on the events alone. -/
theorem allowedEvery {P : ε → Prop} {s : σ} {es : List ε} : Allowed step (fun _ e => P e) s es ↔ ∀ e ∈ es, P e := by
  induction es generalizing s with
  | nil => simp [allowedNil]
  | cons e es ih => rw [allowedCons,ih,List.forall_mem_cons]

/- Two machines on the same events whose guards agree in related states are allowed the same runs. -/
theorem allowedAlike {ρ : Type} {R : σ → ρ → Prop} {next : ρ → ε → ρ} {guard : σ → ε → Prop} {guard' : ρ → ε → Prop}
    (alike : ∀ s r e, R s r → (guard s e ↔ guard' r e)) (keep : ∀ s r e, R s r → guard s e → R (step s e) (next r e))
    {s : σ} {r : ρ} (start : R s r) (es : List ε) : Allowed step guard s es ↔ Allowed next guard' r es := by
  induction es generalizing s r with
  | nil => exact iff_of_true allowedNil allowedNil
  | cons e es ih =>
    rw [allowedCons,allowedCons,← alike s r e start]
    exact and_congr_right (fun permitted => ih (keep s r e start permitted))

theorem runKeepsAllowed {I : σ → Prop} {guard : σ → ε → Prop}
    (keep : ∀ s e, guard s e → I s → I (step s e)) {es : List ε} {s : σ}
    (allowed : Allowed step guard s es) (start : I s) : I (run step s es) := by
  induction es generalizing s with
  | nil => exact start
  | cons e es ih =>
    obtain ⟨head,tail⟩ := allowedCons.mp allowed
    exact ih tail (keep s e head start)

theorem runKeeps {I : σ → Prop} {P : ε → Prop} (keep : ∀ s e, P e → I s → I (step s e))
    {es : List ε} (allowed : ∀ e ∈ es, P e) {s : σ} (start : I s) : I (run step s es) :=
  runKeepsAllowed keep (allowedEvery.mpr allowed) start

/- A property that a step keeps exactly when its guard holds, holds after a run exactly when every
step of the run was allowed. -/
theorem runExact {I : σ → Prop} {guard : σ → ε → Prop} (one : ∀ s e, I (step s e) ↔ I s ∧ guard s e)
    (s : σ) (es : List ε) : I (run step s es) ↔ I s ∧ Allowed step guard s es := by
  induction es generalizing s with
  | nil => simp [allowedNil]
  | cons e es ih => rw [runCons,ih,one,allowedCons,and_assoc]

/- The property holds in every state of the run, the first and the last included. -/
def Always (step : σ → ε → σ) (I : σ → Prop) (s : σ) (es : List ε) : Prop :=
  ∀ pre post, es = pre ++ post → I (run step s pre)

theorem alwaysLast {I : σ → Prop} {s : σ} {es : List ε} (always : Always step I s es) : I (run step s es) :=
  always es [] (List.append_nil es).symm

/- With a second property at hand, which every allowed step keeps: the first holds all along a run of
events of a kind exactly when every step of the run was allowed, if a step keeps it exactly when its guard holds. -/
theorem alwaysExactEach {I J : σ → Prop} {P : ε → Prop} {guard : σ → ε → Prop}
    (one : ∀ s e, P e → J s → I s → (I (step s e) ↔ guard s e))
    (keep : ∀ s e, P e → J s → I s → guard s e → J (step s e)) {s : σ} (known : J s) (start : I s) {es : List ε}
    (each : ∀ e ∈ es, P e) : Always step I s es ↔ Allowed step guard s es := by
  constructor
  · intro always
    induction es generalizing s with
    | nil => exact allowedNil
    | cons e es ih =>
      obtain ⟨kind,kinds⟩ := List.forall_mem_cons.mp each
      have after : I (step s e) := always [e] es rfl
      have guarded := (one s e kind known start).mp after
      refine allowedCons.mpr ⟨guarded,ih (keep s e kind known start guarded) after kinds ?_⟩
      rintro pre post rfl
      exact always (e::pre) post rfl
  · rintro allowed pre post rfl
    have kinds : Allowed step (fun t e => guard t e ∧ P e) s pre :=
      allowedEach (allowedAppend.mp allowed).1 (fun e mem => each e (List.mem_append_left _ mem))
    have both : J (run step s pre) ∧ I (run step s pre) :=
      runKeepsAllowed (I := fun t => J t ∧ I t)
        (fun t e guarded held => ⟨keep t e guarded.2 held.1 held.2 guarded.1,(one t e guarded.2 held.1 held.2).mpr guarded.1⟩)
        kinds ⟨known,start⟩
    exact both.2

theorem alwaysExactWith {I J : σ → Prop} {guard : σ → ε → Prop} (one : ∀ s e, J s → I s → (I (step s e) ↔ guard s e))
    (keep : ∀ s e, J s → I s → guard s e → J (step s e)) {s : σ} (known : J s) (start : I s) (es : List ε) :
    Always step I s es ↔ Allowed step guard s es :=
  alwaysExactEach (P := fun _ => True) (fun s e _ => one s e) (fun s e _ => keep s e) known start (fun _ _ => trivial)

/- A property that a step from a state which has it keeps exactly when its guard holds, holds all
along a run exactly when every step of the run was allowed. -/
theorem alwaysExact {I : σ → Prop} {guard : σ → ε → Prop} (one : ∀ s e, I s → (I (step s e) ↔ guard s e))
    {s : σ} (start : I s) (es : List ε) : Always step I s es ↔ Allowed step guard s es :=
  alwaysExactWith (J := fun _ => True) (fun t e _ => one t e) (fun _ _ _ _ _ => trivial) trivial start es

theorem runBack {I J : σ → Prop} (keep : ∀ s e, J s → J (step s e)) (back : ∀ s e, J s → I (step s e) → I s)
    {s : σ} {es : List ε} (known : J s) (last : I (run step s es)) : I s := by
  induction es generalizing s with
  | nil => exact last
  | cons e es ih => exact back s e known (ih (keep s e known) last)

/- A property that no step restores holds all along a run when it holds at the end. -/
theorem alwaysIffLast {I J : σ → Prop} (keep : ∀ s e, J s → J (step s e)) (back : ∀ s e, J s → I (step s e) → I s)
    {s : σ} {es : List ε} (known : J s) : Always step I s es ↔ I (run step s es) := by
  refine ⟨alwaysLast,?_⟩
  rintro last pre post rfl
  rw [runAppend] at last
  have before : J (run step s pre) := runKeeps (P := fun _ => True) (fun t e _ => keep t e) (fun _ _ => trivial) known
  exact runBack keep back before last

section Labels
variable {ℓ : Type}

def labels (step : σ → ε → σ) (label : σ → ε → ℓ) : σ → List ε → List ℓ
  | _,[] => []
  | s,e::es => label s e :: labels step label (step s e) es

variable {label : σ → ε → ℓ}

theorem labelsAppend (s : σ) (a b : List ε) :
    labels step label s (a ++ b) = labels step label s a ++ labels step label (run step s a) b := by
  induction a generalizing s with
  | nil => rfl
  | cons e a ih => simp only [List.cons_append,labels,ih,runCons]

theorem labelsLength (s : σ) (es : List ε) : (labels step label s es).length = es.length := by
  induction es generalizing s with
  | nil => rfl
  | cons e es ih => rw [labels,List.length_cons,List.length_cons,ih]

theorem labelsMem {s : σ} {es : List ε} {l : ℓ} :
    l ∈ labels step label s es ↔ ∃ pre e post, es = pre ++ e::post ∧ l = label (run step s pre) e := by
  constructor
  · intro mem
    induction es generalizing s with
    | nil => simp [labels] at mem
    | cons e es ih =>
      rcases List.mem_cons.mp mem with rfl | rest
      · exact ⟨[],e,es,rfl,rfl⟩
      · obtain ⟨pre,x,post,rfl,same⟩ := ih rest
        exact ⟨e::pre,x,post,rfl,same⟩
  · rintro ⟨pre,e,post,rfl,rfl⟩
    rw [labelsAppend]
    exact List.mem_append_right _ List.mem_cons_self

theorem labelsMap {ε' : Type} (f : ε' → ε) (s : σ) (es : List ε') :
    labels step label s (es.map f) = labels (fun s e => step s (f e)) (fun s e => label s (f e)) s es := by
  induction es generalizing s with
  | nil => rfl
  | cons e es ih => simp only [List.map_cons,labels,ih]

theorem labelsCount {p : ℓ → Bool} {q : ε → Bool} (same : ∀ s e, p (label s e) = q e)
    (s : σ) (es : List ε) : (labels step label s es).countP p = es.countP q := by
  induction es generalizing s with
  | nil => rfl
  | cons e es ih => simp only [labels,List.countP_cons,same,ih]

variable {ρ : Type} {next : ρ → ℓ → ρ} {view : σ → ρ}

theorem simulates (square : ∀ s e, view (step s e) = next (view s) (label s e))
    (s : σ) (es : List ε) :
    view (run step s es) = run next (view s) (labels step label s es) := by
  induction es generalizing s with
  | nil => rfl
  | cons e es ih => rw [runCons,ih,labels,runCons,square]

theorem simulatesAllowed {guard : ρ → ℓ → Prop}
    (square : ∀ s e, view (step s e) = next (view s) (label s e))
    (permit : ∀ s e, guard (view s) (label s e)) (s : σ) (es : List ε) :
    Allowed next guard (view s) (labels step label s es) := by
  induction es generalizing s with
  | nil => exact allowedNil
  | cons e es ih =>
    refine allowedCons.mpr ⟨permit s e,?_⟩
    rw [← square]
    exact ih _

/- Two machines that answer alike from related states, and stay related, answer a whole run alike. -/
theorem bisimulates {R : σ → ρ → Prop} {label' : ρ → ε → ℓ} {next : ρ → ε → ρ}
    (agree : ∀ s r e, R s r → label s e = label' r e ∧ R (step s e) (next r e)) {s : σ} {r : ρ}
    (start : R s r) (es : List ε) :
    labels step label s es = labels next label' r es ∧ R (run step s es) (run next r es) := by
  induction es generalizing s r with
  | nil => exact ⟨rfl,start⟩
  | cons e es ih =>
    obtain ⟨same,related⟩ := agree s r e start
    obtain ⟨rest,last⟩ := ih related
    exact ⟨by simp only [labels,same,rest],last⟩

/- What a step emits is an event of the other machine, answered alike; without one the other stands still. -/
def Answered {δ : Type} (R : σ → ρ → Prop) (label' : ρ → δ → ℓ) (next : ρ → δ → ρ) (after : σ) (r : ρ) : Option (δ × ℓ) → Prop
  | none => R after r
  | some (d,l) => l = label' r d ∧ R after (next r d)

/- A machine whose events are only now and then an event of the other: the run of those that are is
answered alike. -/
theorem simulatesWeakly {δ : Type} {R : σ → ρ → Prop} {emit : σ → ε → Option (δ × ℓ)} {label' : ρ → δ → ℓ} {next : ρ → δ → ρ}
    (agree : ∀ s r e, R s r → Answered R label' next (step s e) r (emit s e)) {s : σ} {r : ρ} (start : R s r) (es : List ε) :
    let emitted := (labels step emit s es).reduceOption
    emitted.map Prod.snd = labels next label' r (emitted.map Prod.fst) ∧ R (run step s es) (run next r (emitted.map Prod.fst)) := by
  induction es generalizing s r with
  | nil => exact ⟨rfl,start⟩
  | cons e es ih =>
    have one := agree s r e start
    cases told : emit s e with
    | none =>
      rw [told] at one
      simpa only [labels,told,List.reduceOption_cons_of_none,runCons] using ih one
    | some pair =>
      obtain ⟨d,l⟩ := pair
      rw [told] at one
      obtain ⟨same,related⟩ := one
      obtain ⟨rest,last⟩ := ih related
      refine ⟨?_,?_⟩
      · simp only [labels,told,List.reduceOption_cons_of_some,List.map_cons,same,rest]
      · simpa only [labels,told,List.reduceOption_cons_of_some,List.map_cons,runCons] using last

/- Two machines with a record of how they are related: where related machines answer an event alike
exactly when the record permits it, they answer a run alike exactly when the record permits all of it. -/
theorem bisimulatesExact {γ : Type} {R : σ → ρ → γ → Prop} {label' : ρ → ε → ℓ} {next : ρ → ε → ρ} {mark : γ → ε → γ}
    {guard : γ → ε → Prop}
    (agree : ∀ s r g e, R s r g → (label s e = label' r e ↔ guard g e) ∧ R (step s e) (next r e) (mark g e))
    {s : σ} {r : ρ} {g : γ} (start : R s r g) (es : List ε) :
    labels step label s es = labels next label' r es ↔ Allowed mark guard g es := by
  induction es generalizing s r g with
  | nil => exact iff_of_true rfl allowedNil
  | cons e es ih =>
    obtain ⟨same,related⟩ := agree s r g e start
    rw [labels,labels,List.cons.injEq,allowedCons,same,ih related]

/- A machine whose steps can fail: what a run answers and where it ends, if no step fails. -/
def attempt (exec : σ → ε → Option (ℓ × σ)) : σ → List ε → Option (List ℓ × σ)
  | s,[] => some ([],s)
  | s,e::es => do
      let (l,t) ← exec s e
      let (ls,u) ← attempt exec t es
      some (l::ls,u)

/- Where a step succeeds exactly when the guard of the other machine holds, and then answers as it does,
a run succeeds exactly when it is allowed, and then answers as the other's. -/
theorem attemptExact {exec : σ → ε → Option (ℓ × σ)} {R : σ → ρ → Prop} {label' : ρ → ε → ℓ} {next : ρ → ε → ρ}
    {guard : ρ → ε → Prop} (agree : ∀ s r e, R s r → guard r e → ∃ t, exec s e = some (label' r e,t) ∧ R t (next r e))
    (refuse : ∀ s r e, R s r → ¬guard r e → exec s e = none) {s : σ} {r : ρ} (start : R s r) (es : List ε) :
    (Allowed next guard r es → ∃ t, attempt exec s es = some (labels next label' r es,t) ∧ R t (run next r es)) ∧
    (¬Allowed next guard r es → attempt exec s es = none) := by
  induction es generalizing s r with
  | nil => exact ⟨fun _ => ⟨s,rfl,start⟩,fun not => absurd allowedNil not⟩
  | cons e es ih =>
    rw [allowedCons]
    by_cases guarded : guard r e
    · obtain ⟨t,one,related⟩ := agree s r e start guarded
      obtain ⟨succeed,fail⟩ := ih related
      refine ⟨?_,?_⟩
      · rintro ⟨_,rest⟩
        obtain ⟨u,more,last⟩ := succeed rest
        exact ⟨u,by simp [attempt,one,more,labels],last⟩
      · intro not
        have rest : ¬Allowed next guard (next r e) es := fun allowed => not ⟨guarded,allowed⟩
        simp [attempt,one,fail rest]
    · refine ⟨fun allowed => absurd allowed.1 guarded,fun _ => ?_⟩
      simp [attempt,refuse s r e start guarded]

end Labels
end UmapTracker.Machine
