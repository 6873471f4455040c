import Mathlib.Logic.Function.Basic
import UmapTracker.ConfigOverrides

/-! load_config_from_environment on several threads. The mutex covers one setter call: between two of them the other
threads may do theirs, and read what is there. -/
namespace UmapTracker.ConfigSharing
open Config ConfigLoading ConfigOverrides Machine
variable {κ : Type} [DecidableEq κ] (getenv : Environment)

/- The variables a thread in load_config_from_environment has yet to read, and how many loads have returned. -/
structure Shared (κ : Type) where
  config : RuntimeConfig
  loading : κ → Option (List Field)
  completed : Nat

inductive Event (κ : Type) where
  | call (c : κ)
  | next (c : κ)
  deriving DecidableEq, Repr

def step (s : Shared κ) : Event κ → Shared κ
  | .call c =>
    match s.loading c with
    | none => {s with loading := Function.update s.loading c (some Field.all)}
    | some _ => s
  | .next c =>
    match s.loading c with
    | none => s
    | some [] => {s with loading := Function.update s.loading c none, completed := s.completed+1}
    | some (k::ks) => {s with config := overridden getenv s.config k, loading := Function.update s.loading c (some ks)}

def idle (config : RuntimeConfig) : Shared κ := ⟨config,fun _ => none,0⟩

/- Left alone, a thread's load is the call. -/
theorem aloneLoads (s : Shared κ) (c : κ) (free : s.loading c = none) :
    run (step getenv) s (.call c::List.replicate 10 (.next c)) =
      {s with config := loadConfigFromEnvironment getenv s.config, completed := s.completed+1} := by
  have back : Function.update s.loading c none = s.loading := by rw [← free,Function.update_eq_self]
  simp only [List.replicate,runCons,runNil,step,free,Function.update_self,Function.update_idem,Field.all,back]
  rfl

section Field

/- Overridden once, a field stays as it is. -/
theorem writtenSettled {config config' : RuntimeConfig} {k : Field}
    (either : k.get config' = k.get config ∨ k.get config' = k.get (loadConfigFromEnvironment getenv config)) :
    k.get (overridden getenv config' k) = k.get (loadConfigFromEnvironment getenv config) := by
  rw [overriddenOwn,loadedField] at *
  unfold written at *
  cases wanted : requested getenv k.envName k.accepted with
  | some value => rfl
  | none =>
    rw [wanted] at either
    exact either.elim id id

/- No variable is read for these two. -/
def others (config : RuntimeConfig) : UInt32 × ℚ := (config.gpsUiLatencyMaxMs,config.batteryDrainMaxPercentPerHour)

theorem overriddenOthers (config : RuntimeConfig) (k : Field) : others (overridden getenv config k) = others config :=
  GpsTimeout.overrideKeeps others k.set (fun _ _ => by cases k <;> rfl) getenv k.envName k.accepted config

theorem loadedOthers (config : RuntimeConfig) : others (loadConfigFromEnvironment getenv config) = others config := by
  change others (run (overridden getenv) config Field.all) = others config
  exact runKeeps (I := fun c => others c = others config) (P := fun _ => True)
    (fun c k _ same => (overriddenOthers getenv c k).trans same) (fun _ _ => trivial) rfl

theorem sameConfig {a b : RuntimeConfig} (fields : ∀ k : Field, k.get a = k.get b) (rest : others a = others b) : a = b := by
  obtain ⟨latency,drain⟩ := Prod.mk.inj rest
  cases a
  cases b
  simp only [RuntimeConfig.mk.injEq]
  exact ⟨fields .maxQueueSize,fields .messageTtlHours,fields .trackRetentionDays,fields .maxTrackPoints,fields .gpsIntervalMs,
    fields .minGpsAccuracyM,fields .gpsTimeoutMs,latency,fields .uploadTimeoutMs,fields .coldStartMaxMs,drain⟩

end Field

/- The fields whose variables are no longer to be read are as a load leaves them. -/
def Behind (loaded config : RuntimeConfig) (pending : Option (List Field)) : Prop :=
  ∀ ks, pending = some ks → ∃ past, Field.all = past ++ ks ∧ ∀ k ∈ past, k.get config = k.get loaded

/- Every field is as it was or as a load leaves it; a thread has left behind it only the latter, and so has a load that
returned. -/
structure Loading (config : RuntimeConfig) (s : Shared κ) : Prop where
  either : ∀ k : Field, k.get s.config = k.get config ∨ k.get s.config = k.get (loadConfigFromEnvironment getenv config)
  rest : others s.config = others config
  behind : ∀ c, Behind (loadConfigFromEnvironment getenv config) s.config (s.loading c)
  returned : 0 < s.completed → ∀ k : Field, k.get s.config = k.get (loadConfigFromEnvironment getenv config)

theorem loadingStep {config : RuntimeConfig} {s : Shared κ} (loading : Loading getenv config s) (e : Event κ) :
    Loading getenv config (step getenv s e) := by
  obtain ⟨either,rest,behind,returned⟩ := loading
  let loaded := loadConfigFromEnvironment getenv config
  cases e with
  | call c =>
    simp only [step]
    split
    · refine ⟨either,rest,?_,returned⟩
      refine (Function.forall_update_iff _ (p := fun _ l => Behind loaded s.config l)).mpr ⟨?_,fun c' _ => behind c'⟩
      rintro _ ⟨⟩
      exact ⟨[],rfl,by simp⟩
    · exact ⟨either,rest,behind,returned⟩
  | next c =>
    simp only [step]
    split
    · exact ⟨either,rest,behind,returned⟩
    · rename_i last
      obtain ⟨past,all,done⟩ := behind c [] last
      refine ⟨either,rest,?_,fun _ k => done k ?_⟩
      · refine (Function.forall_update_iff _ (p := fun _ l => Behind loaded s.config l)).mpr ⟨?_,fun c' _ => behind c'⟩
        rintro _ ⟨⟩
      · rw [List.append_nil] at all
        rw [← all]
        cases k <;> decide
    · rename_i k ks here
      have own := writtenSettled getenv (either k)
      have stays : ∀ k' : Field, k'.get s.config = k'.get loaded → k'.get (overridden getenv s.config k) = k'.get loaded := by
        intro k' done
        by_cases same : k' = k
        · rw [same]
          exact own
        · rw [overriddenOther same]
          exact done
      refine ⟨?_,(overriddenOthers getenv s.config k).trans rest,?_,fun some k' => stays k' (returned some k')⟩
      · intro k'
        by_cases same : k' = k
        · rw [same]
          exact .inr own
        · rw [overriddenOther same]
          exact either k'
      · refine (Function.forall_update_iff _ (p := fun _ l => Behind loaded (overridden getenv s.config k) l)).mpr ⟨?_,?_⟩
        · rintro _ ⟨⟩
          obtain ⟨past,all,done⟩ := behind c (k::ks) here
          refine ⟨past ++ [k],by simp [all],?_⟩
          intro k' mem
          rcases List.mem_append.mp mem with before | now
          · exact stays k' (done k' before)
          · rw [List.mem_singleton.mp now]
            exact own
        · intro c' _ ks' held
          obtain ⟨past,all,done⟩ := behind c' ks' held
          exact ⟨past,all,fun k' mem => stays k' (done k' mem)⟩

omit [DecidableEq κ] in
theorem loadingStart (config : RuntimeConfig) : Loading getenv config (idle config : Shared κ) :=
  ⟨fun _ => .inl rfl,rfl,by simp [idle,Behind],by simp [idle]⟩

/- Several loads in whatever order their setter calls come: no thread ever reads anything but the old value of a field or the
one the environment asks for, and from the first load that returns on the configuration is that of one load alone. -/
theorem loadsTogether (config : RuntimeConfig) (es : List (Event κ)) :
    let s := run (step getenv) (idle config) es
    (∀ k : Field, k.get s.config = k.get config ∨ k.get s.config = k.get (loadConfigFromEnvironment getenv config)) ∧
    (0 < s.completed → s.config = loadConfigFromEnvironment getenv config) := by
  intro s
  have loading : Loading getenv config s :=
    runKeeps (I := Loading getenv config) (P := fun _ => True) (fun _ e _ loading => loadingStep getenv loading e) (fun _ _ => trivial)
      (loadingStart getenv config)
  exact ⟨loading.either,fun some => sameConfig (loading.returned some) (loading.rest.trans (loadedOthers getenv config).symm)⟩

end UmapTracker.ConfigSharing
