import UmapTracker.Config
import UmapTracker.JniBridge

/-! The age of a message when it is sent, against RuntimeConfig::message_ttl_hours(). Neither the
upload worker nor an entry point purges the queue or looks at the age of what it sends. -/
namespace UmapTracker.MessageAge
open AutoTable MessageQueue QueueContents HttpClient Text Machine JniBridge UploadWorker Config
variable {α : Type} [Double α]

def ttlSeconds (config : RuntimeConfig) : Int := 3600 * config.messageTtlHours.toNat

def Young (config : RuntimeConfig) (a : Attempt) : Prop := a.sendAt - a.message.createdAt < ttlSeconds config

/- Before a pass whose SELECT is executed: no message that is ready at its reading will be too old
when the request goes out. -/
def NoneExpired {σ : Type} (config : RuntimeConfig) (impl : Impl) (u : Upload σ) (env : PassEnv) : Prop :=
  u.stopped = false → Polls impl env.dequeue →
    ∀ r ∈ u.db.rows, ready env.dequeue.now r = true → env.sendAt - r.cols.createdAt < ttlSeconds config

/- Every pass of every nativeProcessUpload finds the queue so. -/
def Purged (config : RuntimeConfig) (n : Native α) : Call α → Prop
  | .processUpload env => ∀ s, n.session = some s →
      Allowed (pass α s.impl s.client) (NoneExpired config s.impl) ⟨s.db,s.mockHttp,s.worker,0,false,[]⟩
        ((List.range uploadBatch.toNat).map env)
  | _ => True

theorem youngPass {σ : Type} [IHttpClient σ] (config : RuntimeConfig) (impl : Impl) (client : TraccarClient)
    (u : Upload σ) (env : PassEnv) :
    (∀ a ∈ (pass α impl client u env).attempts, Young config a) ↔
      (∀ a ∈ u.attempts, Young config a) ∧ NoneExpired config impl u env := by
  have step := passed α impl client u env
  generalize pass α impl client u env = next at step
  cases step with
  | idle stopped => exact ⟨fun young => ⟨young,by simp [NoneExpired,stopped]⟩,fun h => h.1⟩
  | ended running nothing =>
    refine ⟨fun young => ⟨young,?_⟩,fun h => h.1⟩
    intro _ polls r mem wanted
    rw [nothing polls r mem] at wanted
    contradiction
  | attempted row after http answer running polls mem wanted least kept =>
    constructor
    · intro young
      refine ⟨fun a ha => young a (List.mem_append_left _ ha),?_⟩
      -- the message sent is the oldest of the ready ones
      intro _ _ r hr ready
      have sent := young _ (List.mem_append_right _ List.mem_cons_self)
      have older := least r hr ready
      simp only [Young,queued] at sent
      omega
    · rintro ⟨young,none⟩ a ha
      rcases List.mem_append.mp ha with old | new
      · exact young a old
      · cases List.mem_singleton.mp new
        exact none running polls row mem wanted

theorem youngStep (config : RuntimeConfig) (n : Native α) (call : Call α) :
    (∀ a ∈ (step n call).log, Young config a) ↔ (∀ a ∈ n.log, Young config a) ∧ Purged config n call := by
  cases call with
  | processUpload env =>
    simp only [step,nativeProcessUpload,Purged]
    split
    · rename_i none
      simp [none]
    · rename_i s here
      have batch := runExact (I := fun u : Upload MockHttpClient => ∀ a ∈ u.attempts, Young config a)
        (youngPass (α := α) config s.impl s.client) ⟨s.db,s.mockHttp,s.worker,0,false,[]⟩
        ((List.range uploadBatch.toNat).map env)
      simp only [List.not_mem_nil,false_implies,implies_true,true_and] at batch
      simp only [here,Option.some.injEq,forall_eq',← batch,List.mem_append,or_imp,forall_and]
      rfl
  | processLocation env =>
    have same : (step n (.processLocation env)).log = n.log := processLog n env
    simp [same,Purged]
  | _ => simp [step,Purged]

/- In a run, no request is made for a message of message_ttl_hours() or more, exactly when no pass
finds such a message ready. -/
theorem youngIff (config : RuntimeConfig) (calls : List (Call α)) :
    (∀ a ∈ (run step loaded calls).log, Young config a) ↔ Allowed step (Purged config) loaded calls := by
  have exactly := runExact (I := fun n : Native α => ∀ a ∈ n.log, Young config a) (youngStep config) loaded calls
  simpa [loaded] using exactly

/- A location waits 168 hours, the limit by default, and is then sent. -/
theorem expiredMessageSent :
    let fix : Fix ℚ := ⟨0,0,5,100,1,1000⟩
    let calls : List (Call ℚ) := [.onLocationReceived fix,.initPipeline true (fun _ => true),.processLocation ⟨0,.runs⟩,
      .processUpload (fun _ => ⟨⟨604800,.runs,0,.runs⟩,604800,.runs,⟨604800,.runs,.runs⟩⟩)]
    ((run step loaded calls).log.map fun a => (a.message.createdAt,a.sendAt)) = [(0,604800)] ∧
    ttlSeconds resetToDefaults = 604800 ∧
    ¬ ∀ a ∈ (run step loaded calls).log, Young resetToDefaults a := by
  intro fix calls
  have sent : ((run step loaded calls).log.map fun a => (a.message.createdAt,a.sendAt)) = [(0,604800)] := by
    decide +kernel
  refine ⟨sent,by decide,?_⟩
  intro young
  obtain ⟨a,one,times⟩ := List.map_eq_singleton_iff.mp sent
  obtain ⟨created,at_⟩ := Prod.mk.inj times
  have low := young a (by rw [one]; exact List.mem_cons_self)
  rw [Young,created,at_] at low
  exact absurd low (by decide)

end UmapTracker.MessageAge
