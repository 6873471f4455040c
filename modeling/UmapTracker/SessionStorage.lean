import UmapTracker.JniBridge

/-! What becomes of a processed location. The message queue lives in memory from
nativeInitPipeline to nativeShutdownPipeline; within that time a stored message leaves it
only when a request for it was answered with a 2xx status. -/
namespace UmapTracker.SessionStorage
open AutoTable MessageQueue QueueContents GeoTypes HttpClient Text Machine JniBridge UploadWorker GpsPipeline
variable {α : Type} [Double α]

/- The message is in the queue that the next nativeProcessUpload reads. -/
def Stored (n : Native α) (c : Entry) : Prop := ∃ s, n.session = some s ∧ c ∈ contents s.db

/- A request for the message, made after the first `k` of the log, was delivered. -/
def Delivered (k : Nat) (n : Native α) (c : Entry) : Prop :=
  ∃ a ∈ n.log.drop k, a.delivered = true ∧ entry a.message = c

structure Kept (k : Nat) (c : Entry) (n : Native α) : Prop where
  past : k ≤ n.log.length
  held : Stored n c ∨ Delivered k n c

/- The call does not shut the pipeline down before the message is delivered. -/
def NotDiscarded (k : Nat) (c : Entry) (n : Native α) : Call α → Prop
  | .shutdownPipeline => Delivered k n c
  | _ => True

theorem keptSession {β : Type} {k : Nat} {c : Entry} {n : Native β} {s s' : Session β} (kept : Kept k c n)
    (here : n.session = some s) (within : c ∈ contents s.db → c ∈ contents s'.db) (engine : LocationEngine β) :
    Kept k c {n with engine, session := some s'} := by
  refine ⟨kept.past,?_⟩
  rcases kept.held with ⟨t,same,stored⟩ | sent
  · rw [here] at same
    cases Option.some.inj same
    exact .inl ⟨s',rfl,within stored⟩
  · exact .inr sent

theorem keptProcessLocation {k : Nat} {c : Entry} {n : Native α} (kept : Kept k c n) (env : EnqueueEnv) :
    Kept k c (nativeProcessLocation n env).2 := by
  unfold nativeProcessLocation
  split
  · exact kept
  · rename_i s here
    split
    · exact ⟨kept.past,kept.held⟩
    · rename_i raw engine _
      refine keptSession kept here ?_ engine
      intro stored
      change c ∈ contents (processLocation s.pipeline s.impl s.db raw env.now env.step).2.2
      rcases processLocationSpec s.pipeline s.impl s.db raw env.now env.step with ⟨_,same⟩ | ⟨_,_,same⟩
      · rw [same]
        exact stored
      · rw [same]
        rcases contentsEnqueue s.impl s.db (text s.pipeline raw) env.now env.step with ⟨_,grown⟩ | ⟨same,_⟩
        · rw [grown]
          exact List.mem_append_left _ stored
        · rw [same]
          exact stored

theorem keptProcessUpload {k : Nat} {c : Entry} {n : Native α} (kept : Kept k c n) (env : Nat → PassEnv) :
    Kept k c (nativeProcessUpload n env).2 := by
  unfold nativeProcessUpload
  split
  · exact kept
  · rename_i s here
    refine ⟨by simpa using Nat.le_add_right_of_le kept.past,?_⟩
    rcases kept.held with ⟨t,same,stored⟩ | ⟨a,mem,sent⟩
    · rw [here] at same
      cases Option.some.inj same
      rcases storedOrDelivered α s.impl s.client s.worker s.db s.mockHttp uploadBatch env stored with still | ⟨a,mem,sent⟩
      · exact .inl ⟨_,rfl,still⟩
      · refine .inr ⟨a,?_,sent⟩
        rw [List.drop_append_of_le_length kept.past]
        exact List.mem_append_right _ mem
    · refine .inr ⟨a,?_,sent⟩
      rw [List.drop_append_of_le_length kept.past]
      exact List.mem_append_left _ mem

theorem keptStep {k : Nat} {c : Entry} {n : Native α} {call : Call α} (guard : NotDiscarded k c n call)
    (kept : Kept k c n) : Kept k c (step n call) := by
  cases call with
  | onLocationReceived fix => exact ⟨kept.past,kept.held⟩
  | onBatteryChanged percent charging => exact ⟨kept.past,kept.held⟩
  | initPipeline sqlite3Open prepare =>
    refine ⟨kept.past,?_⟩
    rcases kept.held with ⟨s,here,stored⟩ | sent
    · exact .inl ⟨s,by simp [step,nativeInitPipeline,here],stored⟩
    · exact .inr sent
  | processLocation env => exact keptProcessLocation kept env
  | processUpload env => exact keptProcessUpload kept env
  | shutdownPipeline => exact ⟨kept.past,.inr guard⟩

/- The message that nativeProcessLocation makes of a raw point. -/
def made (s : Session α) (raw : GpsPoint α) (now : Int) : Entry := (s.db.sequence+1,text s.pipeline raw,now)

theorem storedByProcess {n : Native α} {env : EnqueueEnv} {s : Session α} {raw : GpsPoint α}
    (here : n.session = some s) (front : (n.engine.getLocation 0).1 = some raw)
    (processed : (nativeProcessLocation n env).1 = 1) (inserts : Inserts s.impl s.db env.step) :
    Stored (nativeProcessLocation n env).2 (made s raw env.now) := by
  obtain ⟨engine,given⟩ : ∃ engine, n.engine.getLocation 0 = (some raw,engine) := ⟨_,Prod.ext front rfl⟩
  simp only [nativeProcessLocation,here,given] at processed ⊢
  refine ⟨_,rfl,?_⟩
  rcases processLocationSpec s.pipeline s.impl s.db raw env.now env.step with ⟨_,refused⟩ | ⟨_,_,same⟩
  · rw [refused] at processed
    simp at processed
  · rcases contentsEnqueue s.impl s.db (text s.pipeline raw) env.now env.step with ⟨_,grown⟩ | ⟨_,failed⟩
    · change _ ∈ contents (processLocation s.pipeline s.impl s.db raw env.now env.step).2.2
      rw [same,grown]
      exact List.mem_append_right _ List.mem_cons_self
    · exact absurd inserts failed

/- A location for which nativeProcessLocation returned 1 and whose INSERT was executed is in the queue
or in a delivered request, unless the pipeline is shut down before it is delivered. -/
theorem processedLocationKept (pre post : List (Call α)) (env : EnqueueEnv) (s : Session α) (raw : GpsPoint α)
    (here : (run step loaded pre).session = some s) (front : ((run step loaded pre).engine.getLocation 0).1 = some raw)
    (processed : (nativeProcessLocation (run step loaded pre) env).1 = 1) (inserts : Inserts s.impl s.db env.step)
    (running : Allowed step (NotDiscarded (run step loaded pre).log.length (made s raw env.now))
      (nativeProcessLocation (run step loaded pre) env).2 post) :
    Stored (run step loaded (pre ++ .processLocation env::post)) (made s raw env.now) ∨
    Delivered (run step loaded pre).log.length (run step loaded (pre ++ .processLocation env::post)) (made s raw env.now) := by
  have stored := storedByProcess here front processed inserts
  have start : Kept (run step loaded pre).log.length (made s raw env.now) (nativeProcessLocation (run step loaded pre) env).2 := by
    rw [← processLog (run step loaded pre) env]
    exact ⟨Nat.le_refl _,.inl stored⟩
  rw [runAppend,runCons]
  exact (runKeepsAllowed (fun _ _ guard kept => keptStep guard kept) running start).held

/- The calls of a session from its start to one processed location. -/
def opening (fix : Fix α) : List (Call α) := [.onLocationReceived fix,.initPipeline true (fun _ => true)]

theorem processedLocationUploaded :
    let fix : Fix ℚ := ⟨0,0,5,100,1,1000⟩
    let raw : GpsPoint ℚ := ⟨⟨0,0⟩,0,0,100,5,1,1000,0,false⟩
    let upload : Call ℚ := .processUpload (fun _ => ⟨⟨8,.runs,0,.runs⟩,8,.runs,⟨8,.runs,.runs⟩⟩)
    let n := run step loaded (opening fix ++ [.processLocation ⟨7,.runs⟩,upload,.shutdownPipeline])
    Stored n (made (openSession true (fun _ => true)) raw 7) ∨ Delivered 0 n (made (openSession true (fun _ => true)) raw 7) := by
  intro fix raw upload n
  have delivered : Delivered 0 (run step loaded (opening fix ++ [.processLocation ⟨7,.runs⟩,upload]))
      (made (openSession true (fun _ => true)) raw 7) := by
    unfold Delivered
    decide +kernel
  refine processedLocationKept (opening fix) [upload,.shutdownPipeline] ⟨7,.runs⟩ (openSession true (fun _ => true)) raw
    rfl (by decide +kernel) (by decide +kernel) ⟨rfl,rfl,by decide⟩ ?_
  exact allowedCons.mpr ⟨trivial,allowedCons.mpr ⟨delivered,allowedNil⟩⟩

/- nativeProcessLocation returns 1, the pipeline is shut down and initialised again: the location is
neither stored nor sent. -/
theorem shutdownDiscards :
    let fix : Fix ℚ := ⟨0,0,5,100,1,1000⟩
    let n := run step loaded (opening fix ++ [.processLocation ⟨7,.runs⟩,.shutdownPipeline,
      .initPipeline true (fun _ => true)])
    (nativeProcessLocation (run step loaded (opening fix)) ⟨7,.runs⟩).1 = 1 ∧ n.log = [] ∧
    (n.session.map fun s => contents s.db) = some [] ∧ ∀ c, ¬ Stored n c ∧ ¬ Delivered 0 n c := by
  intro fix n
  have empty : n.log = [] := rfl
  have none : (n.session.map fun s => contents s.db) = some [] := rfl
  refine ⟨by decide +kernel,empty,none,?_⟩
  intro c
  refine ⟨?_,?_⟩
  · rintro ⟨s,here,stored⟩
    rw [here,Option.map_some,Option.some.injEq] at none
    rw [none] at stored
    simp at stored
  · rintro ⟨a,mem,_⟩
    simp [empty] at mem

end UmapTracker.SessionStorage
