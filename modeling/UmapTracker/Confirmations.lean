import UmapTracker.JniBridge
import UmapTracker.UploadPass

/-! Runs of process_pending calls, under any answers of SQLite. The worker counts a message as sent,
and forgets it, whether or not mark_sent has deleted it. -/
namespace UmapTracker.Confirmations
open AutoTable MessageQueue QueueContents QueueView UploadWorker UploadPass GeoTypes HttpClient Machine

/- One call, with what its passes meet. -/
structure Round where
  maxBatch : UInt32
  env : Nat → PassEnv

/- The worker with its queue; `log` has the attempts of all calls. -/
structure Work (σ : Type) where
  db : Db
  http : σ
  worker : UploadWorker
  log : List Attempt

def begun {σ : Type} (db : Db) (http : σ) : Work σ := ⟨db,http,.new,[]⟩

def entered {σ : Type} (w : Work σ) : Upload σ := ⟨w.db,w.http,w.worker,0,false,[]⟩

def Round.envs (r : Round) : List PassEnv := (List.range r.maxBatch.toNat).map r.env

/- A delivered message is never sent again, and total_sent is the number of messages removed. -/
structure Truthful {σ : Type} (db : Db) (w : Work σ) : Prop where
  neverAgain : w.log.Pairwise (fun a b => a.delivered = true → b.message.id ≠ a.message.id)
  counted : w.worker.totalSent = UInt32.ofNat (gone db w.db)

section Calls
variable {σ : Type} [IHttpClient σ] (α : Type) [Double α] (impl : Impl) (client : TraccarClient)

def step (w : Work σ) (r : Round) : Work σ :=
  let u := processPending α impl client w.worker w.db w.http r.maxBatch r.env
  ⟨u.db,u.http,u.worker,w.log ++ u.attempts⟩

/- A request of the pass that was delivered is followed by a DELETE which SQLite executes. -/
def Confirmed (u : Upload σ) (env : PassEnv) : Prop :=
  ∀ a ∈ (pass α impl client u env).attempts.drop u.attempts.length, a.delivered = true → Acknowledges impl env

def Confirms (w : Work σ) (r : Round) : Prop := Allowed (pass α impl client) (Confirmed α impl client) (entered w) r.envs

end Calls

def delivered {σ : Type} (u : Upload σ) : Nat := u.attempts.countP Attempt.delivered

/- A call against the table of the run's start and the worker at its own start. -/
structure Tallied {σ : Type} (db : Db) (w : Work σ) (u : Upload σ) : Prop where
  known : ∀ r ∈ u.db.rows, ∃ s ∈ db.rows, s.id = r.id
  total : u.worker.totalSent = w.worker.totalSent + UInt32.ofNat (delivered u)
  least : gone db w.db ≤ gone db u.db
  most : gone db u.db ≤ gone db w.db + delivered u

/- Between two calls. -/
structure Sealed {σ : Type} (db : Db) (w : Work σ) : Prop where
  known : ∀ r ∈ w.db.rows, ∃ s ∈ db.rows, s.id = r.id
  absent : ∀ a ∈ w.log, a.delivered = true → cell w.db a.message.id.toNat = none

theorem talliedStart {σ : Type} {db : Db} {w : Work σ} (sealed : Sealed db w) : Tallied db w (entered w) :=
  ⟨sealed.known,by simp [entered,delivered],le_rfl,le_add_right le_rfl⟩

/- Everything delivered has been removed. -/
def Even {σ : Type} (db : Db) (w : Work σ) (u : Upload σ) : Prop := gone db w.db + delivered u ≤ gone db u.db

/- What a pass does to the table and the counter. -/
inductive Worked {σ : Type} (impl : Impl) (db : Db) (u : Upload σ) (env : PassEnv) : Upload σ → Prop where
  | quiet (stopped : Bool) : Worked impl db u env {u with stopped}
  | sent (a : Attempt) (next : Upload σ) : cell u.db a.message.id.toNat ≠ none → next.attempts = u.attempts ++ [a] →
      next.worker = UploadWorker.count u.worker a.delivered → (∀ i, cell u.db i = none → cell next.db i = none) →
      (a.delivered = true → Acknowledges impl env → cell next.db a.message.id.toNat = none) →
      gone db next.db = gone db u.db + (if a.delivered = true ∧ Acknowledges impl env then 1 else 0) →
      Worked impl db u env next

theorem markedNone (impl : Impl) (env : PassEnv) (delivered : Bool) (m : Message) :
    marked impl env delivered m = none ↔ delivered = true ∧ Acknowledges impl env := by
  unfold marked
  cases delivered with
  | false => simp
  | true => by_cases executed : Acknowledges impl env <;> simp [executed]

theorem worked {σ : Type} [IHttpClient σ] (α : Type) [Double α] (impl : Impl) (client : TraccarClient) {db : Db} {u : Upload σ}
    (known : ∀ r ∈ u.db.rows, ∃ s ∈ db.rows, s.id = r.id) (env : PassEnv) :
    Worked impl db u env (pass α impl client u env) := by
  have step := tried α impl client u env
  generalize pass α impl client u env = next at step
  cases step with
  | idle => exact .quiet u.stopped
  | ended => exact .quiet true
  | sent row a after _ _ _ mem _ made cells =>
    have own : a.message.id.toNat = row.id := by
      rw [made]
      exact rowidRoundTrip mem
    have present : cell u.db row.id ≠ none := by simp [cellOfRow mem]
    refine .sent a _ (own ▸ present) rfl rfl ?_ ?_ ?_
    · intro i missing
      have other : i ≠ row.id := fun same => present (same ▸ missing)
      exact ((cells i).trans (if_neg other)).trans missing
    · intro sent executed
      rw [own]
      exact ((cells row.id).trans (if_pos rfl)).trans ((markedNone impl env _ _).mpr ⟨sent,executed⟩)
    · rw [goneFate (known row mem) present cells]
      simp only [Option.isNone_iff_eq_none,markedNone]

theorem deliveredAppend {σ : Type} {u next : Upload σ} {a : Attempt} (attempts : next.attempts = u.attempts ++ [a]) :
    delivered next = delivered u + if a.delivered = true then 1 else 0 := by
  rw [delivered,attempts,List.countP_append,List.countP_singleton]
  rfl

section Calls
variable {σ : Type} [IHttpClient σ] (α : Type) [Double α] (impl : Impl) (client : TraccarClient)

theorem talliedPass {db : Db} {w : Work σ} {u : Upload σ} (tallied : Tallied db w u) (env : PassEnv) :
    Tallied db w (pass α impl client u env) := by
  obtain ⟨known,total,least,most⟩ := tallied
  have step := worked α impl client known env
  generalize pass α impl client u env = next at step
  cases step with
  | quiet => exact ⟨known,total,least,most⟩
  | sent a next _ attempts worker missing _ removed =>
    have grown := deliveredAppend attempts
    refine ⟨?_,?_,by omega,?_⟩
    · intro r mem
      cases stored : cell u.db r.id with
      | none =>
        have none := missing r.id stored
        rw [cellOfRow mem] at none
        contradiction
      | some c => exact known ⟨r.id,c⟩ (cellMem.mp stored)
    · rw [worker,grown]
      by_cases sent : a.delivered = true <;> simp [UploadWorker.count,sent,total,UInt32.ofNat_add,UInt32.add_assoc]
    · rw [removed,grown]
      by_cases sent : a.delivered = true
      · simp only [sent,true_and,if_true]
        split <;> omega
      · simp [sent,most]

/- A pass leaves everything delivered removed exactly when it confirms what it delivers. -/
theorem evenPass {db : Db} {w : Work σ} {u : Upload σ} (tallied : Tallied db w u) (even : Even db w u) (env : PassEnv) :
    Even db w (pass α impl client u env) ↔ Confirmed α impl client u env := by
  have step := worked α impl client tallied.known env
  unfold Confirmed
  generalize pass α impl client u env = next at step
  cases step with
  | quiet => exact iff_of_true even (by simp)
  | sent a next _ attempts _ _ _ removed =>
    have grown := deliveredAppend attempts
    have least := tallied.most
    simp only [Even] at even ⊢
    simp only [attempts,List.drop_left,List.mem_singleton,forall_eq,removed,grown]
    by_cases sent : a.delivered = true
    · by_cases executed : Acknowledges impl env
      · simp only [sent,executed,and_self,if_true]
        exact iff_of_true (by omega) (fun _ => trivial)
      · simp only [sent,executed,and_false,if_true,if_false]
        exact iff_of_false (by omega) (fun all => all trivial)
    · simp [sent,even]

theorem evenBack {db : Db} {w : Work σ} {u : Upload σ} (tallied : Tallied db w u) (env : PassEnv)
    (even : Even db w (pass α impl client u env)) : Even db w u := by
  have step := worked α impl client tallied.known env
  generalize pass α impl client u env = next at step even
  cases step with
  | quiet => exact even
  | sent a next _ attempts _ _ _ removed =>
    have grown := deliveredAppend attempts
    simp only [Even,removed,grown] at even ⊢
    by_cases sent : a.delivered = true
    · simp only [sent,true_and,if_true] at even
      split at even <;> omega
    · simpa [sent] using even

/- A delivered message is not stored any more. -/
structure Kept (w : Work σ) (u : Upload σ) : Prop where
  apart : (w.log ++ u.attempts).Pairwise (fun a b => a.delivered = true → b.message.id ≠ a.message.id)
  absent : ∀ a ∈ w.log ++ u.attempts, a.delivered = true → cell u.db a.message.id.toNat = none

theorem keptPass {db : Db} {w : Work σ} {u : Upload σ} (tallied : Tallied db w u) (kept : Kept w u) {env : PassEnv}
    (confirmed : Confirmed α impl client u env) : Kept w (pass α impl client u env) := by
  have step := worked α impl client tallied.known env
  unfold Confirmed at confirmed
  generalize pass α impl client u env = next at step confirmed
  obtain ⟨apart,absent⟩ := kept
  cases step with
  | quiet => exact ⟨apart,absent⟩
  | sent a next present attempts _ missing taken =>
    simp only [attempts,List.drop_left,List.mem_singleton,forall_eq] at confirmed
    have all : w.log ++ next.attempts = (w.log ++ u.attempts) ++ [a] := by simp [attempts]
    refine ⟨?_,?_⟩
    · rw [all,List.pairwise_append]
      refine ⟨apart,List.pairwise_singleton _ _,?_⟩
      intro b before a' last sent same
      rw [List.mem_singleton.mp last] at same
      exact present (same ▸ absent b before sent)
    · rw [all]
      intro b mem sent
      rcases List.mem_append.mp mem with before | last
      · exact missing _ (absent b before sent)
      · cases List.mem_singleton.mp last
        exact taken sent (confirmed sent)

theorem attemptsLength (u : Upload σ) (envs : List PassEnv) :
    (run (pass α impl client) u envs).attempts.length ≤ u.attempts.length + envs.length := by
  induction envs generalizing u with
  | nil => simp
  | cons env envs ih =>
    have rest := ih (pass α impl client u env)
    have one : (pass α impl client u env).attempts.length ≤ u.attempts.length + 1 := by
      have step := tried α impl client u env
      generalize pass α impl client u env = next at step
      cases step <;> simp
    rw [runCons,List.length_cons]
    omega

/- The call as it ends. -/
def ended (w : Work σ) (r : Round) : Upload σ := run (pass α impl client) (entered w) r.envs

theorem talliedEnd {db : Db} {w : Work σ} (sealed : Sealed db w) (r : Round) : Tallied db w (ended α impl client w r) :=
  runKeeps (I := Tallied db w) (P := fun _ => True) (fun _ env _ tallied => talliedPass α impl client tallied env)
    (fun _ _ => trivial) (talliedStart sealed)

theorem confirmsIffEven {db : Db} {w : Work σ} (sealed : Sealed db w) (r : Round) :
    Confirms α impl client w r ↔ Even db w (ended α impl client w r) := by
  have even : Even db w (entered w) := by simp [Even,entered,delivered]
  have keep : ∀ (u : Upload σ) env, Tallied db w u → Tallied db w (pass α impl client u env) :=
    fun _ env tallied => talliedPass α impl client tallied env
  unfold Confirms
  rw [← alwaysExactWith (I := Even db w) (J := Tallied db w) (fun _ env tallied even => evenPass α impl client tallied even env)
    (fun u env tallied _ _ => keep u env tallied) (talliedStart sealed) even]
  exact alwaysIffLast keep (fun _ env tallied => evenBack α impl client tallied env) (talliedStart sealed)

/- A call makes fewer than 2^32 attempts, so the counter cannot hide a missing removal. -/
theorem countedIffEven {db : Db} {w : Work σ} (sealed : Sealed db w) (counted : w.worker.totalSent = UInt32.ofNat (gone db w.db))
    (r : Round) :
    (ended α impl client w r).worker.totalSent = UInt32.ofNat (gone db (ended α impl client w r).db) ↔
      Even db w (ended α impl client w r) := by
  obtain ⟨_,total,least,most⟩ := talliedEnd α impl client sealed r
  have few : delivered (ended α impl client w r) ≤ r.maxBatch.toNat := by
    have attempts := attemptsLength α impl client (entered w) r.envs
    have passes : r.envs.length = r.maxBatch.toNat := by simp [Round.envs]
    have count : delivered (ended α impl client w r) ≤ (ended α impl client w r).attempts.length := List.countP_le_length
    simp only [entered,List.length_nil,passes] at attempts
    exact count.trans (by simpa [ended,entered] using attempts)
  have small := r.maxBatch.toNat_lt
  rw [total,counted,← UInt32.ofNat_add,← UInt32.toNat_inj,UInt32.toNat_ofNat',UInt32.toNat_ofNat',Even]
  omega

theorem keptEnd {db : Db} {w : Work σ} (sealed : Sealed db w) (truthful : Truthful db w) {r : Round}
    (confirms : Confirms α impl client w r) : Kept w (ended α impl client w r) := by
  have start : Kept w (entered w) := ⟨by simpa [entered] using truthful.neverAgain,by simpa [entered] using sealed.absent⟩
  have both : Tallied db w (ended α impl client w r) ∧ Kept w (ended α impl client w r) :=
    runKeepsAllowed (I := fun u => Tallied db w u ∧ Kept w u)
      (fun u env confirmed held => ⟨talliedPass α impl client held.1 env,keptPass α impl client held.1 held.2 confirmed⟩)
      confirms ⟨talliedStart sealed,start⟩
  exact both.2

/- In every state between the calls of a run a delivered message has not been sent again, and total_sent
is the number of messages removed, exactly when every delivered request was followed by an executed DELETE. -/
theorem truthfulIff (db : Db) (http : σ) (rounds : List Round) :
    Always (step α impl client) (Truthful db) (begun db http) rounds ↔
      Allowed (step α impl client) (Confirms α impl client) (begun db http) rounds := by
  refine alwaysExactWith (J := Sealed db) ?_ ?_ ?_ ?_ rounds
  · intro w r sealed truthful
    rw [confirmsIffEven α impl client sealed]
    have counted := countedIffEven α impl client sealed truthful.counted r
    constructor
    · exact fun after => counted.mp after.counted
    · intro even
      have kept := keptEnd α impl client sealed truthful ((confirmsIffEven α impl client sealed r).mpr even)
      exact ⟨kept.apart,counted.mpr even⟩
  · intro w r sealed truthful confirms
    exact ⟨(talliedEnd α impl client sealed r).known,(keptEnd α impl client sealed truthful confirms).absent⟩
  · exact ⟨fun r mem => ⟨r,mem,rfl⟩,by simp [begun]⟩
  · exact ⟨.nil,by simp [begun,new,goneSelf]⟩

end Calls

/- One message and a server that answers 200. mark_sent meets SQLITE_BUSY; when the lease is over the
message is sent again, and total_sent is 1 with nothing removed. -/
theorem sentAgainNextDay :
    let db : Db := (sqlEnqueue empty [] 100 100).getD empty
    let busy : PassEnv := ⟨⟨100,.runs,0,.runs⟩,100,.fails 5,⟨100,.runs,.runs⟩⟩
    let later : PassEnv := ⟨⟨86500,.runs,0,.runs⟩,86500,.runs,⟨86500,.runs,.runs⟩⟩
    let first := step ℚ .opened JniBridge.client (begun db MockHttpClient.new) ⟨1,fun _ => busy⟩
    let second := step ℚ .opened JniBridge.client first ⟨1,fun _ => later⟩
    first.worker.totalSent = 1 ∧ gone db first.db = 0 ∧ ¬ Truthful db first ∧
    second.log.map (fun a => (a.message.id,a.delivered)) = [(1,true),(1,true)] := by
  intro db busy later first second
  have counted : first.worker.totalSent = 1 := by decide +kernel
  have removed : gone db first.db = 0 := by decide +kernel
  refine ⟨counted,removed,?_,by decide +kernel⟩
  intro truthful
  have total := truthful.counted
  rw [counted,removed] at total
  contradiction

end UmapTracker.Confirmations
