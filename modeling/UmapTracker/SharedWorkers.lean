import Mathlib.Logic.Function.Basic
import UmapTracker.UploadPass

/-! Several upload workers on one database file, each running process_pending on a MessageQueue object of
its own. SQLite makes a statement atomic; between any two of them, and around a request, the other workers and
those who write to the file may do theirs. -/
namespace UmapTracker.SharedWorkers
open AutoTable MessageQueue UploadWorker UploadPass Outbox QueueView GeoTypes HttpClient Machine Text
variable {κ σ : Type} [DecidableEq κ] [IHttpClient σ]

/- What a worker in process_pending does next: nothing between two calls, the SELECT of a dequeue, its UPDATE,
the request, the mark of the answer, the UPDATE of a mark_failed. -/
inductive Place where
  | idle
  | polling
  | selected (msg : QueuedMessage)
  | leased (msg : QueuedMessage)
  | answered (msg : QueuedMessage) (delivered : Bool)
  | retried (msg : QueuedMessage) (retryCount : UInt32)
  deriving DecidableEq, Repr

/- The message of the pass. -/
def Place.message : Place → Option QueuedMessage
  | .selected msg | .leased msg | .answered msg _ | .retried msg _ => some msg
  | _ => none

structure Desk (σ : Type) where
  place : Place
  -- max_batch - i
  left : Nat
  sent : UInt32
  worker : UploadWorker
  http : σ

structure Shared (κ σ : Type) where
  db : Db
  desk : κ → Desk σ
  log : List (κ × Attempt)

structure Moved (σ : Type) where
  db : Db
  desk : Desk σ
  request : Option Attempt

def finish (d : Desk σ) (delivered : Bool) : Desk σ :=
  {d with
    place := .polling
    left := d.left-1
    sent := if delivered then d.sent+1 else d.sent
    worker := count d.worker delivered}

section Moves
variable (α : Type) [Double α]

/- One statement of process_pending, or its request; each reads the part of env it meets. -/
def move (impl : Impl) (client : TraccarClient) (db : Db) (d : Desk σ) (env : PassEnv) : Moved σ :=
  match d.place with
  | .idle => ⟨db,d,none⟩
  | .polling =>
    if d.left = 0 then ⟨db,{d with place := .idle},none⟩
    else if impl.has .dequeueSelect && impl.has .dequeueMark then
      match env.dequeue.select.outcome (sqlDequeueSelect db env.dequeue.now env.dequeue.tie) with
      | some row => ⟨db,{d with place := .selected (queued env.dequeue.now row)},none⟩
      | none => ⟨db,{d with place := .idle},none⟩
    else ⟨db,{d with place := .idle},none⟩
  | .selected msg => ⟨env.dequeue.mark.change db (sqlDequeueMark db msg.nextRetryAt msg.id),{d with place := .leased msg},none⟩
  | .leased msg =>
    let (result,http) := client.send d.http (reported α msg.createdAt)
    let url := client.buildUrl (reported α msg.createdAt)
    ⟨db,{d with place := .answered msg (Result.hasValue result), http},some ⟨msg,url,env.sendAt,(IHttpClient.get d.http url).1⟩⟩
  | .answered msg true => ⟨(markSent impl db msg.id env.markSent).2,finish d true,none⟩
  | .answered msg false =>
    if impl.has .markFailed then
      ⟨db,{d with place := .retried msg (knownRetries (getRetryCount impl db msg.id env.markFailed.getRetry))},none⟩
    else ⟨db,finish d false,none⟩
  | .retried msg retryCount =>
    let nextRetry := env.markFailed.now + calculateBackoff (retryCount+1)
    ⟨env.markFailed.mark.change db (sqlMarkFailed db nextRetry msg.id),finish d false,none⟩

/- What one statement or request does. -/
inductive Made (impl : Impl) (client : TraccarClient) (db : Db) (d : Desk σ) (env : PassEnv) : Moved σ → Prop where
  | ended : d.place.message = none → Made impl client db d env ⟨db,{d with place := .idle},none⟩
  | found (row : Row Message) : d.place = .polling → row ∈ db.rows → ready env.dequeue.now row = true →
      Made impl client db d env ⟨db,{d with place := .selected (queued env.dequeue.now row)},none⟩
  | leased (msg : QueuedMessage) : d.place = .selected msg → Made impl client db d env
      ⟨env.dequeue.mark.change db (sqlDequeueMark db msg.nextRetryAt msg.id),{d with place := .leased msg},none⟩
  | asked (msg : QueuedMessage) (a : Attempt) (http : σ) : d.place = .leased msg → a.message = msg →
      a.url = client.buildUrl (reported α msg.createdAt) →
      Made impl client db d env ⟨db,{d with place := .answered msg a.delivered, http},some a⟩
  | sent (msg : QueuedMessage) : d.place = .answered msg true →
      Made impl client db d env ⟨(markSent impl db msg.id env.markSent).2,finish d true,none⟩
  | counted (msg : QueuedMessage) (retryCount : UInt32) : d.place = .answered msg false →
      Made impl client db d env ⟨db,{d with place := .retried msg retryCount},none⟩
  | skipped (msg : QueuedMessage) : d.place = .answered msg false → impl.has .markFailed = false →
      Made impl client db d env ⟨db,finish d false,none⟩
  | failed (msg : QueuedMessage) (retryCount : UInt32) : d.place = .retried msg retryCount → Made impl client db d env
      ⟨env.markFailed.mark.change db (sqlMarkFailed db (env.markFailed.now + calculateBackoff (retryCount+1)) msg.id),
        finish d false,none⟩

theorem moveMade (impl : Impl) (client : TraccarClient) (db : Db) (d : Desk σ) (env : PassEnv) :
    Made α impl client db d env (move α impl client db d env) := by
  cases here : d.place with
  | idle =>
    have same : d = {d with place := .idle} := by rw [← here]
    have made : move α impl client db d env = ⟨db,{d with place := .idle},none⟩ := by
      simp only [move,here]
      rw [← same]
    rw [made]
    exact .ended (by rw [here]; rfl)
  | polling =>
    have free : d.place.message = none := by rw [here]; rfl
    simp only [move,here]
    split
    · exact .ended free
    · split
      · split
        · rename_i row found
          have selected : sqlDequeueSelect db env.dequeue.now env.dequeue.tie = some row := by
            cases select : env.dequeue.select with
            | fails code => simp [select,Exec.outcome] at found
            | runs => simpa [select,Exec.outcome] using found
          obtain ⟨mem,wanted,_⟩ := selectFirstSome selected
          exact .found row here mem wanted
        · exact .ended free
      · exact .ended free
  | selected msg =>
    simp only [move,here]
    exact .leased msg here
  | leased msg =>
    have answer := client.sendAccepted d.http (reported α msg.createdAt)
    simp only [move,here,answer]
    exact .asked msg ⟨msg,_,env.sendAt,_⟩ _ here rfl rfl
  | answered msg delivered =>
    cases delivered with
    | true =>
      simp only [move,here]
      exact .sent msg here
    | false =>
      simp only [move,here]
      split
      · exact .counted msg _ here
      · rename_i missing
        exact .skipped msg here (Bool.eq_false_of_not_eq_true missing)
  | retried msg retryCount =>
    simp only [move,here]
    exact .failed msg retryCount here

inductive Event (κ : Type) where
  | call (c : κ) (maxBatch : UInt32)
  | move (c : κ) (env : PassEnv)
  | enqueue (c : κ) (payload : Option Bytes) (now : Int) (step : Exec)
  | purgeExpired (c : κ) (ttlHours : UInt32) (now : Int) (step : Exec)
  | reset (c : κ) (step : Exec)
  -- the process ends, wherever it is, and a new one opens the file
  | restart (c : κ)

variable (impl : κ → Impl) (client : κ → TraccarClient)

def step (s : Shared κ σ) : Event κ → Shared κ σ
  | .call c maxBatch =>
    let d := s.desk c
    if d.place = .idle then
      {s with desk := Function.update s.desk c {d with place := .polling, left := maxBatch.toNat, sent := 0}}
    else s
  | .move c env =>
    let m := move α (impl c) (client c) s.db (s.desk c) env
    ⟨m.db,Function.update s.desk c m.desk,s.log ++ m.request.toList.map (fun a => (c,a))⟩
  | .enqueue c payload now step => {s with db := (enqueue (impl c) s.db payload now step).2}
  | .purgeExpired c ttlHours now step => {s with db := (purgeExpired (impl c) s.db ttlHours now step).2}
  | .reset c step => {s with db := reset (impl c) s.db step}
  | .restart c =>
    {s with desk := Function.update s.desk c {s.desk c with place := .idle, left := 0, sent := 0, worker := .new}}

end Moves

def opened (db : Db) (http : κ → σ) : Shared κ σ := ⟨db,fun c => ⟨.idle,0,0,.new,http c⟩,[]⟩

section Alone
variable (α : Type) [Double α] (impl : κ → Impl) (client : κ → TraccarClient)

/- The others as in s, c at its desk d. -/
def facing (s : Shared κ σ) (c : κ) (db : Db) (d : Desk σ) (log : List (κ × Attempt)) : Shared κ σ :=
  ⟨db,Function.update s.desk c d,log⟩

/- The worker c as far as u, with `left` passes before the end of its call. -/
def working (s : Shared κ σ) (c : κ) (u : Upload σ) (left : Nat) : Shared κ σ :=
  facing s c u.db ⟨if u.stopped then .idle else .polling,left,u.sent,u.worker,u.http⟩ (s.log ++ u.attempts.map (fun a => (c,a)))

theorem stepFacing (s : Shared κ σ) (c : κ) (db : Db) (d : Desk σ) (log : List (κ × Attempt)) (env : PassEnv) :
    let m := move α (impl c) (client c) db d env
    step α impl client (facing s c db d log) (.move c env) =
      facing s c m.db m.desk (log ++ m.request.toList.map (fun a => (c,a))) := by
  intro m
  simp only [step,facing,Function.update_self,Function.update_idem]
  rfl

/- The statements of c are run one after the other. -/
theorem runFacing {s : Shared κ σ} {c : κ} {env : PassEnv} {db : Db} {d : Desk σ} {log : List (κ × Attempt)} {m : Moved σ}
    (made : move α (impl c) (client c) db d env = m) (k : Nat) :
    run (step α impl client) (facing s c db d log) (List.replicate (k+1) (.move c env)) =
      run (step α impl client) (facing s c m.db m.desk (log ++ m.request.toList.map (fun a => (c,a))))
        (List.replicate k (.move c env)) := by
  rw [List.replicate_succ,runCons,stepFacing,made]

/- A dequeue that reports an error ends the call. -/
theorem pollEnds {impl : Impl} (client : TraccarClient) {u : Upload σ} {env : PassEnv} (running : u.stopped = false)
    (nothing : ¬(impl.has .dequeueSelect && impl.has .dequeueMark) = true ∨
      env.dequeue.select.outcome (sqlDequeueSelect u.db env.dequeue.now env.dequeue.tie) = none) (left : Nat) :
    pass α impl client u env = {u with stopped := true} ∧
    move α impl client u.db ⟨.polling,left+1,u.sent,u.worker,u.http⟩ env = ⟨u.db,⟨.idle,left+1,u.sent,u.worker,u.http⟩,none⟩ := by
  by_cases prepared : (impl.has .dequeueSelect && impl.has .dequeueMark) = true
  · have none := nothing.resolve_left (fun not => not prepared)
    simp [UploadWorker.pass,move,dequeue,running,prepared,none]
  · simp [UploadWorker.pass,move,dequeue,running,prepared]

/- The two statements of mark_failed are the call. -/
theorem markFailedMoves (impl : Impl) (db : Db) (id : UInt64) (env : MarkFailedEnv) (prepared : impl.has .markFailed = true) :
    (markFailed impl db id env).2 =
      env.mark.change db (sqlMarkFailed db (env.now + calculateBackoff (knownRetries (getRetryCount impl db id env.getRetry) + 1)) id) := by
  unfold markFailed
  rw [if_pos prepared]
  cases env.mark <;> rfl

theorem answerMoves (s : Shared κ σ) (c : κ) (db : Db) (msg : QueuedMessage) (left : Nat) (sent : UInt32) (worker : UploadWorker)
    (http : σ) (log : List (κ × Attempt)) (delivered : Bool) (env : PassEnv) :
    ∃ k, run (step α impl client) (facing s c db ⟨.answered msg delivered,left+1,sent,worker,http⟩ log)
        (List.replicate k (.move c env)) =
      facing s c (mark (impl c) db msg.id delivered env)
        ⟨.polling,left,if delivered then sent+1 else sent,count worker delivered,http⟩ log := by
  cases delivered with
  | true =>
    refine ⟨1,(runFacing α impl client rfl 0).trans ?_⟩
    simp [move,mark,finish]
  | false =>
    by_cases prepared : (impl c).has .markFailed = true
    · refine ⟨2,?_⟩
      rw [runFacing α impl client (m := ⟨db,_,none⟩) (by simp only [move,if_pos prepared]; rfl)]
      refine (runFacing α impl client rfl 0).trans ?_
      simp [move,mark,finish,markFailedMoves (impl c) db msg.id env.markFailed prepared]
    · refine ⟨1,(runFacing α impl client rfl 0).trans ?_⟩
      simp [move,mark,markFailed,finish,prepared]

/- A pass that finds a message, in one piece. -/
theorem passRow {impl : Impl} {client : TraccarClient} {u : Upload σ} {env : PassEnv} {row : Row Message} (running : u.stopped = false)
    (prepared : (impl.has .dequeueSelect && impl.has .dequeueMark) = true)
    (found : env.dequeue.select.outcome (sqlDequeueSelect u.db env.dequeue.now env.dequeue.tie) = some row) :
    let msg := queued env.dequeue.now row
    let after := env.dequeue.mark.change u.db (sqlDequeueMark u.db msg.nextRetryAt msg.id)
    let answer := client.send u.http (reported α msg.createdAt)
    let delivered := Result.hasValue answer.1
    pass α impl client u env = ⟨mark impl after msg.id delivered env,answer.2,count u.worker delivered,
      if delivered then u.sent+1 else u.sent,false,u.attempts ++ [attemptFor α client u.http env row]⟩ := by
  intro msg after answer delivered
  simp only [UploadWorker.pass,running,dequeue,if_pos prepared,found]
  rfl

omit [IHttpClient σ] in
theorem workingRunning {s : Shared κ σ} {c : κ} {u : Upload σ} (running : u.stopped = false) (left : Nat) :
    working s c u left = facing s c u.db ⟨.polling,left,u.sent,u.worker,u.http⟩ (s.log ++ u.attempts.map (fun a => (c,a))) := by
  rw [working,running]
  rfl

theorem passMoves (s : Shared κ σ) (c : κ) {u : Upload σ} (running : u.stopped = false) (left : Nat) (env : PassEnv) :
    let next := pass α (impl c) (client c) u env
    ∃ k, run (step α impl client) (working s c u (left+1)) (List.replicate k (.move c env)) =
      working s c next (if next.stopped then left+1 else left) := by
  intro next
  have ends : (¬((impl c).has .dequeueSelect && (impl c).has .dequeueMark) = true ∨
      env.dequeue.select.outcome (sqlDequeueSelect u.db env.dequeue.now env.dequeue.tie) = none) →
      ∃ k, run (step α impl client) (working s c u (left+1)) (List.replicate k (.move c env)) =
        working s c next (if next.stopped then left+1 else left) := by
    intro nothing
    obtain ⟨ended,made⟩ := pollEnds α (client c) running nothing left
    refine ⟨1,?_⟩
    rw [workingRunning running,show next = {u with stopped := true} from ended]
    refine (runFacing α impl client made 0).trans ?_
    simp [working]
  by_cases prepared : ((impl c).has .dequeueSelect && (impl c).has .dequeueMark) = true
  · cases found : env.dequeue.select.outcome (sqlDequeueSelect u.db env.dequeue.now env.dequeue.tie) with
    | none => exact ends (.inr found)
    | some row =>
      have made : next = _ := passRow α running prepared found
      have selected : move α (impl c) (client c) u.db ⟨.polling,left+1,u.sent,u.worker,u.http⟩ env =
          ⟨u.db,⟨.selected (queued env.dequeue.now row),left+1,u.sent,u.worker,u.http⟩,none⟩ := by
        simp [move,prepared,found]
      obtain ⟨k,rest⟩ := answerMoves α impl client s c _ (queued env.dequeue.now row) left u.sent u.worker _
        (s.log ++ (u.attempts ++ [attemptFor α (client c) u.http env row]).map (fun a => (c,a))) _ env
      refine ⟨k+3,?_⟩
      -- its SELECT, its UPDATE and its request
      rw [workingRunning running,runFacing α impl client selected,runFacing α impl client rfl,runFacing α impl client rfl,made]
      refine Eq.trans ?_ rest
      simp only [move,attemptFor,List.map_append,List.append_assoc]
      rfl
  · exact ends (.inl prepared)

theorem stoppedPass {impl : Impl} {client : TraccarClient} {u : Upload σ} (stopped : u.stopped = true) (envs : List PassEnv) :
    run (pass α impl client) u envs = u := by
  induction envs with
  | nil => rfl
  | cons env envs ih => rw [runCons,show pass α impl client u env = u by simp [UploadWorker.pass,stopped],ih]

theorem passesMove (s : Shared κ σ) (c : κ) (envs : List PassEnv) (u : Upload σ) :
    let last := run (pass α (impl c) (client c)) u envs
    ∃ moves left, (∀ e ∈ moves, ∃ env ∈ envs, e = Event.move c env) ∧ (last.stopped = false → left = 0) ∧
      run (step α impl client) (working s c u envs.length) moves = working s c last left := by
  intro last
  induction envs generalizing u with
  | nil => exact ⟨[],0,by simp,fun _ => rfl,rfl⟩
  | cons env envs ih =>
    cases running : u.stopped with
    | true =>
      have same : last = u := stoppedPass α running (env::envs)
      exact ⟨[],(env::envs).length,by simp,by simp [same,running],by rw [same]; rfl⟩
    | false =>
      obtain ⟨k,first⟩ := passMoves α impl client s c running envs.length env
      have repeated : ∀ e ∈ List.replicate k (Event.move c env), ∃ env' ∈ env::envs, e = Event.move c env' :=
        fun e mem => ⟨env,List.mem_cons_self,List.eq_of_mem_replicate mem⟩
      cases stopped : (pass α (impl c) (client c) u env).stopped with
      | true =>
        have same : last = pass α (impl c) (client c) u env := stoppedPass α stopped envs
        refine ⟨List.replicate k (.move c env),_,repeated,?_,first.trans (by rw [← same])⟩
        rw [same,stopped]
        exact fun other => Bool.noConfusion other
      | false =>
        obtain ⟨moves,left,each,ended,rest⟩ := ih (pass α (impl c) (client c) u env)
        refine ⟨List.replicate k (.move c env) ++ moves,left,?_,ended,?_⟩
        · intro e mem
          rcases List.mem_append.mp mem with mem | mem
          · exact repeated e mem
          · obtain ⟨env',mem',same⟩ := each e mem
            exact ⟨env',List.mem_cons_of_mem _ mem',same⟩
        · rw [runAppend,show (env::envs).length = envs.length+1 from rfl,first,stopped]
          exact rest

/- A call that nothing comes between is process_pending. -/
theorem undisturbed (s : Shared κ σ) (c : κ) (rests : (s.desk c).place = .idle) (maxBatch : UInt32) (env : Nat → PassEnv) :
    let u := processPending α (impl c) (client c) (s.desk c).worker s.db (s.desk c).http maxBatch env
    ∃ moves left, (∀ e ∈ moves, ∃ i, e = Event.move c (env i)) ∧
      run (step α impl client) s (.call c maxBatch::moves) =
        facing s c u.db ⟨.idle,left,u.sent,u.worker,u.http⟩ (s.log ++ u.attempts.map (fun a => (c,a))) := by
  intro u
  obtain ⟨moves,left,each,ended,rest⟩ := passesMove α impl client s c ((List.range maxBatch.toNat).map env)
    ⟨s.db,(s.desk c).http,(s.desk c).worker,0,false,[]⟩
  have called : step α impl client s (.call c maxBatch) =
      working s c ⟨s.db,(s.desk c).http,(s.desk c).worker,0,false,[]⟩ ((List.range maxBatch.toNat).map env).length := by
    simp [step,rests,working,facing]
  have made : ∀ e ∈ moves, ∃ i, e = Event.move c (env i) := by
    intro e mem
    obtain ⟨env',mem',rfl⟩ := each e mem
    obtain ⟨i,_,rfl⟩ := List.mem_map.mp mem'
    exact ⟨i,rfl⟩
  have last : run (step α impl client) s (.call c maxBatch::moves) = working s c u left := by
    rw [runCons,called]
    exact rest
  cases stopped : u.stopped with
  | true => exact ⟨moves,left,made,by rw [last,working,stopped]; rfl⟩
  | false =>
    -- the loop ends with its last pass
    refine ⟨moves ++ [.move c (env 0)],left,?_,?_⟩
    · intro e mem
      rcases List.mem_append.mp mem with mem | mem
      · exact made e mem
      · exact ⟨0,List.mem_singleton.mp mem⟩
    · rw [← List.cons_append,runAppend,last,workingRunning stopped,ended stopped,runCons,stepFacing]
      simp [move]

end Alone

end UmapTracker.SharedWorkers
