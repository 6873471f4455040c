import UmapTracker.UploadBatch

/-! process_pending against a server that accepts every request, with every stored message due: it
sends the oldest messages, each once, and leaves the others as they are. -/
namespace UmapTracker.Draining
open AutoTable MessageQueue QueueContents QueueView UploadWorker UploadPass UploadBatch GeoTypes HttpClient Machine

/- The server accepts every request in the states of the HTTP client that are `good`, and keeps it there. -/
structure Healthy {σ : Type} [IHttpClient σ] (good : σ → Prop) : Prop where
  accepts : ∀ http url, good http → TraccarClient.accepted (IHttpClient.get http url).1 = true
  keeps : ∀ http url, good http → good (IHttpClient.get http url).2

/- The mock with a response of the 2xx range. -/
def Accepting (m : MockHttpClient) : Prop := m.shouldFail = false ∧ 200 ≤ m.responseStatus ∧ m.responseStatus < 300

theorem acceptingHealthy : Healthy Accepting where
  accepts := by
    rintro m url ⟨fails,low,high⟩
    simp [IHttpClient.get,MockHttpClient.answer,fails,TraccarClient.accepted,low,high]
  keeps := by
    rintro m url ⟨fails,low,high⟩
    simp [IHttpClient.get,MockHttpClient.answer,Accepting,fails,low,high]

def Due (db : Db) (c : Clock) : Prop := ∀ r ∈ db.rows, ready c.dequeueAt r = true

def Older (r s : Row Message) : Prop := r.cols.createdAt ≤ s.cols.createdAt

/- The rows `taken` have been sent and deleted between the two states, the oldest first, and nothing else has
happened to the table. -/
structure Drains {σ : Type} (good : σ → Prop) (u v : Upload σ) (taken : List (Row Message)) (new : List Attempt) : Prop where
  attempts : v.attempts = u.attempts ++ new
  sends : new.map (fun a => entry a.message) = taken.map rowEntry
  delivered : ∀ a ∈ new, a.delivered = true
  rows : (taken ++ v.db.rows).Perm u.db.rows
  ordered : taken.Pairwise Older
  oldest : ∀ r ∈ taken, ∀ s ∈ v.db.rows, Older r s
  sequence : v.db.sequence = u.db.sequence
  totalSent : v.worker.totalSent = u.worker.totalSent + UInt32.ofNat new.length
  totalFailed : v.worker.totalFailed = u.worker.totalFailed
  sent : v.sent = u.sent + UInt32.ofNat new.length
  good : good v.http

/- A pass inserts no row. -/
theorem passSequence {σ : Type} [IHttpClient σ] (α : Type) [Double α] (impl : Impl) (client : TraccarClient) (u : Upload σ)
    (env : PassEnv) : (pass α impl client u env).db.sequence = u.db.sequence := by
  have taken : (dequeue impl u.db env.dequeue).2.sequence = u.db.sequence := by
    unfold dequeue
    split
    · cases env.dequeue.select.outcome (sqlDequeueSelect u.db env.dequeue.now env.dequeue.tie) <;> cases env.dequeue.mark <;> rfl
    · rfl
  have marked : ∀ db id delivered, (mark impl db id delivered env).sequence = db.sequence := by
    intro db id delivered
    cases delivered with
    | true =>
      simp only [mark,markSent,if_true]
      split
      · cases env.markSent <;> rfl
      · rfl
    | false =>
      simp only [mark,markFailed,Bool.false_eq_true,if_false]
      split
      · cases env.markFailed.mark <;> rfl
      · rfl
  unfold UploadWorker.pass
  split
  · rfl
  · split
    · rename_i answer
      rw [← taken,answer]
    · rename_i answer
      rw [← taken,answer]
      exact marked _ _ _

section Composition
variable {σ : Type} {good : σ → Prop} {u v w : Upload σ} {taken more : List (Row Message)} {new later : List Attempt}

theorem drainsNothing (healthy : good u.http) : Drains good u u [] [] :=
  ⟨by simp,rfl,by simp,.refl _,.nil,by simp,rfl,by simp,rfl,by simp,healthy⟩

theorem drainsStay (drains : Drains good u v taken new) : ∀ r ∈ v.db.rows, r ∈ u.db.rows :=
  fun _ mem => drains.rows.subset (List.mem_append_right _ mem)

theorem drainsLength (drains : Drains good u v taken new) :
    new.length = taken.length ∧ taken.length + v.db.rows.length = u.db.rows.length := by
  have made := congrArg List.length drains.sends
  have kept := drains.rows.length_eq
  rw [List.length_map,List.length_map] at made
  rw [List.length_append] at kept
  exact ⟨made,kept⟩

theorem drainsTrans (first : Drains good u v taken new) (second : Drains good v w more later) :
    Drains good u w (taken ++ more) (new ++ later) where
  attempts := by rw [second.attempts,first.attempts,List.append_assoc]
  sends := by rw [List.map_append,List.map_append,first.sends,second.sends]
  delivered := by
    intro a mem
    rcases List.mem_append.mp mem with early | late
    · exact first.delivered a early
    · exact second.delivered a late
  rows := by
    rw [List.append_assoc]
    exact (second.rows.append_left taken).trans first.rows
  ordered := by
    refine List.pairwise_append.mpr ⟨first.ordered,second.ordered,?_⟩
    intro r early s late
    exact first.oldest r early s (second.rows.subset (List.mem_append_left _ late))
  oldest := by
    intro r mem s stored
    rcases List.mem_append.mp mem with early | late
    · exact first.oldest r early s (drainsStay second s stored)
    · exact second.oldest r late s stored
  sequence := second.sequence.trans first.sequence
  totalSent := by
    rw [second.totalSent,first.totalSent,List.length_append,UInt32.ofNat_add,UInt32.add_assoc]
  totalFailed := second.totalFailed.trans first.totalFailed
  sent := by rw [second.sent,first.sent,List.length_append,UInt32.ofNat_add,UInt32.add_assoc]
  good := second.good

end Composition

section Passes
variable {σ : Type} [IHttpClient σ] (α : Type) [Double α] (client : TraccarClient) {good : σ → Prop}

/- Nothing is stored and the call ends, or the oldest message is sent and deleted. -/
theorem drainsTick (healthy : Healthy good) {u : Upload σ} (running : u.stopped = false) (fine : good u.http) {c : Clock}
    (due : Due u.db c) :
    (u.db.rows = [] ∧ tick α client u c = {u with stopped := true}) ∨
    ∃ row a, Drains good u (tick α client u c) [row] [a] ∧ (tick α client u c).stopped = false := by
  have step := ticked α client u c
  have still : (tick α client u c).db.sequence = u.db.sequence := passSequence α .opened client u c.env
  generalize tick α client u c = next at step still
  cases step with
  | idle stopped =>
    rw [running] at stopped
    contradiction
  | ended _ nothing =>
    refine .inl ⟨List.eq_nil_iff_forall_not_mem.mpr (fun r mem => ?_),rfl⟩
    have wanted : ready c.env.dequeue.now r = true := due r mem
    rw [nothing (polled c) r mem] at wanted
    contradiction
  | sent row a db _ _ selected mem _ made cells =>
    have delivered : a.delivered = true := by
      rw [made]
      exact healthy.accepts _ _ fine
    have least := (selectFirstSome selected).2.2
    have taken : (row::db.rows).Perm u.db.rows := by
      refine rowsTaken mem (fun i => ?_)
      rw [cells,markedOpened,delivered]
      rfl
    refine .inr ⟨row,a,⟨rfl,?_,by simpa using delivered,taken,List.pairwise_singleton _ _,?_,still,?_,?_,?_,?_⟩,rfl⟩
    · rw [made]
      exact congrArg (fun e => [e]) (queuedEntry mem c.dequeueAt)
    · intro r own s stored
      rw [List.mem_singleton.mp own]
      have there := taken.subset (List.mem_cons_of_mem _ stored)
      exact least s there (due s there)
    · simp [delivered,count]
    · simp [delivered,count]
    · simp [delivered]
    · exact healthy.keeps _ _ fine

omit [IHttpClient σ] in
theorem dueAfter {u v : Upload σ} {taken : List (Row Message)} {new : List Attempt} {c : Clock} (due : Due u.db c)
    (drains : Drains good u v taken new) : Due v.db c :=
  fun r mem => due r (drainsStay drains r mem)

/- The passes of a call: each takes one message, as long as there is one. -/
theorem drainsPasses (healthy : Healthy good) (cs : List Clock) {u : Upload σ} (running : u.stopped = false) (fine : good u.http)
    (due : ∀ c ∈ cs, Due u.db c) :
    ∃ taken new, Drains good u (run (tick α client) u cs) taken new ∧ taken.length = min cs.length u.db.rows.length := by
  induction cs generalizing u with
  | nil => exact ⟨[],[],drainsNothing fine,by simp⟩
  | cons c cs ih =>
    rcases drainsTick α client healthy running fine (due c List.mem_cons_self) with ⟨nothing,ended⟩ | ⟨row,a,drains,goes⟩
    · rw [runCons,ended]
      have stays : run (tick α client) {u with stopped := true} cs = {u with stopped := true} :=
        runKeeps (I := fun v => v = {u with stopped := true}) (P := fun _ => True)
          (fun v c _ same => by rw [same]; simp [tick,UploadWorker.pass]) (fun _ _ => trivial) rfl
      have same : Drains good u {u with stopped := true} [] [] := {drainsNothing fine with}
      exact ⟨[],[],by rw [stays]; exact same,by simp [nothing]⟩
    · obtain ⟨taken,new,rest,many⟩ := ih goes drains.good (fun d mem => dueAfter (due d (List.mem_cons_of_mem _ mem)) drains)
      have less := (drainsLength drains).2
      refine ⟨[row] ++ taken,[a] ++ new,drainsTrans drains rest,?_⟩
      simp only [List.length_append,List.length_cons,List.length_nil] at less ⊢
      omega

end Passes

/- One call of process_pending after another, with the attempts of all of them and the sum of what they return. -/
structure Round where
  maxBatch : UInt32
  clocks : Nat → Clock

def Round.due (db : Db) (r : Round) : Prop := ∀ i, i < r.maxBatch.toNat → Due db (r.clocks i)

section Rounds
variable {σ : Type} [IHttpClient σ] (α : Type) [Double α] (client : TraccarClient) {good : σ → Prop}

def uploadRound (u : Upload σ) (r : Round) : Upload σ :=
  let v := batch α client u.worker u.db u.http r.maxBatch r.clocks
  {v with attempts := u.attempts ++ v.attempts, sent := u.sent + v.sent}

theorem drainsBatch (healthy : Healthy good) (worker : UploadWorker) (db : Db) {http : σ} (fine : good http) {r : Round}
    (due : r.due db) :
    ∃ taken new, Drains good ⟨db,http,worker,0,false,[]⟩ (batch α client worker db http r.maxBatch r.clocks) taken new ∧
      taken.length = min r.maxBatch.toNat db.rows.length := by
  rw [batchAfter]
  have passes := drainsPasses α client healthy ((List.range r.maxBatch.toNat).map r.clocks)
    (u := ⟨db,http,worker,0,false,[]⟩) rfl fine (by
      intro c mem
      obtain ⟨i,inside,rfl⟩ := List.mem_map.mp mem
      exact due i (List.mem_range.mp inside))
  rwa [List.length_map,List.length_range] at passes

/- The attempts and the results of the calls so far are added up. -/
theorem drainsRound (healthy : Healthy good) {u : Upload σ} (fine : good u.http) {r : Round} (due : r.due u.db) :
    ∃ taken new, Drains good u (uploadRound α client u r) taken new ∧ taken.length = min r.maxBatch.toNat u.db.rows.length := by
  obtain ⟨taken,new,drains,many⟩ := drainsBatch α client healthy u.worker u.db fine due
  obtain ⟨attempts,sends,delivered,rows,ordered,oldest,sequence,totalSent,totalFailed,sent,good⟩ := drains
  refine ⟨taken,new,⟨?_,sends,delivered,rows,ordered,oldest,sequence,totalSent,totalFailed,?_,good⟩,many⟩
  · simp only [uploadRound,attempts,List.nil_append]
  · simp only [uploadRound,sent,UInt32.zero_add]

def capacity (rounds : List Round) : Nat := (rounds.map (fun r => r.maxBatch.toNat)).sum

theorem drainsRounds (healthy : Healthy good) (rounds : List Round) {u : Upload σ} (fine : good u.http)
    (due : ∀ r ∈ rounds, r.due u.db) :
    ∃ taken new, Drains good u (run (uploadRound α client) u rounds) taken new ∧
      taken.length = min (capacity rounds) u.db.rows.length := by
  induction rounds generalizing u with
  | nil => exact ⟨[],[],drainsNothing fine,by simp [capacity]⟩
  | cons r rounds ih =>
    obtain ⟨taken,new,drains,many⟩ := drainsRound α client healthy fine (due r List.mem_cons_self)
    obtain ⟨more,later,rest,others⟩ := ih drains.good (fun s mem i inside =>
      dueAfter (due s (List.mem_cons_of_mem _ mem) i inside) drains)
    have less := (drainsLength drains).2
    refine ⟨taken ++ more,new ++ later,drainsTrans drains rest,?_⟩
    simp only [capacity,List.map_cons,List.sum_cons,List.length_append] at others ⊢
    omega

/- Calls with room for everything that was stored empty the table: every message has been sent once, oldest
first, and the counters say so. -/
theorem backlogDrained (healthy : Healthy good) (worker : UploadWorker) (db : Db) {http : σ} (fine : good http)
    {rounds : List Round} (due : ∀ r ∈ rounds, r.due db) (room : db.rows.length ≤ capacity rounds) :
    let v := run (uploadRound α client) ⟨db,http,worker,0,false,[]⟩ rounds
    v.db.rows = [] ∧ (v.attempts.map (fun a => entry a.message)).Perm (contents db) ∧
      (v.attempts.map (fun a => a.message.createdAt)).Pairwise (· ≤ ·) ∧ (∀ a ∈ v.attempts, a.delivered = true) ∧
      v.worker.totalSent = worker.totalSent + UInt32.ofNat db.rows.length ∧ v.worker.totalFailed = worker.totalFailed ∧
      v.sent = UInt32.ofNat db.rows.length := by
  intro v
  obtain ⟨taken,new,drains,many⟩ := drainsRounds α client healthy rounds (u := ⟨db,http,worker,0,false,[]⟩) fine due
  obtain ⟨made,kept⟩ := drainsLength drains
  have all : taken.length = db.rows.length := many.trans (min_eq_right room)
  have nothing : v.db.rows = [] := List.eq_nil_of_length_eq_zero (by simp only [v] at *; omega)
  have attempts : v.attempts = new := drains.attempts
  have whole : taken.Perm db.rows := by
    have rows := drains.rows
    rwa [show (run (uploadRound α client) _ rounds).db.rows = [] from nothing,List.append_nil] at rows
  refine ⟨nothing,?_,?_,?_,?_,?_,?_⟩
  · rw [attempts,drains.sends]
    exact whole.map rowEntry
  · have times : new.map (fun a => a.message.createdAt) = taken.map (fun r => r.cols.createdAt) := by
      have sends := congrArg (List.map (fun e : Entry => e.2.2)) drains.sends
      rwa [List.map_map,List.map_map] at sends
    rw [attempts,times]
    exact List.pairwise_map.mpr drains.ordered
  · rw [attempts]
    exact drains.delivered
  · have sent := drains.totalSent
    rwa [made.trans all] at sent
  · exact drains.totalFailed
  · have sent := drains.sent
    rwa [made.trans all,UInt32.zero_add] at sent

end Rounds

/- Three messages, the second the oldest, and two calls of at most two. -/
theorem backlogDrainedThree :
    let db : Db := QueueRuns.history [.enqueue (some []) 7,.enqueue (some []) 5,.enqueue (some []) 9]
    let rounds : List Round := [⟨2,fun _ => ⟨10,0,10,10⟩⟩,⟨2,fun _ => ⟨10,0,10,10⟩⟩]
    let v := run (uploadRound ℚ ⟨[],[]⟩) ⟨db,MockHttpClient.new,UploadWorker.new,0,false,[]⟩ rounds
    v.db.rows = [] ∧ (v.attempts.map (fun a => entry a.message)).Perm (contents db) := by
  intro db rounds v
  have fine : Accepting MockHttpClient.new := ⟨rfl,by decide,by decide⟩
  have ripe : ∀ row ∈ db.rows, ready 10 row = true := by decide
  have due : ∀ r ∈ rounds, r.due db := by
    intro r mem i _
    have readings : r.clocks = fun _ => ⟨10,0,10,10⟩ := by
      rcases List.mem_cons.mp mem with rfl | last
      · rfl
      · rw [List.mem_singleton.mp last]
    rw [readings]
    exact ripe
  obtain ⟨nothing,all,_⟩ := backlogDrained ℚ ⟨[],[]⟩ acceptingHealthy UploadWorker.new db fine due (by decide)
  exact ⟨nothing,all⟩

end UmapTracker.Draining
