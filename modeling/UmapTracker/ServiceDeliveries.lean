import UmapTracker.Draining
import UmapTracker.ServiceRuns

/-! The application as it is built: one service after another, an in-memory queue and the mock client with its 200. While
SQLite executes the statements, every point a tick stores is sent in the same tick, once, and in order. -/
namespace UmapTracker.ServiceDeliveries
open AutoTable MessageQueue QueueContents UploadWorker UploadBatch Draining GeoTypes HttpClient Machine JniBridge
open Tracker hiding step
variable {α : Type} [Double α]

/- SQLite executes the statements of the tick, and no pass of its upload reads an earlier time than its
location does. -/
def Orderly : Event α → Prop
  | .dispatch _ env => env.location.step = .runs ∧
      ∃ clocks : Nat → Clock, env.upload = (fun i => (clocks i).env) ∧ ∀ i, env.location.now ≤ (clocks i).dequeueAt
  | _ => True

/- And the session opens. -/
def OrderlyLife : Application.Event α → Prop
  | .create sqlite3Open prepare => sqlite3Open = true ∧ prepare = fun _ => true
  | .tracker event => Orderly event
  | .destroy => True

/- What nativeProcessLocation stores: the text of the next point if it is valid, under the next id. -/
def storedBy (n : Native α) (env : EnqueueEnv) : Option Entry :=
  match n.session,(n.engine.getLocation 0).1 with
  | some s,some raw =>
      if raw.isValid && decide (s.db.sequence < maxRowid) then some (s.db.sequence+1,GpsPipeline.text s.pipeline raw,env.now)
      else none
  | _,_ => none

def stores (t : Tracker α) : Event α → Option Entry
  | .dispatch i env => if i < t.service.pending.length ∧ t.service.isTracking = true then storedBy t.native env.location else none
  | _ => none

def storesIn (p : Application α) : Application.Event α → Option Entry
  | .tracker event => p.service.bind (fun s => stores ⟨s,p.native⟩ event)
  | _ => none

def request (a : Attempt) : RequestRecord := ⟨Text.ascii "GET",a.url,[],[]⟩

def fresh (e : Entry) : Row Message := ⟨e.1,⟨e.2.1,0,e.2.2,e.2.2⟩⟩

/- The session after its requests, with `stored` on its way to the server. -/
structure Holds (s : Session α) (log : List Attempt) (stored : Option Entry) : Prop where
  impl : s.impl = .opened
  client : s.client = JniBridge.client
  rows : s.db.rows = stored.toList.map fresh
  sequence : s.db.sequence = log.length + stored.toList.length
  queued : s.pipeline.queuedCount = UInt32.ofNat (log.length + stored.toList.length)
  mock : Accepting s.mockHttp
  requests : s.mockHttp.requests = log.map request
  totalSent : s.worker.totalSent = UInt32.ofNat log.length
  totalFailed : s.worker.totalFailed = 0

theorem holdsOpened : Holds (openSession true (fun _ => true) : Session α) [] none where
  impl := rfl
  client := rfl
  rows := rfl
  sequence := rfl
  queued := rfl
  mock := ⟨rfl,Int.le_refl 200,(by decide : (200 : Int) < 300)⟩
  requests := rfl
  totalSent := rfl
  totalFailed := rfl

/- An executed INSERT, or a full table. -/
theorem enqueueOpened (db : Db) (text : Text.Bytes) (now : Int) :
    (db.sequence < maxRowid ∧ ∃ after, enqueue .opened db (some text) now .runs = (.ok (),after) ∧
      after.rows = db.rows ++ [fresh (db.sequence+1,text,now)] ∧ after.sequence = db.sequence+1) ∨
    (¬ db.sequence < maxRowid ∧ enqueue .opened db (some text) now .runs = (.error .internalError,db)) := by
  rcases @QueueRuns.applyEnqueue db text now with ⟨room,ok,inserted⟩ | ⟨full,refused,same⟩
  · exact .inl ⟨room,_,Prod.ext ok rfl,insertRows inserted,insertSequence inserted⟩
  · exact .inr ⟨full,Prod.ext refused same⟩

theorem processQueued (p : GpsPipeline.GpsProcessingPipeline α) (impl : Impl) (db : Db) {raw : GpsPoint α} (now : Int) (step : Exec)
    (valid : raw.isValid = true) : (GpsPipeline.processLocation p impl db raw now step).2.1.queuedCount =
      if Result.hasValue (enqueue impl db (some (GpsPipeline.text p raw)) now step).1 then p.queuedCount+1 else p.queuedCount := by
  unfold GpsPipeline.processLocation GpsPipeline.text
  simp only [valid,Bool.not_true,Bool.false_eq_true,if_false]

/- The location half of a tick. -/
theorem holdsLocation {n : Native α} {s : Session α} {log : List Attempt} (session : n.session = some s) (holds : Holds s log none)
    {env : EnqueueEnv} (runs : env.step = .runs) :
    ∃ s', (nativeProcessLocation n env).2 = {n with engine := (n.engine.getLocation 0).2, session := some s'} ∧
      Holds s' log (storedBy n env) := by
  have impl := holds.impl
  rcases took : n.engine.getLocation 0 with ⟨_ | raw,engine⟩
  · have nothing : storedBy n env = none := by simp [storedBy,session,took]
    exact ⟨s,by simp [nativeProcessLocation,session,took],by rwa [nothing]⟩
  · cases valid : raw.isValid with
    | false =>
      have nothing : storedBy n env = none := by simp [storedBy,session,took,valid]
      refine ⟨s,by simp [nativeProcessLocation,session,took,GpsPipeline.processLocation,valid],by rwa [nothing]⟩
    | true =>
      have done : (nativeProcessLocation n env).2 = {n with engine, session := some {s with
          pipeline := (GpsPipeline.processLocation s.pipeline s.impl s.db raw env.now env.step).2.1
          db := (GpsPipeline.processLocation s.pipeline s.impl s.db raw env.now env.step).2.2}} := by
        simp [nativeProcessLocation,session,took]
      refine ⟨_,done,?_⟩
      have counted := processQueued s.pipeline s.impl s.db env.now env.step valid
      have through := (GpsPipeline.processValid s.pipeline s.impl s.db env.now env.step valid).2
      rcases enqueueOpened s.db (GpsPipeline.text s.pipeline raw) env.now with ⟨room,after,queued,rows,sequence⟩ | ⟨full,refused⟩
      · have stored : storedBy n env = some (s.db.sequence+1,GpsPipeline.text s.pipeline raw,env.now) := by
          simp [storedBy,session,took,valid,room]
        rw [← runs,← holds.impl] at queued
        rw [queued] at counted through
        have size : s.db.sequence = log.length := holds.sequence
        refine {holds with rows := ?_, sequence := ?_, queued := ?_}
        · rw [stored,through,rows,holds.rows]
          rfl
        · rw [stored,through,sequence,size]
          rfl
        · rw [stored]
          refine counted.trans ?_
          rw [holds.queued]
          simp [UInt32.ofNat_add]
      · have nothing : storedBy n env = none := by simp [storedBy,session,took,valid,full]
        rw [← runs,← holds.impl] at refused
        rw [refused] at counted through
        rw [nothing]
        refine {holds with rows := ?_, sequence := ?_, queued := ?_}
        · rw [through,holds.rows]
        · rw [through,holds.sequence]
        · exact counted.trans holds.queued

theorem requestsFold (m : MockHttpClient) (attempts : List Attempt) :
    (attempts.foldl (fun h a => (IHttpClient.get h a.url).2) m).requests = m.requests ++ attempts.map request := by
  induction attempts generalizing m with
  | nil => simp
  | cons a attempts ih =>
    have one : (IHttpClient.get m a.url).2.requests = m.requests ++ [request a] := by
      simp only [IHttpClient.get,MockHttpClient.answer]
      split <;> rfl
    rw [List.foldl_cons,ih,one,List.append_assoc]
    rfl

/- The upload half: what was stored is sent and deleted. -/
theorem holdsUpload {n : Native α} {s : Session α} {log : List Attempt} {stored : Option Entry} (session : n.session = some s)
    (holds : Holds s log stored) {clocks : Nat → Clock} (ripe : ∀ e ∈ stored, ∀ i, e.2.2 ≤ (clocks i).dequeueAt) :
    ∃ s' new, (nativeProcessUpload n (fun i => (clocks i).env)).2 = {n with session := some s', log := n.log ++ new} ∧
      new.map (fun a => entry a.message) = stored.toList ∧ (∀ a ∈ new, a.delivered = true) ∧ Holds s' (log ++ new) none := by
  let u := batch α s.client s.worker s.db s.mockHttp uploadBatch clocks
  have due : ∀ i, i < uploadBatch.toNat → Due s.db (clocks i) := by
    intro i _ r mem
    rw [holds.rows] at mem
    obtain ⟨e,here,rfl⟩ := List.mem_map.mp mem
    exact decide_eq_true (ripe e (Option.mem_toList.mp here) i)
  obtain ⟨taken,new,drains,many⟩ := drainsBatch α s.client acceptingHealthy s.worker s.db holds.mock (r := ⟨uploadBatch,clocks⟩) due
  obtain ⟨made,kept⟩ := drainsLength drains
  -- one row at most, and the batch has room for it
  have few : s.db.rows.length = stored.toList.length := by rw [holds.rows,List.length_map]
  have all : taken.length = stored.toList.length := by
    have small : stored.toList.length ≤ 1 := by cases stored <;> simp
    have room : (1 : Nat) ≤ uploadBatch.toNat := by decide
    rw [many]
    exact (min_eq_right (by rw [few]; exact small.trans room)).trans few
  have nothing : u.db.rows = [] := List.eq_nil_of_length_eq_zero (Nat.add_eq_left.mp (kept.trans (few.trans all.symm)))
  have attempts : u.attempts = new := drains.attempts
  have sent : new.map (fun a => entry a.message) = stored.toList := by
    have whole := drains.rows
    rw [show (batch α s.client s.worker s.db s.mockHttp uploadBatch clocks).db.rows = [] from nothing,List.append_nil,
      holds.rows] at whole
    have taken_is : taken = stored.toList.map fresh := by
      cases stored with
      | none => exact List.perm_nil.mp whole
      | some e => exact List.perm_singleton.mp whole
    rw [drains.sends,taken_is,List.map_map]
    cases stored <;> rfl
  have count : new.length = stored.toList.length := made.trans all
  refine ⟨{s with db := u.db, mockHttp := u.http, worker := u.worker},new,?_,sent,drains.delivered,?_⟩
  · simp only [nativeProcessUpload,session,holds.impl,← attempts]
    rfl
  · refine {impl := holds.impl, client := holds.client, rows := nothing, sequence := ?_, queued := ?_, mock := drains.good
            requests := ?_, totalSent := ?_, totalFailed := drains.totalFailed.trans holds.totalFailed}
    · rw [show u.db.sequence = s.db.sequence from drains.sequence,holds.sequence,List.length_append,count]
      rfl
    · rw [holds.queued,List.length_append,count]
      rfl
    · have requested : u.http = u.attempts.foldl (fun h a => (IHttpClient.get h a.url).2) s.mockHttp := by
        simp only [u,batchAfter]
        exact (settledAfter α s.client s.worker s.db s.mockHttp clocks uploadBatch.toNat).requested
      rw [requested,attempts,requestsFold,holds.requests,List.map_append]
    · rw [show u.worker.totalSent = s.worker.totalSent + UInt32.ofNat new.length from drains.totalSent,holds.totalSent,
        List.length_append,UInt32.ofNat_add]

/- Between two events nothing waits to be sent, and everything sent was accepted; the session has the last of the requests. -/
structure Delivering (n : Native α) : Prop where
  delivered : ∀ a ∈ n.log, a.delivered = true
  session : ∀ s, n.session = some s → ∃ before current, n.log = before ++ current ∧ Holds s current none

def sent (n : Native α) : List Entry := n.log.map (fun a => entry a.message)

/- Both halves of a tick. -/
theorem deliveringTick {n : Native α} (delivering : Delivering n) {env : EnqueueEnv} (runs : env.step = .runs) {clocks : Nat → Clock}
    (ordered : ∀ i, env.now ≤ (clocks i).dequeueAt) :
    let after := (nativeProcessUpload (nativeProcessLocation n env).2 (fun i => (clocks i).env)).2
    Delivering after ∧ sent after = sent n ++ (storedBy n env).toList := by
  intro after
  obtain ⟨delivered,session⟩ := delivering
  cases there : n.session with
  | none =>
    have still : after = n := by simp [after,nativeProcessLocation,nativeProcessUpload,there]
    rw [still]
    exact ⟨⟨delivered,session⟩,by simp [storedBy,there]⟩
  | some s =>
    obtain ⟨before,current,parts,holds⟩ := session s there
    obtain ⟨stocked,located,holds⟩ := holdsLocation there holds runs
    have ripe : ∀ e ∈ storedBy n env, ∀ i, e.2.2 ≤ (clocks i).dequeueAt := by
      intro e stored i
      have time : e.2.2 = env.now := by
        unfold storedBy at stored
        split at stored
        · split at stored
          · cases Option.some.inj stored
            rfl
          · contradiction
        · contradiction
      rw [time]
      exact ordered i
    obtain ⟨left,new,uploaded,sends,accepted,holds⟩ := holdsUpload (n := {n with
        engine := (n.engine.getLocation 0).2, session := some stocked}) rfl holds ripe
    have result : after = ⟨(n.engine.getLocation 0).2,some left,n.log ++ new⟩ := by
      simp only [after]
      rw [located,uploaded]
    rw [result]
    refine ⟨⟨?_,?_⟩,?_⟩
    · intro a mem
      rcases List.mem_append.mp mem with early | late
      · exact delivered a early
      · exact accepted a late
    · rintro s ⟨⟩
      exact ⟨before,current ++ new,by rw [parts,List.append_assoc],holds⟩
    · rw [sent,List.map_append,sends]
      rfl

theorem deliveringStep {t : Tracker α} (delivering : Delivering t.native) {e : Tracker.Event α} (orderly : Orderly e) :
    Delivering (Tracker.step t e).native ∧ sent (Tracker.step t e).native = sent t.native ++ (stores t e).toList := by
  cases e with
  | intent action =>
    cases action with
    | none => exact ⟨delivering,by simp [stores,Tracker.step,onStartCommand]⟩
    | some action =>
      cases action with
      | stop =>
        refine ⟨⟨delivering.delivered,?_⟩,by simp [stores,Tracker.step,onStartCommand,Tracker.stop,sent]⟩
        intro s gone
        cases gone
      | _ => exact ⟨delivering,by simp [stores,Tracker.step,onStartCommand]⟩
  | onLocationReceived fix => exact ⟨⟨delivering.delivered,delivering.session⟩,by simp [stores,Tracker.step,JniBridge.step,sent]⟩
  | onBatteryChanged percent charging =>
    exact ⟨⟨delivering.delivered,delivering.session⟩,by simp [stores,Tracker.step,JniBridge.step,sent]⟩
  | dispatch i env =>
    obtain ⟨runs,clocks,upload,ordered⟩ := orderly
    by_cases ticks : i < t.service.pending.length ∧ t.service.isTracking = true
    · obtain ⟨posted,tracking⟩ := ticks
      have after : (Tracker.step t (.dispatch i env)).native =
          (nativeProcessUpload (nativeProcessLocation t.native env.location).2 env.upload).2 := by
        simp [Tracker.step,Tracker.dispatch,posted,processRunnable,tracking]
      have told : stores t (.dispatch i env) = storedBy t.native env.location := by simp [stores,posted,tracking]
      rw [after,told,upload]
      exact deliveringTick delivering runs ordered
    · have after : (Tracker.step t (.dispatch i env)).native = t.native := by
        simp only [Tracker.step,Tracker.dispatch]
        split
        · rename_i posted
          have paused : t.service.isTracking = false := by simpa [posted] using ticks
          simp [processRunnable,paused]
        · rfl
      rw [stores,if_neg ticks,after]
      exact ⟨delivering,by simp⟩

/- A new instance opens a session if there is none; one that is destroyed leaves it. -/
theorem deliveringLife {p : Application α} (delivering : Delivering p.native) {e : Application.Event α} (orderly : OrderlyLife e) :
    Delivering (p.step e).native ∧ sent (p.step e).native = sent p.native ++ (storesIn p e).toList := by
  cases there : p.service with
  | none =>
    cases e with
    | create sqlite3Open prepare =>
      obtain ⟨rfl,rfl⟩ := orderly
      simp only [Application.step,there,storesIn,Option.toList_none,List.append_nil]
      refine ⟨⟨delivering.delivered,?_⟩,rfl⟩
      intro s opened
      simp only [Application.ofTracker,onCreate,nativeInitPipeline] at opened
      cases session : p.native.session with
      | some old =>
        rw [session] at opened
        cases opened
        exact delivering.session _ session
      | none =>
        rw [session] at opened
        cases opened
        exact ⟨p.native.log,[],(List.append_nil _).symm,holdsOpened⟩
    | destroy => simpa [Application.step,there,storesIn] using delivering
    | tracker event =>
      simp only [Application.step,there,storesIn,Option.bind_none,Option.toList_none,List.append_nil]
      cases event <;> exact ⟨⟨delivering.delivered,delivering.session⟩,rfl⟩
  | some s =>
    cases e with
    | create sqlite3Open prepare => simpa [Application.step,there,storesIn] using delivering
    | destroy => simpa [Application.step,there,storesIn,onDestroy] using delivering
    | tracker event =>
      simp only [Application.step,there,storesIn,Option.bind_some]
      exact deliveringStep (t := ⟨s,p.native⟩) delivering orderly

/- In every run of the process, whatever instances of the service come and go and however they are started and stopped, the requests
are the points that the ticks stored, each once and in order; nothing is left in the queue, and the counters of the session agree. -/
theorem everyPointSentOnce (events : List (Application.Event α)) (orderly : ∀ e ∈ events, OrderlyLife e) :
    let p := run Application.step .launched events
    sent p.native = (labels Application.step storesIn .launched events).reduceOption ∧ (∀ a ∈ p.native.log, a.delivered = true) ∧
    ∀ s, p.native.session = some s → ∃ before current, p.native.log = before ++ current ∧ s.db.rows = [] ∧
      s.db.sequence = current.length ∧ s.mockHttp.requests = current.map request ∧ s.worker.totalSent = s.pipeline.queuedCount ∧
      s.worker.totalSent = UInt32.ofNat current.length ∧ s.worker.totalFailed = 0 := by
  intro p
  have both : Delivering p.native ∧ sent p.native = (labels Application.step storesIn .launched events).reduceOption := by
    induction events using List.reverseRecOn with
    | nil => exact ⟨⟨fun _ mem => absurd mem List.not_mem_nil,fun s opened => by cases opened⟩,rfl⟩
    | append_singleton events e ih =>
      obtain ⟨delivering,so_far⟩ := ih (fun e mem => orderly e (List.mem_append_left _ mem))
      obtain ⟨after,log⟩ := deliveringLife delivering (orderly e (List.mem_append_right _ List.mem_cons_self))
      simp only [p,runAppend,labelsAppend,List.reduceOption_append,labels]
      refine ⟨after,log.trans ?_⟩
      rw [so_far]
      cases storesIn (run Application.step .launched events) e <;> simp
  obtain ⟨delivering,all⟩ := both
  refine ⟨all,delivering.delivered,?_⟩
  intro s there
  obtain ⟨before,current,parts,holds⟩ := delivering.session s there
  exact ⟨before,current,parts,holds.rows,holds.sequence,holds.requests,holds.totalSent.trans holds.queued.symm,holds.totalSent,
    holds.totalFailed⟩

/- A fix in each of two sessions, the second one's received while there is no service. -/
theorem everyPointSentOnceTwice :
    let fix : Fix ℚ := ⟨0,0,5,100,1,1000⟩
    let tick : Application.Event ℚ := .tracker (.dispatch 0 (ServiceRuns.calm 7))
    let opens : Application.Event ℚ := .create true (fun _ => true)
    let events : List (Application.Event ℚ) := [opens,.tracker (.intent (some .start)),.tracker (.onLocationReceived fix),tick,
      .tracker (.intent (some .stop)),.destroy,.tracker (.onLocationReceived fix),opens,.tracker (.intent (some .start)),tick]
    sent (run Application.step .launched events).native = (labels Application.step storesIn .launched events).reduceOption ∧
    (sent (run Application.step .launched events).native).map Prod.fst = [1,1] := by
  intro fix tick opens events
  have one : OrderlyLife tick := ⟨rfl,fun _ => ⟨7,0,7,7⟩,rfl,fun _ => le_refl _⟩
  have orderly : ∀ e ∈ events, OrderlyLife e := by
    simp only [events,List.forall_mem_cons]
    exact ⟨⟨rfl,rfl⟩,trivial,trivial,one,trivial,trivial,trivial,⟨rfl,rfl⟩,trivial,one,fun _ mem => absurd mem List.not_mem_nil⟩
  refine ⟨(everyPointSentOnce events orderly).1,?_⟩
  rw [(everyPointSentOnce events orderly).1]
  decide +kernel

end UmapTracker.ServiceDeliveries
