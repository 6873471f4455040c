import UmapTracker.PipelineRuns
import UmapTracker.TrackerService

/-! From the fixes that reach the process to the payloads that reach the message queue. Intents, ticks, uploads, clocks and the answers of
SQLite decide how far along the payloads are, and nothing else about them. -/
namespace UmapTracker.PayloadOrder
open GeoTypes GpsPipeline PipelineRuns Machine JniBridge MessageQueue Text
open Tracker hiding step
variable {α : Type} [Double α]

/- What a point leaves of a pipeline, and the text it hands over. -/
def advance (p : GpsProcessingPipeline α) (raw : GpsPoint α) : GpsProcessingPipeline α :=
  if raw.isValid then {p with kalman := filter p raw, lastTimestampMs := raw.timestampMs, processedCount := p.processedCount+1, initialized := true}
  else p

def offer (p : GpsProcessingPipeline α) (raw : GpsPoint α) : Option Bytes := if raw.isValid then some (text p raw) else none

/- The payloads of a new pipeline that is given these points. -/
def texts (points : List (GpsPoint α)) : List Bytes := (labels advance offer .default points).reduceOption

def waiting (n : Native α) : List (GpsPoint α) := n.engine.locationQueue.items

def battery (n : Native α) : UInt32 × Bool := (n.engine.lastBatteryPercent,n.engine.lastIsCharging)

def received (battery : UInt32 × Bool) (fix : Fix α) : GpsPoint α :=
  {GpsPoint.default with
    location := ⟨fix.latitude,fix.longitude⟩
    accuracyM := fix.accuracy
    altitudeM := fix.altitude
    hdop := fix.hdop
    timestampMs := UInt32.ofInt fix.timestampMs.toInt
    batteryPercent := battery.1
    isCharging := battery.2}

/- The battery as last reported, and the points received under it: the events alone say. -/
def report (battery : UInt32 × Bool) : Application.Event α → UInt32 × Bool
  | .tracker (.onBatteryChanged percent charging) => (UInt32.ofInt percent.toInt,charging)
  | _ => battery

def arrival (battery : UInt32 × Bool) : Application.Event α → Option (GpsPoint α)
  | .tracker (.onLocationReceived fix) => some (received battery fix)
  | _ => none

def arrivals (battery : UInt32 × Bool) (events : List (Application.Event α)) : List (GpsPoint α) :=
  (labels report arrival battery events).reduceOption

/- A fix that comes when the engine's queue is full is dropped. -/
def Room (p : Application α) : Application.Event α → Prop
  | .tracker (.onLocationReceived _) => (waiting p.native).length < 1000
  | _ => True

instance (p : Application α) (e : Application.Event α) : Decidable (Room p e) := by unfold Room; split <;> infer_instance

def accepted (p : Application α) (e : Application.Event α) : Option (GpsPoint α) :=
  if Room p e then arrival (battery p.native) e else none

/- A run of processRunnable that finds the service tracking. -/
def ticks (p : Application α) : Application.Event α → Option TickEnv
  | .tracker (.dispatch i env) => p.service.bind fun s => if i < s.pending.length ∧ s.isTracking = true then some env else none
  | _ => none

def takes (p : Application α) (e : Application.Event α) : Option (GpsPoint α) := (ticks p e).bind fun _ => (p.native.engine.getLocation 0).1

/- What process_location hands to the queue, whatever becomes of it there. -/
def offered (p : Application α) (e : Application.Event α) : Option Bytes :=
  p.native.session.bind fun s => (takes p e).bind (offer s.pipeline)

def Stops : Application.Event α → Prop
  | .tracker (.intent (some .stop)) => True
  | _ => False

theorem offerAlike {p p' : GpsProcessingPipeline α} (alike : Alike p p') (raw : GpsPoint α) : offer p raw = offer p' raw := by
  obtain ⟨kalman,last,_,initialized⟩ := alike
  simp only [offer,text,filter,elapsed,kalman,last,initialized]

theorem advanceAlike {p p' : GpsProcessingPipeline α} (alike : Alike p p') (impl : Impl) (db : Db) (raw : GpsPoint α) (now : Int) (step : Exec) :
    Alike (processLocation p impl db raw now step).2.1 (advance p' raw) := by
  obtain ⟨kalman,last,processed,initialized⟩ := alike
  cases valid : raw.isValid with
  | false =>
    simp only [processLocation,advance,valid]
    exact ⟨kalman,last,processed,initialized⟩
  | true =>
    simp only [processLocation,advance,valid]
    exact ⟨by simp [filter,elapsed,kalman,last,initialized],rfl,by simp [processed],rfl⟩

/- Events that stop no session: a fix, a battery report or a tick reaches the native library, and nothing else does. -/
theorem nativeStep {p : Application α} {s : Session α} (session : p.native.session = some s) {e : Application.Event α} (goes : ¬Stops e) :
    (∃ fix, e = .tracker (.onLocationReceived fix) ∧ (p.step e).native = JniBridge.step p.native (.onLocationReceived fix)) ∨
    (∃ percent charging, e = .tracker (.onBatteryChanged percent charging) ∧
      (p.step e).native = JniBridge.step p.native (.onBatteryChanged percent charging)) ∨
    (arrival (battery p.native) e = none ∧ report (battery p.native) e = battery p.native ∧ (p.step e).native =
      (ticks p e).elim p.native (fun env => (nativeProcessUpload (nativeProcessLocation p.native env.location).2 env.upload).2)) := by
  cases e with
  | create sqlite3Open prepare =>
    refine .inr (.inr ⟨rfl,rfl,?_⟩)
    cases service : p.service with
    | none =>
      simp only [Application.step,service,ticks,Application.ofTracker,onCreate,nativeInitPipeline,session,Option.elim_none]
      rw [← session]
    | some _ => simp [Application.step,service,ticks]
  | destroy =>
    refine .inr (.inr ⟨rfl,rfl,?_⟩)
    cases service : p.service with
    | none => simp [Application.step,service,ticks]
    | some _ => simp [Application.step,service,ticks,onDestroy]
  | tracker event =>
    cases event with
    | onLocationReceived fix =>
      refine .inl ⟨fix,rfl,?_⟩
      cases service : p.service with
      | none => simp [Application.step,service,Application.outside]
      | some _ => simp [Application.step,service,Application.ofTracker,Tracker.step]
    | onBatteryChanged percent charging =>
      refine .inr (.inl ⟨percent,charging,rfl,?_⟩)
      cases service : p.service with
      | none => simp [Application.step,service,Application.outside]
      | some _ => simp [Application.step,service,Application.ofTracker,Tracker.step]
    | intent action =>
      refine .inr (.inr ⟨rfl,rfl,?_⟩)
      cases service : p.service with
      | none => simp [Application.step,service,ticks,Application.outside]
      | some _ =>
        simp only [Application.step,service,ticks,Application.ofTracker,Tracker.step,Option.elim_none]
        cases action with
        | none => rfl
        | some action =>
          cases action with
          | stop => exact absurd trivial goes
          | _ => rfl
    | dispatch i env =>
      refine .inr (.inr ⟨rfl,rfl,?_⟩)
      cases service : p.service with
      | none => simp [Application.step,service,ticks,Application.outside]
      | some s =>
        simp only [Application.step,service,ticks,Application.ofTracker,Tracker.step,Tracker.dispatch,processRunnable,Option.bind_some]
        by_cases posted : i < s.pending.length
        · cases s.isTracking <;> simp [posted]
        · simp [posted]

/- Both halves of a tick: the front of the engine's queue goes through the pipeline of the session, and the upload leaves it. -/
theorem tickNative {n : Native α} {s : Session α} (session : n.session = some s) (location : EnqueueEnv) (upload : Nat → UploadWorker.PassEnv) :
    let after := (nativeProcessUpload (nativeProcessLocation n location).2 upload).2
    after.engine = (n.engine.getLocation 0).2 ∧ ∃ s', after.session = some s' ∧ ∀ r, Alike s.pipeline r →
      Alike s'.pipeline (run advance r (n.engine.getLocation 0).1.toList) := by
  rcases took : n.engine.getLocation 0 with ⟨_ | raw,engine⟩
  · simp only [nativeProcessLocation,nativeProcessUpload,session,took,Option.toList_none,runNil]
    exact ⟨trivial,_,rfl,fun r alike => alike⟩
  · simp only [nativeProcessLocation,nativeProcessUpload,session,took,Option.toList_some,runCons,runNil]
    exact ⟨trivial,_,rfl,fun r alike => advanceAlike alike s.impl s.db raw location.now location.step⟩

omit [Double α] in
theorem takenFront (n : Native α) : (n.engine.getLocation 0).1.toList ++ (n.engine.getLocation 0).2.locationQueue.items = waiting n := by
  obtain ⟨front,rest⟩ := n.engine.locationQueue.dequeueItems 0
  rw [waiting]
  change (n.engine.locationQueue.dequeue 0).1.toList ++ (n.engine.locationQueue.dequeue 0).2.items = _
  rw [front,rest]
  cases n.engine.locationQueue.items <;> rfl

/- One event: it takes a point from the front or not, a point comes in at the end or not. -/
structure Moves (p : Application α) (e : Application.Event α) (r : GpsProcessingPipeline α) : Prop where
  parts : (takes p e).toList ++ waiting (p.step e).native = waiting p.native ++ (accepted p e).toList
  offered : offered p e = (takes p e).bind (offer r)
  session : ∃ s, (p.step e).native.session = some s ∧ Alike s.pipeline (run advance r (takes p e).toList)
  battery : battery (p.step e).native = report (battery p.native) e

theorem movesStep {p : Application α} {s : Session α} (session : p.native.session = some s) {r : GpsProcessingPipeline α}
    (alike : Alike s.pipeline r) {e : Application.Event α} (goes : ¬Stops e) : Moves p e r := by
  have told : offered p e = (takes p e).bind (offer r) := by
    rw [offered,session]
    exact congrArg (takes p e).bind (funext (offerAlike alike))
  rcases nativeStep session goes with ⟨fix,rfl,after⟩ | ⟨percent,charging,rfl,after⟩ | ⟨nothing,reported,after⟩
  · have queue := (p.native.engine.locationQueue.enqueueItems (received (battery p.native) fix)).2
    refine ⟨?_,told,⟨s,by rw [after]; exact session,alike⟩,by rw [after]; rfl⟩
    rw [after]
    change (p.native.engine.locationQueue.enqueue (received (battery p.native) fix)).2.items = _
    rw [queue,accepted]
    change _ = waiting p.native ++ Option.toList (if (waiting p.native).length < 1000 then some (received (battery p.native) fix) else none)
    rw [← waiting]
    split <;> simp
  · refine ⟨?_,told,⟨s,by rw [after]; exact session,alike⟩,by rw [after]; rfl⟩
    rw [after]
    exact (List.append_nil _).symm
  · have still : accepted p e = none := by simp [accepted,nothing]
    cases ticked : ticks p e with
    | none =>
      have idle : takes p e = none := by simp [takes,ticked]
      rw [ticked,Option.elim_none] at after
      exact ⟨by simp [idle,still,after],told,⟨s,by rw [after]; exact session,by rwa [idle]⟩,by rw [after,reported]⟩
    | some env =>
      have taken : takes p e = (p.native.engine.getLocation 0).1 := by simp [takes,ticked]
      rw [ticked,Option.elim_some] at after
      obtain ⟨engine,s',there,pipeline⟩ := tickNative session env.location env.upload
      refine ⟨?_,told,⟨s',by rw [after]; exact there,by rw [taken]; exact pipeline r alike⟩,?_⟩
      · rw [taken,still,Option.toList_none,List.append_nil,after,waiting,engine]
        exact takenFront p.native
      · rw [after,battery,engine,reported]
        rfl

/- And a run of them: what it takes and what is left waiting is what waited and what came. -/
structure Flows (p : Application α) (events : List (Application.Event α)) (r : GpsProcessingPipeline α) (taken : List (GpsPoint α)) : Prop where
  parts : taken ++ waiting (run Application.step p events).native = waiting p.native ++ (labels Application.step accepted p events).reduceOption
  offered : (labels Application.step offered p events).reduceOption = (labels advance offer r taken).reduceOption
  session : ∃ s, (run Application.step p events).native.session = some s ∧ Alike s.pipeline (run advance r taken)
  arrivals : Allowed Application.step Room p events →
    (labels Application.step accepted p events).reduceOption = arrivals (battery p.native) events

theorem reduceCons {β : Type} (o : Option β) (os : List (Option β)) : (o::os).reduceOption = o.toList ++ os.reduceOption := by
  cases o <;> simp

theorem flowsRun {p : Application α} {s : Session α} (session : p.native.session = some s) {r : GpsProcessingPipeline α}
    (alike : Alike s.pipeline r) {events : List (Application.Event α)} (lasts : ∀ e ∈ events, ¬Stops e) :
    Flows p events r (labels Application.step takes p events).reduceOption := by
  induction events generalizing p s r with
  | nil => exact ⟨(List.append_nil _).symm,rfl,⟨s,session,alike⟩,fun _ => rfl⟩
  | cons e events ih =>
    obtain ⟨goes,rest⟩ := List.forall_mem_cons.mp lasts
    obtain ⟨parts,offered,⟨s',there,alike'⟩,reported⟩ := movesStep session alike goes
    have flows := ih there alike' rest
    refine ⟨?_,?_,?_,?_⟩
    · simp only [labels,reduceCons,runCons,List.append_assoc]
      rw [flows.parts,← List.append_assoc,parts,List.append_assoc]
    · simp only [labels,reduceCons,labelsAppend,List.reduceOption_append]
      rw [flows.offered,offered]
      cases takes p e <;> simp [labels,reduceCons]
    · simp only [labels,reduceCons,runAppend,runCons]
      exact flows.session
    · intro allowed
      obtain ⟨room,later⟩ := allowedCons.mp allowed
      have one : accepted p e = arrival (battery p.native) e := if_pos room
      rw [arrivals]
      simp only [labels,reduceCons]
      rw [flows.arrivals later,one,reported]
      rfl

/- From the creation of a session to its end, through whatever instances of the service, the payloads are those of a new pipeline that
is given the accepted fixes one after the other, and as many of them as there were ticks to take one; the engine has the rest. While its
queue has room, the accepted fixes are all that were received. -/
theorem payloadsFollowArrivals (p : Application α) (alone : p.service = none) (closed : p.native.session = none) (sqlite3Open : Bool)
    (prepare : Statement → Bool) (during : List (Application.Event α)) (lasts : ∀ e ∈ during, ¬Stops e) :
    let q := p.step (.create sqlite3Open prepare)
    let came := waiting p.native ++ (labels Application.step accepted q during).reduceOption
    let k := (labels Application.step takes q during).reduceOption.length
    (labels Application.step offered q during).reduceOption = texts (came.take k) ∧
    waiting (run Application.step q during).native = came.drop k ∧
    (∃ s, (run Application.step q during).native.session = some s ∧ Alike s.pipeline (run advance .default (came.take k))) ∧
    (Allowed Application.step Room q during → came = waiting p.native ++ arrivals (battery p.native) during) := by
  intro q came k
  have created : q = ⟨some .new,{p.native with session := some (openSession sqlite3Open prepare)}⟩ := by
    simp [q,Application.step,alone,Application.ofTracker,onCreate,nativeInitPipeline,closed]
  have session : q.native.session = some (openSession sqlite3Open prepare) := by rw [created]
  have same : waiting q.native = waiting p.native ∧ battery q.native = battery p.native := by rw [created]; exact ⟨rfl,rfl⟩
  obtain ⟨parts,offered,piped,arrived⟩ := flowsRun session (r := .default) ⟨rfl,rfl,rfl,rfl⟩ lasts
  have whole : (labels Application.step takes q during).reduceOption ++ waiting (run Application.step q during).native = came := by
    rw [parts,same.1]
  have front : came.take k = (labels Application.step takes q during).reduceOption := by
    rw [← whole]
    exact List.take_left
  have back : came.drop k = waiting (run Application.step q during).native := by
    rw [← whole]
    exact List.drop_left
  refine ⟨?_,back.symm,?_,?_⟩
  · rw [front]
    exact offered
  · rw [front]
    exact piped
  · intro room
    simp only [came]
    rw [arrived room,same.2]

/- A database that does not open, one tick for two fixes. -/
theorem payloadsFollowArrivalsUnopened :
    let fix : Fix ℚ := ⟨1,2,5,100,1,1000⟩
    let during : List (Application.Event ℚ) := [.tracker (.intent (some .start)),.tracker (.onBatteryChanged 80 true),
      .tracker (.onLocationReceived fix),.tracker (.onLocationReceived {fix with latitude := 3}),
      .tracker (.dispatch 0 ⟨⟨7,.runs⟩,fun _ => ⟨⟨7,.runs,0,.runs⟩,7,.runs,⟨7,.runs,.runs⟩⟩⟩)]
    let q := Application.launched.step (.create false (fun _ => false))
    (labels Application.step offered q during).reduceOption = texts ((arrivals (0,false) during).take 1) := by
  intro fix during q
  have lasts : ∀ e ∈ during, ¬Stops e := by simp [during,Stops]
  have room : Allowed Application.step Room q during := by decide +kernel
  obtain ⟨payloads,_,_,all⟩ := payloadsFollowArrivals (.launched : Application ℚ) rfl rfl false (fun _ => false) during lasts
  have count : (labels Application.step takes q during).reduceOption.length = 1 := by decide +kernel
  rw [all room,count] at payloads
  exact payloads

end UmapTracker.PayloadOrder
