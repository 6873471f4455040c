import UmapTracker.AndroidBridge
import UmapTracker.GpsPipeline
import UmapTracker.UploadWorker

/-! jni/jni_bridge.cpp. The native entry points of the application, over the location engine and
the objects that nativeInitPipeline allocates together. `log` records the requests of the
upload worker over all sessions: the source keeps no such list. -/
namespace UmapTracker
open AutoTable MessageQueue HttpClient Text Double

/- One call of nativeOnLocationReceived. -/
structure Fix (α : Type) where
  latitude : α
  longitude : α
  accuracy : α
  altitude : α
  hdop : α
  timestampMs : Int64
  deriving DecidableEq, Repr

-- g_message_queue, g_pipeline, g_mock_http, g_traccar_client and g_upload_worker
structure Session (α : Type) where
  impl : Impl
  db : Db
  pipeline : GpsPipeline.GpsProcessingPipeline α
  mockHttp : MockHttpClient
  client : TraccarClient
  worker : UploadWorker

structure Native (α : Type) where
  engine : LocationEngine α
  session : Option (Session α)
  log : List UploadWorker.Attempt

namespace JniBridge
variable {α : Type} [Double α]

def nativeOnLocationReceived (engine : LocationEngine α) (fix : Fix α) : LocationEngine α :=
  (engine.onLocationReceived fix.latitude fix.longitude fix.accuracy fix.altitude fix.hdop
    (UInt32.ofInt fix.timestampMs.toInt)).1

def nativeOnBatteryChanged (engine : LocationEngine α) (batteryPercent : Int32) (isCharging : Bool) : LocationEngine α :=
  (engine.onBatteryChanged (UInt32.ofInt batteryPercent.toInt) isCharging).1

def client : TraccarClient := ⟨ascii "http://map.bd62.ru:5055",ascii "umap-tracker-001"⟩

def openSession (sqlite3Open : Bool) (prepare : Statement → Bool) : Session α where
  impl := construct (some (ascii ":memory:")) sqlite3Open prepare
  db := AutoTable.empty
  pipeline := .default
  mockHttp := MockHttpClient.new.setResponse 200 (ascii "\x7b\x7d")
  client := client
  worker := .new

def nativeInitPipeline (session : Option (Session α)) (sqlite3Open : Bool) (prepare : Statement → Bool) :
    Option (Session α) :=
  match session with
  | some s => some s
  | none => some (openSession sqlite3Open prepare)

structure EnqueueEnv where
  now : Int
  step : Exec

def nativeProcessLocation (n : Native α) (env : EnqueueEnv) : Int × Native α :=
  match n.session with
  | none => (0,n)
  | some s =>
    match n.engine.getLocation 0 with
    | (none,engine) => (0,{n with engine})
    | (some raw,engine) =>
      let (result,pipeline,db) := GpsPipeline.processLocation s.pipeline s.impl s.db raw env.now env.step
      (if Result.hasValue result then 1 else 0,{n with engine, session := some {s with pipeline, db}})

def uploadBatch : UInt32 := 5

def nativeProcessUpload (n : Native α) (env : Nat → UploadWorker.PassEnv) : Int × Native α :=
  match n.session with
  | none => (0,n)
  | some s =>
    let u := s.worker.processPending α s.impl s.client s.db s.mockHttp uploadBatch env
    (u.sent.toNat,{n with
      session := some {s with db := u.db, mockHttp := u.http, worker := u.worker}
      log := n.log ++ u.attempts})

def nativeGetQueueSize (n : Native α) (now : Int) (step : Exec) : Int :=
  match n.session with
  | none => 0
  | some s => (pendingCount s.impl s.db now step).toInt32.toInt

-- a ':memory:' database goes with its connection
def nativeShutdownPipeline (_session : Option (Session α)) : Option (Session α) := none

/- The entry points with what they meet; nativeGetQueueSize and nativeOnError change nothing. -/
inductive Call (α : Type) where
  | onLocationReceived (fix : Fix α)
  | onBatteryChanged (batteryPercent : Int32) (isCharging : Bool)
  | initPipeline (sqlite3Open : Bool) (prepare : Statement → Bool)
  | processLocation (env : EnqueueEnv)
  | processUpload (env : Nat → UploadWorker.PassEnv)
  | shutdownPipeline

def step (n : Native α) : Call α → Native α
  | .onLocationReceived fix => {n with engine := nativeOnLocationReceived n.engine fix}
  | .onBatteryChanged percent charging => {n with engine := nativeOnBatteryChanged n.engine percent charging}
  | .initPipeline sqlite3Open prepare => {n with session := nativeInitPipeline n.session sqlite3Open prepare}
  | .processLocation env => (nativeProcessLocation n env).2
  | .processUpload env => (nativeProcessUpload n env).2
  | .shutdownPipeline => {n with session := nativeShutdownPipeline n.session}

def loaded : Native α := ⟨.new,none,[]⟩

theorem processLog (n : Native α) (env : EnqueueEnv) : (nativeProcessLocation n env).2.log = n.log := by
  unfold nativeProcessLocation
  split
  · rfl
  · split <;> rfl

/- Neither half of a tick allocates or frees the objects of the session. -/
theorem processSession (n : Native α) (env : EnqueueEnv) :
    (nativeProcessLocation n env).2.session.isSome = n.session.isSome := by
  unfold nativeProcessLocation
  cases session : n.session with
  | none => simp [session]
  | some s =>
    dsimp only
    split <;> rfl

theorem uploadSession (n : Native α) (env : Nat → UploadWorker.PassEnv) :
    (nativeProcessUpload n env).2.session.isSome = n.session.isSome := by
  unfold nativeProcessUpload
  cases session : n.session with
  | none => simp [session]
  | some s => rfl

end JniBridge
end UmapTracker
