import UmapTracker.JniBridge

/-! android/service/TrackerForegroundService.kt. The service that creates and shuts down the native
pipeline, the intents it takes, and the runnable its handler dispatches while it tracks. -/
namespace UmapTracker
open JniBridge

-- ACTION_START, ACTION_PAUSE, ACTION_RESUME and ACTION_STOP
inductive Action where
  | start | pause | resume | stop
  deriving DecidableEq, Repr

/- `pending` has the delays, in milliseconds, of the posts of processRunnable that the handler has
not dispatched yet. -/
structure TrackerForegroundService where
  isTracking : Bool
  pending : List Nat
  deriving DecidableEq, Repr

namespace TrackerForegroundService

def new : TrackerForegroundService := ⟨false,[]⟩

def postDelayed (s : TrackerForegroundService) (delay : Nat) : TrackerForegroundService :=
  {s with pending := s.pending ++ [delay]}

def post (s : TrackerForegroundService) : TrackerForegroundService := s.postDelayed 0

def removeCallbacks (s : TrackerForegroundService) : TrackerForegroundService := {s with pending := []}

def start (s : TrackerForegroundService) : TrackerForegroundService := {s with isTracking := true}.post

def pause (s : TrackerForegroundService) : TrackerForegroundService := {s with isTracking := false}

def resume (s : TrackerForegroundService) : TrackerForegroundService := {s with isTracking := true}.post

end TrackerForegroundService

/- The service and the native library of its process. -/
structure Tracker (α : Type) where
  service : TrackerForegroundService
  native : Native α

namespace Tracker
variable {α : Type} [Double α]

def onCreate (native : Native α) (sqlite3Open : Bool) (prepare : MessageQueue.Statement → Bool) : Tracker α :=
  ⟨.new,{native with session := nativeInitPipeline native.session sqlite3Open prepare}⟩

def stop (t : Tracker α) : Tracker α where
  service := {t.service with isTracking := false}.removeCallbacks
  native := {t.native with session := nativeShutdownPipeline t.native.session}

-- an intent without one of the four actions is ignored
def onStartCommand (t : Tracker α) : Option Action → Tracker α
  | some .start => {t with service := t.service.start}
  | some .pause => {t with service := t.service.pause}
  | some .resume => {t with service := t.service.resume}
  | some .stop => t.stop
  | none => t

/- What one run of processRunnable meets. -/
structure TickEnv where
  location : EnqueueEnv
  upload : Nat → UploadWorker.PassEnv

def processRunnable (t : Tracker α) (env : TickEnv) : Tracker α :=
  if t.service.isTracking then
    let native := (nativeProcessLocation t.native env.location).2
    {service := t.service.postDelayed 1000, native := (nativeProcessUpload native env.upload).2}
  else t

-- the handler takes the i-th of the posted runnables, in whatever order they fall due
def dispatch (t : Tracker α) (i : Nat) (env : TickEnv) : Tracker α :=
  if i < t.service.pending.length then
    {t with service := {t.service with pending := t.service.pending.eraseIdx i}}.processRunnable env
  else t

inductive Event (α : Type) where
  | intent (action : Option Action)
  | dispatch (i : Nat) (env : TickEnv)
  | onLocationReceived (fix : Fix α)
  | onBatteryChanged (batteryPercent : Int32) (isCharging : Bool)

def onDestroy (t : Tracker α) : Tracker α := {t with service := t.service.removeCallbacks}

def step (t : Tracker α) : Event α → Tracker α
  | .intent action => t.onStartCommand action
  | .dispatch i env => t.dispatch i env
  | .onLocationReceived fix => {t with native := JniBridge.step t.native (.onLocationReceived fix)}
  | .onBatteryChanged percent charging => {t with native := JniBridge.step t.native (.onBatteryChanged percent charging)}

/- A run of the runnable posts itself exactly while the service tracks, and keeps the native objects. -/
theorem processRunnableSpec (t : Tracker α) (env : TickEnv) :
    (t.processRunnable env).service.isTracking = t.service.isTracking ∧
    (t.processRunnable env).service.pending = t.service.pending ++ (if t.service.isTracking then [1000] else []) ∧
    (t.processRunnable env).native.session.isSome = t.native.session.isSome := by
  unfold processRunnable
  split
  · rename_i tracking
    refine ⟨rfl,by simp [TrackerForegroundService.postDelayed,tracking],?_⟩
    dsimp only
    rw [uploadSession,processSession]
  · rename_i paused
    simp [paused]

/- The handler keeps as many posts as it had, or drops the one it took. -/
theorem dispatchSpec (t : Tracker α) (i : Nat) (env : TickEnv) :
    (t.dispatch i env).service.isTracking = t.service.isTracking ∧
    (t.dispatch i env).service.pending.length ≤ t.service.pending.length ∧
    (t.dispatch i env).native.session.isSome = t.native.session.isSome := by
  unfold dispatch
  split
  · rename_i posted
    obtain ⟨tracking,pending,session⟩ :=
      processRunnableSpec {t with service := {t.service with pending := t.service.pending.eraseIdx i}} env
    refine ⟨tracking,?_,session⟩
    have taken : (t.service.pending.eraseIdx i).length + 1 = t.service.pending.length := by
      rw [List.length_eraseIdx_of_lt posted]
      omega
    have added : (if t.service.isTracking then [1000] else []).length ≤ 1 := by split <;> simp
    rw [pending,List.length_append]
    dsimp only
    omega
  · exact ⟨rfl,le_refl _,rfl⟩

end Tracker

/- The process of the application: its native library outlives the instances of the service, of which there is one at a time. -/
structure Application (α : Type) where
  service : Option TrackerForegroundService
  native : Native α

namespace Application
variable {α : Type} [Double α]

def launched : Application α := ⟨none,loaded⟩

inductive Event (α : Type) where
  | create (sqlite3Open : Bool) (prepare : MessageQueue.Statement → Bool)
  | destroy
  | tracker (event : Tracker.Event α)

/- What reaches the native library without the service. -/
def outside (n : Native α) : Tracker.Event α → Native α
  | .onLocationReceived fix => JniBridge.step n (.onLocationReceived fix)
  | .onBatteryChanged percent charging => JniBridge.step n (.onBatteryChanged percent charging)
  | _ => n

def ofTracker (t : Tracker α) : Application α := ⟨some t.service,t.native⟩

def step (p : Application α) (e : Event α) : Application α :=
  match e,p.service with
  | .create sqlite3Open prepare,none => ofTracker (Tracker.onCreate p.native sqlite3Open prepare)
  | .create _ _,some _ => p
  | .destroy,some s => ⟨none,(Tracker.onDestroy ⟨s,p.native⟩).native⟩
  | .destroy,none => p
  | .tracker event,some s => ofTracker (Tracker.step ⟨s,p.native⟩ event)
  | .tracker event,none => {p with native := outside p.native event}

end Application
end UmapTracker
