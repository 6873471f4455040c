import UmapTracker.Fields
import UmapTracker.KalmanFilter
import UmapTracker.MessageQueue

/-! core/gps_pipeline.cpp. A raw point goes through the filter, and the filtered point into the
message queue as a JSON text. -/
namespace UmapTracker.GpsPipeline
open Text Fields Double GeoTypes KalmanFilter MessageQueue
variable {α : Type} [Double α]

structure GpsProcessingPipeline (α : Type) where
  kalman : KalmanFilterND α
  lastTimestampMs : UInt32
  processedCount : UInt32
  queuedCount : UInt32
  initialized : Bool
  deriving DecidableEq, Repr

namespace GpsProcessingPipeline

def new (positionProcessNoise positionMeasurementNoise altitudeMeasurementNoise : α) : GpsProcessingPipeline α :=
  ⟨.new positionProcessNoise positionMeasurementNoise (lit (1/100)) altitudeMeasurementNoise,0,0,0,false⟩

-- the default arguments of the constructor
def default : GpsProcessingPipeline α := new (lit (1/1000)) (lit 4) (lit 10)

def reset (p : GpsProcessingPipeline α) : GpsProcessingPipeline α :=
  ⟨p.kalman.reset,0,0,0,false⟩

end GpsProcessingPipeline

def members (point : GpsPoint α) : List (Bytes × Bytes) :=
  [(quoted (ascii "lat"),print 6 point.location.latitude),
   (quoted (ascii "lon"),print 6 point.location.longitude),
   (quoted (ascii "speed"),print 1 point.speedKmh),
   (quoted (ascii "bearing"),print 1 point.bearingDeg),
   (quoted (ascii "altitude"),print 1 point.altitudeM),
   (quoted (ascii "accuracy"),print 1 point.accuracyM),
   (quoted (ascii "timestamp"),decimal point.timestampMs.toNat),
   (quoted (ascii "batt"),decimal point.batteryPercent.toNat),
   (quoted (ascii "hdop"),print 1 point.hdop)]

def bufferSize : Nat := 512

-- the length snprintf returns is not looked at
def payload (point : GpsPoint α) : Bytes := (snprintf bufferSize (object (members point))).1

def elapsed (p : GpsProcessingPipeline α) (raw : GpsPoint α) : α :=
  if p.initialized && decide (p.lastTimestampMs < raw.timestampMs) then
    lit (raw.timestampMs - p.lastTimestampMs).toNat / lit 1000
  else lit 0

def filter (p : GpsProcessingPipeline α) (raw : GpsPoint α) : KalmanFilterND α :=
  (p.kalman.predict (elapsed p raw)).update raw.location.latitude raw.location.longitude raw.altitudeM raw.accuracyM

/- The outcome of the enqueue only counts; the point is reported as processed either way. -/
def processLocation (p : GpsProcessingPipeline α) (impl : Impl) (db : Db) (raw : GpsPoint α) (now : Int) (step : Exec) :
    Result Unit × GpsProcessingPipeline α × Db :=
  if !raw.isValid then (.error .outOfRange,p,db)
  else
    let kalman := filter p raw
    let filtered := kalman.populatePoint raw
    let (result,after) := enqueue impl db (some (payload filtered)) now step
    (.ok (),⟨kalman,raw.timestampMs,p.processedCount+1,
      if Result.hasValue result then p.queuedCount+1 else p.queuedCount,true⟩,after)

def text (p : GpsProcessingPipeline α) (raw : GpsPoint α) : Bytes := payload ((filter p raw).populatePoint raw)

/- A point that is not valid changes nothing; a valid one is always reported as processed, and its
text goes to the queue. -/
theorem processLocationSpec (p : GpsProcessingPipeline α) (impl : Impl) (db : Db) (raw : GpsPoint α) (now : Int)
    (step : Exec) :
    (raw.isValid = false ∧ processLocation p impl db raw now step = (.error .outOfRange,p,db)) ∨
    (raw.isValid = true ∧ (processLocation p impl db raw now step).1 = .ok () ∧
      (processLocation p impl db raw now step).2.2 = (enqueue impl db (some (text p raw)) now step).2) := by
  cases valid : raw.isValid with
  | false => exact .inl ⟨rfl,by simp [processLocation,valid]⟩
  | true => exact .inr ⟨rfl,by simp [processLocation,valid],by simp [processLocation,valid,text]⟩

/- A valid point goes through the filter whatever becomes of its message. -/
theorem processValid (p : GpsProcessingPipeline α) (impl : Impl) (db : Db) {raw : GpsPoint α} (now : Int) (step : Exec)
    (valid : raw.isValid = true) :
    (processLocation p impl db raw now step).2.1.kalman = filter p raw ∧
    (processLocation p impl db raw now step).2.2 = (enqueue impl db (some (text p raw)) now step).2 := by
  refine ⟨by simp [processLocation,valid],?_⟩
  rcases processLocationSpec p impl db raw now step with ⟨refused,_⟩ | ⟨_,_,queued⟩
  · simp [valid] at refused
  · exact queued

/- What a reset leaves, the noise parameters, no point has touched. -/
theorem processReset (p : GpsProcessingPipeline α) (impl : Impl) (db : Db) (raw : GpsPoint α) (now : Int) (step : Exec) :
    (processLocation p impl db raw now step).2.1.reset = p.reset := by
  unfold processLocation
  split
  · rfl
  · simp [GpsProcessingPipeline.reset,filter]

end UmapTracker.GpsPipeline
