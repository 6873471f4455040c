import Mathlib.Algebra.Order.Ring.Rat
import Mathlib.Tactic.NormNum

/-! utils/config.h. The runtime configuration as its setters leave it: every value that a
setter would replace by the default is excluded from the type. -/
namespace UmapTracker.Config

def MAX_QUEUE_SIZE : UInt32 := 50000
def MESSAGE_TTL_HOURS : UInt32 := 168
def TRACK_RETENTION_DAYS : UInt32 := 90
def MAX_TRACK_POINTS : UInt32 := 1000000
def DEFAULT_GPS_INTERVAL_MS : UInt32 := 5000
def MIN_GPS_ACCURACY_M : UInt32 := 10
def GPS_TIMEOUT_MS : UInt32 := 60000
def GPS_UI_LATENCY_MAX_MS : UInt32 := 200
def UPLOAD_TIMEOUT_MS : UInt32 := 500
def COLD_START_MAX_MS : UInt32 := 3000
def BATTERY_DRAIN_MAX_PERCENT_PER_HOUR : ℚ := 5

structure RuntimeConfig where
  maxQueueSize : UInt32
  messageTtlHours : UInt32
  trackRetentionDays : UInt32
  maxTrackPoints : UInt32
  gpsIntervalMs : UInt32
  minGpsAccuracyM : UInt32
  gpsTimeoutMs : UInt32
  gpsUiLatencyMaxMs : UInt32
  uploadTimeoutMs : UInt32
  coldStartMaxMs : UInt32
  batteryDrainMaxPercentPerHour : ℚ
  maxQueueSizeSet : 0 < maxQueueSize
  messageTtlHoursSet : 0 < messageTtlHours
  trackRetentionDaysSet : 0 < trackRetentionDays
  maxTrackPointsSet : 0 < maxTrackPoints
  gpsIntervalMsSet : 1000 ≤ gpsIntervalMs
  minGpsAccuracyMSet : 0 < minGpsAccuracyM
  gpsTimeoutMsSet : DEFAULT_GPS_INTERVAL_MS < gpsTimeoutMs
  gpsUiLatencyMaxMsSet : 0 < gpsUiLatencyMaxMs
  uploadTimeoutMsSet : 0 < uploadTimeoutMs
  coldStartMaxMsSet : 0 < coldStartMaxMs
  batteryDrainSet : 0 < batteryDrainMaxPercentPerHour

def resetToDefaults : RuntimeConfig where
  maxQueueSize := MAX_QUEUE_SIZE
  messageTtlHours := MESSAGE_TTL_HOURS
  trackRetentionDays := TRACK_RETENTION_DAYS
  maxTrackPoints := MAX_TRACK_POINTS
  gpsIntervalMs := DEFAULT_GPS_INTERVAL_MS
  minGpsAccuracyM := MIN_GPS_ACCURACY_M
  gpsTimeoutMs := GPS_TIMEOUT_MS
  gpsUiLatencyMaxMs := GPS_UI_LATENCY_MAX_MS
  uploadTimeoutMs := UPLOAD_TIMEOUT_MS
  coldStartMaxMs := COLD_START_MAX_MS
  batteryDrainMaxPercentPerHour := BATTERY_DRAIN_MAX_PERCENT_PER_HOUR
  maxQueueSizeSet := by decide
  messageTtlHoursSet := by decide
  trackRetentionDaysSet := by decide
  maxTrackPointsSet := by decide
  gpsIntervalMsSet := by decide
  minGpsAccuracyMSet := by decide
  gpsTimeoutMsSet := by decide
  gpsUiLatencyMaxMsSet := by decide
  uploadTimeoutMsSet := by decide
  coldStartMaxMsSet := by decide
  batteryDrainSet := by norm_num [BATTERY_DRAIN_MAX_PERCENT_PER_HOUR]

-- (value is accepted) ? value : fallback
def orDefault {α : Type} (accepted : α → Prop) [DecidablePred accepted] (value fallback : α) : α :=
  if accepted value then value else fallback

theorem orDefaultAccepted {α : Type} {accepted : α → Prop} [DecidablePred accepted] {value fallback : α}
    (h : accepted fallback) : accepted (orDefault accepted value fallback) := by
  unfold orDefault
  split <;> assumption

def setMaxQueueSize (c : RuntimeConfig) (value : UInt32) : RuntimeConfig :=
  {c with maxQueueSize := orDefault (0 < ·) value MAX_QUEUE_SIZE
          maxQueueSizeSet := orDefaultAccepted (by decide)}

def setMessageTtlHours (c : RuntimeConfig) (value : UInt32) : RuntimeConfig :=
  {c with messageTtlHours := orDefault (0 < ·) value MESSAGE_TTL_HOURS
          messageTtlHoursSet := orDefaultAccepted (by decide)}

def setTrackRetentionDays (c : RuntimeConfig) (value : UInt32) : RuntimeConfig :=
  {c with trackRetentionDays := orDefault (0 < ·) value TRACK_RETENTION_DAYS
          trackRetentionDaysSet := orDefaultAccepted (by decide)}

def setMaxTrackPoints (c : RuntimeConfig) (value : UInt32) : RuntimeConfig :=
  {c with maxTrackPoints := orDefault (0 < ·) value MAX_TRACK_POINTS
          maxTrackPointsSet := orDefaultAccepted (by decide)}

def setGpsIntervalMs (c : RuntimeConfig) (value : UInt32) : RuntimeConfig :=
  {c with gpsIntervalMs := orDefault (1000 ≤ ·) value DEFAULT_GPS_INTERVAL_MS
          gpsIntervalMsSet := orDefaultAccepted (by decide)}

def setMinGpsAccuracyM (c : RuntimeConfig) (value : UInt32) : RuntimeConfig :=
  {c with minGpsAccuracyM := orDefault (0 < ·) value MIN_GPS_ACCURACY_M
          minGpsAccuracyMSet := orDefaultAccepted (by decide)}

def setGpsTimeoutMs (c : RuntimeConfig) (value : UInt32) : RuntimeConfig :=
  {c with gpsTimeoutMs := orDefault (DEFAULT_GPS_INTERVAL_MS < ·) value GPS_TIMEOUT_MS
          gpsTimeoutMsSet := orDefaultAccepted (by decide)}

def setGpsUiLatencyMaxMs (c : RuntimeConfig) (value : UInt32) : RuntimeConfig :=
  {c with gpsUiLatencyMaxMs := orDefault (0 < ·) value GPS_UI_LATENCY_MAX_MS
          gpsUiLatencyMaxMsSet := orDefaultAccepted (by decide)}

def setUploadTimeoutMs (c : RuntimeConfig) (value : UInt32) : RuntimeConfig :=
  {c with uploadTimeoutMs := orDefault (0 < ·) value UPLOAD_TIMEOUT_MS
          uploadTimeoutMsSet := orDefaultAccepted (by decide)}

def setColdStartMaxMs (c : RuntimeConfig) (value : UInt32) : RuntimeConfig :=
  {c with coldStartMaxMs := orDefault (0 < ·) value COLD_START_MAX_MS
          coldStartMaxMsSet := orDefaultAccepted (by decide)}

def setBatteryDrainMaxPercentPerHour (c : RuntimeConfig) (value : ℚ) : RuntimeConfig :=
  {c with batteryDrainMaxPercentPerHour := orDefault (0 < ·) value BATTERY_DRAIN_MAX_PERCENT_PER_HOUR
          batteryDrainSet := orDefaultAccepted (by norm_num [BATTERY_DRAIN_MAX_PERCENT_PER_HOUR])}

end UmapTracker.Config
