import UmapTracker.Config
import UmapTracker.Machine
import UmapTracker.Text

/-! utils/config.cpp. The configuration as environment variables override it, outside Android,
where long has 64 bits. -/
namespace UmapTracker.ConfigLoading
open Config Text

-- isspace of the C locale
def isspace (b : UInt8) : Bool := b == 32 || (decide (9 ≤ b) && decide (b ≤ 13))

def LONG_MAX : Int := 9223372036854775807
def LONG_MIN : Int := -9223372036854775808

/- What strtol leaves behind: its value, the text end_ptr points at, and whether errno is ERANGE. -/
structure Converted where
  value : Int
  rest : Bytes
  outOfRange : Bool
  deriving DecidableEq, Repr

def sign : Bytes → Bool × Bytes
  | 45::text => (true,text)
  | 43::text => (false,text)
  | text => (false,text)

-- base 10; without a digit end_ptr is the start of the string
def strtol (s : Bytes) : Converted :=
  let (negative,text) := sign (s.dropWhile isspace)
  let digits := text.takeWhile digit
  let rest := text.dropWhile digit
  let n : Int := if negative then -(value digits) else value digits
  if digits = [] then ⟨0,s,false⟩
  else if LONG_MAX < n then ⟨LONG_MAX,rest,true⟩
  else if n < LONG_MIN then ⟨LONG_MIN,rest,true⟩
  else ⟨n,rest,false⟩

def parseEnvLong (envVal : Option Bytes) (defaultVal : Int) : Int :=
  match envVal with
  | none => defaultVal
  | some s =>
    let c := strtol s
    if c.outOfRange || c.rest == s || c.rest != [] then defaultVal else c.value

abbrev Environment := String → Option Bytes

/- The argument of the setter, when the variable holds a number that is accepted. -/
def requested (getenv : Environment) (name : String) (accepted : Int → Bool) : Option UInt32 :=
  let val := parseEnvLong (getenv name) (-1)
  if accepted val then some (UInt32.ofInt val) else none

def override (getenv : Environment) (name : String) (accepted : Int → Bool)
    (set : RuntimeConfig → UInt32 → RuntimeConfig) (config : RuntimeConfig) : RuntimeConfig :=
  match requested getenv name accepted with
  | some val => set config val
  | none => config

def positive (val : Int) : Bool := decide (0 < val)

def atLeastSecond (val : Int) : Bool := decide (1000 ≤ val)

def loadConfigFromEnvironment (getenv : Environment) (config : RuntimeConfig) : RuntimeConfig :=
  let config := override getenv "UMAP_MAX_QUEUE_SIZE" positive setMaxQueueSize config
  let config := override getenv "UMAP_MESSAGE_TTL_HOURS" positive setMessageTtlHours config
  let config := override getenv "UMAP_TRACK_RETENTION_DAYS" positive setTrackRetentionDays config
  let config := override getenv "UMAP_MAX_TRACK_POINTS" positive setMaxTrackPoints config
  let config := override getenv "UMAP_GPS_INTERVAL_MS" atLeastSecond setGpsIntervalMs config
  let config := override getenv "UMAP_MIN_GPS_ACCURACY_M" positive setMinGpsAccuracyM config
  let config := override getenv "UMAP_GPS_TIMEOUT_MS" positive setGpsTimeoutMs config
  let config := override getenv "UMAP_UPLOAD_TIMEOUT_MS" positive setUploadTimeoutMs config
  override getenv "UMAP_COLD_START_MAX_MS" positive setColdStartMaxMs config

/- Everything that writes the configuration. -/
inductive Call where
  | setMaxQueueSize (value : UInt32)
  | setMessageTtlHours (value : UInt32)
  | setTrackRetentionDays (value : UInt32)
  | setMaxTrackPoints (value : UInt32)
  | setGpsIntervalMs (value : UInt32)
  | setMinGpsAccuracyM (value : UInt32)
  | setGpsTimeoutMs (value : UInt32)
  | setGpsUiLatencyMaxMs (value : UInt32)
  | setUploadTimeoutMs (value : UInt32)
  | setColdStartMaxMs (value : UInt32)
  | setBatteryDrainMaxPercentPerHour (value : ℚ)
  | resetToDefaults
  | loadConfigFromEnvironment (getenv : Environment)

def apply (config : RuntimeConfig) : Call → RuntimeConfig
  | .setMaxQueueSize value => setMaxQueueSize config value
  | .setMessageTtlHours value => setMessageTtlHours config value
  | .setTrackRetentionDays value => setTrackRetentionDays config value
  | .setMaxTrackPoints value => setMaxTrackPoints config value
  | .setGpsIntervalMs value => setGpsIntervalMs config value
  | .setMinGpsAccuracyM value => setMinGpsAccuracyM config value
  | .setGpsTimeoutMs value => setGpsTimeoutMs config value
  | .setGpsUiLatencyMaxMs value => setGpsUiLatencyMaxMs config value
  | .setUploadTimeoutMs value => setUploadTimeoutMs config value
  | .setColdStartMaxMs value => setColdStartMaxMs config value
  | .setBatteryDrainMaxPercentPerHour value => setBatteryDrainMaxPercentPerHour config value
  | .resetToDefaults => resetToDefaults
  | .loadConfigFromEnvironment getenv => loadConfigFromEnvironment getenv config

example : parseEnvLong (some (ascii " +250")) (-1) = 250 ∧ parseEnvLong (some (ascii "250 ")) (-1) = -1 ∧
    parseEnvLong (some (ascii "9223372036854775808")) (-1) = -1 := by decide

end UmapTracker.ConfigLoading
