import UmapTracker.ConfigLoading

/-! The GPS timeout against the GPS interval. Each setter checks its own argument, the timeout
against the default interval; neither looks at the value the other one has left. -/
namespace UmapTracker.GpsTimeout
open Config ConfigLoading Machine

def Ordered (config : RuntimeConfig) : Prop := config.gpsIntervalMs < config.gpsTimeoutMs
instance (config : RuntimeConfig) : Decidable (Ordered config) := by unfold Ordered; infer_instance

/- A value below 1000 is replaced by DEFAULT_GPS_INTERVAL_MS, which every stored timeout exceeds. -/
def IntervalFits (value timeoutMs : UInt32) : Prop := value < 1000 ∨ value < timeoutMs

/- A value up to DEFAULT_GPS_INTERVAL_MS is replaced by GPS_TIMEOUT_MS. -/
def TimeoutFits (value intervalMs : UInt32) : Prop :=
  DEFAULT_GPS_INTERVAL_MS < value ∧ intervalMs < value ∨
  value ≤ DEFAULT_GPS_INTERVAL_MS ∧ intervalMs < GPS_TIMEOUT_MS

/- The call leaves the timeout above the interval: its argument is compared with the value the other
setter has stored. A load sets the interval, if at all, before the timeout. -/
def Fits (config : RuntimeConfig) : Call → Prop
  | .setGpsIntervalMs value => IntervalFits value config.gpsTimeoutMs
  | .setGpsTimeoutMs value => TimeoutFits value config.gpsIntervalMs
  | .loadConfigFromEnvironment getenv =>
    match requested getenv "UMAP_GPS_INTERVAL_MS" atLeastSecond,requested getenv "UMAP_GPS_TIMEOUT_MS" positive with
    | none,none => True
    | some interval,none => IntervalFits interval config.gpsTimeoutMs
    | none,some timeout => TimeoutFits timeout config.gpsIntervalMs
    | some interval,some timeout =>
        TimeoutFits timeout (if interval < 1000 then DEFAULT_GPS_INTERVAL_MS else interval)
  | _ => True

theorem orderedInterval (config : RuntimeConfig) (value : UInt32) :
    Ordered (setGpsIntervalMs config value) ↔ IntervalFits value config.gpsTimeoutMs := by
  have above := config.gpsTimeoutMsSet
  change orDefault (1000 ≤ ·) value DEFAULT_GPS_INTERVAL_MS < config.gpsTimeoutMs ↔ _
  unfold orDefault IntervalFits
  split
  · rename_i accepted
    exact ⟨.inr,fun fits => fits.resolve_left (UInt32.not_lt.mpr accepted)⟩
  · rename_i small
    exact ⟨fun _ => .inl (UInt32.not_le.mp small),fun _ => above⟩

theorem orderedTimeout (config : RuntimeConfig) (value : UInt32) :
    Ordered (setGpsTimeoutMs config value) ↔ TimeoutFits value config.gpsIntervalMs := by
  change config.gpsIntervalMs < orDefault (DEFAULT_GPS_INTERVAL_MS < ·) value GPS_TIMEOUT_MS ↔ _
  unfold orDefault TimeoutFits
  split
  · rename_i accepted
    simp [accepted,UInt32.not_le.mpr accepted]
  · rename_i small
    simp [small,UInt32.not_lt.mp small]

theorem overrideKeeps {β : Type} (field : RuntimeConfig → β) (set : RuntimeConfig → UInt32 → RuntimeConfig)
    (keeps : ∀ config value, field (set config value) = field config) (getenv : Environment) (name : String)
    (accepted : Int → Bool) (config : RuntimeConfig) :
    field (override getenv name accepted set config) = field config := by
  unfold override
  split
  · exact keeps _ _
  · rfl

theorem loadedInterval (getenv : Environment) (config : RuntimeConfig) :
    (loadConfigFromEnvironment getenv config).gpsIntervalMs =
      match requested getenv "UMAP_GPS_INTERVAL_MS" atLeastSecond with
      | some value => orDefault (1000 ≤ ·) value DEFAULT_GPS_INTERVAL_MS
      | none => config.gpsIntervalMs := by
  simp only [loadConfigFromEnvironment]
  rw [overrideKeeps RuntimeConfig.gpsIntervalMs setColdStartMaxMs (fun _ _ => rfl),
    overrideKeeps RuntimeConfig.gpsIntervalMs setUploadTimeoutMs (fun _ _ => rfl),
    overrideKeeps RuntimeConfig.gpsIntervalMs setGpsTimeoutMs (fun _ _ => rfl),
    overrideKeeps RuntimeConfig.gpsIntervalMs setMinGpsAccuracyM (fun _ _ => rfl),override]
  cases requested getenv "UMAP_GPS_INTERVAL_MS" atLeastSecond with
  | some value => rfl
  | none =>
    dsimp only
    rw [overrideKeeps RuntimeConfig.gpsIntervalMs setMaxTrackPoints (fun _ _ => rfl),
      overrideKeeps RuntimeConfig.gpsIntervalMs setTrackRetentionDays (fun _ _ => rfl),
      overrideKeeps RuntimeConfig.gpsIntervalMs setMessageTtlHours (fun _ _ => rfl),
      overrideKeeps RuntimeConfig.gpsIntervalMs setMaxQueueSize (fun _ _ => rfl)]

theorem loadedTimeout (getenv : Environment) (config : RuntimeConfig) :
    (loadConfigFromEnvironment getenv config).gpsTimeoutMs =
      match requested getenv "UMAP_GPS_TIMEOUT_MS" positive with
      | some value => orDefault (DEFAULT_GPS_INTERVAL_MS < ·) value GPS_TIMEOUT_MS
      | none => config.gpsTimeoutMs := by
  simp only [loadConfigFromEnvironment]
  rw [overrideKeeps RuntimeConfig.gpsTimeoutMs setColdStartMaxMs (fun _ _ => rfl),
    overrideKeeps RuntimeConfig.gpsTimeoutMs setUploadTimeoutMs (fun _ _ => rfl),override]
  cases requested getenv "UMAP_GPS_TIMEOUT_MS" positive with
  | some value => rfl
  | none =>
    dsimp only
    rw [overrideKeeps RuntimeConfig.gpsTimeoutMs setMinGpsAccuracyM (fun _ _ => rfl),
      overrideKeeps RuntimeConfig.gpsTimeoutMs setGpsIntervalMs (fun _ _ => rfl),
      overrideKeeps RuntimeConfig.gpsTimeoutMs setMaxTrackPoints (fun _ _ => rfl),
      overrideKeeps RuntimeConfig.gpsTimeoutMs setTrackRetentionDays (fun _ _ => rfl),
      overrideKeeps RuntimeConfig.gpsTimeoutMs setMessageTtlHours (fun _ _ => rfl),
      overrideKeeps RuntimeConfig.gpsTimeoutMs setMaxQueueSize (fun _ _ => rfl)]

theorem orderedLoad {config : RuntimeConfig} (ordered : Ordered config) (getenv : Environment) :
    Ordered (loadConfigFromEnvironment getenv config) ↔ Fits config (.loadConfigFromEnvironment getenv) := by
  rw [Ordered,loadedInterval,loadedTimeout,Fits]
  cases requested getenv "UMAP_GPS_INTERVAL_MS" atLeastSecond with
  | none =>
    cases requested getenv "UMAP_GPS_TIMEOUT_MS" positive with
    | none => exact iff_true_intro ordered
    | some timeout => exact orderedTimeout config timeout
  | some interval =>
    cases requested getenv "UMAP_GPS_TIMEOUT_MS" positive with
    | none => exact orderedInterval config interval
    | some timeout =>
      have stored : orDefault (1000 ≤ ·) interval DEFAULT_GPS_INTERVAL_MS =
          if interval < 1000 then DEFAULT_GPS_INTERVAL_MS else interval := by
        unfold orDefault
        split
        · rename_i accepted
          rw [if_neg (UInt32.not_lt.mpr accepted)]
        · rename_i small
          rw [if_pos (UInt32.not_le.mp small)]
      dsimp only
      rw [← stored]
      exact orderedTimeout (setGpsIntervalMs config interval) timeout

theorem orderedStep (config : RuntimeConfig) (call : Call) (ordered : Ordered config) :
    Ordered (apply config call) ↔ Fits config call := by
  cases call with
  | setGpsIntervalMs value => exact orderedInterval config value
  | setGpsTimeoutMs value => exact orderedTimeout config value
  | loadConfigFromEnvironment getenv => exact orderedLoad ordered getenv
  | resetToDefaults => exact iff_true_intro (by decide : Ordered resetToDefaults)
  | _ => exact iff_true_intro ordered

/- The timeout exceeds the interval in every state of a run exactly when every call fits the state
it meets. -/
theorem timeoutAboveIntervalIff (calls : List Call) :
    Always apply Ordered resetToDefaults calls ↔ Allowed apply Fits resetToDefaults calls :=
  alwaysExact orderedStep (by decide : Ordered resetToDefaults) calls

/- An interval of a minute, accepted as it is, against the default timeout of a minute. -/
theorem intervalReachesTimeout :
    (apply resetToDefaults (.setGpsIntervalMs 60000)).gpsIntervalMs = 60000 ∧
    (apply resetToDefaults (.setGpsIntervalMs 60000)).gpsTimeoutMs = 60000 ∧
    ¬ Always apply Ordered resetToDefaults [.setGpsIntervalMs 60000] := by
  refine ⟨by decide,by decide,?_⟩
  intro always
  exact absurd (alwaysLast always) (by decide)

end UmapTracker.GpsTimeout
