import Mathlib.Data.List.TakeWhile
import UmapTracker.GpsTimeout

/-! Each of the nine variables against the field it is for. The loader tests the range of a 64-bit
value, narrows it, and the setter tests what is left and puts its default in place of what it refuses. -/
namespace UmapTracker.ConfigOverrides
open Config ConfigLoading GpsTimeout Text

inductive Field where
  | maxQueueSize | messageTtlHours | trackRetentionDays | maxTrackPoints | gpsIntervalMs | minGpsAccuracyM | gpsTimeoutMs
  | uploadTimeoutMs | coldStartMaxMs
  deriving DecidableEq, Repr

namespace Field

-- in the order of load_config_from_environment
def all : List Field :=
  [maxQueueSize,messageTtlHours,trackRetentionDays,maxTrackPoints,gpsIntervalMs,minGpsAccuracyM,gpsTimeoutMs,uploadTimeoutMs,
   coldStartMaxMs]

def envName : Field → String
  | maxQueueSize => "UMAP_MAX_QUEUE_SIZE"
  | messageTtlHours => "UMAP_MESSAGE_TTL_HOURS"
  | trackRetentionDays => "UMAP_TRACK_RETENTION_DAYS"
  | maxTrackPoints => "UMAP_MAX_TRACK_POINTS"
  | gpsIntervalMs => "UMAP_GPS_INTERVAL_MS"
  | minGpsAccuracyM => "UMAP_MIN_GPS_ACCURACY_M"
  | gpsTimeoutMs => "UMAP_GPS_TIMEOUT_MS"
  | uploadTimeoutMs => "UMAP_UPLOAD_TIMEOUT_MS"
  | coldStartMaxMs => "UMAP_COLD_START_MAX_MS"

def get (config : RuntimeConfig) : Field → UInt32
  | maxQueueSize => config.maxQueueSize
  | messageTtlHours => config.messageTtlHours
  | trackRetentionDays => config.trackRetentionDays
  | maxTrackPoints => config.maxTrackPoints
  | gpsIntervalMs => config.gpsIntervalMs
  | minGpsAccuracyM => config.minGpsAccuracyM
  | gpsTimeoutMs => config.gpsTimeoutMs
  | uploadTimeoutMs => config.uploadTimeoutMs
  | coldStartMaxMs => config.coldStartMaxMs

def set : Field → RuntimeConfig → UInt32 → RuntimeConfig
  | maxQueueSize => setMaxQueueSize
  | messageTtlHours => setMessageTtlHours
  | trackRetentionDays => setTrackRetentionDays
  | maxTrackPoints => setMaxTrackPoints
  | gpsIntervalMs => setGpsIntervalMs
  | minGpsAccuracyM => setMinGpsAccuracyM
  | gpsTimeoutMs => setGpsTimeoutMs
  | uploadTimeoutMs => setUploadTimeoutMs
  | coldStartMaxMs => setColdStartMaxMs

/- The least value that the setter keeps, and what it puts in place of a smaller one. -/
def least : Field → UInt32
  | gpsIntervalMs => 1000
  | gpsTimeoutMs => DEFAULT_GPS_INTERVAL_MS+1
  | _ => 1

def fallback : Field → UInt32
  | maxQueueSize => MAX_QUEUE_SIZE
  | messageTtlHours => MESSAGE_TTL_HOURS
  | trackRetentionDays => TRACK_RETENTION_DAYS
  | maxTrackPoints => MAX_TRACK_POINTS
  | gpsIntervalMs => DEFAULT_GPS_INTERVAL_MS
  | minGpsAccuracyM => MIN_GPS_ACCURACY_M
  | gpsTimeoutMs => GPS_TIMEOUT_MS
  | uploadTimeoutMs => UPLOAD_TIMEOUT_MS
  | coldStartMaxMs => COLD_START_MAX_MS

/- The loader's own test. -/
def accepted : Field → Int → Bool
  | gpsIntervalMs => atLeastSecond
  | _ => positive

end Field

/- What a set of the field makes of a value. -/
def stored (k : Field) (value : UInt32) : UInt32 := if k.least ≤ value then value else k.fallback

theorem storedOrDefault {accepted : UInt32 → Prop} [DecidablePred accepted] {least : UInt32}
    (same : ∀ value, accepted value ↔ least ≤ value) (value fallback : UInt32) :
    orDefault accepted value fallback = if least ≤ value then value else fallback := by
  unfold orDefault
  simp only [same]

theorem setOwn (k : Field) (config : RuntimeConfig) (value : UInt32) : k.get (k.set config value) = stored k value := by
  have positive : ∀ value : UInt32, 0 < value ↔ 1 ≤ value := by
    intro value
    rw [UInt32.lt_iff_toNat_lt,UInt32.le_iff_toNat_le]
    exact Iff.rfl
  have aboveInterval : ∀ value : UInt32, DEFAULT_GPS_INTERVAL_MS < value ↔ DEFAULT_GPS_INTERVAL_MS+1 ≤ value := by
    intro value
    rw [UInt32.lt_iff_toNat_lt,UInt32.le_iff_toNat_le]
    exact Iff.rfl
  cases k with
  | gpsIntervalMs => rfl
  | gpsTimeoutMs => exact storedOrDefault aboveInterval value GPS_TIMEOUT_MS
  | _ => exact storedOrDefault positive value _

theorem setOther {k k' : Field} (other : k ≠ k') (config : RuntimeConfig) (value : UInt32) : k.get (k'.set config value) = k.get config := by
  cases k <;> cases k' <;> first | rfl | contradiction

/- The override of a field, and the whole of them. -/
def overridden (getenv : Environment) (config : RuntimeConfig) (k : Field) : RuntimeConfig :=
  override getenv k.envName k.accepted k.set config

theorem loadedFold (getenv : Environment) (config : RuntimeConfig) :
    loadConfigFromEnvironment getenv config = Field.all.foldl (overridden getenv) config := rfl

def written (getenv : Environment) (config : RuntimeConfig) (k : Field) : UInt32 :=
  match requested getenv k.envName k.accepted with
  | some value => stored k value
  | none => k.get config

theorem overriddenOwn (getenv : Environment) (config : RuntimeConfig) (k : Field) :
    k.get (overridden getenv config k) = written getenv config k := by
  unfold overridden override written
  cases requested getenv k.envName k.accepted with
  | some value => exact setOwn k config value
  | none => rfl

theorem overriddenOther {k k' : Field} (other : k ≠ k') (getenv : Environment) (config : RuntimeConfig) :
    k.get (overridden getenv config k') = k.get config :=
  overrideKeeps k.get k'.set (setOther other) getenv k'.envName k'.accepted config

theorem foldOther {k : Field} {ks : List Field} (other : k ∉ ks) (getenv : Environment) (config : RuntimeConfig) :
    k.get (ks.foldl (overridden getenv) config) = k.get config := by
  induction ks generalizing config with
  | nil => rfl
  | cons k' ks ih =>
    obtain ⟨apart,rest⟩ := List.ne_and_not_mem_of_not_mem_cons other
    rw [List.foldl_cons,ih rest,overriddenOther apart]

theorem foldOwn {k : Field} {ks : List Field} (mem : k ∈ ks) (once : ks.Nodup) (getenv : Environment) (config : RuntimeConfig) :
    k.get (ks.foldl (overridden getenv) config) = written getenv config k := by
  induction ks generalizing config with
  | nil => contradiction
  | cons k' ks ih =>
    obtain ⟨fresh,once⟩ := List.nodup_cons.mp once
    rw [List.foldl_cons]
    rcases List.mem_cons.mp mem with rfl | later
    · rw [foldOther fresh,overriddenOwn]
    · have apart : k ≠ k' := fun same => fresh (same ▸ later)
      rw [ih later once,written,written,overriddenOther apart]

theorem loadedField (getenv : Environment) (config : RuntimeConfig) (k : Field) :
    k.get (loadConfigFromEnvironment getenv config) = written getenv config k := by
  rw [loadedFold]
  exact foldOwn (by cases k <;> decide) (by decide) getenv config

/- The integer that the whole string denotes: a sign or none, and digits. -/
def integer (s : Bytes) : Option Int :=
  (readNat (sign s).2).map (fun n : Nat => if (sign s).1 then -(n : Int) else n)

/- With or without the white space in front that strtol skips. -/
def denoted (blanks : Bool) (s : Bytes) : Option Int := integer (if blanks then s.dropWhile isspace else s)

theorem signSpace {b : UInt8} (space : isspace b = true) (text : Bytes) : sign (b::text) = (false,b::text) := by
  unfold sign
  split
  · rename_i same
    cases (List.cons.inj same).1
    contradiction
  · rename_i same
    cases (List.cons.inj same).1
    contradiction
  · rfl

theorem denotedStrict (s : Bytes) : denoted false s = if s.head?.any isspace then none else denoted true s := by
  cases s with
  | nil => rfl
  | cons b text =>
    cases space : isspace b with
    | false => simp [denoted,space]
    | true =>
      have digits : digit b = false := by
        simp only [isspace,digit,Bool.or_eq_true,beq_iff_eq,Bool.and_eq_true,decide_eq_true_eq,Bool.and_eq_false_iff,
          decide_eq_false_iff_not] at space ⊢
        left
        rcases space with rfl | ⟨_,low⟩
        · decide
        · exact fun high => absurd (UInt8.le_trans high low) (by decide)
      simp [denoted,space,integer,signSpace space,readNat,digits]

/- strtol takes what the string denotes, if it is a long. -/
theorem parsed (s : Bytes) : parseEnvLong (some s) (-1) =
    match denoted true s with
    | some v => if LONG_MIN ≤ v ∧ v ≤ LONG_MAX then v else -1
    | none => -1 := by
  rcases signed : sign (s.dropWhile isspace) with ⟨negative,text⟩
  simp only [parseEnvLong,strtol,denoted,if_true,integer,readNat,signed]
  by_cases whole : text ≠ [] ∧ text.all digit = true
  · obtain ⟨some_digit,all⟩ := whole
    have digits : text.takeWhile digit = text := List.takeWhile_eq_self_iff.mpr (List.all_eq_true.mp all)
    have rest : text.dropWhile digit = [] := List.dropWhile_eq_nil_iff.mpr (List.all_eq_true.mp all)
    have nonempty : ([] == s) = false := by
      cases s with
      | nil =>
        cases signed
        contradiction
      | cons b s => rfl
    rw [if_pos (show text ≠ [] ∧ text.all digit = true from ⟨some_digit,all⟩),digits,rest,if_neg some_digit,
      Option.map_some]
    generalize (if negative = true then -(value text : Int) else (value text : Int)) = v
    split
    · rename_i large
      have outside : ¬ (LONG_MIN ≤ v ∧ v ≤ LONG_MAX) := by omega
      simp [outside]
    · split
      · rename_i small
        have outside : ¬ (LONG_MIN ≤ v ∧ v ≤ LONG_MAX) := by omega
        simp [outside]
      · rename_i above below
        have inside : LONG_MIN ≤ v ∧ v ≤ LONG_MAX := by omega
        simp [nonempty,inside]
  · rw [if_neg whole]
    by_cases none : text.takeWhile digit = []
    · rw [if_pos none]
      simp
    · have rest : text.dropWhile digit ≠ [] := by
        intro empty
        refine whole ⟨?_,List.all_eq_true.mpr (List.dropWhile_eq_nil_iff.mp empty)⟩
        rintro rfl
        exact none rfl
      rw [if_neg none]
      generalize (if negative = true then -(value (text.takeWhile digit) : Int) else (value (text.takeWhile digit) : Int)) = v
      split
      · rfl
      · split
        · rfl
        · simp [rest]

/- An integer that fits uint32_t and the bound of the field. -/
def Fits (k : Field) (v : Int) : Prop := (k.least.toNat : Int) ≤ v ∧ v < 2^32
instance (k : Field) (v : Int) : Decidable (Fits k v) := by unfold Fits; infer_instance

/- The field after the load, if its variable means what it denotes. -/
def expected (blanks : Bool) (getenv : Environment) (config : RuntimeConfig) (k : Field) : UInt32 :=
  match (getenv k.envName).bind (denoted blanks) with
  | some v => if Fits k v then UInt32.ofInt v else k.get config
  | none => k.get config

theorem acceptedPositive {k : Field} {v : Int} (accepted : k.accepted v = true) : 0 < v := by
  cases k with
  | gpsIntervalMs =>
    have second : (1000 : Int) ≤ v := of_decide_eq_true accepted
    omega
  | _ => exact of_decide_eq_true accepted

theorem fitsAccepted {k : Field} {v : Int} (fits : Fits k v) : k.accepted v = true := by
  cases k with
  | gpsIntervalMs => exact decide_eq_true fits.1
  | gpsTimeoutMs =>
    have low : (5001 : Int) ≤ v := fits.1
    exact decide_eq_true (show 0 < v by omega)
  | _ =>
    have low : (1 : Int) ≤ v := fits.1
    exact decide_eq_true (show 0 < v by omega)

theorem storedFits {k : Field} {v : Int} (fits : Fits k v) : stored k (UInt32.ofInt v) = UInt32.ofInt v := by
  refine if_pos ?_
  obtain ⟨low,high⟩ := fits
  rw [UInt32.le_iff_toNat_le,UInt32.ofInt,UInt32.toNat_ofNat']
  omega

/- What the load writes, by what the variable denotes. -/
theorem writtenDenoted (getenv : Environment) (config : RuntimeConfig) (k : Field) :
    written getenv config k =
      match (getenv k.envName).bind (denoted true) with
      | some v => if v ≤ LONG_MAX ∧ k.accepted v = true then stored k (UInt32.ofInt v) else k.get config
      | none => k.get config := by
  have refused : ∀ v ≤ (0 : Int), k.accepted v = false := by
    intro v low
    by_contra accepted
    have positive := acceptedPositive (k := k) (v := v) (by simpa using accepted)
    omega
  unfold written requested
  cases getenv k.envName with
  | none => simp [parseEnvLong,refused (-1) (by decide)]
  | some s =>
    rw [parsed s,Option.bind_some]
    cases denoted true s with
    | none => simp [refused (-1) (by decide)]
    | some v =>
      dsimp only
      by_cases long : LONG_MIN ≤ v ∧ v ≤ LONG_MAX
      · rw [if_pos long]
        cases accepted : k.accepted v <;> simp [long.2]
      · rw [if_neg long,if_neg (by simp [refused (-1) (by decide)])]
        refine (if_neg ?_).symm
        rintro ⟨high,accepted⟩
        have positive := acceptedPositive accepted
        simp only [LONG_MIN] at long
        omega

/- Where the loader accepts a value that the variable does not mean, or means outside the range, the field
happens to hold already what the setter makes of it. -/
def Harmless (blanks : Bool) (getenv : Environment) (config : RuntimeConfig) (k : Field) : Prop :=
  ∀ s v, getenv k.envName = some s → denoted true s = some v → v ≤ LONG_MAX → k.accepted v = true →
    ¬ (denoted blanks s = some v ∧ Fits k v) → stored k (UInt32.ofInt v) = k.get config

theorem denotedEither (blanks : Bool) (s : Bytes) : denoted blanks s = denoted true s ∨ denoted blanks s = none := by
  cases blanks with
  | true => exact .inl rfl
  | false =>
    rw [denotedStrict]
    split
    · exact .inr rfl
    · exact .inl rfl

theorem fieldIff (blanks : Bool) (getenv : Environment) (config : RuntimeConfig) (k : Field) :
    written getenv config k = expected blanks getenv config k ↔ Harmless blanks getenv config k := by
  rw [writtenDenoted]
  unfold expected Harmless
  cases env : getenv k.envName with
  | none => simp
  | some s =>
    simp only [Option.bind_some,Option.some.injEq]
    cases wide : denoted true s with
    | none =>
      have nothing : denoted blanks s = none := by
        rcases denotedEither blanks s with same | none
        · rw [same,wide]
        · exact none
      rw [nothing]
      refine iff_of_true rfl ?_
      rintro _ v rfl read
      rw [wide] at read
      contradiction
    | some v =>
      dsimp only
      by_cases means : denoted blanks s = some v ∧ Fits k v
      · obtain ⟨read,fits⟩ := means
        have long : v ≤ LONG_MAX := by
          have := fits.2
          simp only [LONG_MAX]
          omega
        rw [read,if_pos ⟨long,fitsAccepted fits⟩,storedFits fits]
        refine iff_of_true (if_pos fits).symm ?_
        rintro _ v' rfl read' _ _ other
        cases Option.some.inj (wide.symm.trans read')
        exact absurd ⟨read,fits⟩ other
      · have unchanged : (match denoted blanks s with
            | some v => if Fits k v then UInt32.ofInt v else k.get config
            | none => k.get config) = k.get config := by
          rcases denotedEither blanks s with same | none
          · rw [same,wide] at means ⊢
            exact if_neg (fun fits => means ⟨rfl,fits⟩)
          · rw [none]
        rw [unchanged]
        constructor
        · rintro same _ v' rfl read' long accepted _
          cases Option.some.inj (wide.symm.trans read')
          rwa [if_pos ⟨long,accepted⟩] at same
        · intro harmless
          split
          · rename_i taken
            exact harmless s v rfl wide taken.1 taken.2 means
          · rfl

/- Every field is what its variable denotes, or as it was, exactly when every value that is accepted and should
not be is harmless. -/
theorem overridesIff (blanks : Bool) (getenv : Environment) (config : RuntimeConfig) :
    (∀ k : Field, k.get (loadConfigFromEnvironment getenv config) = expected blanks getenv config k) ↔
      ∀ k : Field, Harmless blanks getenv config k := by
  refine forall_congr' fun k => ?_
  rw [loadedField]
  exact fieldIff blanks getenv config k

/- A timeout of 3000 ms is accepted and replaced by the default; a queue limit of 2^32 + 1 becomes 1. -/
theorem overridesMisread :
    let getenv : Environment := fun name =>
      if name = "UMAP_GPS_TIMEOUT_MS" then some (ascii "3000")
      else if name = "UMAP_MAX_QUEUE_SIZE" then some (ascii "4294967297") else none
    let before := setGpsTimeoutMs resetToDefaults 7000
    let after := loadConfigFromEnvironment getenv before
    after.gpsTimeoutMs = 60000 ∧ after.maxQueueSize = 1 ∧
    ¬ ∀ k : Field, k.get after = expected true getenv before k := by
  intro getenv before after
  have timeout : after.gpsTimeoutMs = 60000 := by decide +kernel
  refine ⟨timeout,by decide +kernel,?_⟩
  intro all
  have kept : expected true getenv before .gpsTimeoutMs = 7000 := by decide +kernel
  have same := (all .gpsTimeoutMs).trans kept
  rw [show Field.gpsTimeoutMs.get after = 60000 from timeout] at same
  exact absurd same (by decide)

end UmapTracker.ConfigOverrides
