import UmapTracker.LocationTime

/-! The time that the filter is told has passed, from the JNI calls to predict. The timestamps of
the fixes are 64-bit milliseconds; the pipeline compares and subtracts their low 32 bits, and
keeps those of the fix before, whether it was late or not. -/
namespace UmapTracker.ElapsedTime
open GeoTypes Machine GpsPipeline LocationTime JniBridge

/- What happens to the application, and the reset of its pipeline. -/
inductive Event where
  | call (c : JniBridge.Call ℚ)
  | reset

def engineCall (n : Native ℚ) : JniBridge.Call ℚ → Option (EngineCall ℚ)
  | .onLocationReceived fix => some (.nativeOnLocationReceived fix)
  | .onBatteryChanged percent charging => some (.nativeOnBatteryChanged percent charging)
  | .processLocation _ => if n.session.isSome then some (.getLocation 0) else none
  | _ => none

/- The application with its fixes traced. Since its pipeline was made or reset: the timestamps of the
fixes it has accepted, and the seconds it has passed to predict. -/
structure Clocked where
  native : Native ℚ
  traced : Traced ℚ
  times : List Int
  total : ℚ

def Clocked.start : Clocked := ⟨loaded,.start,[],0⟩

/- The fix that a call has the pipeline accept, with the dt of its prediction. -/
def taking (s : Clocked) : JniBridge.Call ℚ → Option (Fix ℚ × ℚ)
  | .processLocation _ =>
      match s.native.session,s.traced.waiting.head?,(s.native.engine.getLocation 0).1 with
      | some session,some fix,some raw => if raw.isValid then some (fix,elapsed session.pipeline raw) else none
      | _,_,_ => none
  | _ => none

def step (s : Clocked) : Event → Clocked
  | .reset =>
      {s with native := {s.native with session := s.native.session.map (fun x => {x with pipeline := x.pipeline.reset})}
              times := []
              total := 0}
  | .call c =>
      let native := JniBridge.step s.native c
      let traced := (engineCall s.native c).elim s.traced (trace s.traced)
      match taking s c with
      | some (fix,dt) => ⟨native,traced,s.times ++ [fix.timestampMs.toInt],s.total + dt⟩
      | none => if native.session.isSome then ⟨native,traced,s.times,s.total⟩ else ⟨native,traced,[],0⟩

def largest : List Int → Int
  | [] => 0
  | t::ts => ts.foldl max t

/- The seconds from the first timestamp to the largest. -/
def span (times : List Int) : ℚ := ((largest times - times.headD 0 : Int) : ℚ) / 1000

def Measured (s : Clocked) : Prop := s.total = span s.times

/- The low 32 bits have gone up from the fix before by as much as the timestamp is above the largest. -/
def Counted (s : Clocked) : Event → Prop
  | .reset => True
  | .call c => ∀ fix dt, taking s c = some (fix,dt) → ∀ previous, s.times.getLast? = some previous →
      max 0 (fix.timestampMs.toInt % 2^32 - previous % 2^32) = max 0 (fix.timestampMs.toInt - largest s.times)

theorem largestAppend {times : List Int} (some : times ≠ []) (t : Int) : largest (times ++ [t]) = max (largest times) t := by
  cases times with
  | nil => contradiction
  | cons first rest => simp [largest,List.foldl_append]

theorem spanAppend {times : List Int} (some : times ≠ []) (t : Int) :
    span (times ++ [t]) = span times + ((max 0 (t - largest times) : Int) : ℚ) / 1000 := by
  have first : (times ++ [t]).headD 0 = times.headD 0 := by
    cases times with
    | nil => contradiction
    | cons first rest => rfl
  have grown : max (largest times) t = largest times + max 0 (t - largest times) := by omega
  rw [span,largestAppend some,first,grown,span]
  push_cast
  ring

theorem low32 (t : Int) : ((UInt32.ofInt t).toNat : Int) = t % 2^32 := by
  rw [UInt32.ofInt,UInt32.toNat_ofNat']
  omega

/- The dt of a point after the first. -/
theorem elapsedLater {p : GpsProcessingPipeline ℚ} {raw : GpsPoint ℚ} {previous t : Int} (started : p.initialized = true)
    (last : p.lastTimestampMs = UInt32.ofInt previous) (now : raw.timestampMs = UInt32.ofInt t) :
    elapsed p raw = ((max 0 (t % 2^32 - previous % 2^32) : Int) : ℚ) / 1000 := by
  have after := low32 t
  have before := low32 previous
  rw [← now] at after
  rw [← last] at before
  rw [elapsed,started,← after,← before]
  by_cases later : p.lastTimestampMs < raw.timestampMs
  · have order := UInt32.lt_iff_toNat_lt.mp later
    have difference : (raw.timestampMs - p.lastTimestampMs).toNat = raw.timestampMs.toNat - p.lastTimestampMs.toNat :=
      UInt32.toNat_sub_of_le _ _ (UInt32.le_of_lt later)
    have positive : max 0 ((raw.timestampMs.toNat : Int) - p.lastTimestampMs.toNat) =
        ((raw.timestampMs.toNat - p.lastTimestampMs.toNat : Nat) : Int) := by omega
    rw [decide_eq_true later,positive,difference]
    rfl
  · have order : raw.timestampMs.toNat ≤ p.lastTimestampMs.toNat := Nat.not_lt.mp (fun below => later (UInt32.lt_iff_toNat_lt.mpr below))
    have zero : max 0 ((raw.timestampMs.toNat : Int) - p.lastTimestampMs.toNat) = 0 := by omega
    rw [decide_eq_false later,zero]
    simp [Double.lit]

theorem elapsedFirst {p : GpsProcessingPipeline ℚ} (raw : GpsPoint ℚ) (fresh : p.initialized = false) : elapsed p raw = 0 := by
  simp [elapsed,fresh,Double.lit]

/- The pipeline's memory of the fix before, and the fixes that wait in the engine. -/
structure Known (s : Clocked) : Prop where
  engine : s.traced.engine = s.native.engine
  sound : LocationTime.Sound s.traced
  closed : s.native.session = none → s.times = [] ∧ s.total = 0
  started : ∀ x, s.native.session = some x → (x.pipeline.initialized = true ↔ s.times ≠ [])
  last : ∀ x, s.native.session = some x → ∀ t, s.times.getLast? = some t → x.pipeline.lastTimestampMs = UInt32.ofInt t

/- What the pipeline accepts is a point of the fix it came from. -/
theorem takingSpec {s : Clocked} (known : Known s) {c : JniBridge.Call ℚ} {fix : Fix ℚ} {dt : ℚ} (taken : taking s c = some (fix,dt)) :
    ∃ env x raw, c = .processLocation env ∧ s.native.session = some x ∧ (s.native.engine.getLocation 0).1 = some raw ∧
      raw.isValid = true ∧ raw.timestampMs = UInt32.ofInt fix.timestampMs.toInt ∧ dt = elapsed x.pipeline raw := by
  cases c with
  | processLocation env =>
    simp only [taking] at taken
    split at taken <;> try contradiction
    rename_i x fix' raw session front point
    split at taken <;> try contradiction
    rename_i valid
    obtain ⟨rfl,rfl⟩ := Prod.mk.inj (Option.some.inj taken)
    obtain ⟨head,_⟩ := s.native.engine.locationQueue.dequeueItems 0
    have items : s.native.engine.locationQueue.items.head? = some raw := head.symm.trans point
    have related := (relatedFronts known.sound.queued).2 (fix',raw)
    rw [known.engine,front,items] at related
    exact ⟨env,x,raw,rfl,session,point,valid,(related (by simp)).time,rfl⟩
  | _ => contradiction

/- Seconds are neither lost nor counted twice by a step exactly when it counts its fix rightly. -/
theorem measuredStep {s : Clocked} (known : Known s) (measured : Measured s) (e : Event) : Measured (step s e) ↔ Counted s e := by
  cases e with
  | reset => exact iff_of_true (by simp [Measured,step,span,largest]) trivial
  | call c =>
    simp only [step,Counted]
    cases taken : taking s c with
    | none =>
      refine iff_of_true ?_ (by simp)
      dsimp only
      split
      · exact measured
      · simp [Measured,span,largest]
    | some pair =>
      obtain ⟨fix,dt⟩ := pair
      obtain ⟨env,x,raw,_,session,_,_,now,rfl⟩ := takingSpec known taken
      have guard : (∀ f d, some (fix,elapsed x.pipeline raw) = some (f,d) → ∀ previous, s.times.getLast? = some previous →
          max 0 (f.timestampMs.toInt % 2^32 - previous % 2^32) = max 0 (f.timestampMs.toInt - largest s.times)) ↔
          ∀ previous, s.times.getLast? = some previous →
            max 0 (fix.timestampMs.toInt % 2^32 - previous % 2^32) = max 0 (fix.timestampMs.toInt - largest s.times) := by
        refine ⟨fun all => all fix _ rfl,?_⟩
        intro one f d same
        obtain ⟨rfl,_⟩ := Prod.mk.inj (Option.some.inj same)
        exact one
      rw [guard]
      simp only [Measured] at measured ⊢
      rcases eq_or_ne s.times [] with none | some
      · have fresh : x.pipeline.initialized = false := by
          by_contra started
          exact (known.started x session).mp (by simpa using started) none
        rw [elapsedFirst raw fresh,measured,none]
        exact iff_of_true (by simp [span,largest]) (by simp)
      · have last : s.times.getLast? = Option.some (s.times.getLast some) := List.getLast?_eq_some_getLast some
        rw [elapsedLater ((known.started x session).mpr some) (known.last x session _ last) now,measured,spanAppend some,
          add_right_inj,div_left_inj' (by norm_num),Int.cast_inj,last]
        simp

theorem processEngine (n : Native ℚ) (env : EnqueueEnv) :
    (nativeProcessLocation n env).2.engine = if n.session.isSome then (n.engine.getLocation 0).2 else n.engine := by
  unfold nativeProcessLocation
  cases n.session with
  | none => rfl
  | some x =>
    dsimp only
    split
    · rename_i answer
      simp [answer]
    · rename_i answer
      simp [answer]

theorem soundElim {n : Native ℚ} {t : Traced ℚ} (sound : LocationTime.Sound t) (c : JniBridge.Call ℚ) :
    LocationTime.Sound ((engineCall n c).elim t (trace t)) := by
  cases engineCall n c with
  | none => exact sound
  | some ec => exact soundTrace sound ec

theorem engineElim {n : Native ℚ} {t : Traced ℚ} (same : t.engine = n.engine) (c : JniBridge.Call ℚ) :
    ((engineCall n c).elim t (trace t)).engine = (JniBridge.step n c).engine := by
  cases c with
  | onLocationReceived fix => exact congrArg (nativeOnLocationReceived · fix) same
  | onBatteryChanged percent charging => exact congrArg (nativeOnBatteryChanged · percent charging) same
  | processLocation env =>
    simp only [engineCall,JniBridge.step,processEngine]
    split
    · exact congrArg (fun e : LocationEngine ℚ => (e.getLocation 0).2) same
    · exact same
  | initPipeline sqlite3Open prepare => exact same
  | processUpload env =>
    simp only [JniBridge.step,nativeProcessUpload]
    cases n.session <;> exact same
  | shutdownPipeline => exact same

theorem pointRefused {s : Clocked} (known : Known s) {env : EnqueueEnv} (nothing : taking s (.processLocation env) = none)
    {x : Session ℚ} (opened : s.native.session = some x) {raw : GpsPoint ℚ} (point : (s.native.engine.getLocation 0).1 = some raw) :
    raw.isValid = false := by
  obtain ⟨head,_⟩ := s.native.engine.locationQueue.dequeueItems 0
  have items : s.traced.engine.locationQueue.items.head? = some raw := by
    rw [known.engine]
    exact head.symm.trans point
  obtain ⟨fix,front⟩ := relatedHead known.sound.queued items
  by_contra valid
  simp [taking,opened,front,point,valid] at nothing

/- A call that has no fix accepted leaves the pipeline, or makes a new one. -/
theorem pipelineLeft {s : Clocked} (known : Known s) {c : JniBridge.Call ℚ} (nothing : taking s c = none) {x' : Session ℚ}
    (session : (JniBridge.step s.native c).session = some x') :
    (∃ x, s.native.session = some x ∧ x'.pipeline = x.pipeline) ∨ (s.native.session = none ∧ x'.pipeline = .default) := by
  cases c with
  | onLocationReceived fix => exact .inl ⟨x',session,rfl⟩
  | onBatteryChanged percent charging => exact .inl ⟨x',session,rfl⟩
  | processLocation env =>
    simp only [JniBridge.step,nativeProcessLocation] at session
    cases opened : s.native.session with
    | none => simp [opened] at session
    | some x =>
      refine .inl ⟨x,rfl,?_⟩
      simp only [opened] at session
      split at session
      · rw [← Option.some.inj session]
      · rename_i raw engine answer
        have refused := pointRefused known nothing opened (by rw [answer])
        simp only [processLocation,refused,Bool.not_false,if_true] at session
        rw [← Option.some.inj session]
  | initPipeline sqlite3Open prepare =>
    simp only [JniBridge.step,nativeInitPipeline] at session
    cases opened : s.native.session with
    | none =>
      rw [opened] at session
      rw [← Option.some.inj session]
      exact .inr ⟨rfl,rfl⟩
    | some x =>
      rw [opened] at session
      exact .inl ⟨x,rfl,by rw [Option.some.inj session]⟩
  | processUpload env =>
    simp only [JniBridge.step,nativeProcessUpload] at session
    cases opened : s.native.session with
    | none => simp [opened] at session
    | some x =>
      simp only [opened] at session
      exact .inl ⟨x,rfl,by rw [← Option.some.inj session]⟩
  | shutdownPipeline => contradiction

/- A fix that is accepted is remembered by its low 32 bits. -/
theorem pipelineTaken {s : Clocked} (known : Known s) {c : JniBridge.Call ℚ} {fix : Fix ℚ} {dt : ℚ}
    (taken : taking s c = some (fix,dt)) :
    ∃ x', (JniBridge.step s.native c).session = some x' ∧ x'.pipeline.initialized = true ∧
      x'.pipeline.lastTimestampMs = UInt32.ofInt fix.timestampMs.toInt := by
  obtain ⟨env,x,raw,rfl,opened,point,valid,now,_⟩ := takingSpec known taken
  rw [← now]
  simp only [JniBridge.step,nativeProcessLocation,opened]
  split
  · rename_i answer
    rw [answer] at point
    contradiction
  · rename_i raw' engine answer
    rw [answer] at point
    cases Option.some.inj point
    refine ⟨_,rfl,?_⟩
    simp [processLocation,valid]

theorem knownStep {s : Clocked} (known : Known s) (e : Event) : Known (step s e) := by
  cases e with
  | reset =>
    refine ⟨known.engine,known.sound,fun _ => ⟨rfl,rfl⟩,?_,by simp [step]⟩
    intro x session
    obtain ⟨old,_,rfl⟩ := Option.map_eq_some_iff.mp session
    simp [step,GpsProcessingPipeline.reset]
  | call c =>
    have engine := engineElim known.engine c
    have sound : LocationTime.Sound ((engineCall s.native c).elim s.traced (trace s.traced)) := soundElim known.sound c
    simp only [step]
    cases taken : taking s c with
    | some pair =>
      obtain ⟨fix,dt⟩ := pair
      obtain ⟨x',after,started,remembered⟩ := pipelineTaken known taken
      refine ⟨engine,sound,?_,?_,?_⟩
      · intro closed
        rw [after] at closed
        contradiction
      · intro x session
        cases Option.some.inj (after.symm.trans session)
        simp [started]
      · intro x session t last
        cases Option.some.inj (after.symm.trans session)
        simp only [List.getLast?_concat,Option.some.injEq] at last
        rw [← last]
        exact remembered
    | none =>
      dsimp only
      split
      · rename_i opened
        refine ⟨engine,sound,fun closed => by rw [closed] at opened; contradiction,?_,?_⟩
        · intro x session
          rcases pipelineLeft known taken session with ⟨old,before,same⟩ | ⟨before,same⟩
          · rw [same]
            exact known.started old before
          · rw [same]
            exact iff_of_false (by decide) (by simp [(known.closed before).1])
        · intro x session t last
          rcases pipelineLeft known taken session with ⟨old,before,same⟩ | ⟨before,same⟩
          · rw [same]
            exact known.last old before t last
          · simp [(known.closed before).1] at last
      · rename_i closed
        refine ⟨engine,sound,fun _ => ⟨rfl,rfl⟩,?_,by simp⟩
        intro x session
        rw [session] at closed
        simp at closed

/- All along a run, the time passed to predict is the time from the first timestamp to the largest exactly
when each fix that is not late has gained as much on the fix before as on the largest, in 32 bits, and
each late one nothing. -/
theorem measuredIff (events : List Event) :
    Always step Measured Clocked.start events ↔ Allowed step Counted Clocked.start events := by
  have known : Known Clocked.start := ⟨rfl,⟨.nil,by simp [Clocked.start,Traced.start]⟩,fun _ => ⟨rfl,rfl⟩,by
    simp [Clocked.start,loaded],by simp [Clocked.start]⟩
  have start : Measured Clocked.start := by simp [Measured,Clocked.start,span,largest]
  exact alwaysExactWith (I := Measured) (J := Known) (fun _ e known measured => measuredStep known measured e)
    (fun _ e known _ _ => knownStep known e) known start events

def delivered (timestampMs : Int64) : List Event :=
  [.call (.onLocationReceived ⟨55,37,5,100,1,timestampMs⟩),.call (.processLocation ⟨0,.runs⟩)]

/- A late fix between two of the same time makes the filter count a second that did not pass; from a
second before 2^32 ms to a second after it, two seconds are lost. -/
theorem timeMiscounted :
    let made : Event := .call (.initPipeline true (fun _ => true))
    let late := run step Clocked.start (made::delivered 2000 ++ delivered 1000 ++ delivered 2000)
    let wrapped := run step Clocked.start (made::delivered 4294966296 ++ delivered 4294968296)
    late.total = 1 ∧ span late.times = 0 ∧ ¬ Measured late ∧
    wrapped.total = 0 ∧ span wrapped.times = 2 ∧ ¬ Measured wrapped := by
  unfold Measured
  decide +kernel

end UmapTracker.ElapsedTime
