import Mathlib.Data.Real.Basic
import UmapTracker.FilterRuns
import UmapTracker.Parallel

/-! The error of the scalar filter, in exact arithmetic. An update puts it in parallel with the noise of the
measurement, whatever is measured, and a prediction adds to it: so the errors of two runs can be compared,
and those of one run settle. -/
namespace UmapTracker.FilterErrors
open Machine KalmanFilter FilterHull FilterRuns Parallel

theorem gainError {f : KalmanFilter1D ℚ} (error : 0 < f.estimateError) (noise : 0 < f.measurementNoise) {weight : ℚ}
    (positive : 0 < weight) :
    (1 - gain f weight) * f.estimateError = parallel f.estimateError (f.measurementNoise / weight) := by
  have sum : f.estimateError + f.measurementNoise / weight ≠ 0 := (add_pos error (div_pos noise positive)).ne'
  rw [gain,parallel,one_sub_div sum,add_sub_cancel_left]
  ring

theorem updateError {f : KalmanFilter1D ℚ} (started : f.initialized = true) (error : 0 < f.estimateError)
    (noise : 0 < f.measurementNoise) (measurement : ℚ) {weight : ℚ} (positive : 0 < weight) :
    (f.update measurement weight).estimateError = parallel f.estimateError (f.measurementNoise / weight) := by
  rw [updateSpec f measurement positive,if_pos started]
  exact gainError error noise positive

section Information

/- A filter that takes its measurements one after the other: the value, and its weight. -/
def measure (f : KalmanFilter1D ℚ) (u : ℚ × ℚ) : KalmanFilter1D ℚ := f.update u.1 u.2

/- The filter is under way, and knows as much of the information as the reciprocal of its error says. -/
structure Informed (f : KalmanFilter1D ℚ) (noise information weighted : ℚ) : Prop where
  started : f.initialized = true
  noise : f.measurementNoise = noise
  error : 0 < f.estimateError
  information : 1 / f.estimateError = information
  weighted : f.estimate / f.estimateError = weighted

theorem informedUpdate {f : KalmanFilter1D ℚ} {noise information weighted : ℚ} (informed : Informed f noise information weighted)
    (measured : 0 < noise) (z : ℚ) {w : ℚ} (positive : 0 < w) :
    Informed (measure f (z,w)) noise (information + w / noise) (weighted + w * z / noise) := by
  obtain ⟨started,rfl,error,rfl,rfl⟩ := informed
  have added : 0 < f.measurementNoise / w := div_pos measured positive
  have less := updateError started error measured z positive
  have reciprocal : 1 / (f.update z w).estimateError = 1 / f.estimateError + w / f.measurementNoise := by
    rw [less,one_div,parallelInv error added,inv_div,one_div]
  have after : f.update z w = {f with estimate := f.estimate + gain f w * (z - f.estimate)
                                      estimateError := (1 - gain f w) * f.estimateError} := by
    rw [updateSpec f z positive,if_pos started]
  refine ⟨updateStarts f z positive,?_,?_,reciprocal,?_⟩
  · rw [measure,after]
  · rw [measure,less]
    exact parallelPositive error added
  · have sum : f.estimateError + f.measurementNoise / w ≠ 0 := (add_pos error added).ne'
    have one := error.ne'
    have two := measured.ne'
    have three := positive.ne'
    change (f.update z w).estimate / (f.update z w).estimateError = _
    rw [div_eq_mul_one_div,reciprocal,after]
    simp only [gain]
    field_simp
    ring

theorem informedRun {f : KalmanFilter1D ℚ} {noise information weighted : ℚ} (informed : Informed f noise information weighted)
    (measured : 0 < noise) (us : List (ℚ × ℚ)) (positive : ∀ u ∈ us, 0 < u.2) :
    Informed (run measure f us) noise (information + (us.map (fun u => u.2 / noise)).sum)
      (weighted + (us.map (fun u => u.2 * u.1 / noise)).sum) := by
  induction us generalizing f information weighted with
  | nil => simpa using informed
  | cons u us ih =>
    have one := informedUpdate informed measured u.1 (positive u List.mem_cons_self)
    have rest := ih one (fun v mem => positive v (List.mem_cons_of_mem _ mem))
    simpa only [runCons,List.map_cons,List.sum_cons,add_assoc] using rest

/- The estimate is the mean of the first estimate and the measurements, weighted by their information; so the
order of the measurements does not matter. -/
theorem informationWeighted {f : KalmanFilter1D ℚ} (started : f.initialized = true) (error : 0 < f.estimateError)
    (noise : 0 < f.measurementNoise) {us : List (ℚ × ℚ)} (positive : ∀ u ∈ us, 0 < u.2) :
    let after := run measure f us
    1 / after.getError = 1 / f.getError + (us.map (fun u => u.2 / f.measurementNoise)).sum ∧
    after.estimate / after.getError = f.estimate / f.getError + (us.map (fun u => u.2 * u.1 / f.measurementNoise)).sum ∧
    ∀ us', us.Perm us' → (run measure f us').estimate = after.estimate ∧ (run measure f us').getError = after.getError := by
  intro after
  have informed : Informed f f.measurementNoise (1 / f.estimateError) (f.estimate / f.estimateError) :=
    ⟨started,rfl,error,rfl,rfl⟩
  have result := informedRun informed noise us positive
  refine ⟨result.information,result.weighted,?_⟩
  intro us' perm
  have other := informedRun informed noise us' (fun u mem => positive u (perm.mem_iff.mpr mem))
  have information : 1 / (run measure f us').estimateError = 1 / after.estimateError := by
    rw [other.information,result.information,(perm.map _).sum_eq]
  have errors : (run measure f us').estimateError = after.estimateError := by simpa using information
  refine ⟨?_,errors⟩
  have weighted : (run measure f us').estimate / (run measure f us').estimateError = after.estimate / after.estimateError := by
    rw [other.weighted,result.weighted,(perm.map _).sum_eq]
  rw [errors] at weighted
  exact (div_left_inj' result.error.ne').mp weighted

theorem informationOfTwo :
    let f : KalmanFilter1D ℚ := ⟨1/100,4,55,1,true⟩
    let after := run measure f [(56,2),(57,1)]
    1 / after.getError = 7/4 ∧ after.estimate / after.getError = 389/4 ∧
    (run measure f [(57,1),(56,2)]).estimate = after.estimate := by
  intro f after
  have positive : ∀ u ∈ [((56 : ℚ),(2 : ℚ)),(57,1)], 0 < u.2 := by decide +kernel
  obtain ⟨information,weighted,ordered⟩ := informationWeighted (f := f) rfl (by decide +kernel) (by decide +kernel) positive
  exact ⟨information.trans (by decide +kernel),weighted.trans (by decide +kernel),(ordered [(57,1),(56,2)] (.swap _ _ _)).1⟩

end Information

section Comparison

structure Measured where
  latitude : ℚ
  longitude : ℚ
  altitude : ℚ
  accuracyM : ℚ
  deriving DecidableEq, Repr

/- One turn of two runs: both predict over the same time, or each takes a fix of its own. -/
inductive Turn where
  | predict (dt : ℚ)
  | update (nearer further : Measured)
  deriving DecidableEq, Repr

def Turn.nearer : Turn → Op
  | .predict dt => .predict dt
  | .update m _ => .update m.latitude m.longitude m.altitude m.accuracyM

def Turn.further : Turn → Op
  | .predict dt => .predict dt
  | .update _ m => .update m.latitude m.longitude m.altitude m.accuracyM

structure Runs where
  nearer : KalmanFilterND ℚ
  further : KalmanFilterND ℚ

def turn (s : Runs) (t : Turn) : Runs := ⟨FilterRuns.step s.nearer t.nearer,FilterRuns.step s.further t.further⟩

/- The first run's fix is accepted, and at least as accurate as the second's. -/
def Nearer : Turn → Prop
  | .predict _ => True
  | .update m m' => Accepted m.accuracyM ∧ m.accuracyM ≤ m'.accuracyM

def SameAccuracy : Turn → Prop
  | .predict _ => True
  | .update m m' => Accepted m.accuracyM ∧ m.accuracyM = m'.accuracyM

/- Every error of the first run is at most that of the second. -/
def Ordered (s : Runs) : Prop :=
  s.nearer.getLatitudeError ≤ s.further.getLatitudeError ∧ s.nearer.getLongitudeError ≤ s.further.getLongitudeError ∧
  s.nearer.getAltitudeError ≤ s.further.getAltitudeError

def SameErrors (s : Runs) : Prop :=
  s.nearer.getLatitudeError = s.further.getLatitudeError ∧ s.nearer.getLongitudeError = s.further.getLongitudeError ∧
  s.nearer.getAltitudeError = s.further.getAltitudeError

/- Two filters with the same noises; where the second is under way the first is, too. -/
structure Narrower (f g : KalmanFilter1D ℚ) : Prop where
  sound : Sound f
  process : g.processNoise = f.processNoise
  measurement : g.measurementNoise = f.measurementNoise
  error : f.estimateError ≤ g.estimateError
  started : g.initialized = true → f.initialized = true

theorem narrowerPredict {f g : KalmanFilter1D ℚ} (narrower : Narrower f g) (dt : ℚ) : Narrower (f.predict dt) (g.predict dt) := by
  refine ⟨soundPredict narrower.sound dt,narrower.process,narrower.measurement,?_,narrower.started⟩
  change f.estimateError + f.processNoise * |dt| ≤ g.estimateError + g.processNoise * |dt|
  rw [narrower.process]
  exact add_le_add_left narrower.error _

/- An update of the first alone. -/
theorem narrowerLeft {f g : KalmanFilter1D ℚ} (narrower : Narrower f g) (z : ℚ) {weight : ℚ} (positive : 0 < weight) :
    Narrower (f.update z weight) g := by
  have sound := soundUpdate narrower.sound z positive
  have begun := updateStarts f z positive
  have after := updateSpec f z positive
  split at after
  · rename_i started
    have below : (f.update z weight).estimateError ≤ f.estimateError := by
      rw [updateError started narrower.sound.error narrower.sound.measurementNoise z positive]
      exact parallelBelow narrower.sound.error (div_pos narrower.sound.measurementNoise positive)
    refine ⟨sound,?_,?_,below.trans narrower.error,fun _ => begun⟩
    · rw [after]
      exact narrower.process
    · rw [after]
      exact narrower.measurement
  · refine ⟨sound,?_,?_,?_,fun _ => begun⟩
    · rw [after]
      exact narrower.process
    · rw [after]
      exact narrower.measurement
    · rw [after]
      exact narrower.error

/- An update of both, the first with no less weight. -/
theorem narrowerBoth {f g : KalmanFilter1D ℚ} (narrower : Narrower f g) (z z' : ℚ) {weight weight' : ℚ} (positive : 0 < weight')
    (heavier : weight' ≤ weight) : Narrower (f.update z weight) (g.update z' weight') := by
  have left := narrowerLeft narrower z (positive.trans_le heavier)
  have after := updateSpec g z' positive
  split at after
  · rename_i started
    have noise := narrower.sound.measurementNoise
    refine ⟨left.sound,?_,?_,?_,fun _ => left.started started⟩
    · rw [after]
      exact left.process
    · rw [after]
      exact left.measurement
    · have error : 0 < g.estimateError := narrower.sound.error.trans_le narrower.error
      rw [updateError (narrower.started started) narrower.sound.error noise z (positive.trans_le heavier),
        updateError started error (narrower.measurement ▸ noise) z' positive,narrower.measurement]
      exact parallelMono narrower.sound.error.le (div_pos noise (positive.trans_le heavier)) narrower.error
        (div_le_div_of_nonneg_left noise.le positive heavier)
  · refine ⟨left.sound,?_,?_,?_,fun _ => updateStarts f z (positive.trans_le heavier)⟩
    · rw [after]
      exact left.process
    · rw [after]
      exact left.measurement
    · rw [after]
      exact left.error

structure Compared (s : Runs) : Prop where
  latitude : Narrower s.nearer.latitudeFilter s.further.latitudeFilter
  longitude : Narrower s.nearer.longitudeFilter s.further.longitudeFilter
  altitude : Narrower s.nearer.altitudeFilter s.further.altitudeFilter

/- The three filters of an accepted update. -/
theorem updateFilters (f : KalmanFilterND ℚ) (m : Measured) (accepted : Accepted m.accuracyM) :
    let after := f.update m.latitude m.longitude m.altitude m.accuracyM
    after.latitudeFilter = f.latitudeFilter.update m.latitude (100 / m.accuracyM) ∧
    after.longitudeFilter = f.longitudeFilter.update m.longitude (100 / m.accuracyM) ∧
    after.altitudeFilter = f.altitudeFilter.update m.altitude (100 / m.accuracyM) := by
  intro after
  have test := accepting accepted.1 accepted.2
  exact ⟨(f.updateAccepted m.latitude m.longitude m.altitude test).1,(f.updateAccepted m.latitude m.longitude m.altitude test).2.1,
    (f.updateKeeps m.latitude m.longitude m.altitude test).2.2.1⟩

theorem comparedTurn {s : Runs} (compared : Compared s) (t : Turn) (nearer : Nearer t) : Compared (turn s t) := by
  cases t with
  | predict dt =>
    exact ⟨narrowerPredict compared.latitude dt,narrowerPredict compared.longitude dt,narrowerPredict compared.altitude dt⟩
  | update m m' =>
    obtain ⟨accepted,closer⟩ := nearer
    obtain ⟨north,east,up⟩ := updateFilters s.nearer m accepted
    have weight := weighed accepted
    by_cases both : Accepted m'.accuracyM
    · obtain ⟨north',east',up'⟩ := updateFilters s.further m' both
      have weight' := weighed both
      have heavier : 100 / m'.accuracyM ≤ 100 / m.accuracyM := div_le_div_of_nonneg_left (by norm_num) accepted.1 closer
      refine ⟨?_,?_,?_⟩ <;> dsimp only [turn,Turn.nearer,Turn.further,FilterRuns.step]
      · rw [north,north']
        exact narrowerBoth compared.latitude _ _ weight' heavier
      · rw [east,east']
        exact narrowerBoth compared.longitude _ _ weight' heavier
      · rw [up,up']
        exact narrowerBoth compared.altitude _ _ weight' heavier
    · -- the second run ignores its fix
      refine ⟨?_,?_,?_⟩ <;> dsimp only [turn,Turn.nearer,Turn.further,FilterRuns.step] <;> rw [ignored both]
      · rw [north]
        exact narrowerLeft compared.latitude _ weight
      · rw [east]
        exact narrowerLeft compared.longitude _ weight
      · rw [up]
        exact narrowerLeft compared.altitude _ weight

theorem comparedOrdered {s : Runs} (compared : Compared s) : Ordered s :=
  ⟨compared.latitude.error,compared.longitude.error,compared.altitude.error⟩

def Runs.new (q r v a : ℚ) : Runs := ⟨.new q r v a,.new q r v a⟩

def Turn.swap : Turn → Turn
  | .predict dt => .predict dt
  | .update m m' => .update m' m

/- The two runs the other way round. -/
theorem swapRun (s : Runs) (turns : List Turn) :
    run turn ⟨s.further,s.nearer⟩ (turns.map Turn.swap) = ⟨(run turn s turns).further,(run turn s turns).nearer⟩ := by
  induction turns generalizing s with
  | nil => rfl
  | cons t turns ih =>
    have one : turn ⟨s.further,s.nearer⟩ t.swap = ⟨(turn s t).further,(turn s t).nearer⟩ := by cases t <;> rfl
    rw [List.map_cons,runCons,runCons,one,ih]

theorem orderedRun {q r a : ℚ} (noise : 0 ≤ q) (measurement : 0 < r) (altitude : 0 < a) (v : ℚ) {turns : List Turn}
    (nearer : ∀ t ∈ turns, Nearer t) : Ordered (run turn (.new q r v a) turns) := by
  have fresh : ∀ {n : ℚ}, 0 < n → Narrower (.new q n) (.new q n) := fun positive => ⟨soundNew noise positive,rfl,rfl,le_rfl,id⟩
  have start : Compared (Runs.new q r v a) := ⟨fresh measurement,fresh measurement,fresh altitude⟩
  exact comparedOrdered (runKeeps (I := Compared) (P := Nearer) (fun _ t near compared => comparedTurn compared t near) nearer start)

/- All along two runs in which the first has the better fixes, its errors are the smaller ones, whatever
positions are measured; equal accuracies leave equal errors. -/
theorem betterFixesSmallerErrors {q r a : ℚ} (noise : 0 ≤ q) (measurement : 0 < r) (altitude : 0 < a) (v : ℚ) {turns : List Turn}
    (nearer : ∀ t ∈ turns, Nearer t) :
    Always turn Ordered (.new q r v a) turns ∧
    ((∀ t ∈ turns, SameAccuracy t) → Always turn SameErrors (.new q r v a) turns) := by
  constructor
  · rintro pre post rfl
    exact orderedRun noise measurement altitude v (fun t mem => nearer t (List.mem_append_left _ mem))
  · rintro same pre post rfl
    have equal : ∀ t ∈ pre, SameAccuracy t := fun t mem => same t (List.mem_append_left _ mem)
    have one : ∀ t, SameAccuracy t → Nearer t := by
      intro t accuracy
      cases t with
      | predict => trivial
      | update m m' => exact ⟨accuracy.1,accuracy.2.le⟩
    have other : ∀ t, SameAccuracy t → Nearer t.swap := by
      intro t accuracy
      cases t with
      | predict => trivial
      | update m m' => exact ⟨accuracy.2 ▸ accuracy.1,accuracy.2.ge⟩
    have forth := orderedRun noise measurement altitude v (fun t mem => one t (equal t mem))
    have turned : ∀ t ∈ pre.map Turn.swap, Nearer t := by
      intro t mem
      obtain ⟨u,old,rfl⟩ := List.mem_map.mp mem
      exact other u (equal u old)
    have back := orderedRun noise measurement altitude v turned
    have swapped := swapRun (.new q r v a) pre
    change run turn (.new q r v a) (pre.map Turn.swap) = _ at swapped
    rw [swapped] at back
    exact ⟨le_antisymm forth.1 back.1,le_antisymm forth.2.1 back.2.1,le_antisymm forth.2.2 back.2.2⟩

theorem betterFixesTwice :
    let turns : List Turn := [.update ⟨55,37,100,5⟩ ⟨10,10,0,50⟩,.predict 2,.update ⟨56,38,90,10⟩ ⟨-10,20,0,2000⟩]
    Always turn Ordered (.new (1/1000) 4 (1/100) 10) turns := by
  intro turns
  have nearer : ∀ t ∈ turns, Nearer t := by
    simp only [turns,List.forall_mem_cons,Nearer,Accepted]
    norm_num
  exact (betterFixesSmallerErrors (by norm_num) (by norm_num) (by norm_num) (1/100) nearer).1

end Comparison

section SteadyState

/- An update and a prediction. -/
def cycled (weight dt : ℚ) (f : KalmanFilter1D ℚ) (measurement : ℚ) : KalmanFilter1D ℚ := (f.update measurement weight).predict dt

def errors (f : KalmanFilter1D ℚ) (weight dt : ℚ) (z : ℕ → ℚ) (n : ℕ) : ℚ :=
  (run (cycled weight dt) f ((List.range n).map z)).getError

theorem cycledOnce {f : KalmanFilter1D ℚ} (sound : Sound f) (started : f.initialized = true) {weight : ℚ} (positive : 0 < weight)
    (dt measurement : ℚ) :
    let after := cycled weight dt f measurement
    Sound after ∧ after.initialized = true ∧ after.processNoise = f.processNoise ∧ after.measurementNoise = f.measurementNoise ∧
    after.getError = cycle (f.processNoise * |dt|) (f.measurementNoise / weight) f.getError := by
  intro after
  have spec := updateSpec f measurement positive
  rw [if_pos started] at spec
  refine ⟨soundPredict (soundUpdate sound measurement positive) dt,updateStarts f measurement positive,?_,?_,?_⟩
  · change (f.update measurement weight).processNoise = _
    rw [spec]
  · change (f.update measurement weight).measurementNoise = _
    rw [spec]
  · change (f.update measurement weight).estimateError + (f.update measurement weight).processNoise * |dt| = _
    rw [updateError started sound.error sound.measurementNoise measurement positive,spec]
    rfl

theorem cycledErrors {f : KalmanFilter1D ℚ} (sound : Sound f) (started : f.initialized = true) {weight : ℚ} (positive : 0 < weight)
    (dt : ℚ) (z : ℕ → ℚ) (n : ℕ) :
    errors f weight dt z (n+1) = cycle (f.processNoise * |dt|) (f.measurementNoise / weight) (errors f weight dt z n) := by
  have running : ∀ zs : List ℚ, let g := run (cycled weight dt) f zs
      Sound g ∧ g.initialized = true ∧ g.processNoise = f.processNoise ∧ g.measurementNoise = f.measurementNoise := by
    intro zs
    refine runKeeps (I := fun g => Sound g ∧ g.initialized = true ∧ g.processNoise = f.processNoise ∧
      g.measurementNoise = f.measurementNoise) (P := fun _ => True) ?_ (fun _ _ => trivial) ⟨sound,started,rfl,rfl⟩
    rintro g measurement _ ⟨still,begun,process,noise⟩
    obtain ⟨still,begun,process',noise',_⟩ := cycledOnce still begun positive dt measurement
    exact ⟨still,begun,process'.trans process,noise'.trans noise⟩
  obtain ⟨still,begun,process,noise⟩ := running ((List.range n).map z)
  have last := (cycledOnce still begun positive dt (z n)).2.2.2.2
  rw [process,noise] at last
  rw [errors,List.range_succ,List.map_append,runAppend]
  exact last

/- Cycles of an update and a prediction, whatever is measured: the error moves towards the root e of
e^2 = Q e + Q r, and never past it. -/
theorem errorsSettle {f : KalmanFilter1D ℚ} (started : f.initialized = true) (process : 0 ≤ f.processNoise)
    (measurement : 0 < f.measurementNoise) (error : 0 < f.estimateError) (dt : ℚ) {weight : ℚ} (positive : 0 < weight)
    (z : ℕ → ℚ) {e : ℝ} (above : 0 ≤ e)
    (root : e^2 = (f.processNoise * |dt| : ℚ) * e + (f.processNoise * |dt| : ℚ) * (f.measurementNoise / weight : ℚ)) :
    (∀ n, errors f weight dt z n ≤ e ∧ errors f weight dt z n ≤ errors f weight dt z (n+1)) ∨
    (∀ n, e ≤ errors f weight dt z n ∧ errors f weight dt z (n+1) ≤ errors f weight dt z n) := by
  have steady : Steady ((f.processNoise * |dt| : ℚ) : ℝ) ((f.measurementNoise / weight : ℚ) : ℝ) e :=
    ⟨Rat.cast_nonneg.mpr (mul_nonneg process (abs_nonneg dt)),Rat.cast_pos.mpr (div_pos measurement positive),above,root⟩
  have next : ∀ n, ((errors f weight dt z (n+1) : ℚ) : ℝ) = cycle ((f.processNoise * |dt| : ℚ) : ℝ)
      ((f.measurementNoise / weight : ℚ) : ℝ) (errors f weight dt z n) := by
    intro n
    rw [cycledErrors ⟨process,measurement,error⟩ started positive dt z n]
    simp only [cycle,parallel]
    push_cast
    rfl
  have settled := cyclesSettle steady (s := fun n => ((errors f weight dt z n : ℚ) : ℝ)) (Rat.cast_pos.mpr error) next
  simpa only [Rat.cast_le] using settled

/- From an error of 1, with Q = 1 and r = 2: upwards, to 2 at most. -/
theorem errorsSettleAtTwo :
    let f : KalmanFilter1D ℚ := ⟨1,2,0,1,true⟩
    ((errors f 1 1 (fun n => n) 1 : ℚ) : ℝ) ≤ 2 ∧ errors f 1 1 (fun n => n) 1 ≤ errors f 1 1 (fun n => n) 2 := by
  intro f
  have process : f.processNoise * |1| = 1 := by decide +kernel
  have noise : f.measurementNoise / 1 = 2 := by decide +kernel
  rcases errorsSettle (f := f) rfl (by decide +kernel) (by decide +kernel) (by decide +kernel) 1 one_pos (fun n => n)
    (e := 2) two_pos.le (by rw [process,noise]; norm_num) with up | down
  · exact up 1
  · have first : errors f 1 1 (fun n => n) 0 = 1 := by decide +kernel
    have high := (down 0).1
    rw [first] at high
    norm_num at high

end SteadyState

section FirstFix

/- Made or reset, and no fix accepted since. -/
inductive Unfixed : KalmanFilterND ℚ → Prop where
  | new (q r v a : ℚ) : Unfixed (.new q r v a)
  | reset (f : KalmanFilterND ℚ) : Unfixed f.reset
  | predict {f : KalmanFilterND ℚ} (dt : ℚ) : Unfixed f → Unfixed (f.predict dt)
  | refused {f : KalmanFilterND ℚ} (latitude longitude altitude : ℚ) {accuracyM : ℚ} : ¬ Accepted accuracyM → Unfixed f →
      Unfixed (f.update latitude longitude altitude accuracyM)

theorem unfixedFilter {f : KalmanFilterND ℚ} (unfixed : Unfixed f) : f.latitudeFilter.initialized = false := by
  induction unfixed with
  | new => rfl
  | reset => rfl
  | predict _ _ ih => exact ih
  | refused _ _ _ refused _ ih =>
    rw [ignored refused]
    exact ih

/- The latitude error after a first fix and what follows it. -/
def errorAfter (f : KalmanFilterND ℚ) (latitude longitude altitude accuracyM : ℚ) (ops : List Op) : ℚ :=
  (run FilterRuns.step (f.update latitude longitude altitude accuracyM) ops).getLatitudeError

/- After every later step the first fix of the second accuracy has left the larger error. -/
def FirstWeighted (f : KalmanFilterND ℚ) (latitude longitude altitude nearer further : ℚ) (ops : List Op) : Prop :=
  ∀ pre post, ops = pre ++ post → pre ≠ [] →
    errorAfter f latitude longitude altitude nearer pre < errorAfter f latitude longitude altitude further pre

theorem latitudeAlike {f g : KalmanFilterND ℚ} (same : f.latitudeFilter = g.latitudeFilter) (op : Op) :
    (FilterRuns.step f op).latitudeFilter = (FilterRuns.step g op).latitudeFilter := by
  cases op with
  | predict dt => exact congrArg (fun h => h.predict dt) same
  | update latitude longitude altitude accuracyM =>
    by_cases accepted : Accepted accuracyM
    · have test := accepting accepted.1 accepted.2
      dsimp only [FilterRuns.step]
      rw [(f.updateAccepted latitude longitude altitude test).1,(g.updateAccepted latitude longitude altitude test).1,same]
    · dsimp only [FilterRuns.step]
      rw [ignored accepted,ignored accepted]
      exact same
  | reset => exact congrArg KalmanFilter1D.reset same

/- The weight of a first measurement is only tested for its sign. -/
theorem firstLatitude {f : KalmanFilterND ℚ} (unfixed : Unfixed f) (latitude longitude altitude : ℚ) {accuracyM : ℚ}
    (accepted : Accepted accuracyM) :
    (f.update latitude longitude altitude accuracyM).latitudeFilter = {f.latitudeFilter with estimate := latitude, initialized := true} := by
  have taken := updateSpec f.latitudeFilter latitude (weighed accepted)
  rw [if_neg (by simp [unfixedFilter unfixed])] at taken
  exact (f.updateAccepted latitude longitude altitude (accepting accepted.1 accepted.2)).1.trans taken

theorem firstForgotten {f : KalmanFilterND ℚ} (unfixed : Unfixed f) (latitude longitude altitude : ℚ) {nearer further : ℚ}
    (accepted : Accepted nearer) (accepted' : Accepted further) (ops : List Op) :
    errorAfter f latitude longitude altitude nearer ops = errorAfter f latitude longitude altitude further ops := by
  have start : (f.update latitude longitude altitude nearer).latitudeFilter =
      (f.update latitude longitude altitude further).latitudeFilter := by
    rw [firstLatitude unfixed latitude longitude altitude accepted,firstLatitude unfixed latitude longitude altitude accepted']
  have both := bisimulates (R := fun f g : KalmanFilterND ℚ => f.latitudeFilter = g.latitudeFilter)
    (fun _ _ op same => ⟨(rfl : () = ()),latitudeAlike same op⟩) start ops
  exact congrArg KalmanFilter1D.estimateError both.2

/- The accuracy of the first fix leaves no trace in the error, so it never makes a difference where a step follows. -/
theorem firstWeightedIff {f : KalmanFilterND ℚ} (unfixed : Unfixed f) (latitude longitude altitude : ℚ) {nearer further : ℚ}
    (accepted : Accepted nearer) (accepted' : Accepted further) (ops : List Op) :
    (∀ pre post, ops = pre ++ post →
      errorAfter f latitude longitude altitude nearer pre = errorAfter f latitude longitude altitude further pre) ∧
    (FirstWeighted f latitude longitude altitude nearer further ops ↔ ops = []) := by
  refine ⟨fun pre _ _ => firstForgotten unfixed latitude longitude altitude accepted accepted' pre,?_⟩
  constructor
  · intro larger
    by_contra some
    have less := larger ops [] (List.append_nil ops).symm some
    rw [firstForgotten unfixed latitude longitude altitude accepted accepted' ops] at less
    exact lt_irrefl _ less
  · rintro rfl pre post split some
    exact absurd (List.append_eq_nil_iff.mp split.symm).1 some

theorem firstWeightedNowhere :
    let f : KalmanFilterND ℚ := .new (1/1000) 4 (1/100) 10
    errorAfter f 55 37 100 2 [.predict 1] = errorAfter f 55 37 100 50 [.predict 1] := by
  intro f
  have result := firstWeightedIff (.new (1/1000) 4 (1/100) 10) 55 37 100 (by decide +kernel : Accepted 2) (by decide +kernel : Accepted 50)
    [.predict 1]
  exact result.1 [.predict 1] [] rfl

/- A first fix of 2 or of 1000 metres, a tenth of a second and a fix of 2 metres: one error. -/
theorem firstAccuracyIgnored :
    let f : KalmanFilterND ℚ := .new (1/1000) 4 (1/100) 10
    let ops : List Op := [.predict (1/10),.update (5501/100) (3701/100) 100 2]
    errorAfter f 55 37 100 2 ops = errorAfter f 55 37 100 1000 ops ∧ ¬ FirstWeighted f 55 37 100 2 1000 ops := by
  intro f ops
  have same : errorAfter f 55 37 100 2 ops = errorAfter f 55 37 100 1000 ops := by decide +kernel
  exact ⟨same,fun larger => (larger ops [] rfl (by decide)).ne same⟩

end FirstFix
end UmapTracker.FilterErrors
