import UmapTracker.FilterErrors

/-! What the filter keeps of the first fix of a session, in exact arithmetic: a share that each later fix makes
smaller, by its weight and whatever it measures. -/
namespace UmapTracker.FilterMemory
open Machine KalmanFilter FilterHull FilterRuns FilterErrors

inductive Axis where
  | latitude | longitude | altitude
  deriving DecidableEq, Repr

namespace Axis

def filter (f : KalmanFilterND ℚ) : Axis → KalmanFilter1D ℚ
  | latitude => f.latitudeFilter
  | longitude => f.longitudeFilter
  | altitude => f.altitudeFilter

def of (m : Measured) : Axis → ℚ
  | latitude => m.latitude
  | longitude => m.longitude
  | altitude => m.altitude

theorem filterUpdate (axis : Axis) (f : KalmanFilterND ℚ) (m : Measured) (accepted : Accepted m.accuracyM) :
    axis.filter (f.update m.latitude m.longitude m.altitude m.accuracyM) = (axis.filter f).update (axis.of m) (100 / m.accuracyM) := by
  obtain ⟨north,east,up⟩ := updateFilters f m accepted
  cases axis with
  | latitude => exact north
  | longitude => exact east
  | altitude => exact up

theorem filterPredict (axis : Axis) (f : KalmanFilterND ℚ) (dt : ℚ) : axis.filter (f.predict dt) = (axis.filter f).predict dt := by
  cases axis <;> rfl

theorem filterReset (axis : Axis) (f : KalmanFilterND ℚ) : axis.filter f.reset = (axis.filter f).reset := by
  cases axis <;> rfl

end Axis

/- One more measurement: the share that is kept, against the error and against the weight measured so far. -/
theorem shareUpdate {m p0 p r total weight : ℚ} (kept : 0 ≤ m) (error : 0 < p) (noise : 0 < r) (positive : 0 < weight)
    (covered : m * p0 ≤ p) (faded : m * (r + p0*total) ≤ r) :
    let g := p / (p + r/weight)
    0 ≤ m * (1-g) ∧ m * (1-g) * p0 ≤ (1-g) * p ∧ m * (1-g) * (r + p0*(total+weight)) ≤ r := by
  intro g
  have divisor : 0 < p*weight + r := add_pos (mul_pos error positive) noise
  have rest : 1 - g = r / (p*weight + r) := by
    have sum : p + r/weight = (p*weight + r)/weight := by field_simp
    rw [show g = p / (p + r/weight) from rfl,sum]
    field_simp
    ring
  have share : 0 ≤ 1 - g := rest ▸ (div_pos noise divisor).le
  refine ⟨mul_nonneg kept share,?_,?_⟩
  · calc m * (1-g) * p0 = (1-g) * (m*p0) := by ring
      _ ≤ (1-g) * p := mul_le_mul_of_nonneg_left covered share
  · have bound : m * (r + p0*total) + m*p0*weight ≤ p*weight + r := by
      have weighted := mul_le_mul_of_nonneg_right covered positive.le
      linarith
    calc m * (1-g) * (r + p0*(total+weight)) = (1-g) * (m * (r + p0*total) + m*p0*weight) := by ring
      _ ≤ (1-g) * (p*weight + r) := mul_le_mul_of_nonneg_left bound share
      _ = r := by rw [rest,div_mul_cancel₀ r divisor.ne']

/- Two filters that differ in their estimates: by the share that is left of `apart` after measurements of the
weight `total`, the error having been p0 before them. -/
structure Faded (apart p0 total : ℚ) (f g : KalmanFilter1D ℚ) : Prop where
  twin : g = {f with estimate := g.estimate}
  sound : Sound f
  started : f.initialized = true
  share : ∃ m, 0 ≤ m ∧ g.estimate - f.estimate = m * apart ∧ m * p0 ≤ f.estimateError ∧
    m * (f.measurementNoise + p0*total) ≤ f.measurementNoise

section Faded
variable {apart p0 total : ℚ} {f g : KalmanFilter1D ℚ}

theorem fadedPredict (faded : Faded apart p0 total f g) (dt : ℚ) : Faded apart p0 total (f.predict dt) (g.predict dt) := by
  obtain ⟨twin,sound,started,m,kept,difference,covered,shrunk⟩ := faded
  refine ⟨?_,soundPredict sound dt,started,m,kept,difference,?_,shrunk⟩
  · rw [twin]
    rfl
  · exact covered.trans (le_add_of_nonneg_right (mul_nonneg sound.processNoise (abs_nonneg dt)))

theorem fadedUpdate (faded : Faded apart p0 total f g) (z : ℚ) {weight : ℚ} (positive : 0 < weight) :
    Faded apart p0 (total+weight) (f.update z weight) (g.update z weight) := by
  obtain ⟨twin,sound,started,m,kept,difference,covered,shrunk⟩ := faded
  have started' : g.initialized = true := by rw [twin]; exact started
  have same : gain g weight = gain f weight := by rw [twin]; rfl
  have one := updateSpec f z positive
  have two := updateSpec g z positive
  rw [if_pos started] at one
  rw [if_pos started',same] at two
  obtain ⟨share,under,shrunk⟩ := shareUpdate kept sound.error sound.measurementNoise positive covered shrunk
  refine ⟨?_,soundUpdate sound z positive,updateStarts f z positive,m * (1 - gain f weight),share,?_,?_,?_⟩
  · rw [one,two,twin]
  · rw [one,two]
    change (g.estimate + gain f weight * (z - g.estimate)) - (f.estimate + gain f weight * (z - f.estimate)) = _
    linear_combination (1 - gain f weight) * difference
  · rw [one]
    exact under
  · rw [one]
    exact shrunk

theorem fadedBound (faded : Faded apart p0 total f g) (before : 0 < p0) (weighted : 0 ≤ total) :
    |g.estimate - f.estimate| ≤ |apart| * (f.measurementNoise / (f.measurementNoise + p0*total)) := by
  obtain ⟨_,sound,_,m,kept,difference,_,shrunk⟩ := faded
  have divisor : 0 < f.measurementNoise + p0*total :=
    add_pos_of_pos_of_nonneg sound.measurementNoise (mul_nonneg before.le weighted)
  rw [difference,abs_mul,abs_of_nonneg kept,mul_comm]
  exact mul_le_mul_of_nonneg_left ((le_div_iff₀ divisor).mpr shrunk) (abs_nonneg apart)

end Faded

/- What a call adds to the weight of the measurements. -/
def weight : Op → ℚ
  | .update _ _ _ accuracyM => if Accepted accuracyM then 100 / accuracyM else 0
  | _ => 0

def weights (ops : List Op) : ℚ := (ops.map weight).sum

theorem weightNonneg (op : Op) : 0 ≤ weight op := by
  unfold weight
  split
  · split
    · rename_i accepted
      exact (weighed accepted).le
    · exact le_refl _
  · exact le_refl _

theorem weightsNonneg (ops : List Op) : 0 ≤ weights ops := by
  refine List.sum_nonneg (fun w mem => ?_)
  obtain ⟨op,_,rfl⟩ := List.mem_map.mp mem
  exact weightNonneg op

theorem fadedStep (axis : Axis) {apart p0 total : ℚ} {f g : KalmanFilterND ℚ} (faded : Faded apart p0 total (axis.filter f) (axis.filter g))
    {op : Op} (kept : op ≠ .reset) :
    Faded apart p0 (total + weight op) (axis.filter (FilterRuns.step f op)) (axis.filter (FilterRuns.step g op)) := by
  cases op with
  | predict dt =>
    rw [show weight (.predict dt) = 0 from rfl,add_zero,FilterRuns.step,FilterRuns.step,axis.filterPredict,axis.filterPredict]
    exact fadedPredict faded dt
  | update latitude longitude altitude accuracyM =>
    rw [weight,FilterRuns.step,FilterRuns.step]
    by_cases accepted : Accepted accuracyM
    · have one := axis.filterUpdate f ⟨latitude,longitude,altitude,accuracyM⟩ accepted
      have two := axis.filterUpdate g ⟨latitude,longitude,altitude,accuracyM⟩ accepted
      rw [if_pos accepted,one,two]
      exact fadedUpdate faded _ (weighed accepted)
    · rw [if_neg accepted,add_zero,ignored accepted,ignored accepted]
      exact faded
  | reset => contradiction

theorem fadedRun (axis : Axis) {apart p0 total : ℚ} (ops : List Op) {f g : KalmanFilterND ℚ}
    (faded : Faded apart p0 total (axis.filter f) (axis.filter g)) (kept : .reset ∉ ops) :
    Faded apart p0 (total + weights ops) (axis.filter (run FilterRuns.step f ops)) (axis.filter (run FilterRuns.step g ops)) := by
  induction ops generalizing f g total with
  | nil => simpa [weights] using faded
  | cons op ops ih =>
    obtain ⟨first,rest⟩ := not_or.mp (List.mem_cons.not.mp kept)
    have next := ih (fadedStep axis faded (Ne.symm first)) rest
    rwa [add_assoc] at next

theorem unfixedAxis (axis : Axis) {f : KalmanFilterND ℚ} (unfixed : Unfixed f) : (axis.filter f).initialized = false := by
  induction unfixed with
  | new => cases axis <;> rfl
  | reset => cases axis <;> rfl
  | predict dt _ ih => rw [axis.filterPredict]; exact ih
  | refused _ _ _ refused _ ih =>
    rw [ignored refused]
    exact ih

def fix (f : KalmanFilterND ℚ) (m : Measured) : KalmanFilterND ℚ := f.update m.latitude m.longitude m.altitude m.accuracyM

/- The first fix is taken as it is. -/
theorem firstTaken (axis : Axis) {f : KalmanFilterND ℚ} (unfixed : Unfixed f) (m : Measured) (accepted : Accepted m.accuracyM) :
    axis.filter (fix f m) = {axis.filter f with estimate := axis.of m, initialized := true} := by
  have taken := updateSpec (axis.filter f) (axis.of m) (weighed accepted)
  rw [if_neg (by simp [unfixedAxis axis unfixed])] at taken
  exact (axis.filterUpdate f m accepted).trans taken

theorem fadedFirst (axis : Axis) {f : KalmanFilterND ℚ} (unfixed : Unfixed f) (sound : Sound (axis.filter f)) {m m' : Measured}
    (accepted : Accepted m.accuracyM) (accepted' : Accepted m'.accuracyM) :
    Faded (axis.of m' - axis.of m) (axis.filter f).estimateError 0 (axis.filter (fix f m)) (axis.filter (fix f m')) := by
  have one := firstTaken axis unfixed m accepted
  have two := firstTaken axis unfixed m' accepted'
  refine ⟨by rw [one,two],?_,by rw [one],1,zero_le_one,by rw [one,two,one_mul],?_,?_⟩
  · rw [one]
    exact ⟨sound.processNoise,sound.measurementNoise,sound.error⟩
  · rw [one,one_mul]
  · rw [one,mul_zero,add_zero,one_mul]

theorem soundAxis {q r a : ℚ} (noise : 0 ≤ q) (measurement : 0 < r) (altitude : 0 < a) (v : ℚ) (axis : Axis) (ops : List Op) :
    Sound (axis.filter (run FilterRuns.step (.new q r v a) ops)) := by
  have start : Sound (axis.filter (.new q r v a)) := by
    cases axis with
    | latitude => exact soundNew noise measurement
    | longitude => exact soundNew noise measurement
    | altitude => exact soundNew noise altitude
  refine runKeeps (I := fun f : KalmanFilterND ℚ => Sound (axis.filter f)) (P := fun _ => True) (fun f op _ sound => ?_)
    (fun _ _ => trivial) start
  cases op with
  | predict dt =>
    rw [FilterRuns.step,axis.filterPredict]
    exact soundPredict sound dt
  | update latitude longitude altitude accuracyM =>
    rw [FilterRuns.step]
    by_cases accepted : Accepted accuracyM
    · rw [axis.filterUpdate f ⟨latitude,longitude,altitude,accuracyM⟩ accepted]
      exact soundUpdate sound _ (weighed accepted)
    · rw [ignored accepted]
      exact sound
  | reset =>
    rw [FilterRuns.step,axis.filterReset]
    exact soundReset sound

theorem noiseStep (axis : Axis) (f : KalmanFilterND ℚ) (op : Op) :
    (axis.filter (FilterRuns.step f op)).measurementNoise = (axis.filter f).measurementNoise := by
  have whole : (FilterRuns.step f op).reset = f.reset := by
    cases op with
    | predict dt => exact f.predictReset dt
    | update latitude longitude altitude accuracyM => exact f.updateReset latitude longitude altitude accuracyM
    | reset => rfl
  have one := congrArg (fun f => (axis.filter f).measurementNoise) whole
  simp only [axis.filterReset] at one
  exact one

theorem noiseRun (axis : Axis) (f : KalmanFilterND ℚ) (ops : List Op) :
    (axis.filter (run FilterRuns.step f ops)).measurementNoise = (axis.filter f).measurementNoise :=
  runKeeps (I := fun g => (axis.filter g).measurementNoise = (axis.filter f).measurementNoise) (P := fun _ => True)
    (fun g op _ same => (noiseStep axis g op).trans same) (fun _ _ => trivial) rfl

/- What is left of a first fix after later ones: r the noise of the axis, p0 the error at the first fix. -/
def left (axis : Axis) (f : KalmanFilterND ℚ) (ops : List Op) : ℚ :=
  let r := (axis.filter f).measurementNoise
  r / (r + (axis.filter f).estimateError * weights ops)

/- Two sessions with different first fixes and the same calls after them come together: on each axis they differ
by no more than that share of the distance of the first fixes. -/
theorem sessionsMeet {q r a : ℚ} (noise : 0 ≤ q) (measurement : 0 < r) (altitude : 0 < a) (v : ℚ) (pre : List Op)
    (unfixed : Unfixed (run FilterRuns.step (.new q r v a) pre)) {m m' : Measured} (accepted : Accepted m.accuracyM)
    (accepted' : Accepted m'.accuracyM) {ops : List Op} (kept : .reset ∉ ops) (axis : Axis) :
    let f := run FilterRuns.step (.new q r v a) pre
    |(axis.filter (run FilterRuns.step (fix f m') ops)).estimate - (axis.filter (run FilterRuns.step (fix f m) ops)).estimate| ≤
      |axis.of m' - axis.of m| * left axis f ops := by
  intro f
  have sound := soundAxis noise measurement altitude v axis pre
  have faded := fadedRun axis ops (fadedFirst axis unfixed sound accepted accepted') kept
  have bound := fadedBound faded sound.error (by rw [zero_add]; exact weightsNonneg ops)
  have same : (axis.filter (run FilterRuns.step (fix f m) ops)).measurementNoise = (axis.filter f).measurementNoise :=
    (noiseRun axis _ ops).trans (noiseStep axis f (.update m.latitude m.longitude m.altitude m.accuracyM))
  rwa [zero_add,same] at bound

section Standing

/- The receiver stands at c: every fix that is accepted measures it. -/
def Measures (axis : Axis) (c : ℚ) : Op → Prop
  | .update latitude longitude altitude accuracyM => Accepted accuracyM → axis.of ⟨latitude,longitude,altitude,accuracyM⟩ = c
  | _ => True

/- An estimate that is right stays right. -/
theorem rightStays (axis : Axis) {c : ℚ} {f : KalmanFilterND ℚ} (right : (axis.filter f).estimate = c) {ops : List Op}
    (kept : .reset ∉ ops) (measures : ∀ op ∈ ops, Measures axis c op) :
    (axis.filter (run FilterRuns.step f ops)).estimate = c := by
  have each : ∀ op ∈ ops, op ≠ Op.reset ∧ Measures axis c op :=
    fun op mem => ⟨fun same => kept (same ▸ mem),measures op mem⟩
  refine runKeeps (I := fun f => (axis.filter f).estimate = c) (P := fun op => op ≠ Op.reset ∧ Measures axis c op)
    (fun f op allowed right => ?_) each right
  cases op with
  | predict dt =>
    rw [FilterRuns.step,axis.filterPredict]
    exact right
  | update latitude longitude altitude accuracyM =>
    rw [FilterRuns.step]
    by_cases accepted : Accepted accuracyM
    · have there := allowed.2 accepted
      rw [axis.filterUpdate f ⟨latitude,longitude,altitude,accuracyM⟩ accepted,updateSpec _ _ (weighed accepted),there]
      split
      · change (axis.filter f).estimate + gain (axis.filter f) _ * (c - (axis.filter f).estimate) = c
        rw [right,sub_self,mul_zero,add_zero]
      · rfl
    · rw [ignored accepted]
      exact right
  | reset => exact absurd rfl allowed.1

def Axis.at (axis : Axis) (m : Measured) (c : ℚ) : Measured :=
  match axis with
  | latitude => {m with latitude := c}
  | longitude => {m with longitude := c}
  | altitude => {m with altitude := c}

theorem Axis.ofAt (axis : Axis) (m : Measured) (c : ℚ) : axis.of (axis.at m c) = c := by cases axis <;> rfl

theorem Axis.atAccuracy (axis : Axis) (m : Measured) (c : ℚ) : (axis.at m c).accuracyM = m.accuracyM := by cases axis <;> rfl

/- So a first fix is forgotten: another one would have made a difference of that share only, and a receiver that
stands still is found however wrong the first fix was. -/
theorem firstFixFades {q r a : ℚ} (noise : 0 ≤ q) (measurement : 0 < r) (altitude : 0 < a) (v : ℚ) (pre : List Op)
    (unfixed : Unfixed (run FilterRuns.step (.new q r v a) pre)) {m : Measured} (accepted : Accepted m.accuracyM)
    {ops : List Op} (kept : .reset ∉ ops) (axis : Axis) :
    let f := run FilterRuns.step (.new q r v a) pre
    let after := axis.filter (run FilterRuns.step (fix f m) ops)
    (∀ m', Accepted m'.accuracyM →
      |(axis.filter (run FilterRuns.step (fix f m') ops)).estimate - after.estimate| ≤ |axis.of m' - axis.of m| * left axis f ops) ∧
    ∀ c, (∀ op ∈ ops, Measures axis c op) → |after.estimate - c| ≤ |axis.of m - c| * left axis f ops := by
  intro f after
  refine ⟨fun m' accepted' => sessionsMeet noise measurement altitude v pre unfixed accepted accepted' kept axis,?_⟩
  intro c measures
  -- the session whose first fix was right
  have accepted' : Accepted (axis.at m c).accuracyM := by rwa [axis.atAccuracy]
  have right : (axis.filter (fix f (axis.at m c))).estimate = c := by
    rw [firstTaken axis unfixed _ accepted']
    exact axis.ofAt m c
  have meet : |after.estimate - _| ≤ _ := sessionsMeet noise measurement altitude v pre unfixed accepted' accepted kept axis
  rwa [rightStays axis right kept measures,axis.ofAt] at meet

theorem firstFixFadesTwo :
    let f : KalmanFilterND ℚ := .new (1/1000) 4 (1/100) 10
    let ops : List Op := [.predict 5,.update 50 30 120 10,.predict 5,.update 50 31 125 20]
    |(run FilterRuns.step (fix f ⟨57,30,120,10⟩) ops).latitudeFilter.estimate - 50| ≤ |57 - 50| * (4/19) := by
  intro f ops
  have measures : ∀ op ∈ ops, Measures .latitude 50 op := by simp [ops,Measures,Axis.of]
  have unfixed : Unfixed (run FilterRuns.step (.new (1/1000) 4 (1/100) 10) []) := .new (1/1000) 4 (1/100) 10
  have accepted : Accepted (⟨57,30,120,10⟩ : Measured).accuracyM := by decide +kernel
  have kept : .reset ∉ ops := by decide +kernel
  have bound := (firstFixFades (by decide +kernel) (by decide +kernel) (by decide +kernel) (1/100) [] unfixed accepted kept .latitude).2 50 measures
  have share : left .latitude f ops = 4/19 := by decide +kernel
  rw [← share]
  exact bound

end Standing
end UmapTracker.FilterMemory
