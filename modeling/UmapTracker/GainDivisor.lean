import UmapTracker.FilterHull

/-! The divisor of the gain, for noises that may be zero. get_gain looks at its divisor before it divides, update
does not: without measurement noise an update leaves no error, and the next one divides by zero. -/
namespace UmapTracker.GainDivisor
open Machine KalmanFilter FilterHull

inductive Op where
  | predict (dt : ℚ)
  | update (measurement weight : ℚ)
  | reset
  deriving DecidableEq, Repr

def step (f : KalmanFilter1D ℚ) : Op → KalmanFilter1D ℚ
  | .predict dt => f.predict dt
  | .update measurement weight => f.update measurement weight
  | .reset => f.reset

/- An update that comes to the division has something to divide by. -/
def Divides (f : KalmanFilter1D ℚ) : Op → Prop
  | .update _ weight => 0 < weight → f.initialized = true → f.estimateError + f.measurementNoise / weight ≠ 0
  | _ => True

/- What the calls tell without the filter: a measurement has been taken since the construction or the last reset,
and a later one has been taken that no growth of the error has followed. -/
structure Charge where
  started : Bool
  spent : Bool
  deriving DecidableEq, Repr

def charge (processNoise : ℚ) (c : Charge) : Op → Charge
  | .predict dt => {c with spent := c.spent && decide (processNoise * |dt| = 0)}
  | .update _ weight => if weight ≤ 0 then c else ⟨true,c.started⟩
  | .reset => ⟨false,false⟩

/- A measurement after the first is taken only with some error left. -/
def Charged (c : Charge) : Op → Prop
  | .update _ weight => 0 < weight → c.started = true → c.spent = false
  | _ => True

/- The errors and the noises are not negative. -/
structure Nonneg (f : KalmanFilter1D ℚ) : Prop where
  processNoise : 0 ≤ f.processNoise
  measurementNoise : 0 ≤ f.measurementNoise
  error : 0 ≤ f.estimateError

theorem nonnegUpdate {f : KalmanFilter1D ℚ} (nonneg : Nonneg f) (measurement : ℚ) {weight : ℚ} (positive : 0 < weight) :
    Nonneg (f.update measurement weight) := by
  rw [updateSpec f measurement positive]
  split
  · have more : f.estimateError ≤ f.estimateError + f.measurementNoise / weight :=
      le_add_of_nonneg_right (div_nonneg nonneg.measurementNoise positive.le)
    have below : gain f weight ≤ 1 := div_le_one_of_le₀ more (nonneg.error.trans more)
    exact ⟨nonneg.processNoise,nonneg.measurementNoise,mul_nonneg (sub_nonneg.mpr below) nonneg.error⟩
  · exact ⟨nonneg.processNoise,nonneg.measurementNoise,nonneg.error⟩

/- An update without weight is none. -/
theorem unweighed {f : KalmanFilter1D ℚ} (measurement : ℚ) {weight : ℚ} (none : weight ≤ 0) : f.update measurement weight = f :=
  if_pos (decide_eq_true none)

theorem nonnegStep {f : KalmanFilter1D ℚ} (nonneg : Nonneg f) (op : Op) : Nonneg (step f op) := by
  cases op with
  | predict dt =>
    exact ⟨nonneg.processNoise,nonneg.measurementNoise,add_nonneg nonneg.error (mul_nonneg nonneg.processNoise (abs_nonneg dt))⟩
  | update measurement weight =>
    rcases le_or_gt weight 0 with none | positive
    · rw [step,unweighed measurement none]
      exact nonneg
    · exact nonnegUpdate nonneg measurement positive
  | reset => exact ⟨nonneg.processNoise,nonneg.measurementNoise,zero_le_one⟩

theorem soundStep {f : KalmanFilter1D ℚ} (sound : Sound f) (op : Op) : Sound (step f op) := by
  cases op with
  | predict dt => exact soundPredict sound dt
  | update measurement weight =>
    rcases le_or_gt weight 0 with none | positive
    · rw [step,unweighed measurement none]
      exact sound
    · exact soundUpdate sound measurement positive
  | reset => exact soundReset sound

/- With measurement noise there is always something to divide by. -/
theorem soundDivides {f : KalmanFilter1D ℚ} (sound : Sound f) (op : Op) : Divides f op := by
  cases op with
  | update measurement weight =>
    intro positive _
    exact (add_pos sound.error (div_pos sound.measurementNoise positive)).ne'
  | predict dt => trivial
  | reset => trivial

/- A filter without measurement noise and what the calls tell of it. -/
structure Told (processNoise : ℚ) (f : KalmanFilter1D ℚ) (c : Charge) : Prop where
  process : f.processNoise = processNoise
  measurement : f.measurementNoise = 0
  nonneg : 0 ≤ f.estimateError
  started : f.initialized = c.started
  spent : f.estimateError = 0 ↔ c.spent = true
  first : c.started = false → c.spent = false

theorem toldDivides {q : ℚ} {f : KalmanFilter1D ℚ} {c : Charge} (told : Told q f c) (op : Op) : Divides f op ↔ Charged c op := by
  cases op with
  | update measurement weight =>
    rw [Divides,Charged,told.measurement,zero_div,add_zero,told.started,Ne,told.spent,Bool.not_eq_true]
  | predict dt => exact Iff.rfl
  | reset => exact Iff.rfl

theorem toldUpdate {q : ℚ} {f : KalmanFilter1D ℚ} {c : Charge} (told : Told q f c) (measurement : ℚ) {weight : ℚ}
    (positive : 0 < weight) (divides : Divides f (.update measurement weight)) : Told q (f.update measurement weight) ⟨true,c.started⟩ := by
  have taken := updateSpec f measurement positive
  cases started : c.started with
  | true =>
    have running : f.initialized = true := told.started.trans started
    have some : f.estimateError ≠ 0 := by simpa [told.measurement] using divides positive running
    have whole : gain f weight = 1 := by rw [gain,told.measurement,zero_div,add_zero,div_self some]
    rw [if_pos running,whole,sub_self,zero_mul] at taken
    rw [taken]
    exact ⟨told.process,told.measurement,le_rfl,running,by simp,by simp⟩
  | false =>
    have first : f.initialized = false := told.started.trans started
    rw [if_neg (by simp [first])] at taken
    rw [taken]
    have unspent : c.spent = false := told.first started
    exact ⟨told.process,told.measurement,told.nonneg,rfl,by simp [told.spent,unspent],by simp⟩

theorem toldStep {q : ℚ} (noise : 0 ≤ q) {f : KalmanFilter1D ℚ} {c : Charge} (told : Told q f c) {op : Op} (divides : Divides f op) :
    Told q (step f op) (charge q c op) := by
  cases op with
  | predict dt =>
    have added : 0 ≤ q * |dt| := mul_nonneg noise (abs_nonneg dt)
    have error : (step f (.predict dt)).estimateError = f.estimateError + q * |dt| := by
      rw [← told.process]
      rfl
    refine ⟨told.process,told.measurement,by rw [error]; exact add_nonneg told.nonneg added,told.started,?_,?_⟩
    · rw [error,add_eq_zero_iff_of_nonneg told.nonneg added,told.spent,charge,Bool.and_eq_true,decide_eq_true_eq]
    · intro first
      rw [charge,told.first first]
      rfl
  | update measurement weight =>
    rcases le_or_gt weight 0 with none | positive
    · rw [step,unweighed measurement none,charge,if_pos none]
      exact told
    · rw [charge,if_neg (not_le.mpr positive)]
      exact toldUpdate told measurement positive divides
  | reset => exact ⟨told.process,told.measurement,zero_le_one,rfl,iff_of_false one_ne_zero (by simp [charge]),fun _ => rfl⟩

/- The error is never negative; and no update divides by zero exactly where there is measurement noise, or every
measurement after the first two of a session finds an error that has grown since the one before. -/
theorem divisorIff {q r : ℚ} (noise : 0 ≤ q) (measurement : 0 ≤ r) (ops : List Op) :
    Allowed step Divides (.new q r) ops ∧ Always step (fun f => 0 ≤ f.getError) (.new q r) ops ↔
      0 < r ∨ Allowed (charge q) Charged ⟨false,false⟩ ops := by
  have nonneg : Always step (fun f => 0 ≤ f.getError) (.new q r) ops := by
    rintro pre post rfl
    have start : Nonneg (.new q r) := ⟨noise,measurement,zero_le_one⟩
    exact (runKeeps (I := Nonneg) (P := fun _ => True) (fun _ op _ nonneg => nonnegStep nonneg op) (fun _ _ => trivial) start).error
  rw [and_iff_left nonneg]
  rcases measurement.eq_or_lt with rfl | positive
  · have start : Told q (.new q 0) ⟨false,false⟩ := ⟨rfl,rfl,zero_le_one,rfl,iff_of_false one_ne_zero (by simp),fun _ => rfl⟩
    have keep : ∀ f c op, Told q f c → Divides f op → Told q (step f op) (charge q c op) :=
      fun _ _ _ told divides => toldStep noise told divides
    have alike : Allowed step Divides (.new q 0) ops ↔ Allowed (charge q) Charged ⟨false,false⟩ ops :=
      allowedAlike (R := Told q) (fun _ _ op told => toldDivides told op) keep start ops
    rw [alike]
    simp
  · refine iff_of_true ?_ (.inl positive)
    intro pre op post _
    have sound : Sound (run step (.new q r) pre) :=
      runKeeps (I := Sound) (P := fun _ => True) (fun _ op _ sound => soundStep sound op) (fun _ _ => trivial) (soundNew noise positive)
    exact soundDivides sound op

instance (f : KalmanFilter1D ℚ) : ∀ op, Decidable (Divides f op)
  | .predict _ => .isTrue trivial
  | .update .. => inferInstanceAs (Decidable (_ → _ → _ ≠ _))
  | .reset => .isTrue trivial

theorem divisorWithNoise :
    Allowed step Divides (.new 0 4) [.update 1 1,.update 2 1,.update 3 1] ∧
    Always step (fun f => 0 ≤ f.getError) (.new 0 4) [.update 1 1,.update 2 1,.update 3 1] :=
  (divisorIff le_rfl (by norm_num) [.update 1 1,.update 2 1,.update 3 1]).mpr (.inl (by norm_num))

/- Without noises the third measurement divides by zero; get_gain gives 0 there. -/
theorem thirdDivisionByZero :
    let f := run step (.new 0 0) [.update 1 1,.update 2 1]
    f.estimateError + f.measurementNoise / 1 = 0 ∧ f.initialized = true ∧ f.getGain = 0 ∧
    ¬ Allowed step Divides (.new 0 0) [.update 1 1,.update 2 1,.update 3 1] := by
  intro f
  have zero : f.estimateError + f.measurementNoise / 1 = 0 := by decide +kernel
  refine ⟨zero,by decide +kernel,by decide +kernel,fun allowed => ?_⟩
  exact allowed [.update 1 1,.update 2 1] (.update 3 1) [] rfl one_pos (by decide +kernel) zero

end UmapTracker.GainDivisor
