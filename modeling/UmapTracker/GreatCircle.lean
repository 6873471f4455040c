import Mathlib.Analysis.InnerProductSpace.PiL2
import Mathlib.Analysis.SpecialFunctions.Complex.Arg
import Mathlib.Geometry.Euclidean.Angle.Unoriented.TriangleInequality

/-! The unit sphere by latitude and longitude, in radians, and the angle between two of its points from their
haversine: the square of the sine of half that angle. -/
namespace UmapTracker.GreatCircle
open Real InnerProductGeometry

noncomputable section

def point (latitude longitude : ℝ) : EuclideanSpace ℝ (Fin 3) :=
  !₂[cos latitude * cos longitude,cos latitude * sin longitude,sin latitude]

def haversine (lat1 lon1 lat2 lon2 : ℝ) : ℝ :=
  sin ((lat2 - lat1) / 2)^2 + cos lat1 * cos lat2 * sin ((lon2 - lon1) / 2)^2

theorem innerPoint (lat1 lon1 lat2 lon2 : ℝ) : inner ℝ (point lat1 lon1) (point lat2 lon2) =
    cos lat1 * cos lat2 * cos (lon2 - lon1) + sin lat1 * sin lat2 := by
  rw [cos_sub]
  simp [point,PiLp.inner_apply,Fin.sum_univ_three]
  ring

@[simp] theorem normPoint (latitude longitude : ℝ) : ‖point latitude longitude‖ = 1 := by
  have square : ‖point latitude longitude‖^2 = 1 := by
    rw [← real_inner_self_eq_norm_sq,innerPoint,sub_self,cos_zero,mul_one,← sq,← sq,cos_sq_add_sin_sq]
  exact (pow_eq_one_iff_of_nonneg (norm_nonneg _) two_ne_zero).mp square

theorem haversineInner (lat1 lon1 lat2 lon2 : ℝ) : haversine lat1 lon1 lat2 lon2 =
    (1 - inner ℝ (point lat1 lon1) (point lat2 lon2)) / 2 := by
  have half : ∀ x : ℝ, sin (x / 2)^2 = (1 - cos x) / 2 := by
    intro x
    rw [sin_sq_eq_half_sub,mul_div_cancel₀ x two_ne_zero]
    ring
  rw [haversine,half,half,cos_sub lat2,innerPoint]
  ring

theorem cosAngle (lat1 lon1 lat2 lon2 : ℝ) :
    cos (angle (point lat1 lon1) (point lat2 lon2)) = inner ℝ (point lat1 lon1) (point lat2 lon2) := by
  rw [cos_angle,normPoint,normPoint,mul_one,div_one]

theorem haversineAngle (lat1 lon1 lat2 lon2 : ℝ) : haversine lat1 lon1 lat2 lon2 =
    (1 - cos (angle (point lat1 lon1) (point lat2 lon2))) / 2 := by
  rw [haversineInner,cosAngle]

theorem haversineMem (lat1 lon1 lat2 lon2 : ℝ) : haversine lat1 lon1 lat2 lon2 ∈ Set.Icc 0 1 := by
  rw [haversineAngle]
  constructor
  · linarith [cos_le_one (angle (point lat1 lon1) (point lat2 lon2))]
  · linarith [neg_one_le_cos (angle (point lat1 lon1) (point lat2 lon2))]

/- The half-angle form reaches every angle between two points, the antipodal ones included. -/
theorem argHalf {θ : ℝ} (low : 0 ≤ θ) (high : θ ≤ π) :
    2 * Complex.arg ⟨sqrt (1 - (1 - cos θ) / 2),sqrt ((1 - cos θ) / 2)⟩ = θ := by
  have cosine : sqrt (1 - (1 - cos θ) / 2) = cos (θ / 2) := by
    rw [cos_half (by linarith) high]
    congr 1
    ring
  have sine : sqrt ((1 - cos θ) / 2) = sin (θ / 2) := (sin_half_eq_sqrt low (by linarith)).symm
  have circle : (⟨cos (θ / 2),sin (θ / 2)⟩ : ℂ) = Complex.cos (θ / 2 : ℝ) + Complex.sin (θ / 2 : ℝ) * Complex.I := by
    rw [← Complex.ofReal_cos,← Complex.ofReal_sin]
    exact Complex.mk_eq_add_mul_I _ _
  rw [cosine,sine,circle,Complex.arg_cos_add_sin_mul_I ⟨by linarith [pi_pos],by linarith⟩]
  exact mul_div_cancel₀ θ two_ne_zero

theorem argHaversine (lat1 lon1 lat2 lon2 : ℝ) :
    2 * Complex.arg ⟨sqrt (1 - haversine lat1 lon1 lat2 lon2),sqrt (haversine lat1 lon1 lat2 lon2)⟩ =
      angle (point lat1 lon1) (point lat2 lon2) := by
  rw [haversineAngle]
  exact argHalf (angle_nonneg _ _) (angle_le_pi _ _)

theorem angleZeroIff (lat1 lon1 lat2 lon2 : ℝ) :
    angle (point lat1 lon1) (point lat2 lon2) = 0 ↔ point lat1 lon1 = point lat2 lon2 := by
  constructor
  · intro zero
    have one : inner ℝ (point lat1 lon1) (point lat2 lon2) = 1 := by rw [← cosAngle,zero,cos_zero]
    exact (inner_eq_one_iff_of_norm_eq_one (normPoint _ _) (normPoint _ _)).mp one
  · intro same
    rw [same]
    refine angle_self ?_
    rw [← norm_ne_zero_iff,normPoint]
    exact one_ne_zero

theorem poleIff {latitude : ℝ} (bound : |latitude| ≤ π / 2) : cos latitude = 0 ↔ |latitude| = π / 2 := by
  constructor
  · intro zero
    refine bound.eq_of_not_lt (fun inside => ?_)
    obtain ⟨south,north⟩ := abs_lt.mp inside
    exact (cos_pos_of_mem_Ioo ⟨south,north⟩).ne' zero
  · intro pole
    rw [← cos_abs,pole,cos_pi_div_two]

/- Two longitudes are one direction where they are the same, or on the two sides of the antimeridian. -/
theorem directionIff {lon1 lon2 : ℝ} (bound1 : |lon1| ≤ π) (bound2 : |lon2| ≤ π) :
    cos lon1 = cos lon2 ∧ sin lon1 = sin lon2 ↔ lon1 = lon2 ∨ |lon1 - lon2| = 2 * π := by
  constructor
  · rintro ⟨cosine,sine⟩
    obtain ⟨k,turns⟩ := Angle.angle_eq_iff_two_pi_dvd_sub.mp (Angle.cos_sin_inj cosine sine)
    have apart : |lon1 - lon2| ≤ 2 * π := by linarith [abs_sub lon1 lon2]
    have size : |lon1 - lon2| = 2 * π * |(k : ℝ)| := by rw [turns,abs_mul,abs_of_pos two_pi_pos]
    have once : |k| ≤ 1 := by
      have real : |(k : ℝ)| ≤ 1 := le_of_mul_le_mul_left (by linarith) two_pi_pos
      exact_mod_cast real
    rcases (abs_nonneg k).eq_or_lt with none | some
    · left
      have zero : k = 0 := abs_eq_zero.mp none.symm
      rw [zero,Int.cast_zero,mul_zero] at turns
      exact sub_eq_zero.mp turns
    · right
      have one : |k| = 1 := le_antisymm once some
      rw [size,← Int.cast_abs,one,Int.cast_one,mul_one]
  · rintro (rfl | apart)
    · exact ⟨rfl,rfl⟩
    · rcases (abs_eq two_pi_pos.le).mp apart with east | west
      · rw [sub_eq_iff_eq_add'.mp east,cos_add_two_pi,sin_add_two_pi]
        exact ⟨rfl,rfl⟩
      · rw [sub_eq_iff_eq_add'.mp west,← sub_eq_add_neg,cos_sub_two_pi,sin_sub_two_pi]
        exact ⟨rfl,rfl⟩

theorem pointEqIff (lat1 lon1 lat2 lon2 : ℝ) : point lat1 lon1 = point lat2 lon2 ↔
    cos lat1 * cos lon1 = cos lat2 * cos lon2 ∧ cos lat1 * sin lon1 = cos lat2 * sin lon2 ∧ sin lat1 = sin lat2 := by
  constructor
  · intro same
    exact ⟨congrArg (fun p => p 0) same,congrArg (fun p => p 1) same,congrArg (fun p => p 2) same⟩
  · rintro ⟨x,y,z⟩
    rw [point,point,x,y,z]

/- Coordinates of one point have the same latitude, and differ only in the longitude of a pole or by a whole turn. -/
theorem samePointIff {lat1 lon1 lat2 lon2 : ℝ} (latitude1 : |lat1| ≤ π / 2) (latitude2 : |lat2| ≤ π / 2)
    (longitude1 : |lon1| ≤ π) (longitude2 : |lon2| ≤ π) : point lat1 lon1 = point lat2 lon2 ↔
      lat1 = lat2 ∧ (|lat1| = π / 2 ∨ lon1 = lon2 ∨ |lon1 - lon2| = 2 * π) := by
  rw [pointEqIff,← poleIff latitude1,← directionIff longitude1 longitude2]
  constructor
  · rintro ⟨x,y,z⟩
    have same : lat1 = lat2 := injOn_sin (abs_le.mp latitude1) (abs_le.mp latitude2) z
    subst same
    refine ⟨rfl,or_iff_not_imp_left.mpr (fun off => ?_)⟩
    exact ⟨mul_left_cancel₀ off x,mul_left_cancel₀ off y⟩
  · rintro ⟨rfl,pole | ⟨cosine,sine⟩⟩
    · simp [pole]
    · rw [cosine,sine]
      exact ⟨rfl,rfl,rfl⟩

end

end UmapTracker.GreatCircle
