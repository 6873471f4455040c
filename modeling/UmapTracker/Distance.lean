import UmapTracker.GeoTypes
import UmapTracker.GreatCircle
import UmapTracker.RealArithmetic

/-! Coordinate::distance_to in exact arithmetic, with M_PI as π: the great circle between two coordinates. -/
namespace UmapTracker.Distance
open Double GeoTypes RealArithmetic InnerProductGeometry

/- The quantity a of distance_to. -/
def haversine {α : Type} [Double α] (c other : Coordinate α) : α :=
  let lat1Rad := c.latitude * pi / lit 180
  let lon1Rad := c.longitude * pi / lit 180
  let lat2Rad := other.latitude * pi / lit 180
  let lon2Rad := other.longitude * pi / lit 180
  let dlat := lat2Rad - lat1Rad
  let dlon := lon2Rad - lon1Rad
  sin (dlat / lit 2) * sin (dlat / lit 2) + cos lat1Rad * cos lat2Rad * sin (dlon / lit 2) * sin (dlon / lit 2)

theorem distanceHaversine {α : Type} [Double α] (c other : Coordinate α) : c.distanceTo other =
    Coordinate.EARTH_RADIUS_M * (lit 2 * atan2 (sqrt (haversine c other)) (sqrt (lit 1 - haversine c other))) := rfl

noncomputable section

def radians (degrees : ℝ) : ℝ := degrees * Real.pi / 180

/- The point of the unit sphere that a coordinate denotes. -/
def spherePoint (c : Coordinate ℝ) : EuclideanSpace ℝ (Fin 3) := GreatCircle.point (radians c.latitude) (radians c.longitude)

theorem haversineRadians (c other : Coordinate ℝ) : haversine c other =
    GreatCircle.haversine (radians c.latitude) (radians c.longitude) (radians other.latitude) (radians other.longitude) := by
  have half : (lit 2 : ℝ) = 2 := Rat.cast_ofNat 2
  have turn : (lit 180 : ℝ) = 180 := Rat.cast_ofNat 180
  rw [haversine,half,turn]
  change Real.sin ((radians other.latitude - radians c.latitude) / 2) * Real.sin ((radians other.latitude - radians c.latitude) / 2) +
    Real.cos (radians c.latitude) * Real.cos (radians other.latitude) * Real.sin ((radians other.longitude - radians c.longitude) / 2) *
      Real.sin ((radians other.longitude - radians c.longitude) / 2) = _
  rw [GreatCircle.haversine]
  ring

theorem distanceAngle (c other : Coordinate ℝ) : c.distanceTo other = 6371000 * angle (spherePoint c) (spherePoint other) := by
  have radius : (Coordinate.EARTH_RADIUS_M : ℝ) = 6371000 := Rat.cast_ofNat 6371000
  have one : (lit 1 : ℝ) = 1 := Rat.cast_one
  have two : (lit 2 : ℝ) = 2 := Rat.cast_ofNat 2
  rw [distanceHaversine,radius,one,two,haversineRadians]
  exact congrArg (6371000 * ·) (GreatCircle.argHaversine _ _ _ _)

theorem distanceZeroIff (c other : Coordinate ℝ) : c.distanceTo other = 0 ↔ spherePoint c = spherePoint other := by
  rw [distanceAngle,mul_eq_zero_iff_left (by norm_num)]
  exact GreatCircle.angleZeroIff _ _ _ _

/- The distance is that along the sphere, and so what it has to be of a metric. -/
theorem distanceGreatCircle (c other between : Coordinate ℝ) :
    (0 ≤ haversine c other ∧ haversine c other ≤ 1) ∧
    c.distanceTo other = 6371000 * angle (spherePoint c) (spherePoint other) ∧
    c.distanceTo other = other.distanceTo c ∧
    c.distanceTo other ≤ 6371000 * Real.pi ∧
    (c.distanceTo other = 0 ↔ spherePoint c = spherePoint other) ∧
    c.distanceTo other ≤ c.distanceTo between + between.distanceTo other := by
  refine ⟨?_,distanceAngle c other,?_,?_,distanceZeroIff c other,?_⟩
  · rw [haversineRadians]
    exact GreatCircle.haversineMem _ _ _ _
  · rw [distanceAngle,distanceAngle,angle_comm]
  · rw [distanceAngle]
    exact mul_le_mul_of_nonneg_left (angle_le_pi _ _) (by norm_num)
  · rw [distanceAngle,distanceAngle,distanceAngle,← mul_add]
    exact mul_le_mul_of_nonneg_left (angle_le_angle_add_angle _ _ _) (by norm_num)

theorem boundsValid {c : Coordinate ℝ} (valid : c.isValid = true) : |c.latitude| ≤ 90 ∧ |c.longitude| ≤ 180 := by
  simp only [Coordinate.isValid,Bool.and_eq_true,realLe] at valid
  obtain ⟨⟨⟨south,north⟩,west⟩,east⟩ := valid
  norm_num [lit] at south north west east
  exact ⟨abs_le.mpr ⟨south,north⟩,abs_le.mpr ⟨west,east⟩⟩

theorem absRadians (degrees : ℝ) : |radians degrees| = radians |degrees| := by
  have turn : (0 : ℝ) < 180 := by norm_num
  rw [radians,radians,abs_div,abs_mul,abs_of_pos Real.pi_pos,abs_of_pos turn]

theorem radiansMono {x y : ℝ} (below : x ≤ y) : radians x ≤ radians y := by
  have positive := Real.pi_pos
  unfold radians
  gcongr

theorem radiansInj (x y : ℝ) : radians x = radians y ↔ x = y := by
  rw [radians,radians,div_left_inj' (by norm_num),mul_left_inj' Real.pi_ne_zero]

theorem radiansSub (x y : ℝ) : radians x - radians y = radians (x - y) := by
  rw [radians,radians,radians]
  ring

/- Valid coordinates at no distance are the same, or at one pole, or on the two sides of the antimeridian. -/
theorem noDistanceIff {c other : Coordinate ℝ} (valid : c.isValid = true) (validOther : other.isValid = true) :
    c.distanceTo other = 0 ↔
      c.latitude = other.latitude ∧ (|c.latitude| = 90 ∨ c.longitude = other.longitude ∨ |c.longitude - other.longitude| = 360) := by
  have quarter : Real.pi / 2 = radians 90 := by unfold radians; ring
  have half : Real.pi = radians 180 := by unfold radians; ring
  have whole : 2 * Real.pi = radians 360 := by unfold radians; ring
  have latitude : ∀ x : ℝ, |x| ≤ 90 → |radians x| ≤ Real.pi / 2 := by
    intro x bound
    rw [quarter,absRadians]
    exact radiansMono bound
  have longitude : ∀ x : ℝ, |x| ≤ 180 → |radians x| ≤ Real.pi := by
    intro x bound
    rw [absRadians]
    exact (radiansMono bound).trans half.ge
  obtain ⟨here,across⟩ := boundsValid valid
  obtain ⟨hereOther,acrossOther⟩ := boundsValid validOther
  rw [distanceZeroIff,spherePoint,spherePoint,
    GreatCircle.samePointIff (latitude _ here) (latitude _ hereOther) (longitude _ across) (longitude _ acrossOther),
    radiansSub,absRadians,absRadians,quarter,whole,radiansInj,radiansInj,radiansInj,radiansInj]

end

end UmapTracker.Distance
