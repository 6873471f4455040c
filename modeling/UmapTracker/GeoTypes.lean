import Mathlib.Tactic.Linarith
import UmapTracker.Double

/-! core/geo_types.h. WGS84 coordinates and GPS points. -/
namespace UmapTracker.GeoTypes
open Double
variable {α : Type} [Double α]

structure Coordinate (α : Type) where
  latitude : α
  longitude : α
  deriving DecidableEq, Repr

namespace Coordinate

def zero : Coordinate α := ⟨lit 0,lit 0⟩

def isValid (c : Coordinate α) : Bool :=
  le (lit (-90)) c.latitude && le c.latitude (lit 90) &&
  le (lit (-180)) c.longitude && le c.longitude (lit 180)

def EARTH_RADIUS_M : α := lit 6371000

def distanceTo (c other : Coordinate α) : α :=
  let lat1Rad := c.latitude * pi / lit 180
  let lon1Rad := c.longitude * pi / lit 180
  let lat2Rad := other.latitude * pi / lit 180
  let lon2Rad := other.longitude * pi / lit 180
  let dlat := lat2Rad - lat1Rad
  let dlon := lon2Rad - lon1Rad
  let a := sin (dlat / lit 2) * sin (dlat / lit 2) +
    cos lat1Rad * cos lat2Rad * sin (dlon / lit 2) * sin (dlon / lit 2)
  let c := lit 2 * atan2 (sqrt a) (sqrt (lit 1 - a))
  EARTH_RADIUS_M * c

end Coordinate

structure GpsPoint (α : Type) where
  location : Coordinate α
  speedKmh : α
  bearingDeg : α
  altitudeM : α
  accuracyM : α
  hdop : α
  timestampMs : UInt32
  batteryPercent : UInt32
  isCharging : Bool
  deriving DecidableEq, Repr

namespace GpsPoint

-- GpsPoint()
def default : GpsPoint α := ⟨.zero,lit 0,lit 0,lit 0,lit 0,lit 0,0,0,false⟩

def isValid (p : GpsPoint α) : Bool :=
  p.location.isValid && lt (lit 0) p.accuracyM && lt p.accuracyM (lit 1000)

def penalizeAccuracy (accuracyM score : α) : α :=
  if lt (lit 100) accuracyM then score * lit (1/2)
  else if lt (lit 50) accuracyM then score * lit (7/10)
  else if lt (lit 20) accuracyM then score * lit (9/10)
  else score

def penalizeHdop (hdop score : α) : α :=
  if lt (lit 5) hdop then score * lit (1/2)
  else if lt (lit 2) hdop then score * lit (7/10)
  else score

-- a float in the source
def qualityScore (p : GpsPoint α) : α := penalizeHdop p.hdop (penalizeAccuracy p.accuracyM (lit 1))

theorem penalizedWorse {x x' s s' : ℚ} (worse : x ≤ x') (nonneg : 0 ≤ s') (lower : s' ≤ s) :
    (penalizeAccuracy x' s' ≤ penalizeAccuracy x s ∧ 0 ≤ penalizeAccuracy x' s') ∧
    (penalizeHdop x' s' ≤ penalizeHdop x s ∧ 0 ≤ penalizeHdop x' s') := by
  simp only [penalizeAccuracy,penalizeHdop,lit,lt,decide_eq_true_eq,id]
  refine ⟨⟨?_,?_⟩,?_,?_⟩ <;> split_ifs <;> linarith

/- A fix that is no better in either respect scores no better. -/
theorem qualityWorse {p p' : GpsPoint ℚ} (accuracy : p.accuracyM ≤ p'.accuracyM) (hdop : p.hdop ≤ p'.hdop) :
    0 ≤ p'.qualityScore ∧ p'.qualityScore ≤ p.qualityScore := by
  obtain ⟨lower,nonneg⟩ := (penalizedWorse (s := lit 1) accuracy (by decide : (0 : ℚ) ≤ lit 1) (le_refl _)).1
  obtain ⟨lower,nonneg⟩ := (penalizedWorse hdop nonneg lower).2
  exact ⟨nonneg,lower⟩

end GpsPoint
end UmapTracker.GeoTypes
