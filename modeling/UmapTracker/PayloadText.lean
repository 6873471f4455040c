import UmapTracker.GpsPipeline
import UmapTracker.PrintedValues
import UmapTracker.TraccarClient

/-! What the text that process_location queues reads as. -/
namespace UmapTracker.PayloadText
open Text Fields Numerals Double GeoTypes KalmanFilter MessageQueue GpsPipeline PrintedValues Json
variable {α : Type} [Double α]

/- The members of the payload, and the numbers that they show. -/
def rounding (point : GpsPoint α) : List (Bytes × Option Value) :=
  [double 6 "lat" point.location.latitude,
   double 6 "lon" point.location.longitude,
   double 1 "speed" point.speedKmh,
   double 1 "bearing" point.bearingDeg,
   double 1 "altitude" point.altitudeM,
   double 1 "accuracy" point.accuracyM,
   integer "timestamp" point.timestampMs.toNat,
   integer "batt" point.batteryPercent.toNat,
   double 1 "hdop" point.hdop]

/- The text is one JSON object, and its members are the fields as they were rounded. -/
def ReadsBack (text : Bytes) (point : GpsPoint α) : Prop :=
  ∃ values, entries (rounding point) = some values ∧ Json.read text = some values

def Finite (point : GpsPoint α) : Prop := ∀ r ∈ rounding point, r.2.isSome

/- The signs and the digits in front of the points, with the digits of the two integers. -/
def frontLength (point : GpsPoint α) : Nat :=
  frontDigits 6 point.location.latitude + frontDigits 6 point.location.longitude + frontDigits 1 point.speedKmh +
  frontDigits 1 point.bearingDeg + frontDigits 1 point.altitudeM + frontDigits 1 point.accuracyM +
  (decimal point.timestampMs.toNat).length + (decimal point.batteryPercent.toNat).length + frontDigits 1 point.hdop

theorem membersSpell (point : GpsPoint α) : List.Forall₂ Spells (GpsPipeline.members point) (rounding point) := by
  have six : 0 < 6 := by decide
  have one : 0 < 1 := by decide
  exact .cons (spellsDouble six (by decide) _) (.cons (spellsDouble six (by decide) _) (.cons (spellsDouble one (by decide) _)
    (.cons (spellsDouble one (by decide) _) (.cons (spellsDouble one (by decide) _) (.cons (spellsDouble one (by decide) _)
    (.cons (spellsInteger (by decide) _) (.cons (spellsInteger (by decide) _)
    (.cons (spellsDouble one (by decide) _) .nil))))))))

def names : List Bytes :=
  ["lat","lon","speed","bearing","altitude","accuracy","timestamp","batt","hdop"].map (fun n => quoted (ascii n))

theorem membersBytes {p : UInt8 → Prop} (inNames : ∀ n ∈ names, ∀ b ∈ n, p b) (inValues : ∀ b, printed b = true → p b)
    (point : GpsPoint α) : ∀ m ∈ GpsPipeline.members point, (∀ b ∈ m.1, p b) ∧ ∀ b ∈ m.2, p b := by
  have values : ∀ m ∈ GpsPipeline.members point, ∀ b ∈ m.2, printed b = true := by
    simp only [GpsPipeline.members,List.forall_mem_cons]
    exact ⟨printPrinted 6 _,printPrinted 6 _,printPrinted 1 _,printPrinted 1 _,printPrinted 1 _,printPrinted 1 _,
      TraccarClient.decimalPrinted _,TraccarClient.decimalPrinted _,printPrinted 1 _,by simp⟩
  intro m mem
  exact ⟨inNames m.1 (List.mem_map_of_mem (f := Prod.fst) mem),fun b inside => inValues b (values m mem b inside)⟩

/- The text of finite fields: 112 bytes besides the digits in front of the points. -/
theorem wholeLength {point : GpsPoint α} (finite : Finite point) :
    (object (GpsPipeline.members point)).length = 112 + frontLength point := by
  have sizes : names.map List.length = [5,5,7,9,10,10,11,6,6] := by decide
  simp only [names,List.map_cons,List.map_nil,List.cons.injEq] at sizes
  simp only [Finite,rounding,List.forall_mem_cons,double,Option.isSome_map] at finite
  obtain ⟨lat,lon,speed,bearing,altitude,accuracy,_,_,hdop,_⟩ := finite
  rw [objectLength (by simp [GpsPipeline.members])]
  simp only [GpsPipeline.members,List.map_cons,List.map_nil,List.sum_cons,List.sum_nil,sizes,printLength _ lat,printLength _ lon,
    printLength _ speed,printLength _ bearing,printLength _ altitude,printLength _ accuracy,printLength _ hdop,frontLength]
  omega

theorem payloadRead (point : GpsPoint α) :
    Json.read (payload point) =
      if (object (GpsPipeline.members point)).length < bufferSize then entries (rounding point) else none := by
  split
  · rename_i fits
    rw [payload,snprintfFits fits]
    exact readSpelled (membersSpell point) (objectAscii (membersBytes (by decide) (fun b shown => (printedBytes shown).1) point))
  · rename_i long
    have bytes := membersBytes (p := (· ≠ 125)) (by decide) (fun b shown => (printedBytes shown).2) point
    refine cutUnread (fun m mem => ⟨fun inside => (bytes m mem).1 125 inside rfl,fun inside => (bytes m mem).2 125 inside rfl⟩) ?_
    rw [bufferSize] at long ⊢
    omega

theorem payloadFits {point : GpsPoint α} (finite : Finite point) (short : frontLength point < 400) :
    Json.read (payload point) = entries (rounding point) := by
  have size := wholeLength finite
  rw [payloadRead,if_pos (by rw [size,bufferSize]; omega)]

theorem payloadKnown {point : GpsPoint α} {values : List (Bytes × Value)} (read : Json.read (payload point) = some values) :
    Finite point ∧ frontLength point < 400 ∧ entries (rounding point) = some values := by
  rw [payloadRead] at read
  split at read <;> try contradiction
  rename_i fits
  have finite : Finite point := entriesSome.mp ⟨values,read⟩
  rw [wholeLength finite,bufferSize] at fits
  exact ⟨finite,by omega,read⟩

theorem readsBackIff (point : GpsPoint α) : ReadsBack (payload point) point ↔ Finite point ∧ frontLength point < 400 := by
  constructor
  · rintro ⟨values,_,read⟩
    obtain ⟨finite,short,_⟩ := payloadKnown read
    exact ⟨finite,short⟩
  · rintro ⟨finite,short⟩
    obtain ⟨values,known⟩ := entriesSome.mpr finite
    exact ⟨values,known,(payloadFits finite short).trans known⟩

/- A valid point's message is read as the filtered point exactly when the filter's numbers are finite and
their digits leave room in the buffer. -/
theorem payloadReadsIff (p : GpsProcessingPipeline α) (impl : Impl) (db : Db) (raw : GpsPoint α) (now : Int) (step : Exec)
    (valid : raw.isValid = true) :
    let filtered := (filter p raw).populatePoint raw
    (processLocation p impl db raw now step).2.2 = (enqueue impl db (some (text p raw)) now step).2 ∧
    (ReadsBack (text p raw) filtered ↔ Finite filtered ∧ frontLength filtered < 400) :=
  ⟨(processValid p impl db now step valid).2,readsBackIff _⟩

theorem ordinaryPayloadReads :
    let raw : GpsPoint ℚ := ⟨⟨55,37⟩,0,0,100,5,1,1000,80,true⟩
    raw.isValid = true ∧ ReadsBack (text .default raw) ((filter .default raw).populatePoint raw) := by
  intro raw
  have valid : raw.isValid = true := by decide +kernel
  refine ⟨valid,(payloadReadsIff .default .opened AutoTable.empty raw 0 .runs valid).2.mpr ⟨?_,?_⟩⟩
  · unfold Finite
    decide +kernel
  · decide +kernel

-- the largest double
def DBL_MAX : ℚ := 2^1024 - 2^971

/- Altitude and hdop are not checked; two of 309 digits do not fit, and what is queued ends in the middle of a number. -/
theorem largestFieldsCut :
    let raw : GpsPoint ℚ := ⟨⟨55,37⟩,0,0,DBL_MAX,5,DBL_MAX,1000,80,true⟩
    raw.isValid = true ∧ Finite ((filter .default raw).populatePoint raw) ∧
    ¬ ReadsBack (text .default raw) ((filter .default raw).populatePoint raw) := by
  intro raw
  refine ⟨by decide +kernel,by unfold Finite; decide +kernel,?_⟩
  rintro ⟨values,_,read⟩
  have unread : (Json.read (text .default raw)).isNone = true := by decide +kernel
  rw [read] at unread
  contradiction

end UmapTracker.PayloadText
