import UmapTracker.FormQuery
import UmapTracker.PrintedValues
import UmapTracker.TraccarClient

/-! What the query string and the JSON text of the Traccar client read as. The device id goes into both as it is. -/
namespace UmapTracker.ClientTexts
open Text Fields Numerals Double GeoTypes PrintedValues TraccarClient FormQuery
variable {α : Type} [Double α]

section Query
variable (r : Reader) (client : TraccarClient) (point : GpsPoint α)

/- What build_url appends to the server URL. -/
def appended : Bytes := (client.buildUrl point).drop client.serverUrl.length

def parametersRead : Option (List (Bytes × Bytes)) := (query (appended client point)).bind (pairs r)

/- The ten parameters are read once each, and the device id as it is. -/
def TenParameters : Prop :=
  ∃ ps, parametersRead r client point = some ps ∧ (ps.map Prod.fst).Perm (ascii "id"::parameterNames) ∧
    (ascii "id",client.deviceId) ∈ ps

/- Nothing in the id ends a parameter or is decoded. -/
def QueryId (id : Bytes) : Prop := (38 : UInt8) ∉ id ∧ (35 : UInt8) ∉ id ∧ Literal r id

/- What is left of the id in its parameter. -/
def segment (id : Bytes) : Bytes := id.takeWhile (fun b => b != 38 && b != 35)

end Query

/- A server URL that has no query of its own, and no fragment. -/
def BaseUrl (client : TraccarClient) : Prop := (63 : UInt8) ∉ client.serverUrl ∧ (35 : UInt8) ∉ client.serverUrl

variable {r : Reader} {client : TraccarClient} {point : GpsPoint α}

theorem appendedText (client : TraccarClient) (point : GpsPoint α) :
    appended client point = 63::(ascii "id" ++ 61::(client.deviceId ++ encode 38 61 (parameters point))) := by
  have mark : ascii "?id=" = 63::(ascii "id" ++ [61]) := by decide
  rw [appended,buildUrl,List.append_assoc,List.append_assoc,List.drop_left,mark]
  simp

theorem queryText (client : TraccarClient) (point : GpsPoint α) :
    query (appended client point) =
      some (ascii "id" ++ 61::(client.deviceId ++ encode 38 61 (parameters point)).takeWhile (· != 35)) := by
  have after := queryAfter (by decide : (63 : UInt8) ∉ []) (by decide) (ascii "id" ++ 61::(client.deviceId ++ encode 38 61 (parameters point)))
  rw [appendedText,← List.nil_append (63::_),after,List.takeWhile_append_of_pos (by decide),List.takeWhile_cons_of_pos (by decide)]

/- Then the query that is appended is the query of the URL. -/
theorem queryOfBase (base : BaseUrl client) (point : GpsPoint α) :
    query (client.buildUrl point) = query (appended client point) := by
  have whole : client.buildUrl point = client.serverUrl ++ appended client point := by
    rw [appended,buildUrl,List.append_assoc,List.append_assoc,List.drop_left]
  rw [whole,appendedText,queryAfter base.1 base.2,← List.nil_append (63::_),queryAfter (by decide) (by decide)]

theorem parametersSafe (point : GpsPoint α) :
    ∀ p ∈ parameters point, (∀ b ∈ p.1, b ≠ 37 ∧ b ≠ 43 ∧ b ≠ 35) ∧ ∀ b ∈ p.2, b ≠ 37 ∧ b ≠ 43 ∧ b ≠ 35 := by
  have safe : ∀ b, printed b = true → b ≠ 37 ∧ b ≠ 43 ∧ b ≠ 35 := by
    intro b shown
    rcases printedCases shown with ⟨low,_⟩ | letter
    · grind
    · exact (by decide : ∀ b ∈ ([45,46,97,102,105,110] : Bytes), b ≠ 37 ∧ b ≠ 43 ∧ b ≠ 35) b letter
  have names : ∀ n ∈ parameterNames, ∀ b ∈ n, b ≠ 37 ∧ b ≠ 43 ∧ b ≠ 35 := by decide
  intro p mem
  exact ⟨names p.1 (List.mem_map_of_mem (f := Prod.fst) mem),fun b inside => safe b (parametersPrinted point p mem b inside)⟩

theorem parametersText (point : GpsPoint α) : ∃ text, encode 38 61 (parameters point) = 38::text :=
  ⟨_,by rw [parameters,encode,List.flatMap_cons]; rfl⟩

theorem segmentPrefix (id : Bytes) : segment id <+: id := List.takeWhile_prefix _

/- The id comes first, as far as its parameter goes. -/
theorem idFirst {ps : List (Bytes × Bytes)} (read : parametersRead r client point = some ps) :
    ∃ value rest, ps = (ascii "id",value)::rest ∧ decode r (segment client.deviceId) = some value := by
  rw [parametersRead,queryText,Option.bind_some] at read
  obtain ⟨value,rest,same,decoded⟩ := pairsFirst (by decide) (decodeIff.mp (decodeSafe r (by decide))) read
  obtain ⟨text,others⟩ := parametersText point
  rw [others,List.takeWhile_takeWhile,takeWhileStops (by decide)] at decoded
  have both : (fun b : UInt8 => b != 38 && b != 35) = fun b => decide ((b != 38) = true ∧ (b != 35) = true) := by
    funext b
    rw [Bool.decide_and,Bool.decide_coe,Bool.decide_coe]
  exact ⟨value,rest,same,by rw [segment,both]; exact decoded⟩

theorem segmentWhole {id : Bytes} (whole : id.length ≤ (segment id).length) :
    segment id = id ∧ (38 : UInt8) ∉ id ∧ (35 : UInt8) ∉ id := by
  have same : segment id = id := (segmentPrefix id).eq_of_length_le whole
  have all := List.takeWhile_eq_self_iff.mp same
  exact ⟨same,fun mem => absurd (all 38 mem) (by decide),fun mem => absurd (all 35 mem) (by decide)⟩

theorem parametersOfPlainId (point : GpsPoint α) (plain : QueryId r client.deviceId) :
    parametersRead r client point = some ((ascii "id",client.deviceId)::parameters point) := by
  obtain ⟨no_separator,no_fragment,literal⟩ := plain
  have safe := parametersSafe point
  have absent : (35 : UInt8) ∉ client.deviceId ++ encode 38 61 (parameters point) := by
    intro mem
    rcases List.mem_append.mp mem with inside | inside
    · exact no_fragment inside
    obtain ⟨p,listed,here⟩ := List.mem_flatMap.mp inside
    obtain ⟨names,values⟩ := safe p listed
    rcases List.mem_cons.mp here with wrong | here
    · contradiction
    rcases List.mem_append.mp here with name | here
    · exact (names 35 name).2.2 rfl
    rcases List.mem_cons.mp here with wrong | value
    · contradiction
    · exact (values 35 value).2.2 rfl
  have id_segment : (38 : UInt8) ∉ ascii "id" ++ 61::client.deviceId := by
    simp only [List.mem_append,List.mem_cons,not_or]
    exact ⟨by decide,by decide,no_separator⟩
  have front : fields 38 61 (ascii "id" ++ 61::client.deviceId) = [(ascii "id",client.deviceId)] := by
    rw [fields,List.splitOn_eq_singleton id_segment,List.map_singleton,fieldEncoded (by decide)]
  have apart : fields 38 61 (ascii "id" ++ 61::(client.deviceId ++ encode 38 61 (parameters point))) =
      (ascii "id",client.deviceId)::parameters point := by
    rw [← List.cons_append,← List.append_assoc,fieldsEncoded (parametersPlain point),front]
    rfl
  rw [parametersRead,queryText,Option.bind_some,List.takeWhile_eq_self_iff.mpr (differs absent),pairs,apart]
  have name : Literal r (ascii "id") := decodeIff.mp (decodeSafe r (by decide))
  refine pairsLiteral (List.forall_mem_cons.mpr ⟨⟨name,literal⟩,?_⟩)
  intro p mem
  obtain ⟨names,values⟩ := safe p mem
  exact ⟨decodeIff.mp (decodeSafe r (fun b inside => ⟨(names b inside).1,(names b inside).2.1⟩)),
    decodeIff.mp (decodeSafe r (fun b inside => ⟨(values b inside).1,(values b inside).2.1⟩))⟩

theorem tenParameters (r : Reader) (client : TraccarClient) (point : GpsPoint α) :
    TenParameters r client point ↔ QueryId r client.deviceId := by
  constructor
  · rintro ⟨ps,read,names,given⟩
    obtain ⟨value,rest,rfl,decoded⟩ := idFirst read
    have unique : (((ascii "id",value)::rest).map Prod.fst).Nodup := names.nodup_iff.mpr (by decide)
    have same : value = client.deviceId := by
      rcases List.mem_cons.mp given with first | later
      · exact (Prod.mk.inj first).2.symm
      · exact absurd (List.mem_map_of_mem (f := Prod.fst) later) (List.nodup_cons.mp unique).1
    rw [same] at decoded
    obtain ⟨whole,no_separator,no_fragment⟩ := segmentWhole (decodeLength decoded)
    rw [whole] at decoded
    exact ⟨no_separator,no_fragment,decodeIff.mp decoded⟩
  · intro plain
    exact ⟨_,parametersOfPlainId point plain,List.Perm.refl _,List.mem_cons_self⟩

/- The query that is appended, which is that of the URL where the server URL has none, is read as the ten
parameters with the id exactly when the id is plain; another id ends its parameter early or is decoded. -/
theorem tenParametersIff (r : Reader) (client : TraccarClient) (point : GpsPoint α) :
    (BaseUrl client → query (client.buildUrl point) = query (appended client point)) ∧
    (TenParameters r client point ↔ QueryId r client.deviceId) :=
  ⟨fun base => queryOfBase base point,tenParameters r client point⟩

/- A second lat, in front of the point's own. -/
theorem idAddsParameter :
    let server : Reader := ⟨true,false⟩
    let client : TraccarClient := ⟨ascii "http://test.com:5055",ascii "a&lat=1"⟩
    let point : GpsPoint ℚ := ⟨⟨55,37⟩,0,0,100,5,1,1000,80,true⟩
    (parametersRead server client point).map (List.take 3) =
      some [(ascii "id",ascii "a"),(ascii "lat",ascii "1"),(ascii "lat",ascii "55.000000")] ∧
    ¬ TenParameters server client point := by
  intro server client point
  have start : (parametersRead server client point).map (List.take 3) =
      some [(ascii "id",ascii "a"),(ascii "lat",ascii "1"),(ascii "lat",ascii "55.000000")] := by decide +kernel
  refine ⟨start,?_⟩
  rintro ⟨ps,read,names,_⟩
  have eleven : (parametersRead server client point).map List.length = some 11 := by decide +kernel
  rw [read] at eleven
  have length := names.length_eq
  rw [List.length_map,Option.some.inj eleven] at length
  exact absurd length (by decide)

section Numbers
variable (client : TraccarClient) (point : GpsPoint α)

/- The doubles of the query string with their buffers. -/
def fieldBuffers : List (Bytes × Nat × α) :=
  [(ascii "lat",32,point.location.latitude),
   (ascii "lon",32,point.location.longitude),
   (ascii "altitude",32,point.altitudeM),
   (ascii "speed",32,point.speedKmh),
   (ascii "bearing",32,point.bearingDeg),
   (ascii "accuracy",32,point.accuracyM),
   (ascii "hdop",16,point.hdop)]

def parameter (name : Bytes) : Option Bytes := last 38 61 (client.buildUrl point) name

/- Every number is read as it was rounded. -/
def NumbersKept : Prop :=
  (∀ f ∈ fieldBuffers point, (parameter client point f.1).bind readDouble = rounded 6 f.2.2) ∧
  (parameter client point (ascii "timestamp")).bind readNat = some (toTraccarTimestamp point.timestampMs) ∧
  (parameter client point (ascii "batt")).bind readNat = some point.batteryPercent.toNat

/- The digits before the point are in the buffer, and what is cut off are zeros. -/
def Holds (size : Nat) (x : α) : Prop :=
  match fixed 6 x with
  | .finite negative units => Intact size 6 negative units
  | _ => False

instance (size : Nat) (x : α) : Decidable (Holds size x) := by unfold Holds; split <;> infer_instance

end Numbers

theorem buffersListed (point : GpsPoint α) :
    ∀ f ∈ fieldBuffers point, (f.1,encodeDouble f.2.1 f.2.2) ∈ parameters point ∧ 16 ≤ f.2.1 := by
  simp [fieldBuffers,parameters]

theorem someRoom {size : Nat} (large : 16 ≤ size) (negative : Bool) : 0 < room size negative := by
  have sign : (minus negative).length ≤ 1 := by cases negative <;> decide
  unfold room
  omega

/- The number that is left in a buffer. -/
theorem readEncoded {size : Nat} (large : 16 ≤ size) {x : α} {negative : Bool} {units : Nat}
    (shown : fixed 6 x = .finite negative units) : readDouble (encodeDouble size x) = some (cutValue size 6 negative units) := by
  simp only [encodeDouble,print,shown]
  exact readCut (someRoom large negative)

theorem cutRounded {size : Nat} (large : 16 ≤ size) {x : α} (finite : (rounded 6 x).isSome) :
    readDouble (encodeDouble size x) = rounded 6 x ↔ Holds size x := by
  cases shown : fixed 6 x with
  | finite negative units =>
    rw [readEncoded large shown]
    simp only [rounded,Holds,shown,Option.some.injEq]
    exact cutValueIff (someRoom large negative)
  | infinite negative => simp [rounded,shown] at finite
  | notANumber negative => simp [rounded,shown] at finite

theorem battText (batteryPercent : UInt32) : encodeUint 16 batteryPercent = decimal batteryPercent.toNat := by
  have digits : (decimal batteryPercent.toNat).length ≤ 10 := by
    have := batteryPercent.toNat_lt
    exact decimalLength (by omega)
  exact snprintfFits (Nat.lt_of_le_of_lt digits (by decide))

theorem integersKept (client : TraccarClient) (point : GpsPoint α) :
    (parameter client point (ascii "timestamp")).bind readNat = some (toTraccarTimestamp point.timestampMs) ∧
    (parameter client point (ascii "batt")).bind readNat = some point.batteryPercent.toNat := by
  refine ⟨urlTimestampBuilt client point,?_⟩
  have mem : (ascii "batt",encodeUint 16 point.batteryPercent) ∈ parameters point := by simp [parameters]
  rw [parameter,urlParameter client mem,battText]
  exact readDecimalText _

/- The numbers of finite fields are kept exactly when every one holds in its buffer. -/
theorem numbersKeptIff (client : TraccarClient) (point : GpsPoint α)
    (finite : ∀ f ∈ fieldBuffers point, (rounded 6 f.2.2).isSome) :
    NumbersKept client point ↔ ∀ f ∈ fieldBuffers point, Holds f.2.1 f.2.2 := by
  have one : ∀ f ∈ fieldBuffers point, (parameter client point f.1).bind readDouble = rounded 6 f.2.2 ↔ Holds f.2.1 f.2.2 := by
    intro f mem
    obtain ⟨inside,large⟩ := buffersListed point f mem
    rw [parameter,urlParameter client inside,Option.bind_some]
    exact cutRounded large (finite f mem)
  constructor
  · rintro ⟨kept,_⟩ f mem
    exact (one f mem).mp (kept f mem)
  · intro holds
    exact ⟨fun f mem => (one f mem).mpr (holds f mem),integersKept client point⟩

theorem ordinaryNumbersKept :
    let point : GpsPoint ℚ := ⟨⟨55,-37⟩,18/5,90,100,5,1,1000,80,true⟩
    NumbersKept ⟨ascii "http://test.com:5055",ascii "device-001"⟩ point := by
  intro point
  exact (numbersKeptIff _ point (by decide +kernel)).mpr (by decide +kernel)

/- Ten to the sixteenth is reported as ten to the fourteenth. -/
theorem largeHdopCut :
    let point : GpsPoint ℚ := ⟨⟨55,37⟩,0,0,100,5,10^16,1000,80,true⟩
    let client : TraccarClient := ⟨ascii "http://test.com:5055",ascii "device-001"⟩
    (∀ f ∈ fieldBuffers point, (rounded 6 f.2.2).isSome) ∧
    (parameter client point (ascii "hdop")).bind readDouble = some (10^14) ∧ ¬ NumbersKept client point := by
  intro point client
  have hdop : (parameter client point (ascii "hdop")).bind readDouble = some (10^14) := by decide +kernel
  refine ⟨by decide +kernel,hdop,?_⟩
  rintro ⟨kept,_⟩
  have same := kept (ascii "hdop",16,10^16) (by simp [fieldBuffers,point])
  rw [hdop] at same
  exact absurd same (by decide +kernel)

section JsonText
open Json

/- The members after the id, and the numbers that they show. -/
def numericRounding (point : GpsPoint α) : List (Bytes × Option Value) :=
  [integer "timestamp" (toTraccarTimestamp point.timestampMs),
   PrintedValues.double 6 "lat" point.location.latitude,
   PrintedValues.double 6 "lon" point.location.longitude,
   PrintedValues.double 1 "altitude" point.altitudeM,
   PrintedValues.double 1 "speed" point.speedKmh,
   PrintedValues.double 1 "bearing" point.bearingDeg,
   PrintedValues.double 1 "accuracy" point.accuracyM,
   integer "batt" point.batteryPercent.toNat,
   PrintedValues.double 1 "hdop" point.hdop]

/- The text is one JSON object of the id and the fields as they were rounded. -/
def JsonReadsBack (client : TraccarClient) (point : GpsPoint α) : Prop :=
  ∃ values, entries ((ascii "id",some (.string client.deviceId))::numericRounding point) = some values ∧
    Json.read (client.buildJsonPayload point) = some values

def Finite (point : GpsPoint α) : Prop := ∀ r ∈ numericRounding point, r.2.isSome

/- An id that a JSON string holds as it is. -/
def JsonId (id : Bytes) : Prop := Utf8.valid id = true ∧ ∀ b ∈ id, plain b = true

def jsonText (client : TraccarClient) (point : GpsPoint α) : Bytes := object (idMember client::numericMembers point)

theorem numericSpell (point : GpsPoint α) : List.Forall₂ Spells (numericMembers point) (numericRounding point) := by
  have six : 0 < 6 := by decide
  have one : 0 < 1 := by decide
  exact .cons (spellsInteger (by decide) _) (.cons (spellsDouble six (by decide) _) (.cons (spellsDouble six (by decide) _)
    (.cons (spellsDouble one (by decide) _) (.cons (spellsDouble one (by decide) _) (.cons (spellsDouble one (by decide) _)
    (.cons (spellsDouble one (by decide) _) (.cons (spellsInteger (by decide) _)
    (.cons (spellsDouble one (by decide) _) .nil))))))))

theorem jsonEnclosed (client : TraccarClient) (point : GpsPoint α) :
    jsonText client point =
      ascii "\x7b\"id\":\"" ++ (client.deviceId ++ 34::(encode 44 58 (numericMembers point) ++ [125])) := by
  have opening : ascii "\x7b\"id\":\"" = 123::34::105::100::34::58::34::[] := by decide
  have name : idMember client = (34::105::100::34::[],34::(client.deviceId ++ [34])) := rfl
  rw [jsonText,opening,name,objectListed,listed]
  simp

/- What stands around the id is ASCII. -/
theorem jsonValid (client : TraccarClient) (point : GpsPoint α) :
    Utf8.valid (jsonText client point) = Utf8.valid client.deviceId := by
  rw [jsonEnclosed]
  refine Utf8.validEnclosed (by decide) ?_ client.deviceId
  have members : ∀ m ∈ numericMembers point, (∀ b ∈ m.1, Utf8.ascii7 b = true) ∧ ∀ b ∈ m.2, Utf8.ascii7 b = true := by
    have names : ∀ n ∈ memberNames, ∀ b ∈ n, Utf8.ascii7 b = true := by decide
    intro m mem
    exact ⟨names m.1 (List.mem_map_of_mem (f := Prod.fst) mem),
      fun b inside => (printedBytes (numericMembersPrinted point m mem b inside)).1⟩
  refine List.forall_mem_cons.mpr ⟨by decide,fun b mem => ?_⟩
  rcases List.mem_append.mp mem with inside | closing
  · exact encodeKeeps (p := (Utf8.ascii7 · = true)) (by decide) (by decide) members b inside
  · cases List.mem_singleton.mp closing
    decide

theorem jsonPayloadText (client : TraccarClient) (point : GpsPoint α) :
    client.buildJsonPayload point =
      if (jsonText client point).length < BUFFER_SIZE then jsonText client point else ascii "\x7b\x7d" :=
  buildJsonPayloadSpec client point

theorem jsonTextRead {client : TraccarClient} (simple : JsonId client.deviceId) (point : GpsPoint α) :
    Json.read (jsonText client point) = entries ((ascii "id",some (.string client.deviceId))::numericRounding point) := by
  have name : ∀ b ∈ ascii "id", plain b = true := by decide
  have id : Spells (idMember client) (ascii "id",some (.string client.deviceId)) := ⟨rfl,name,readsString simple.2⟩
  have valid : Utf8.valid (jsonText client point) = true := by rw [jsonValid,simple.1]
  exact readSpelled (.cons id (numericSpell point)) valid

/- The JSON text of finite fields and an id that needs no escape gives them back where it fits the buffer, and is
an empty object where it does not. -/
theorem jsonReadsBack (client : TraccarClient) (point : GpsPoint α) (finite : Finite point) (simple : JsonId client.deviceId) :
    if (jsonText client point).length < BUFFER_SIZE then JsonReadsBack client point
    else client.buildJsonPayload point = ascii "\x7b\x7d" := by
  split
  · rename_i fits
    obtain ⟨values,known⟩ := entriesSome.mpr
      (List.forall_mem_cons.mpr ⟨rfl,finite⟩ : ∀ r ∈ (ascii "id",some (.string client.deviceId))::numericRounding point, r.2.isSome)
    exact ⟨values,known,by rw [jsonPayloadText,if_pos fits,jsonTextRead simple,known]⟩
  · rename_i long
    rw [jsonPayloadText,if_neg long]

theorem ordinaryJsonReadsBack :
    let point : GpsPoint ℚ := ⟨⟨55,-37⟩,18/5,90,100,5,1,1000,80,true⟩
    JsonReadsBack ⟨ascii "http://test.com:5055",ascii "device-001"⟩ point := by
  intro point
  have reads := jsonReadsBack ⟨ascii "http://test.com:5055",ascii "device-001"⟩ point (by unfold Finite; decide +kernel)
    (by unfold JsonId; decide +kernel)
  rwa [if_pos (by decide +kernel)] at reads

/- A long id gives an empty object; one with a quote gives another object, and one with a backslash, a control byte
or a byte that is not UTF-8 none. -/
theorem otherIdsMisread :
    let point : GpsPoint ℚ := ⟨⟨55,37⟩,0,0,100,5,1,1000,80,true⟩
    let client (id : Bytes) : TraccarClient := ⟨ascii "http://test.com:5055",id⟩
    Json.read ((client (List.replicate 960 97)).buildJsonPayload point) = some [] ∧
    (Json.read ((client (ascii "a\",\"lat\":1,\"x\":\"")).buildJsonPayload point)).map (List.take 2) =
      some [(ascii "id",.string (ascii "a")),(ascii "lat",.number 1)] ∧
    (∀ id ∈ [List.replicate 960 97,ascii "a\",\"lat\":1,\"x\":\"",ascii "a\\b",[7],[255]], ¬ JsonReadsBack (client id) point) := by
  intro point client
  refine ⟨by decide +kernel,by decide +kernel,?_⟩
  have other : ∀ id ∈ [List.replicate 960 97,ascii "a\",\"lat\":1,\"x\":\"",ascii "a\\b",[7],[255]],
      Json.read ((client id).buildJsonPayload point) ≠
        entries ((ascii "id",some (.string id))::numericRounding point) := by decide +kernel
  rintro id listed ⟨values,known,read⟩
  exact other id listed (read.trans known.symm)

end JsonText
end UmapTracker.ClientTexts
