import UmapTracker.ClientTexts
import UmapTracker.PayloadText

/-! The three texts of one point: the payload that is queued, the JSON text of the client and its query string. -/
namespace UmapTracker.Encodings
open Text Fields Numerals Double GeoTypes GpsPipeline Json TraccarClient FormQuery PrintedValues ClientTexts
variable {α : Type} [Double α]

/- The fields of all three texts, with the fewer of the decimals they are printed with. -/
def common : List (Bytes × Nat) :=
  [(ascii "lat",6),(ascii "lon",6),(ascii "altitude",1),(ascii "speed",1),(ascii "bearing",1),(ascii "accuracy",1),
   (ascii "timestamp",0),(ascii "batt",0),(ascii "hdop",1)]

/- Less than a unit of the last decimal apart. -/
def Near (places : Nat) (x y : ℚ) : Prop := |x - y| < 1 / 10^places

def FieldAgrees (a b : List (Bytes × Value)) (c : List (Bytes × Bytes)) (f : Bytes × Nat) : Prop :=
  ∃ x y z, a.lookup f.1 = some (.number x) ∧ b.lookup f.1 = some (.number y) ∧ (c.lookup f.1).bind readDouble = some z ∧
    Near f.2 x y ∧ Near f.2 x z ∧ Near f.2 y z

/- All three texts are read, with no other field and none twice, and agree on the fields they have in common. -/
def Agree (r : Reader) (client : TraccarClient) (point : GpsPoint α) : Prop :=
  ∃ a b c, Json.read (payload point) = some a ∧ Json.read (client.buildJsonPayload point) = some b ∧
    parametersRead r client point = some c ∧ (a.map Prod.fst).Perm (common.map Prod.fst) ∧
    (b.map Prod.fst).Perm (ascii "id"::common.map Prod.fst) ∧ (c.map Prod.fst).Perm (ascii "id"::common.map Prod.fst) ∧
    (∃ id, b.lookup (ascii "id") = some (.string id) ∧ c.lookup (ascii "id") = some id) ∧
    ∀ f ∈ common, FieldAgrees a b c f

section Ids

/- Marks of the query string, which no escape of JSON has. -/
def mark (b : UInt8) : Int := if b = 37 ∨ b = 38 ∨ b = 35 then 1 else 0

/- An escape of the query string weighs more than its byte, and one of JSON less than its character. -/
def tilt (b : UInt8) : Int :=
  if b = 92 then -6 else if b = 117 then -5 else if b = 37 ∨ b = 43 ∨ (hexDigit b).isSome then 1 else 0

theorem markNonneg : ∀ b, 0 ≤ mark b ∧ mark b ≤ 1 := everyByte (by decide +kernel)

theorem tiltBounds : ∀ b, -6 ≤ tilt b ∧ tilt b ≤ 1 := everyByte (by decide +kernel)

theorem tiltHex : ∀ b, (hexDigit b).isSome → tilt b = 1 ∧ mark b = 0 := everyByte (by decide +kernel)

theorem tiltHigh : ∀ b : UInt8, 128 ≤ b → tilt b = 0 := everyByte (by decide +kernel)

theorem markWeight (text : Bytes) : 0 ≤ weigh mark text := by
  induction text with
  | nil => exact le_rfl
  | cons b text ih =>
    have first := (markNonneg b).1
    rw [weighCons]
    omega

theorem hex4Weights {digits : Bytes} (four : Hex4 digits) : weigh tilt digits = 4 ∧ weigh mark digits = 0 := by
  obtain ⟨length,all⟩ := four
  have sum : ∀ {digits : Bytes}, (∀ b ∈ digits, (hexDigit b).isSome) →
      weigh tilt digits = digits.length ∧ weigh mark digits = 0 := by
    intro digits all
    induction digits with
    | nil => exact ⟨rfl,rfl⟩
    | cons b digits ih =>
      obtain ⟨first,rest⟩ := List.forall_mem_cons.mp all
      obtain ⟨one,none⟩ := tiltHex b first
      obtain ⟨others,nones⟩ := ih rest
      simp only [weighCons,one,none,others,nones,List.length_cons]
      omega
  have total := sum all
  rw [length] at total
  exact total

theorem characterTilt {code : Nat} (below : code < 1114112) : -6 ≤ weigh tilt (character code) := by
  by_cases small : code < 128
  · have low := (tiltBounds code.toUInt8).1
    rw [character,if_pos small]
    simpa using low
  · have high := characterHigh (Nat.not_lt.mp small) below
    have none : ∀ t ∈ (character code).map tilt, t = 0 := by
      intro t mem
      obtain ⟨b,inside,rfl⟩ := List.mem_map.mp mem
      exact tiltHigh b (high b inside)
    rw [weigh,List.sum_eq_zero none]
    decide

theorem escapeMarks {e c : Bytes} (one : Escape e c) : weigh mark (92::e) ≤ weigh mark c := by
  have from_zero := markWeight c
  cases one with
  | letter listed =>
    have table : ∀ p ∈ letters, weigh mark [92,p.1] ≤ weigh mark [p.2] := by decide
    have one := table _ listed
    exact one
  | unit four _ =>
    have digits := (hex4Weights four).2
    have zero : mark 92 = 0 ∧ mark 117 = 0 := by decide
    simp only [weighCons,digits,zero] at from_zero ⊢
    omega
  | pair first second _ _ =>
    have high := (hex4Weights first).2
    have low := (hex4Weights second).2
    have zero : mark 92 = 0 ∧ mark 117 = 0 := by decide
    simp only [weighCons,weighAppend,high,low,zero] at from_zero ⊢
    omega

theorem escapeTilts {e c : Bytes} (one : Escape e c) : weigh tilt (92::e) < weigh tilt c := by
  have weights : tilt 92 = -6 ∧ tilt 117 = -5 := by decide
  cases one with
  | letter listed =>
    have table : ∀ p ∈ letters, weigh tilt [92,p.1] < weigh tilt [p.2] := by decide
    have one := table _ listed
    exact one
  | unit four below =>
    have digits := (hex4Weights four).1
    have out := characterTilt (below.trans (by decide))
    simp only [weighCons,digits,weights]
    omega
  | pair first second from_plane below =>
    have high := (hex4Weights first).1
    have low := (hex4Weights second).1
    have out := characterTilt below
    simp only [weighCons,weighAppend,high,low,weights]
    omega

theorem markSinks : Sinks mark := by
  refine ⟨by decide,?_⟩
  intro a b x y first second
  have out := (markNonneg (16*x+y).toUInt8).2
  have percent : mark 37 = 1 := rfl
  have one := (markNonneg a).1
  have two := (markNonneg b).1
  omega

theorem tiltFalls : Falls tilt := by
  refine ⟨by decide,?_⟩
  intro a b x y first second
  have out := (tiltBounds (16*x+y).toUInt8).2
  have percent : tilt 37 = 1 := rfl
  have one := (tiltHex a (by simp [first])).1
  have two := (tiltHex b (by simp [second])).1
  omega

/- What the query string and the JSON text both take for one string is an id that both leave as it is. -/
theorem idPlain {r : Reader} {id d : Bytes} (spelled : Spelled id d) (decoded : decode r (segment id) = some d) :
    (∀ b ∈ id, plain b = true) ∧ QueryId r id := by
  have split : segment id ++ id.dropWhile (fun b => b != 38 && b != 35) = id := List.takeWhile_append_dropWhile
  have lost := decodeSinks markSinks decoded
  have kept := spelledRises escapeMarks spelled
  have whole : segment id = id := by
    cases rest : id.dropWhile (fun b => b != 38 && b != 35) with
    | nil => rwa [rest,List.append_nil] at split
    | cons b more =>
      have stop := List.head?_dropWhile_not (fun b : UInt8 => b != 38 && b != 35) id
      rw [rest] at stop
      have heavy : mark b = 1 := by
        simp only [List.head?_cons,Bool.and_eq_false_iff,bne_eq_false_iff_eq] at stop
        rcases stop with rfl | rfl <;> rfl
      have tail := markWeight more
      rw [rest] at split
      rw [← split] at kept
      rw [weighAppend,weighCons,heavy] at kept
      omega
  obtain ⟨_,no_separator,no_fragment⟩ := segmentWhole (by rw [whole])
  rw [whole] at decoded
  rcases spelledGains escapeTilts spelled with ⟨rfl,all⟩ | lighter
  · exact ⟨all,no_separator,no_fragment,decodeIff.mp decoded⟩
  · rcases decodeFalls tiltFalls decoded with ⟨rfl,_⟩ | heavier
    · exact absurd lighter (lt_irrefl _)
    · exact absurd lighter heavier.not_gt

end Ids

section Condition

/- The doubles of a point: name, decimals in the JSON texts, buffer in the query string. -/
def doubles (point : GpsPoint α) : List (String × Nat × Nat × α) :=
  [("lat",6,32,point.location.latitude),
   ("lon",6,32,point.location.longitude),
   ("altitude",1,32,point.altitudeM),
   ("speed",1,32,point.speedKmh),
   ("bearing",1,32,point.bearingDeg),
   ("accuracy",1,32,point.accuracyM),
   ("hdop",1,16,point.hdop)]

/- What the buffer leaves of six decimals is less than a unit of the last decimal off the number in the JSON texts. -/
def Keeps (places size : Nat) (x : α) : Prop :=
  match fixed places x,fixed 6 x with
  | .finite negative units,.finite negative' units' =>
    Near places (fixedValue places negative units) (cutValue size 6 negative' units')
  | _,_ => False

/- The condition on the id, the time and the magnitudes. -/
structure Representable (r : Reader) (client : TraccarClient) (point : GpsPoint α) : Prop where
  time : point.timestampMs = 0
  finite : PayloadText.Finite point
  payload : PayloadText.frontLength point < 400
  text : (jsonText client point).length < BUFFER_SIZE
  jsonId : JsonId client.deviceId
  queryId : QueryId r client.deviceId
  doubles : ∀ f ∈ doubles point, Keeps f.2.1 f.2.2.1 f.2.2.2

end Condition

variable {r : Reader} {client : TraccarClient} {point : GpsPoint α}

theorem doublesListed (point : GpsPoint α) :
    ∀ f ∈ doubles point, (ascii f.1,f.2.1) ∈ common ∧
      PrintedValues.double f.2.1 f.1 f.2.2.2 ∈ PayloadText.rounding point ∧
      PrintedValues.double f.2.1 f.1 f.2.2.2 ∈ numericRounding point ∧
      (ascii f.1,encodeDouble f.2.2.1 f.2.2.2) ∈ parameters point ∧ 16 ≤ f.2.2.1 := by
  simp [doubles,common,PayloadText.rounding,numericRounding,parameters]

omit [Double α] in
theorem commonCases (point : GpsPoint α) :
    ∀ f ∈ common, (∃ d ∈ doubles point, f = (ascii d.1,d.2.1)) ∨ f = (ascii "timestamp",0) ∨ f = (ascii "batt",0) := by
  simp [doubles,common]

/- "inf" and "nan" fit every buffer, and are no numbers. -/
theorem readWord {size : Nat} (large : 16 ≤ size) (negative : Bool) :
    readDouble (snprintf size (ascii (if negative then "-inf" else "inf"))).1 = none ∧
    readDouble (snprintf size (ascii (if negative then "-nan" else "nan"))).1 = none := by
  have short : (ascii (if negative then "-inf" else "inf")).length < 16 ∧
      (ascii (if negative then "-nan" else "nan")).length < 16 := by cases negative <;> decide
  rw [snprintfFits (short.1.trans_le large),snprintfFits (short.2.trans_le large)]
  cases negative <;> decide +kernel

theorem keepsIff {places size : Nat} (large : 16 ≤ size) {x : α} :
    Keeps places size x ↔ ∃ q z, rounded places x = some q ∧ readDouble (encodeDouble size x) = some z ∧ Near places q z := by
  cases shown : fixed 6 x with
  | finite negative units =>
    rw [readEncoded large shown]
    unfold Keeps rounded
    rw [shown]
    cases fixed places x <;> simp
  | infinite negative =>
    have unread : readDouble (encodeDouble size x) = none := by
      simp only [encodeDouble,print,shown]
      exact (readWord large negative).1
    unfold Keeps
    rw [shown,unread]
    simp
  | notANumber negative =>
    have unread : readDouble (encodeDouble size x) = none := by
      simp only [encodeDouble,print,shown]
      exact (readWord large negative).2
    unfold Keeps
    rw [shown,unread]
    simp

theorem nearSelf (places : Nat) (x : ℚ) : Near places x x := by
  rw [Near,sub_self,abs_zero]
  positivity

/- Integers are near when they are the same. -/
theorem nearZero {m n : Nat} : Near 0 (m : ℚ) n ↔ m = n := by
  constructor
  · intro near
    rw [Near,pow_zero,div_one] at near
    have whole : |(m : ℤ) - n| < 1 := by exact_mod_cast near
    have same := Int.abs_lt_one_iff.mp whole
    omega
  · rintro rfl
    exact nearSelf 0 _

theorem commonNames : (common.map Prod.fst).Nodup ∧ (ascii "id"::common.map Prod.fst).Nodup ∧
    ∀ n ∈ common.map Prod.fst, (34 : UInt8) ∉ n := by decide

theorem memberQuotes (point : GpsPoint α) : (encode 44 58 (numericMembers point)).count 34 = 2 * (numericMembers point).length := by
  have names : ∀ n ∈ memberNames, n.count 34 = 2 := by decide
  refine encodeQuotes (fun m mem => ⟨names m.1 (List.mem_map_of_mem (f := Prod.fst) mem),fun quote => ?_⟩)
  exact absurd (numericMembersPrinted point m mem 34 quote) (by decide)

/- A JSON text of ten members is not the empty object, and spells the id from its first byte to its last. -/
theorem jsonIdSpelled {b : List (Bytes × Value)} (read : Json.read (client.buildJsonPayload point) = some b)
    (names : (b.map Prod.fst).Perm (ascii "id"::common.map Prod.fst))
    (numbers : ∀ f ∈ common, ∃ y, b.lookup f.1 = some (.number y)) :
    (jsonText client point).length < BUFFER_SIZE ∧ Utf8.valid client.deviceId = true ∧
      ∃ d others, b = (ascii "id",.string d)::others ∧ Spelled client.deviceId d := by
  have length : b.length = 10 := by simpa [common] using names.length_eq
  have unique : (b.map Prod.fst).Nodup := names.nodup_iff.mpr commonNames.2.1
  have others_numbers : ∀ v others, b = (ascii "id",v)::others → ∀ m ∈ others, isNumber m.2 = true ∧ (34 : UInt8) ∉ m.1 := by
    rintro v others rfl m mem
    have listed : m.1 ∈ common.map Prod.fst := by
      have inside := names.subset (List.mem_map_of_mem (f := Prod.fst) (List.mem_cons_of_mem _ mem))
      refine (List.mem_cons.mp inside).resolve_left (fun same => ?_)
      have again := List.mem_map_of_mem (f := Prod.fst) mem
      rw [same] at again
      exact (List.nodup_cons.mp unique).1 again
    obtain ⟨f,field,same⟩ := List.mem_map.mp listed
    obtain ⟨y,number⟩ := numbers f field
    rw [same,lookupUnique unique (List.mem_cons_of_mem _ mem)] at number
    exact ⟨by rw [Option.some.inj number]; rfl,commonNames.2.2 m.1 listed⟩
  rw [jsonPayloadText] at read
  split at read
  · rename_i fits
    unfold Json.read at read
    split at read <;> try contradiction
    rename_i valid
    rw [jsonValid] at valid
    have first : idMember client = (quoted (ascii "id"),quoted client.deviceId) := rfl
    rw [jsonText,first,readObjectListed rfl] at read
    have fuel : (ascii "id").length < (listed (quoted (ascii "id"),quoted client.deviceId) (numericMembers point)).length := by
      simp [listed,quoted]
    exact ⟨fits,valid,stringWhole (by decide) (by simp [numericMembers]) fuel (memberQuotes point) length others_numbers read⟩
  · have empty : Json.read (ascii "\x7b\x7d") = some [] := by decide +kernel
    rw [empty] at read
    cases Option.some.inj read
    contradiction

theorem finiteNumbers (finite : PayloadText.Finite point) : ClientTexts.Finite point := by
  simp only [PayloadText.Finite,PayloadText.rounding,ClientTexts.Finite,numericRounding,List.forall_mem_cons] at finite ⊢
  tauto

section Fields
variable {a b : List (Bytes × Value)} (payload_known : entries (PayloadText.rounding point) = some a)
  (json_known : entries ((ascii "id",some (.string client.deviceId))::numericRounding point) = some b)
include payload_known json_known

def given (client : TraccarClient) (point : GpsPoint α) : List (Bytes × Bytes) := (ascii "id",client.deviceId)::parameters point

theorem namesKnown : (a.map Prod.fst).Perm (common.map Prod.fst) ∧ (b.map Prod.fst).Perm (ascii "id"::common.map Prod.fst) ∧
    ((given client point).map Prod.fst).Perm (ascii "id"::common.map Prod.fst) := by
  rw [entriesNames payload_known,entriesNames json_known]
  exact (by decide +kernel : (PayloadText.names.map fun n => n.tail.dropLast).Perm (common.map Prod.fst) ∧
    (ascii "id"::memberNames.map fun n => n.tail.dropLast).Perm (ascii "id"::common.map Prod.fst) ∧
    (ascii "id"::parameterNames).Perm (ascii "id"::common.map Prod.fst))

theorem uniqueNames : ((PayloadText.rounding point).map Prod.fst).Nodup ∧
    (((ascii "id",some (Value.string client.deviceId))::numericRounding point).map Prod.fst).Nodup ∧
    ((given client point).map Prod.fst).Nodup := by
  obtain ⟨first,second,third⟩ := namesKnown payload_known json_known
  rw [entriesNames payload_known] at first
  rw [entriesNames json_known] at second
  exact ⟨first.nodup_iff.mpr commonNames.1,second.nodup_iff.mpr commonNames.2.1,third.nodup_iff.mpr commonNames.2.1⟩

/- A field of one name in each of the three. -/
theorem fieldKnown {name : Bytes} {payload json : Option Value} {value : Bytes} (inPayload : (name,payload) ∈ PayloadText.rounding point)
    (inJson : (name,json) ∈ numericRounding point) (inQuery : (name,value) ∈ parameters point) :
    ∃ v v', payload = some v ∧ json = some v' ∧ a.lookup name = some v ∧ b.lookup name = some v' ∧
      (given client point).lookup name = some value := by
  obtain ⟨unique_a,unique_b,unique_c⟩ := uniqueNames payload_known json_known
  obtain ⟨v,shown,first⟩ := entriesLookup payload_known unique_a inPayload
  obtain ⟨v',shown',second⟩ := entriesLookup json_known unique_b (List.mem_cons_of_mem _ inJson)
  exact ⟨v,v',shown,shown',first,second,lookupUnique unique_c (List.mem_cons_of_mem _ inQuery)⟩

/- A double agrees where its buffer keeps it. -/
theorem doubleAgrees : ∀ f ∈ doubles point,
    FieldAgrees a b (given client point) (ascii f.1,f.2.1) ↔ Keeps f.2.1 f.2.2.1 f.2.2.2 := by
  intro f mem
  obtain ⟨_,inPayload,inJson,inQuery,large⟩ := doublesListed point f mem
  obtain ⟨v,v',value,value',first,second,third⟩ := fieldKnown payload_known json_known inPayload inJson inQuery
  obtain ⟨q,shown,rfl⟩ := Option.map_eq_some_iff.mp value
  obtain ⟨q',shown',rfl⟩ := Option.map_eq_some_iff.mp value'
  cases Option.some.inj (shown.symm.trans shown')
  rw [keepsIff large]
  constructor
  · rintro ⟨x,y,z,one,_,three,_,near,_⟩
    cases Option.some.inj (first.symm.trans one)
    rw [third] at three
    exact ⟨q,z,shown,three,near⟩
  · rintro ⟨q',z,shown',read,near⟩
    cases Option.some.inj (shown.symm.trans shown')
    exact ⟨q,q,z,first,second,by rw [third]; exact read,nearSelf _ q,near,near⟩

/- The payload has the time in milliseconds, the other two in seconds. -/
theorem timeAgrees : FieldAgrees a b (given client point) (ascii "timestamp",0) ↔ point.timestampMs = 0 := by
  have inPayload : integer "timestamp" point.timestampMs.toNat ∈ PayloadText.rounding point := by simp [PayloadText.rounding]
  have inJson : integer "timestamp" (toTraccarTimestamp point.timestampMs) ∈ numericRounding point := by simp [numericRounding]
  have inQuery : (ascii "timestamp",encodeInt 32 (toTraccarTimestamp point.timestampMs)) ∈ parameters point := by simp [parameters]
  obtain ⟨v,v',value,value',first,second,third⟩ := fieldKnown payload_known json_known inPayload inJson inQuery
  cases Option.some.inj value
  cases Option.some.inj value'
  have read : readDouble (encodeInt 32 (toTraccarTimestamp point.timestampMs)) = some (toTraccarTimestamp point.timestampMs : ℚ) := by
    rw [timestampText]
    exact readDoubleWhole false _
  have zero : point.timestampMs = 0 ↔ point.timestampMs.toNat = toTraccarTimestamp point.timestampMs := by
    rw [toTraccarTimestamp,← UInt32.toNat_inj]
    simp only [UInt32.toNat_zero]
    omega
  rw [zero]
  constructor
  · rintro ⟨x,y,z,one,two,_,near,_,_⟩
    cases Option.some.inj (first.symm.trans one)
    cases Option.some.inj (second.symm.trans two)
    exact nearZero.mp near
  · intro same
    refine ⟨_,_,_,first,second,?_,nearZero.mpr same,nearZero.mpr same,nearSelf 0 _⟩
    rw [third]
    exact read

theorem battAgrees : FieldAgrees a b (given client point) (ascii "batt",0) := by
  have inPayload : integer "batt" point.batteryPercent.toNat ∈ PayloadText.rounding point := by simp [PayloadText.rounding]
  have inJson : integer "batt" point.batteryPercent.toNat ∈ numericRounding point := by simp [numericRounding]
  have inQuery : (ascii "batt",encodeUint 16 point.batteryPercent) ∈ parameters point := by simp [parameters]
  obtain ⟨v,v',value,value',first,second,third⟩ := fieldKnown payload_known json_known inPayload inJson inQuery
  cases Option.some.inj value
  cases Option.some.inj value'
  refine ⟨_,_,_,first,second,?_,nearSelf 0 _,nearSelf 0 _,nearSelf 0 _⟩
  rw [third,Option.bind_some,battText]
  exact readDoubleWhole false _

end Fields

/- The three texts agree exactly for a point of time zero whose numbers fit, under an id that both formats leave as
it is. -/
theorem encodingsAgreeIff (r : Reader) (client : TraccarClient) (point : GpsPoint α) :
    Agree r client point ↔ Representable r client point := by
  constructor
  · rintro ⟨a,b,c,readPayload,readJson,readQuery,_,names_b,names_c,⟨id,id_json,id_query⟩,fields⟩
    obtain ⟨finite,payload,payload_known⟩ := PayloadText.payloadKnown readPayload
    have numbers : ∀ f ∈ common, ∃ y, b.lookup f.1 = some (.number y) := by
      intro f mem
      obtain ⟨_,y,_,_,number,_⟩ := fields f mem
      exact ⟨y,number⟩
    obtain ⟨text,valid,d,others,rfl,spelled⟩ := jsonIdSpelled readJson names_b numbers
    obtain ⟨value,rest,rfl,decoded⟩ := idFirst readQuery
    have same_d : d = id := by simpa using id_json
    have same_value : value = id := by simpa using id_query
    rw [same_d] at spelled
    rw [same_value] at decoded
    obtain ⟨simple,plain_query⟩ := idPlain spelled decoded
    have jsonId : JsonId client.deviceId := ⟨valid,simple⟩
    rw [jsonPayloadText,if_pos text,jsonTextRead jsonId] at readJson
    rw [parametersOfPlainId point plain_query] at readQuery
    rw [← Option.some.inj readQuery] at fields
    refine ⟨?_,finite,payload,text,jsonId,plain_query,?_⟩
    · exact (timeAgrees payload_known readJson).mp (fields _ (by decide))
    · intro f mem
      exact (doubleAgrees payload_known readJson f mem).mp (fields _ (doublesListed point f mem).1)
  · rintro ⟨time,finite,payload,text,jsonId,queryId,kept⟩
    obtain ⟨a,payload_known⟩ := entriesSome.mpr finite
    have all : ∀ r ∈ (ascii "id",some (Value.string client.deviceId))::numericRounding point, r.2.isSome :=
      List.forall_mem_cons.mpr ⟨rfl,finiteNumbers finite⟩
    obtain ⟨b,json_known⟩ := entriesSome.mpr all
    have readPayload := (PayloadText.payloadFits finite payload).trans payload_known
    have readJson : Json.read (client.buildJsonPayload point) = some b := by
      rw [jsonPayloadText,if_pos text,jsonTextRead jsonId,json_known]
    obtain ⟨names_a,names_b,names_c⟩ := namesKnown payload_known json_known
    have unique_b := (uniqueNames payload_known json_known).2.1
    obtain ⟨v,value,id_json⟩ := entriesLookup json_known unique_b List.mem_cons_self
    cases Option.some.inj value
    have id_query : (given client point).lookup (ascii "id") = some client.deviceId := by simp [given]
    refine ⟨a,b,given client point,readPayload,readJson,parametersOfPlainId point queryId,names_a,names_b,names_c,
      ⟨client.deviceId,id_json,id_query⟩,?_⟩
    intro f mem
    rcases commonCases point f mem with ⟨d,listed,rfl⟩ | rfl | rfl
    · exact (doubleAgrees payload_known json_known d listed).mpr (kept d listed)
    · exact (timeAgrees payload_known json_known).mpr time
    · exact battAgrees payload_known json_known

/- At one second, the payload says 1000 where the other two say 1. -/
theorem millisecondsQueued :
    let point : GpsPoint ℚ := ⟨⟨55,37⟩,0,0,100,5,1,1000,80,true⟩
    let client : TraccarClient := ⟨ascii "http://test.com:5055",ascii "device-001"⟩
    (Json.read (payload point)).bind (List.lookup (ascii "timestamp")) = some (.number 1000) ∧
    (Json.read (client.buildJsonPayload point)).bind (List.lookup (ascii "timestamp")) = some (.number 1) ∧
    (parametersRead ⟨true,false⟩ client point).bind (List.lookup (ascii "timestamp")) = some (ascii "1") ∧
    ¬ Agree ⟨true,false⟩ client point := by
  intro point client
  have queued : (Json.read (payload point)).bind (List.lookup (ascii "timestamp")) = some (.number 1000) := by decide +kernel
  have json : (Json.read (client.buildJsonPayload point)).bind (List.lookup (ascii "timestamp")) = some (.number 1) := by decide +kernel
  refine ⟨queued,json,by decide +kernel,?_⟩
  rintro ⟨a,b,c,readPayload,readJson,_,_,_,_,_,fields⟩
  obtain ⟨x,y,z,first,second,_,near,_⟩ := fields (ascii "timestamp",0) (by decide)
  rw [readPayload,Option.bind_some,first] at queued
  rw [readJson,Option.bind_some,second] at json
  cases Option.some.inj queued
  cases Option.some.inj json
  unfold Near at near
  norm_num at near

end UmapTracker.Encodings
