import UmapTracker.Fields
import UmapTracker.GeoTypes
import UmapTracker.HttpClient

/-! data/traccar_client.cpp. A point as the query string of a GET and as a JSON text, and the
request that reports it. -/
namespace UmapTracker
open Text Fields Double GeoTypes HttpClient

structure TraccarClient where
  serverUrl : Bytes
  deviceId : Bytes
  deriving DecidableEq, Repr

namespace TraccarClient
variable {α σ : Type} [Double α] [IHttpClient σ]

def BUFFER_SIZE : Nat := 1024

def encodeDouble (size : Nat) (x : α) : Bytes := (snprintf size (print 6 x)).1

def encodeInt (size : Nat) (n : Nat) : Bytes := (snprintf size (decimal n)).1

def encodeUint (size : Nat) (n : UInt32) : Bytes := (snprintf size (decimal n.toNat)).1

def toTraccarTimestamp (timestampMs : UInt32) : Nat := timestampMs.toNat / 1000

def parameters (point : GpsPoint α) : List (Bytes × Bytes) :=
  [(ascii "lat",encodeDouble 32 point.location.latitude),
   (ascii "lon",encodeDouble 32 point.location.longitude),
   (ascii "altitude",encodeDouble 32 point.altitudeM),
   (ascii "speed",encodeDouble 32 point.speedKmh),
   (ascii "bearing",encodeDouble 32 point.bearingDeg),
   (ascii "accuracy",encodeDouble 32 point.accuracyM),
   (ascii "timestamp",encodeInt 32 (toTraccarTimestamp point.timestampMs)),
   (ascii "batt",encodeUint 16 point.batteryPercent),
   (ascii "hdop",encodeDouble 16 point.hdop)]

/- Every parameter is appended as '&', its name, '=' and its buffer. -/
def buildUrl (client : TraccarClient) (point : GpsPoint α) : Bytes :=
  client.serverUrl ++ ascii "?id=" ++ client.deviceId ++ encode 38 61 (parameters point)

def idMember (client : TraccarClient) : Bytes × Bytes := (quoted (ascii "id"),quoted client.deviceId)

def numericMembers (point : GpsPoint α) : List (Bytes × Bytes) :=
  [(quoted (ascii "timestamp"),decimal (toTraccarTimestamp point.timestampMs)),
   (quoted (ascii "lat"),print 6 point.location.latitude),
   (quoted (ascii "lon"),print 6 point.location.longitude),
   (quoted (ascii "altitude"),print 1 point.altitudeM),
   (quoted (ascii "speed"),print 1 point.speedKmh),
   (quoted (ascii "bearing"),print 1 point.bearingDeg),
   (quoted (ascii "accuracy"),print 1 point.accuracyM),
   (quoted (ascii "batt"),decimal point.batteryPercent.toNat),
   (quoted (ascii "hdop"),print 1 point.hdop)]

/- The device id is written as it is, without JSON escapes. -/
def buildJsonPayload (client : TraccarClient) (point : GpsPoint α) : Bytes :=
  let (buf,len) := snprintf BUFFER_SIZE (object (idMember client::numericMembers point))
  if BUFFER_SIZE ≤ len then ascii "\x7b\x7d" else buf.take len

def send (client : TraccarClient) (http : σ) (point : GpsPoint α) : Result Unit × σ :=
  match IHttpClient.get http (buildUrl client point) with
  | (.error e,http) => (.error e,http)
  | (.ok resp,http) =>
    if resp.statusCode < 200 ∨ 300 ≤ resp.statusCode then (.error .networkError,http) else (.ok (),http)

/- The server answered, with a 2xx status. -/
def accepted : Result HttpResponse → Bool
  | .ok resp => decide (200 ≤ resp.statusCode) && decide (resp.statusCode < 300)
  | .error _ => false

theorem sendAccepted (client : TraccarClient) (http : σ) (point : GpsPoint α) :
    Result.hasValue (client.send http point).1 = accepted (IHttpClient.get http (client.buildUrl point)).1 := by
  unfold send
  split
  · rename_i answer
    rw [answer]
    rfl
  · rename_i resp http answer
    rw [answer]
    by_cases refused : resp.statusCode < 200 ∨ 300 ≤ resp.statusCode
    · rw [if_pos refused]
      simp only [accepted,Result.errorHasNoValue,Bool.false_eq,Bool.and_eq_false_iff,decide_eq_false_iff_not]
      omega
    · rw [if_neg refused]
      simp only [accepted,Result.okHasValue,Bool.true_eq,Bool.and_eq_true,decide_eq_true_eq]
      omega

theorem sendHttp (client : TraccarClient) (http : σ) (point : GpsPoint α) :
    (client.send http point).2 = (IHttpClient.get http (client.buildUrl point)).2 := by
  unfold send
  split
  · rename_i answer
    rw [answer]
  · rename_i resp http answer
    rw [answer]
    split <;> rfl

theorem decimalPrinted (n : Nat) : ∀ b ∈ decimal n, printed b = true := by
  intro b mem
  simp [printed,numeral,decimalDigits n b mem]

/- The names of a list of fields cannot break it, and what is printed as a value cannot either. -/
theorem plainOfPrinted {separator assign : UInt8} {pairs : List (Bytes × Bytes)} (different : separator ≠ assign)
    (unprinted : printed separator = false) (names : ∀ n ∈ pairs.map Prod.fst, separator ∉ n ∧ assign ∉ n)
    (values : ∀ p ∈ pairs, ∀ b ∈ p.2, printed b = true) : Plain separator assign pairs := by
  refine ⟨different,?_⟩
  intro p mem
  obtain ⟨freeName,noAssign⟩ := names p.1 (List.mem_map_of_mem mem)
  refine ⟨freeName,noAssign,?_⟩
  intro inside
  rw [values p mem separator inside] at unprinted
  contradiction

def parameterNames : List Bytes :=
  ["lat","lon","altitude","speed","bearing","accuracy","timestamp","batt","hdop"].map ascii

def memberNames : List Bytes :=
  ["timestamp","lat","lon","altitude","speed","bearing","accuracy","batt","hdop"].map (fun n => quoted (ascii n))

theorem parametersPrinted (point : GpsPoint α) : ∀ p ∈ parameters point, ∀ b ∈ p.2, printed b = true := by
  have double : ∀ size (x : α), ∀ b ∈ encodeDouble size x, printed b = true :=
    fun size x => snprintfKeeps (printPrinted 6 x) size
  have int : ∀ size n, ∀ b ∈ encodeInt size n, printed b = true :=
    fun size n => snprintfKeeps (decimalPrinted n) size
  simp only [parameters,List.forall_mem_cons]
  exact ⟨double 32 _,double 32 _,double 32 _,double 32 _,double 32 _,double 32 _,int 32 _,
    int 16 point.batteryPercent.toNat,double 16 _,by simp⟩

theorem parametersPlain (point : GpsPoint α) : Plain 38 61 (parameters point) := by
  refine plainOfPrinted (by decide) (by decide) ?_ (parametersPrinted point)
  exact (by decide : ∀ n ∈ parameterNames, (38 : UInt8) ∉ n ∧ (61 : UInt8) ∉ n)

/- Whatever the server URL and the device id hold, the last parameter of a name is the one
printed for it. -/
theorem urlParameter (client : TraccarClient) {point : GpsPoint α} {name value : Bytes}
    (mem : (name,value) ∈ parameters point) : last 38 61 (client.buildUrl point) name = some value := by
  refine lastEncoded (parametersPlain point) ?_ mem _
  exact (by decide : parameterNames.Nodup)

theorem numericMembersPrinted (point : GpsPoint α) : ∀ p ∈ numericMembers point, ∀ b ∈ p.2, printed b = true := by
  simp only [numericMembers,List.forall_mem_cons]
  exact ⟨decimalPrinted _,printPrinted 6 _,printPrinted 6 _,printPrinted 1 _,printPrinted 1 _,printPrinted 1 _,
    printPrinted 1 _,decimalPrinted _,printPrinted 1 _,by simp⟩

theorem numericMembersPlain (point : GpsPoint α) : Plain 44 58 (numericMembers point) := by
  refine plainOfPrinted (by decide) (by decide) ?_ (numericMembersPrinted point)
  exact (by decide : ∀ n ∈ memberNames, (44 : UInt8) ∉ n ∧ (58 : UInt8) ∉ n)

/- The whole text where it fits, and an empty object where it does not. -/
theorem buildJsonPayloadSpec (client : TraccarClient) (point : GpsPoint α) :
    client.buildJsonPayload point =
      if (object (idMember client::numericMembers point)).length < BUFFER_SIZE then
        object (idMember client::numericMembers point)
      else ascii "\x7b\x7d" := by
  by_cases fits : (object (idMember client::numericMembers point)).length < BUFFER_SIZE
  · simp only [buildJsonPayload,snprintf,if_neg (Nat.not_le.mpr fits),if_pos fits,List.take_take]
    exact List.take_of_length_le (by simp only [BUFFER_SIZE] at fits ⊢; omega)
  · rw [if_neg fits]
    exact if_pos (Nat.not_lt.mp fits)

theorem jsonMember (client : TraccarClient) {point : GpsPoint α} {name value : Bytes}
    (fits : (object (idMember client::numericMembers point)).length < BUFFER_SIZE)
    (mem : (name,value) ∈ numericMembers point) : member (client.buildJsonPayload point) name = some value := by
  have whole : client.buildJsonPayload point = object ([idMember client] ++ numericMembers point) := by
    rw [buildJsonPayloadSpec,if_pos fits]
    rfl
  rw [whole]
  refine memberObject (numericMembersPlain point) ?_ mem
  exact (by decide : memberNames.Nodup)

/- The length snprintf reports: 96 bytes of format, the device id and the printed fields. -/
theorem jsonLength (client : TraccarClient) (point : GpsPoint α) :
    (object (idMember client::numericMembers point)).length =
      96 + client.deviceId.length + (decimal (toTraccarTimestamp point.timestampMs)).length +
      (print 6 point.location.latitude).length + (print 6 point.location.longitude).length +
      (print 1 point.altitudeM).length + (print 1 point.speedKmh).length + (print 1 point.bearingDeg).length +
      (print 1 point.accuracyM).length + (decimal point.batteryPercent.toNat).length + (print 1 point.hdop).length := by
  rw [objectLength (by simp)]
  have names : (quoted (ascii "id")).length = 4 ∧ memberNames.map List.length = [11,5,5,10,7,9,10,6,6] := by decide
  simp only [memberNames,List.map_cons,List.map_nil,List.cons.injEq] at names
  simp only [idMember,numericMembers,List.map_cons,List.map_nil,List.sum_cons,List.sum_nil,names]
  have id : (quoted client.deviceId).length = client.deviceId.length+2 := by simp [quoted]
  omega

theorem timestampDigits (timestampMs : UInt32) : (decimal (toTraccarTimestamp timestampMs)).length ≤ 7 := by
  refine decimalLength (k := 6) ?_
  have := timestampMs.toNat_lt
  simp only [toTraccarTimestamp]
  omega

def urlTimestamp (url : Bytes) : Option Nat := last 38 61 url (ascii "timestamp") >>= readNat

def jsonTimestamp (text : Bytes) : Option Nat := member text (quoted (ascii "timestamp")) >>= readNat

theorem timestampText (timestampMs : UInt32) :
    encodeInt 32 (toTraccarTimestamp timestampMs) = decimal (toTraccarTimestamp timestampMs) :=
  snprintfFits (Nat.lt_of_le_of_lt (timestampDigits timestampMs) (by decide))

theorem urlTimestampBuilt (client : TraccarClient) (point : GpsPoint α) :
    urlTimestamp (client.buildUrl point) = some (point.timestampMs.toNat / 1000) := by
  have mem : (ascii "timestamp",encodeInt 32 (toTraccarTimestamp point.timestampMs)) ∈ parameters point := by
    simp [parameters]
  rw [urlTimestamp,urlParameter client mem,timestampText]
  exact readDecimalText _

theorem jsonTimestampBuilt (client : TraccarClient) (point : GpsPoint α) :
    jsonTimestamp (client.buildJsonPayload point) =
      if (object (idMember client::numericMembers point)).length < BUFFER_SIZE then
        some (point.timestampMs.toNat / 1000)
      else none := by
  split
  case isFalse long =>
    rw [buildJsonPayloadSpec,if_neg long]
    decide
  rename_i fits
  have mem : (quoted (ascii "timestamp"),decimal (toTraccarTimestamp point.timestampMs)) ∈ numericMembers point := by
    simp [numericMembers]
  rw [jsonTimestamp,jsonMember client fits mem]
  exact readDecimalText _

end TraccarClient
end UmapTracker
