import UmapTracker.GpsPipeline
import UmapTracker.UploadWorker

/-! What a request of the upload worker says about the message it is made for. The worker sends
a point it builds from created_at alone; the payload of the message is not read. -/
namespace UmapTracker.RequestContent
open MessageQueue QueueContents Fields GeoTypes HttpClient Text TraccarClient UploadWorker GpsPipeline

structure Report where
  lat : ℚ
  lon : ℚ
  altitude : ℚ
  speed : ℚ
  bearing : ℚ
  accuracy : ℚ
  batt : ℚ
  hdop : ℚ
  timestamp : Nat
  deriving DecidableEq, Repr

def readReport (value : Bytes → Option Bytes) : Option Report := do
  let lat ← value (ascii "lat") >>= readDecimal
  let lon ← value (ascii "lon") >>= readDecimal
  let altitude ← value (ascii "altitude") >>= readDecimal
  let speed ← value (ascii "speed") >>= readDecimal
  let bearing ← value (ascii "bearing") >>= readDecimal
  let accuracy ← value (ascii "accuracy") >>= readDecimal
  let batt ← value (ascii "batt") >>= readDecimal
  let hdop ← value (ascii "hdop") >>= readDecimal
  let timestamp ← value (ascii "timestamp") >>= readNat
  some ⟨lat,lon,altitude,speed,bearing,accuracy,batt,hdop,timestamp⟩

def payloadReport (text : Bytes) : Option Report := readReport (fun name => member text (quoted name))

def urlReport (url : Bytes) : Option Report := readReport (last 38 61 url)

/- The request says what the payload says, its time in whole seconds. -/
def Carries (url payload : Bytes) : Prop :=
  ∃ p, payloadReport payload = some p ∧ urlReport url = some {p with timestamp := p.timestamp / 1000}

/- The payload is that of a point with nothing in it, at the time the worker takes for it. -/
def Blank (payload : Bytes) (createdAt : Int) : Prop :=
  ∃ timestamp, payloadReport payload = some ⟨0,0,0,0,0,0,0,0,timestamp⟩ ∧
    timestamp / 1000 = (UInt32.ofInt createdAt).toNat / 1000

section Request
variable (α : Type) [Double α]

/- The query parameters of the worker's point: zeros, and created_at in place of the time. -/
theorem reportOfWorker (client : TraccarClient) (createdAt : Int) :
    urlReport (client.buildUrl (reported α createdAt)) =
      some ⟨0,0,0,0,0,0,0,0,(UInt32.ofInt createdAt).toNat / 1000⟩ := by
  have double : ∀ size, 8 < size → encodeDouble size (Double.lit 0 : α) = ascii "0.000000" := by
    intro size room
    rw [encodeDouble,Double.printZero]
    exact snprintfFits room
  have listed : parameters (reported α createdAt) =
      [(ascii "lat",ascii "0.000000"),(ascii "lon",ascii "0.000000"),(ascii "altitude",ascii "0.000000"),
       (ascii "speed",ascii "0.000000"),(ascii "bearing",ascii "0.000000"),(ascii "accuracy",ascii "0.000000"),
       (ascii "timestamp",encodeInt 32 (toTraccarTimestamp (UInt32.ofInt createdAt))),
       (ascii "batt",ascii "0"),(ascii "hdop",ascii "0.000000")] := by
    simp only [parameters,reported,GpsPoint.default,Coordinate.zero,double 32 (by decide),double 16 (by decide)]
    rfl
  have number : ∀ name text, (name,text) ∈ parameters (reported α createdAt) →
      text = ascii "0.000000" ∨ text = ascii "0" →
      last 38 61 (client.buildUrl (reported α createdAt)) name >>= readDecimal = some 0 := by
    intro name text mem zero
    rw [urlParameter client mem]
    rcases zero with rfl | rfl <;> decide +kernel
  have time := urlTimestampBuilt client (reported α createdAt)
  rw [urlTimestamp] at time
  have zero : ∀ name, (name,ascii "0.000000") ∈ parameters (reported α createdAt) →
      last 38 61 (client.buildUrl (reported α createdAt)) name >>= readDecimal = some 0 :=
    fun name mem => number name _ mem (.inl rfl)
  simp only [urlReport,readReport]
  rw [zero (ascii "lat") (by simp [listed]),zero (ascii "lon") (by simp [listed]),zero (ascii "altitude") (by simp [listed]),
    zero (ascii "speed") (by simp [listed]),zero (ascii "bearing") (by simp [listed]),
    zero (ascii "accuracy") (by simp [listed]),number (ascii "batt") _ (by simp [listed]) (.inr rfl),
    zero (ascii "hdop") (by simp [listed]),time]
  rfl

theorem carriesBlank (client : TraccarClient) (payload : Bytes) (createdAt : Int) :
    Carries (client.buildUrl (reported α createdAt)) payload ↔ Blank payload createdAt := by
  simp only [Carries,Blank,reportOfWorker]
  constructor
  · rintro ⟨p,read,same⟩
    cases p
    obtain ⟨rfl,rfl,rfl,rfl,rfl,rfl,rfl,rfl,time⟩ := Report.mk.inj (Option.some.inj same)
    exact ⟨_,read,time.symm⟩
  · rintro ⟨timestamp,read,time⟩
    exact ⟨_,read,by rw [time]⟩

/- Every request of a call is for a message that was stored when the call began, and it carries that
message's payload exactly when the payload is blank. -/
theorem requestCarriesIff {σ : Type} [IHttpClient σ] (impl : Impl) (client : TraccarClient) (worker : UploadWorker)
    (db : Db) (http : σ) (maxBatch : UInt32) (env : Nat → PassEnv) :
    ∀ a ∈ (processPending α impl client worker db http maxBatch env).attempts,
      ∃ row ∈ db.rows, row.id = a.message.id.toNat ∧ row.cols.payload = a.message.payload ∧
        row.cols.createdAt = a.message.createdAt ∧
        (Carries a.url row.cols.payload ↔ Blank row.cols.payload row.cols.createdAt) := by
  intro a mem
  obtain ⟨stored,url⟩ := attemptsStored α impl client worker db http maxBatch env mem
  obtain ⟨row,hrow,same⟩ := List.mem_map.mp stored
  obtain ⟨id,payload,created⟩ : row.id = a.message.id.toNat ∧ row.cols.payload = a.message.payload ∧
      row.cols.createdAt = a.message.createdAt := by simpa [rowEntry,entry] using same
  refine ⟨row,hrow,id,payload,created,?_⟩
  rw [url,created]
  exact carriesBlank α client _ _

end Request
/- The null island at the time the queue's clock shows, with a tiny accuracy: nothing to lose. -/
theorem blankPointCarried :
    let point : GpsPoint ℚ := {GpsPoint.default with accuracyM := 1/25, timestampMs := 7000}
    let processed := processLocation .default .opened AutoTable.empty point 7000 .runs
    let env : PassEnv := ⟨⟨7000,.runs,0,.runs⟩,7000,.runs,⟨7000,.runs,.runs⟩⟩
    let upload := processPending ℚ .opened ⟨ascii "http://test.com:5055",ascii "device-001"⟩ .new processed.2.2
      MockHttpClient.new 1 (fun _ => env)
    ∃ a ∈ upload.attempts, Carries a.url a.message.payload := by
  intro point processed env upload
  have content : (upload.attempts.map fun a => (payloadReport a.message.payload,a.message.createdAt)) =
      [(some ⟨0,0,0,0,0,0,0,0,7000⟩,7000)] := by decide +kernel
  obtain ⟨a,one,pair⟩ := List.map_eq_singleton_iff.mp content
  obtain ⟨blank,time⟩ := Prod.mk.inj pair
  have mem : a ∈ upload.attempts := by rw [one]; exact List.mem_cons_self
  obtain ⟨row,_,_,payload,created,carries⟩ := requestCarriesIff ℚ _ _ _ _ _ _ _ a mem
  rw [payload,created] at carries
  exact ⟨a,mem,carries.mpr ⟨7000,blank,by rw [time]; decide⟩⟩

/- A point at altitude 100 is queued and uploaded; its request says altitude 0. -/
theorem altitudeDropped :
    let point : GpsPoint ℚ := {GpsPoint.default with altitudeM := 100, accuracyM := 5, timestampMs := 1000}
    let processed := processLocation .default .opened AutoTable.empty point 7000 .runs
    let env : PassEnv := ⟨⟨7000,.runs,0,.runs⟩,7000,.runs,⟨7000,.runs,.runs⟩⟩
    let upload := processPending ℚ .opened ⟨ascii "http://test.com:5055",ascii "device-001"⟩ .new processed.2.2
      MockHttpClient.new 1 (fun _ => env)
    processed.1 = .ok () ∧
    (upload.attempts.map fun a => (payloadReport a.message.payload,urlReport a.url)) =
      [(some ⟨0,0,100,0,0,5,0,0,1000⟩,some ⟨0,0,0,0,0,0,0,0,7⟩)] ∧
    ¬ ∀ a ∈ upload.attempts, Carries a.url a.message.payload := by
  intro point processed env upload
  have reports : (upload.attempts.map fun a => (payloadReport a.message.payload,urlReport a.url)) =
      [(some ⟨0,0,100,0,0,5,0,0,1000⟩,some ⟨0,0,0,0,0,0,0,0,7⟩)] := by decide +kernel
  refine ⟨by decide +kernel,reports,?_⟩
  intro carried
  obtain ⟨a,one,pair⟩ := List.map_eq_singleton_iff.mp reports
  obtain ⟨fromPayload,fromUrl⟩ := Prod.mk.inj pair
  obtain ⟨p,read,same⟩ := carried a (by rw [one]; exact List.mem_cons_self)
  rw [fromPayload] at read
  cases Option.some.inj read
  rw [fromUrl] at same
  exact absurd same (by decide +kernel)

end UmapTracker.RequestContent
