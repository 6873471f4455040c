import UmapTracker.AutoTable
import UmapTracker.Result
import UmapTracker.Text

/-! data/message_queue.cpp. The SQL statements act on a table of rows; each C++ operation
is a function of the prepared statements, the table, the clock reading std::time
gives it and what SQLite makes of each step. Clock readings are unbounded integers. -/
namespace UmapTracker.MessageQueue
open AutoTable Text

structure Message where
  payload : Bytes
  retryCount : Nat
  createdAt : Int
  nextRetryAt : Int
  deriving DecidableEq, Repr

abbrev Db := Table Message

inductive Statement where
  | enqueue | dequeueSelect | dequeueMark | markSent | markFailed
  | pendingCount | totalCount | purgeExpired | getRetry
  deriving DecidableEq, Repr

structure Impl where
  db : Bool
  stmt : Statement → Bool

def Impl.null : Impl := ⟨false,fun _ => false⟩
def Impl.opened : Impl := ⟨true,fun _ => true⟩
def Impl.has (impl : Impl) (s : Statement) : Bool := impl.db && impl.stmt s

@[simp] theorem openedHas (s : Statement) : Impl.opened.has s = true := rfl

def construct (dbPath : Option Bytes) (sqlite3Open : Bool) (prepare : Statement → Bool) : Impl :=
  match dbPath with
  | none => Impl.null
  | some _ => if sqlite3Open then ⟨true,prepare⟩ else Impl.null

/- One sqlite3_step: the statement is executed as written, or an error code comes back
and the table stays as it was. -/
inductive Exec where
  | runs
  | fails (code : Nat)
  deriving DecidableEq, Repr

def Exec.outcome {α : Type} : Exec → Option α → Option α
  | runs,row => row
  | fails _,_ => none

def Exec.change : Exec → Db → Db → Db
  | runs,_,after => after
  | fails _,before,_ => before

-- static_cast<sqlite3_int64>(message_id)
def asInt64 (id : UInt64) : Int :=
  if id.toNat < 2^63 then id.toNat else id.toNat - 2^64

def addresses (messageId : UInt64) (r : Row Message) : Bool := (r.id : Int) == asInt64 messageId

def ready (now : Int) (r : Row Message) : Bool := decide (r.cols.nextRetryAt ≤ now)

def sqlEnqueue (db : Db) (payload : Bytes) (createdAt nextRetryAt : Int) : Option Db :=
  insert db ⟨payload,0,createdAt,nextRetryAt⟩

def sqlDequeueSelect (db : Db) (now : Int) (tie : Nat) : Option (Row Message) :=
  selectFirst db (ready now) (fun r => r.cols.createdAt) tie

def sqlDequeueMark (db : Db) (nextRetryAt : Int) (messageId : UInt64) : Db :=
  update db (addresses messageId) (fun m => {m with nextRetryAt})

def sqlMarkSent (db : Db) (messageId : UInt64) : Db := delete db (addresses messageId)

def sqlMarkFailed (db : Db) (nextRetryAt : Int) (messageId : UInt64) : Db :=
  update db (addresses messageId) (fun m => {m with retryCount := m.retryCount+1, nextRetryAt})

def sqlPendingCount (db : Db) (now : Int) : Nat := db.rows.countP (ready now)

def sqlTotalCount (db : Db) : Nat := db.rows.length

def expired (cutoff : Int) (r : Row Message) : Bool := decide (r.cols.createdAt ≤ cutoff)

def sqlPurgeExpired (db : Db) (cutoff : Int) : Db := delete db (expired cutoff)

def sqlGetRetry (db : Db) (messageId : UInt64) : Option Nat :=
  (db.rows.find? (addresses messageId)).map (fun r => r.cols.retryCount)

def secondsPerHour : Int := 3600
def leaseSeconds : Int := 86400

def baseDelay : Int := 2
def maxDelay : Int := 3600

def backoffLoop : Nat → Int → Int
  | 0,delay => delay
  | i+1,delay => if delay < maxDelay then backoffLoop i (delay*2) else delay

def calculateBackoff (retryCount : UInt32) : Int :=
  let delay := backoffLoop retryCount.toNat baseDelay
  if delay < maxDelay then delay else maxDelay

def enqueue (impl : Impl) (db : Db) (payload : Option Bytes) (now : Int) (step : Exec) : Result Unit × Db :=
  match payload with
  | none => (.error .invalidConfig,db)
  | some text =>
    if impl.has .enqueue then
      match step.outcome (sqlEnqueue db text now now) with
      | some after => (.ok (),after)
      | none => (.error .internalError,db)
    else (.error .invalidConfig,db)

structure QueuedMessage where
  id : UInt64
  payload : Bytes
  retryCount : UInt32
  createdAt : Int
  nextRetryAt : Int
  deriving DecidableEq, Repr

structure DequeueEnv where
  now : Int
  select : Exec
  tie : Nat
  mark : Exec

def queued (now : Int) (r : Row Message) : QueuedMessage :=
  ⟨UInt64.ofNat r.id,r.cols.payload,UInt32.ofNat r.cols.retryCount,r.cols.createdAt,now+leaseSeconds⟩

/- The message is returned whatever the UPDATE answers, and any answer of the SELECT other
than a row is reported as NotFound. -/
def dequeue (impl : Impl) (db : Db) (env : DequeueEnv) : Result QueuedMessage × Db :=
  if impl.has .dequeueSelect && impl.has .dequeueMark then
    match env.select.outcome (sqlDequeueSelect db env.now env.tie) with
    | some row =>
      let msg := queued env.now row
      (.ok msg,env.mark.change db (sqlDequeueMark db msg.nextRetryAt msg.id))
    | none => (.error .notFound,db)
  else (.error .invalidConfig,db)

def markSent (impl : Impl) (db : Db) (messageId : UInt64) (step : Exec) : Result Unit × Db :=
  if impl.has .markSent then
    match step with
    | .runs => (.ok (),sqlMarkSent db messageId)
    | .fails _ => (.error .internalError,db)
  else (.error .invalidConfig,db)

def getRetryCount (impl : Impl) (db : Db) (messageId : UInt64) (step : Exec) : Result UInt32 :=
  if impl.has .getRetry then
    match step.outcome (sqlGetRetry db messageId) with
    | some n => .ok (UInt32.ofNat n)
    | none => .error .notFound
  else .error .invalidConfig

-- uint32_t retry_count = 0U; if (retry_result.has_value()) ...
def knownRetries : Result UInt32 → UInt32
  | .ok n => n
  | .error _ => 0

structure MarkFailedEnv where
  now : Int
  getRetry : Exec
  mark : Exec

def markFailed (impl : Impl) (db : Db) (messageId : UInt64) (env : MarkFailedEnv) : Result Unit × Db :=
  if impl.has .markFailed then
    let retryCount := knownRetries (getRetryCount impl db messageId env.getRetry)
    let nextRetry := env.now + calculateBackoff (retryCount+1)
    match env.mark with
    | .runs => (.ok (),sqlMarkFailed db nextRetry messageId)
    | .fails _ => (.error .internalError,db)
  else (.error .invalidConfig,db)

def pendingCount (impl : Impl) (db : Db) (now : Int) (step : Exec) : UInt32 :=
  if impl.has .pendingCount then
    match step with
    | .runs => UInt32.ofNat (sqlPendingCount db now)
    | .fails _ => 0
  else 0

def totalCount (impl : Impl) (db : Db) (step : Exec) : UInt32 :=
  if impl.has .totalCount then
    match step with
    | .runs => UInt32.ofNat (sqlTotalCount db)
    | .fails _ => 0
  else 0

def purgeExpired (impl : Impl) (db : Db) (ttlHours : UInt32) (now : Int) (step : Exec) : UInt32 × Db :=
  if impl.has .purgeExpired then
    let cutoff := now - ttlHours.toNat*secondsPerHour
    match step with
    | .runs => (UInt32.ofNat (db.rows.countP (expired cutoff)),sqlPurgeExpired db cutoff)
    | .fails _ => (0,db)
  else (0,db)

def reset (impl : Impl) (db : Db) (step : Exec) : Db :=
  if impl.db then step.change db (delete db (fun _ => true)) else db

end UmapTracker.MessageQueue
