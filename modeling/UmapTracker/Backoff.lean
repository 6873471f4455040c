import Mathlib.Algebra.Order.Ring.Int
import Mathlib.Tactic.Linarith
import Mathlib.Tactic.NormNum
import UmapTracker.QueueLaw

/-! The delay of mark_failed. calculate_backoff starts its doubling at 2 seconds, and mark_failed
gives it the retry count that the message is about to have. -/
namespace UmapTracker.Backoff
open AutoTable MessageQueue QueueView QueueRuns QueueLaw Machine Text

theorem backoffLoopCapped (n : Nat) {delay : Int} (positive : 0 < delay) :
    min (backoffLoop n delay) maxDelay = min (delay * 2^n) maxDelay := by
  induction n generalizing delay with
  | zero => simp [backoffLoop]
  | succ n ih =>
    rw [backoffLoop]
    split
    · rw [ih (by omega),pow_succ,mul_assoc,mul_comm (2 : Int)]
    · rename_i capped
      have grown : maxDelay ≤ delay * 2^(n+1) := by
        have large : (1 : Int) ≤ 2^(n+1) := one_le_pow₀ (by norm_num)
        nlinarith
      rw [min_eq_right (not_lt.mp capped),min_eq_right grown]

/- The doubling, without its loop. -/
theorem backoffClosed (retryCount : UInt32) : calculateBackoff retryCount = min (2^(retryCount.toNat+1)) 3600 := by
  calc calculateBackoff retryCount
      = min (backoffLoop retryCount.toNat baseDelay) maxDelay := by
        simp only [calculateBackoff,min_def]
        split <;> split <;> omega
    _ = min (baseDelay * 2^retryCount.toNat) maxDelay := backoffLoopCapped retryCount.toNat (by decide)
    _ = min (2^(retryCount.toNat+1)) 3600 := by
        rw [pow_succ,mul_comm]
        rfl

/- get_retry_count finds the count of the message. -/
def Counts (impl : Impl) (env : MarkFailedEnv) : Prop := impl.has .getRetry = true ∧ env.getRetry = .runs
instance (impl : Impl) (env : MarkFailedEnv) : Decidable (Counts impl env) := by unfold Counts; infer_instance

/- The retry count the delay is made from. -/
def counted (impl : Impl) (env : MarkFailedEnv) (m : Message) : UInt32 :=
  (if Counts impl env then UInt32.ofNat m.retryCount else 0) + 1

theorem countedKnown (impl : Impl) {db : Db} {row : Row Message} (mem : row ∈ db.rows) (env : MarkFailedEnv) :
    knownRetries (getRetryCount impl db (UInt64.ofNat row.id) env.getRetry) + 1 = counted impl env row.cols := by
  unfold counted getRetryCount
  by_cases prepared : impl.has .getRetry = true
  · rw [if_pos prepared]
    cases read : env.getRetry with
    | fails code => simp [Exec.outcome,knownRetries,Counts,read]
    | runs => simp [Exec.outcome,knownRetries,Counts,prepared,read,sqlGetRetryCell,rowidRoundTrip mem,cellOfRow mem]
  · simp [prepared,knownRetries,Counts]

/- What an executed mark_failed writes. -/
def delayed (impl : Impl) (env : MarkFailedEnv) (m : Message) : Message :=
  {m with retryCount := m.retryCount+1, nextRetryAt := env.now + calculateBackoff (counted impl env m)}

theorem markFailedCell {impl : Impl} {db : Db} {row : Row Message} {env : MarkFailedEnv} (prepared : impl.has .markFailed = true)
    (executed : env.mark = .runs) (mem : row ∈ db.rows) (i : Nat) :
    cell (markFailed impl db (UInt64.ofNat row.id) env).2 i =
      if i = row.id then some (delayed impl env row.cols) else cell db i := by
  have written : (markFailed impl db (UInt64.ofNat row.id) env).2 =
      sqlMarkFailed db (env.now + calculateBackoff (counted impl env row.cols)) (UInt64.ofNat row.id) := by
    simp only [markFailed,prepared,executed,countedKnown impl mem env,if_true]
  rw [written,sqlMarkFailed,cellUpdateOwn,rowidRoundTrip mem]
  split
  · rename_i own
    rw [own,cellOfRow mem]
    rfl
  · rfl

/- The documented delay of a message that has failed n times. -/
def documented (n : Nat) : Int := min (2^n) 3600

theorem documentedCapped {n : Nat} (many : 12 ≤ n) : documented n = 3600 := by
  have large : (3600 : Int) ≤ 2^n := le_trans (by norm_num) (pow_le_pow_right₀ (by norm_num : (1 : Int) ≤ 2) many)
  exact min_eq_right large

/- From 12 failures on both delays are an hour. -/
theorem documentedFrom {n : Nat} (some : 1 ≤ n) : documented (n+1) = documented n ↔ 12 ≤ n := by
  constructor
  · intro same
    by_contra few
    have low : n ≤ 11 := by omega
    interval_cases n <;> revert same <;> decide
  · intro many
    rw [documentedCapped many,documentedCapped (Nat.le_succ_of_le many)]

theorem documentedFour {n : Nat} : 4 = documented n ↔ n = 2 := by
  constructor
  · intro same
    by_contra other
    rcases Nat.lt_or_ge n 12 with few | many
    · interval_cases n <;> revert same <;> first | decide | contradiction
    · rw [documentedCapped many] at same
      contradiction
  · rintro rfl
    decide

/- After its n-th mark_failed a message waits the documented time exactly when that is the cap; or,
where the SELECT of get_retry_count is not executed, exactly when n is 2. A call whose statement
fails changes nothing, so the history holds the executed ones. -/
theorem documentedBackoffIff {pre mid : List Op} {payload : Bytes} {now : Int} (accepted : Accepted pre payload now)
    (impl : Impl) (env : MarkFailedEnv) (prepared : impl.has .markFailed = true) (executed : env.mark = .runs)
    {row : Row Message} (mem : row ∈ (history (pre ++ .enqueue (some payload) now::mid)).rows) (own : row.id = nextId pre)
    {n : Nat} (nth : mid.countP (fails row.id) + 1 = n) (small : n < 2^32) :
    ∃ m, cell (markFailed impl (history (pre ++ .enqueue (some payload) now::mid)) (UInt64.ofNat row.id) env).2 row.id = some m ∧
      m.retryCount = n ∧
      (m.nextRetryAt = env.now + documented n ↔ if Counts impl env then 12 ≤ n else n = 2) := by
  obtain ⟨_,_,failures⟩ := (fateOfAccepted accepted).2 row mem own
  refine ⟨_,(markFailedCell prepared executed mem row.id).trans (if_pos rfl),by simp only [delayed]; omega,?_⟩
  change env.now + calculateBackoff _ = env.now + documented n ↔ _
  rw [add_right_inj,backoffClosed]
  split
  · rename_i counts
    have count : (counted impl env row.cols).toNat = n := by
      rw [counted,if_pos counts,failures,UInt32.toNat_add,UInt32.toNat_ofNat']
      simp only [UInt32.reduceToNat]
      omega
    rw [count]
    exact documentedFrom (by omega)
  · rename_i blind
    rw [counted,if_neg blind]
    exact documentedFour

/- Twelve failures in a row. -/
theorem documentedAtTheCap :
    let mid : List Op := List.replicate 11 (.markFailed 1 0)
    let db := history ([] ++ .enqueue (some []) 0::mid)
    ∃ row ∈ db.rows, ∃ m, cell (markFailed .opened db (UInt64.ofNat row.id) ⟨0,.runs,.runs⟩).2 row.id = some m ∧
      m.retryCount = 12 ∧ m.nextRetryAt = 0 + documented 12 := by
  intro mid db
  have accepted : Accepted [] [] 0 := rfl
  have mem : (⟨1,[],11,0,3600⟩ : Row Message) ∈ db.rows := by decide +kernel
  obtain ⟨m,stored,count,delay⟩ := documentedBackoffIff accepted .opened ⟨0,.runs,.runs⟩ rfl rfl mem rfl
    (n := 12) (by decide) (by decide)
  exact ⟨_,mem,m,stored,count,delay.mpr (by decide)⟩

/- The first failure of a message, at 101: it waits 4 seconds where 2 are documented. -/
theorem firstDelayDoubled :
    let db := history [.enqueue (some []) 100]
    (markFailed .opened db 1 ⟨101,.runs,.runs⟩).2.rows = [⟨1,[],1,100,105⟩] ∧ (105 : Int) ≠ 101 + documented 1 := by
  decide

end UmapTracker.Backoff
