import UmapTracker.SharedDeliveries
import UmapTracker.Weights

/-! How often several workers on one database file send a message, and what its retry_count counts. -/
namespace UmapTracker.SharedLeases
open AutoTable MessageQueue UploadWorker UploadPass Outbox QueueView SharedWorkers SharedDeliveries HttpClient Machine Weights
variable {κ σ : Type}

section Window

def requests [DecidableEq κ] (c : κ) (i : Nat) (log : List (κ × Attempt)) : Nat :=
  log.countP (fun x => decide (x.1 = c) && x.2.message.id.toNat == i)

/- The message is leased until `bound` at least. -/
def Covered (i : Nat) (bound : Int) (messages : Store Content Int) : Prop :=
  i ≤ messages.issued ∧ ∀ m, messages.item i = some m → bound ≤ m.available

/- Every SELECT reads the clock in the day before `bound`, the leases are written, and no mark_failed puts the
message i back. -/
def InWindow (i : Nat) (bound : Int) (s : Shared κ σ) : Event κ → Prop
  | .move c env =>
    match (s.desk c).place with
    | .polling => bound ≤ env.dequeue.now+leaseSeconds ∧ env.dequeue.now < bound
    | .selected _ => env.dequeue.mark = .runs
    | .retried msg _ => env.markFailed.mark = .runs → msg.id.toNat ≠ i
    | _ => True
  | _ => True

instance (i : Nat) (bound : Int) (s : Shared κ σ) (e : Event κ) : Decidable (InWindow i bound s e) := by
  cases e with
  | move c env =>
    simp only [InWindow]
    split <;> infer_instance
  | _ => exact inferInstanceAs (Decidable True)

/- A worker has asked for the message i once at most; and when it has leased it or asked for it, the lease is
written. -/
structure Window [DecidableEq κ] (i : Nat) (bound : Int) (messages : Store Content Int) (log : List (κ × Attempt)) (c : κ) (d : Desk σ) :
    Prop where
  lease : ∀ msg, d.place.message = some msg → msg.id.toNat = i → bound ≤ msg.nextRetryAt ∧ i ≤ messages.issued
  first : ∀ msg, d.place = .selected msg ∨ d.place = .leased msg → msg.id.toNat = i → requests c i log = 0
  covered : (∃ msg, d.place = .leased msg ∧ msg.id.toNat = i) ∨ requests c i log ≠ 0 → Covered i bound messages
  once : requests c i log ≤ 1

variable [DecidableEq κ] {i : Nat} {bound : Int}

theorem requestsAppend (c : κ) (i : Nat) (log : List (κ × Attempt)) (x : κ × Attempt) :
    requests c i (log ++ [x]) = requests c i log + if x.1 = c ∧ x.2.message.id.toNat = i then 1 else 0 := by
  simp [requests,List.countP_append,List.countP_singleton]

/- Of a worker that does not move. -/
theorem windowOther {messages messages' : Store Content Int} {log log' : List (κ × Attempt)} {c : κ} {d : Desk σ}
    (window : Window i bound messages log c d) (issued : messages.issued ≤ messages'.issued)
    (kept : Covered i bound messages → Covered i bound messages') (same : requests c i log' = requests c i log) :
    Window i bound messages' log' c d := by
  obtain ⟨lease,first,covered,once⟩ := window
  refine ⟨fun msg held own => ⟨(lease msg held own).1,(lease msg held own).2.trans issued⟩,?_,?_,?_⟩
  · rwa [same]
  · rw [same]
    exact fun held => kept (covered held)
  · rwa [same]

/- Of a worker whose pass is past its request. -/
theorem windowPast {messages messages' : Store Content Int} {log : List (κ × Attempt)} {c : κ} {d : Desk σ}
    (d' : Desk σ) (window : Window i bound messages log c d) (issued : messages.issued ≤ messages'.issued)
    (kept : Covered i bound messages → Covered i bound messages') (held : ∀ msg, d'.place.message = some msg → d.place.message = some msg)
    (past : ∀ msg, d'.place ≠ .selected msg ∧ d'.place ≠ .leased msg) : Window i bound messages' log c d' := by
  obtain ⟨lease,first,covered,once⟩ := window
  refine ⟨?_,?_,?_,once⟩
  · intro msg place own
    exact ⟨(lease msg (held msg place) own).1,(lease msg (held msg place) own).2.trans issued⟩
  · rintro msg (place | place)
    · exact absurd place (past msg).1
    · exact absurd place (past msg).2
  · rintro (⟨msg,place,_⟩ | asked)
    · exact absurd place (past msg).2
    · exact kept (covered (.inr asked))

variable (α : Type) [Double α]

theorem windowMoved {impl : Impl} {client : TraccarClient} {s : Shared κ σ} {c : κ} {env : PassEnv} {m : Moved σ}
    (window : Window i bound (view s.db) s.log c (s.desk c)) (inside : InWindow i bound s (.move c env))
    (made : Made α impl client s.db (s.desk c) env m) (issued : (view s.db).issued ≤ (view m.db).issued)
    (kept : Covered i bound (view s.db) → Covered i bound (view m.db)) :
    Window i bound (view m.db) (s.log ++ m.request.toList.map (fun a => (c,a))) c m.desk := by
  cases made with
  | ended free =>
    have past : ∀ d' : Desk σ, d'.place = .idle → Window i bound (view s.db) s.log c d' := fun d' idle =>
      windowPast _ window issued kept (by simp [idle,Place.message]) (by simp [idle])
    simpa using past _ rfl
  | found row place mem wanted =>
    obtain ⟨lease,first,covered,once⟩ := window
    have id : (queued env.dequeue.now row).id.toNat = row.id := rowidRoundTrip mem
    simp only [InWindow,place] at inside
    simp only [Option.toList_none,List.map_nil,List.append_nil]
    refine ⟨?_,?_,?_,once⟩
    · intro msg held own
      rw [← Option.some.inj held,id] at own
      rw [← Option.some.inj held,← own]
      exact ⟨inside.1,(s.db.issued row mem).2⟩
    · intro msg held own
      have same : msg = queued env.dequeue.now row := by simpa [eq_comm] using held
      -- asked for before, it would be leased
      by_contra asked
      rw [same,id] at own
      have late := (covered (.inr asked)).2 (item row.cols) (by rw [viewItem,← own,cellOfRow mem]; rfl)
      have early : row.cols.nextRetryAt ≤ env.dequeue.now := of_decide_eq_true wanted
      exact absurd (late.trans early) (not_le.mpr inside.2)
    · rintro (⟨msg,held,_⟩ | asked)
      · contradiction
      · exact covered (.inr asked)
  | leased msg place =>
    obtain ⟨lease,first,covered,once⟩ := window
    simp only [InWindow,place] at inside
    simp only [Option.toList_none,List.map_nil,List.append_nil]
    have held : (s.desk c).place.message = some msg := by rw [place]; rfl
    refine ⟨?_,?_,?_,once⟩
    · intro msg' same own
      cases Option.some.inj same
      exact ⟨(lease msg held own).1,(lease msg held own).2.trans issued⟩
    · intro msg' same own
      have one : msg' = msg := by simpa [eq_comm] using same
      exact first msg (.inl place) (one ▸ own)
    · rintro (⟨msg',same,own⟩ | asked)
      · cases Place.leased.inj same
        refine ⟨(lease msg held own).2.trans issued,?_⟩
        intro m found
        rw [inside,viewItem] at found
        change (cell (update s.db (addresses msg.id) _) i).map item = some m at found
        rw [cellUpdateOwn,if_pos own.symm] at found
        simp only [Option.map_map,Option.map_eq_some_iff] at found
        obtain ⟨_,_,rfl⟩ := found
        exact (lease msg held own).1
      · exact kept (covered (.inr asked))
  | asked msg a http place message url =>
    obtain ⟨lease,first,covered,once⟩ := window
    have held : (s.desk c).place.message = some msg := by rw [place]; rfl
    have grown := requestsAppend c i s.log (c,a)
    simp only [message,true_and] at grown
    change Window i bound (view s.db) (s.log ++ [(c,a)]) c _
    refine ⟨?_,by simp,?_,?_⟩
    · intro msg' same own
      cases Option.some.inj same
      exact lease msg held own
    · rintro (⟨msg',same,_⟩ | asked)
      · contradiction
      · by_cases own : msg.id.toNat = i
        · exact covered (.inl ⟨msg,place,own⟩)
        · rw [grown,if_neg own] at asked
          exact covered (.inr asked)
    · rw [grown]
      by_cases own : msg.id.toNat = i
      · rw [first msg (.inr place) own,if_pos own]
      · rwa [if_neg own]
  | sent => simpa using windowPast (finish (s.desk c) true) window issued kept (by simp [finish,Place.message]) (by simp [finish])
  | counted msg retryCount place =>
    simpa using windowPast {s.desk c with place := .retried msg retryCount} window issued kept (by simp [place,Place.message]) (by simp)
  | skipped => simpa using windowPast (finish (s.desk c) false) window issued kept (by simp [finish,Place.message]) (by simp [finish])
  | failed => simpa using windowPast (finish (s.desk c) false) window issued kept (by simp [finish,Place.message]) (by simp [finish])

variable [IHttpClient σ] (impl : κ → Impl) (client : κ → TraccarClient)

/- The lease outlasts whatever happens in the window. -/
theorem coveredStep {s : Shared κ σ} (windows : ∀ c, Window i bound (view s.db) s.log c (s.desk c)) {e : Event κ}
    (inside : InWindow i bound s e) (covered : Covered i bound (view s.db)) :
    Covered i bound (view (step α impl client s e).db) := by
  obtain ⟨known,held⟩ := covered
  rw [square impl α client]
  refine ⟨known.trans (issuedApply leaseSeconds _ _),availableApply known held ?_ ?_⟩
  · cases failed : (label impl s e).fails i with
    | false => rfl
    | true =>
      obtain ⟨c,env,msg,retryCount,rfl,place,executed,own⟩ := failedBy impl failed
      simp only [InWindow,place] at inside
      exact absurd own.symm (inside executed)
  · intro now leased
    obtain ⟨c,msg,place,own,rfl⟩ := leasedBy impl leased
    rw [sub_add_cancel]
    exact ((windows c).lease msg (by rw [place]; rfl) own).1

theorem windowStep {s : Shared κ σ} (windows : ∀ c, Window i bound (view s.db) s.log c (s.desk c)) {e : Event κ}
    (inside : InWindow i bound s e) :
    let after := step α impl client s e
    ∀ c, Window i bound (view after.db) after.log c (after.desk c) := by
  intro after
  have kept : Covered i bound (view s.db) → Covered i bound (view after.db) := coveredStep α impl client windows inside
  have issued : (view s.db).issued ≤ (view after.db).issued := by
    rw [square impl α client]
    exact issuedApply leaseSeconds _ _
  cases e with
  | call c maxBatch =>
    simp only [after,step]
    split
    · refine (Function.forall_update_iff _ (p := fun c (d : Desk σ) => Window i bound (view s.db) s.log c d)).mpr ⟨?_,fun c _ => windows c⟩
      exact windowPast _ (windows c) le_rfl (fun held => held) (by simp [Place.message]) (by simp)
    · exact windows
  | move c env =>
    refine (Function.forall_update_iff _ (p := fun c (d : Desk σ) => Window i bound (view after.db) after.log c d)).mpr ⟨?_,?_⟩
    · exact windowMoved α (windows c) inside (moveMade α (impl c) (client c) s.db (s.desk c) env) issued kept
    · intro c' other
      refine windowOther (windows c') issued kept ?_
      have none : requests c' i ((move α (impl c) (client c) s.db (s.desk c) env).request.toList.map (fun a => (c,a))) = 0 := by
        refine List.countP_eq_zero.mpr (fun x mem => ?_)
        obtain ⟨a,_,rfl⟩ := List.mem_map.mp mem
        simp [Ne.symm other]
      exact (List.countP_append).trans (by rw [show List.countP _ _ = 0 from none,add_zero]; rfl)
  | enqueue c payload now step => exact fun c => windowOther (windows c) issued kept rfl
  | purgeExpired c ttlHours now step => exact fun c => windowOther (windows c) issued kept rfl
  | reset c step => exact fun c => windowOther (windows c) issued kept rfl
  | restart c =>
    refine (Function.forall_update_iff _ (p := fun c (d : Desk σ) => Window i bound (view s.db) s.log c d)).mpr ⟨?_,fun c _ => windows c⟩
    exact windowPast _ (windows c) le_rfl (fun held => held) (by simp [Place.message]) (by simp)

/- A log in which each worker asks for the message once at most asks for it as often as there are workers at most. -/
theorem requestsTotal [Fintype κ] {log : List (κ × Attempt)} (once : ∀ c, requests c i log ≤ 1) :
    log.countP (fun x => x.2.message.id.toNat == i) ≤ Fintype.card κ := by
  let asking := (log.filter (fun x => x.2.message.id.toNat == i)).map Prod.fst
  have nodup : asking.Nodup := by
    refine List.nodup_iff_count_le_one.mpr (fun c => le_trans (le_of_eq ?_) (once c))
    rw [List.count,List.countP_map,List.countP_filter]
    rfl
  calc log.countP (fun x => x.2.message.id.toNat == i) = asking.length := by
        rw [List.length_map,List.countP_eq_length_filter]
    _ ≤ Fintype.card κ := nodup.length_le_card

/- Within a day, and with no failure recorded for it, a message is sent once by each worker at most. -/
theorem oncePerWorker [Fintype κ] (i : Nat) (bound : Int) {s : Shared κ σ} (unlogged : s.log = [])
    (free : ∀ c msg, (s.desk c).place.message = some msg → msg.id.toNat ≠ i) {es : List (Event κ)}
    (window : Allowed (step α impl client) (InWindow i bound) s es) :
    let log := (run (step α impl client) s es).log
    (∀ c, requests c i log ≤ 1) ∧ log.countP (fun x => x.2.message.id.toNat == i) ≤ Fintype.card κ := by
  intro log
  have start : ∀ c, Window i bound (view s.db) s.log c (s.desk c) := by
    intro c
    have none : requests c i s.log = 0 := by rw [unlogged]; rfl
    refine ⟨fun msg held own => absurd own (free c msg held),fun _ _ _ => none,?_,by rw [none]; exact zero_le_one⟩
    rintro (⟨msg,place,own⟩ | asked)
    · exact absurd own (free c msg (by rw [place]; rfl))
    · exact absurd none asked
  have windows := runKeepsAllowed (I := fun s : Shared κ σ => ∀ c, Window i bound (view s.db) s.log c (s.desk c))
    (fun s e inside windows => windowStep α impl client windows inside) window start
  have once : ∀ c, requests c i log ≤ 1 := fun c => (windows c).once
  exact ⟨once,requestsTotal once⟩

/- Both workers find the only message before either leases it, and both send it. -/
theorem oncePerWorkerTwo :
    let db : Db := QueueRuns.history [.enqueue (some []) 100]
    let env : PassEnv := ⟨⟨100,.runs,0,.runs⟩,100,.runs,⟨100,.runs,.runs⟩⟩
    let turn : List (Event Bool) := [.move false env,.move true env]
    let es : List (Event Bool) := [.call false 1,.call true 1] ++ turn ++ turn ++ turn
    let log := (run (step ℚ (fun _ => .opened) (fun _ => ⟨[],[]⟩)) (opened db (fun _ => MockHttpClient.new)) es).log
    log.countP (fun x => x.2.message.id.toNat == 1) = 2 ∧ requests true 1 log ≤ 1 := by
  intro db env turn es log
  have window : Allowed (step ℚ (fun _ => .opened) (fun _ => ⟨[],[]⟩)) (InWindow 1 86500)
      (opened db (fun _ => MockHttpClient.new)) es := by decide +kernel
  have each := oncePerWorker ℚ (fun _ => .opened) (fun _ => ⟨[],[]⟩) 1 86500 (s := opened db (fun _ => MockHttpClient.new))
    rfl (by simp [opened,Place.message]) window
  exact ⟨by decide +kernel,each.1 true⟩

end Window

section Failures
variable [DecidableEq κ] [Fintype κ]

/- The worker has been told that a request for the message failed, and has not recorded it. -/
def owed (i : Nat) (d : Desk σ) : Nat :=
  match d.place with
  | .answered msg false => if msg.id.toNat = i then 1 else 0
  | .retried msg _ => if msg.id.toNat = i then 1 else 0
  | _ => 0

def failures (i : Nat) (log : List (κ × Attempt)) : Nat := log.countP (fun x => x.2.message.id.toNat == i && !x.2.delivered)

variable (impl : κ → Impl)

/- mark_failed is prepared, SQLite executes its UPDATE, and no process ends during a pass. -/
def Records (s : Shared κ σ) : Event κ → Prop
  | .move c env =>
    match (s.desk c).place with
    | .answered _ false => (impl c).has .markFailed = true
    | .retried _ _ => env.markFailed.mark = .runs
    | _ => True
  | .restart c => (s.desk c).place.message = none
  | _ => True

instance (s : Shared κ σ) (e : Event κ) : Decidable (Records impl s e) := by
  cases e with
  | move c env =>
    simp only [Records]
    split <;> infer_instance
  | restart c => exact inferInstanceAs (Decidable ((s.desk c).place.message = none))
  | _ => exact inferInstanceAs (Decidable True)

def recorded (i : Nat) (s : Shared κ σ) (e : Event κ) : Nat := ((label impl s e).fails i).toNat

omit [DecidableEq κ] [Fintype κ] in
theorem recordedNone {i : Nat} {s : Shared κ σ} {e : Event κ} (still : ∀ c env, e ≠ .move c env) : recorded impl i s e = 0 := by
  cases failed : (label impl s e).fails i with
  | false => rw [recorded,failed]; rfl
  | true =>
    obtain ⟨c,env,_,_,same,_⟩ := failedBy impl failed
    exact absurd same (still c env)

omit [DecidableEq κ] [Fintype κ] in
theorem recordedMove (i : Nat) {s : Shared κ σ} {c : κ} {env : PassEnv} (records : Records impl s (.move c env)) :
    recorded impl i s (.move c env) =
      match (s.desk c).place with
      | .retried msg _ => if msg.id.toNat = i then 1 else 0
      | _ => 0 := by
  simp only [recorded,label]
  cases place : (s.desk c).place with
  | selected msg => dsimp only; split <;> rfl
  | answered msg delivered =>
    cases delivered with
    | true => dsimp only; split <;> rfl
    | false => rfl
  | retried msg retryCount =>
    simp only [Records,place] at records
    by_cases own : msg.id.toNat = i
    · simp [records,Label.fails,own]
    · simp [records,Label.fails,own,Ne.symm own]
  | _ => rfl

variable (α : Type) [Double α]

omit [DecidableEq κ] [Fintype κ] in
theorem balanceMoved (i : Nat) {client : TraccarClient} {s : Shared κ σ} {c : κ} {env : PassEnv} {m : Moved σ}
    (records : Records impl s (.move c env)) (made : Made α (impl c) client s.db (s.desk c) env m) :
    recorded impl i s (.move c env) + owed i m.desk =
      owed i (s.desk c) + failures i (m.request.toList.map (fun a => (c,a))) := by
  rw [recordedMove impl i records]
  cases made with
  | ended free => cases place : (s.desk c).place <;> simp [place,Place.message,owed,failures] at free ⊢
  | found row place => simp [place,owed,failures]
  | leased msg place => simp [place,owed,failures]
  | asked msg a http place message =>
    cases delivered : a.delivered with
    | true => simp [place,owed,failures,delivered]
    | false => simp [place,owed,failures,delivered,message]
  | sent msg place => simp [place,owed,failures,finish]
  | counted msg retryCount place => simp [place,owed,failures]
  | skipped msg place missing =>
    simp only [Records,place,missing] at records
    contradiction
  | failed msg retryCount place => simp [place,owed,failures,finish]

variable [IHttpClient σ] (client : κ → TraccarClient)

/- Every failure that comes in is owed until it is recorded. -/
theorem balance (i : Nat) {s : Shared κ σ} {e : Event κ} (records : Records impl s e) :
    let after := step α impl client s e
    recorded impl i s e + total (owed i) after.desk + failures i s.log = total (owed i) s.desk + failures i after.log := by
  intro after
  cases e with
  | call c maxBatch =>
    have quiet : recorded impl i s (.call c maxBatch) = 0 := rfl
    simp only [after,step]
    split
    · rename_i idle
      have split := totalUpdate (owed i) s.desk c {s.desk c with place := .polling, left := maxBatch.toNat, sent := 0}
      simp only [owed,idle] at split
      dsimp only
      omega
    · omega
  | move c env =>
    have split := totalUpdate (owed i) s.desk c (move α (impl c) (client c) s.db (s.desk c) env).desk
    have grown : failures i after.log = failures i s.log +
        failures i ((move α (impl c) (client c) s.db (s.desk c) env).request.toList.map (fun a => (c,a))) := List.countP_append
    have one := balanceMoved impl α i records (moveMade α (impl c) (client c) s.db (s.desk c) env)
    change recorded impl i s (.move c env) + total (owed i) (Function.update s.desk c _) + _ = _
    omega
  | enqueue c payload now step =>
    rw [recordedNone impl (by simp),zero_add]
    rfl
  | purgeExpired c ttlHours now step =>
    rw [recordedNone impl (by simp),zero_add]
    rfl
  | reset c step =>
    rw [recordedNone impl (by simp),zero_add]
    rfl
  | restart c =>
    have split := totalUpdate (owed i) s.desk c {s.desk c with place := .idle, left := 0, sent := 0, worker := .new}
    have none : owed i (s.desk c) = 0 := by
      simp only [Records] at records
      cases place : (s.desk c).place <;> simp [owed,place,Place.message] at records ⊢
    change _ = _ + 0 at split
    simp only [none,add_zero] at split
    rw [recordedNone impl (by simp),zero_add]
    simp only [after,step,split]

/- What a message counts: the failures that came in, less those that are owed, over what it counted at the start. Under an id that
has not been issued nothing has come in. -/
structure Counted (db : Db) (i : Nat) (s : Shared κ σ) : Prop where
  grown : db.sequence ≤ s.db.sequence
  stored : ∀ m, (view s.db).item i = some m →
    m.failures + total (owed i) s.desk = ((view db).item i).elim 0 Item.failures + failures i s.log
  fresh : s.db.sequence < i → total (owed i) s.desk = 0 ∧ failures i s.log = 0

/- What a step stores under an id that was not issued has not failed. -/
theorem freshItem {s : Store Content Int} {l : Label Content Int} {i : Nat} {m : Item Content Int} (above : s.issued < i)
    (found : (l.apply leaseSeconds s).item i = some m) : m.failures = 0 ∧ l.fails i = false := by
  have gone := s.fresh i above
  cases l with
  | accept content available =>
    change (if i = s.issued+1 then some ⟨content,0,available⟩ else s.item i) = some m at found
    rw [gone] at found
    split at found
    · cases Option.some.inj found
      exact ⟨rfl,rfl⟩
    · contradiction
  | _ => simp [Label.apply,gone] at found

omit [DecidableEq κ] [IHttpClient σ] in
theorem owedKnown {s : Shared κ σ} (honest : Honest s) {i : Nat} (above : s.db.sequence < i) : total (owed i) s.desk = 0 := by
  refine totalZero (fun c => ?_)
  have held : ∀ msg, (s.desk c).place.message = some msg → msg.id.toNat ≠ i := fun msg place own =>
    absurd (honest.known c msg place).1 (not_le.mpr (own ▸ above))
  cases place : (s.desk c).place with
  | answered msg delivered =>
    have other := held msg (by rw [place]; rfl)
    cases delivered <;> simp [owed,place,other]
  | retried msg retryCount =>
    have other := held msg (by rw [place]; rfl)
    simp [owed,place,other]
  | _ => simp [owed,place]

theorem countedStep {db : Db} {i : Nat} {s : Shared κ σ} (honest : Honest s) (counted : Counted db i s) {e : Event κ}
    (records : Records impl s e) : Counted db i (step α impl client s e) := by
  have balance := balance impl α client i records
  have issued : s.db.sequence ≤ (step α impl client s e).db.sequence := by
    have grown := issuedApply leaseSeconds (view s.db) (label impl s e)
    rwa [← square impl α client] at grown
  obtain ⟨grown,stored,fresh⟩ := counted
  refine ⟨grown.trans issued,?_,?_⟩
  · intro m' found
    by_cases known : i ≤ s.db.sequence
    · rw [square impl α client,itemApply known] at found
      cases here : (view s.db).item i with
      | none =>
        rw [here,Label.effectNone] at found
        contradiction
      | some m =>
        rw [here] at found
        have more := (effectContent found).2
        have less := stored m here
        have one : (if (label impl s e).fails i = true then 1 else 0) = recorded impl i s e := by
          rw [recorded]
          cases (label impl s e).fails i <;> rfl
        omega
    · rw [square impl α client] at found
      obtain ⟨none,quiet⟩ := freshItem (not_le.mp known) found
      have before := fresh (not_le.mp known)
      have base : (view db).item i = Option.none := (view db).fresh i (grown.trans_lt (not_le.mp known))
      have still : recorded impl i s e = 0 := by rw [recorded,quiet]; rfl
      rw [none,base,Option.elim_none]
      omega
  · intro above
    have before := fresh (issued.trans_lt above)
    have after := owedKnown (honestStep impl α client honest e) above
    have still : recorded impl i s e = 0 := by
      cases failed : (label impl s e).fails i with
      | false => rw [recorded,failed]; rfl
      | true =>
        obtain ⟨c,_,msg,_,_,place,_,own⟩ := failedBy impl failed
        have low := (honest.known c msg (by rw [place]; rfl)).1
        exact absurd (own ▸ low) (not_le.mpr (issued.trans_lt above))
    omega

/- The retry_count of a stored message is the number of its requests that failed, less those whose failure a worker is about to
record, whatever it was at the start: no increment is lost between the workers. -/
theorem failuresCounted (db : Db) (http : κ → σ) {es : List (Event κ)}
    (records : Allowed (step α impl client) (Records impl) (opened db http) es) :
    let s := run (step α impl client) (opened db http) es
    ∀ row ∈ s.db.rows, row.cols.retryCount + total (owed row.id) s.desk =
      (cell db row.id).elim 0 Message.retryCount + failures row.id s.log := by
  intro s row mem
  have start : Counted db row.id (opened db http : Shared κ σ) := by
    have idle : total (owed row.id) (opened db http : Shared κ σ).desk = 0 := totalZero (fun c => rfl)
    refine ⟨le_rfl,?_,fun _ => ⟨idle,rfl⟩⟩
    intro m found
    rw [idle,show (view db).item row.id = some m from found]
    rfl
  have both : Honest s ∧ Counted db row.id s :=
    runKeepsAllowed (I := fun s => Honest s ∧ Counted db row.id s)
      (fun s e recorded held => ⟨honestStep impl α client held.1 e,countedStep impl α client held.1 held.2 recorded⟩) records
      ⟨honestRun impl α client db http [],start⟩
  have counted := both.2.stored (item row.cols) (by rw [viewItem,cellOfRow mem]; rfl)
  have base : ((view db).item row.id).elim 0 Item.failures = (cell db row.id).elim 0 Message.retryCount := by
    rw [viewItem]
    cases cell db row.id <;> rfl
  rw [base] at counted
  exact counted

/- Two workers whose servers are down take the message before either leases it: both failures are counted. -/
theorem failuresCountedTwo :
    let db : Db := QueueRuns.history [.enqueue (some []) 100]
    let env : PassEnv := ⟨⟨100,.runs,0,.runs⟩,100,.runs,⟨100,.runs,.runs⟩⟩
    let turn : List (Event Bool) := [.move false env,.move true env]
    let es : List (Event Bool) := [.call false 1,.call true 1] ++ turn ++ turn ++ turn ++ turn ++ turn
    let s := run (step ℚ (fun _ => .opened) (fun _ => ⟨[],[]⟩)) (opened db (fun _ => MockHttpClient.new.setShouldFail true)) es
    s.db.rows.map (fun r => r.cols.retryCount) = [2] ∧
      ∀ row ∈ s.db.rows, row.cols.retryCount + total (owed row.id) s.desk = (cell db row.id).elim 0 Message.retryCount + failures row.id s.log := by
  intro db env turn es s
  have records : Allowed (step ℚ (fun _ => .opened) (fun _ => ⟨[],[]⟩)) (Records (fun _ => .opened))
      (opened db (fun _ => MockHttpClient.new.setShouldFail true)) es := by decide +kernel
  exact ⟨by decide +kernel,failuresCounted (fun _ => .opened) ℚ (fun _ => ⟨[],[]⟩) db _ records⟩

end Failures
end UmapTracker.SharedLeases
