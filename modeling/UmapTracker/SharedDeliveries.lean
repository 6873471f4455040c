import UmapTracker.SharedWorkers

/-! What holds of several upload workers on one database file, in whatever order their statements and requests
come and whatever SQLite and the servers answer. -/
namespace UmapTracker.SharedDeliveries
open AutoTable MessageQueue QueueContents UploadWorker UploadPass Outbox QueueView SharedWorkers GeoTypes HttpClient Machine Text
variable {κ σ : Type}

def accepts (impl : Impl) (db : Db) (payload : Option Bytes) (now : Int) (step : Exec) : Bool :=
  Result.hasValue (enqueue impl db payload now step).1

theorem viewEnqueued (impl : Impl) (db : Db) (text : Bytes) (now : Int) (step : Exec) :
    view (enqueue impl db (some text) now step).2 =
      (if accepts impl db (some text) now step then Label.accept (text,now) now else .quiet).apply leaseSeconds (view db) := by
  unfold accepts enqueue
  dsimp only
  split
  · cases inserted : step.outcome (sqlEnqueue db text now now) with
    | none => rfl
    | some after =>
      have executed : sqlEnqueue db text now now = some after := by
        cases step with
        | runs => exact inserted
        | fails code => contradiction
      exact viewEnqueue executed
  · rfl

section Labels
variable (impl : κ → Impl)

/- What an event does to the store of the messages. -/
def label (s : Shared κ σ) : Event κ → Label Content Int
  | .call _ _ | .restart _ => .quiet
  | .move c env =>
    match (s.desk c).place with
    | .selected msg => if env.dequeue.mark = .runs then .lease msg.id.toNat (msg.nextRetryAt-leaseSeconds) else .quiet
    | .answered msg true => if Acknowledges (impl c) env then .remove (fun i _ => i == msg.id.toNat) else .quiet
    | .retried msg retryCount =>
      if env.markFailed.mark = .runs then .fail msg.id.toNat (env.markFailed.now + calculateBackoff (retryCount+1)) else .quiet
    | _ => .quiet
  | .enqueue c payload now step =>
    match payload with
    | some text => if accepts (impl c) s.db (some text) now step then .accept (text,now) now else .quiet
    | none => .quiet
  | .purgeExpired c ttlHours now step =>
    if (impl c).has .purgeExpired = true ∧ step = .runs then .remove (fun _ content => decide (content.2 ≤ now - ttlHours.toNat*secondsPerHour))
    else .quiet
  | .reset c step => if (impl c).db = true ∧ step = .runs then .remove (fun _ _ => true) else .quiet

/- The event clears out messages of that age. -/
def Clears (createdAt : Int) : Event κ → Prop
  | .purgeExpired c ttlHours now step =>
    ((impl c).has .purgeExpired = true ∧ step = .runs) ∧ createdAt ≤ now - ttlHours.toNat*secondsPerHour
  | .reset c step => (impl c).db = true ∧ step = .runs
  | _ => False

theorem removedBy {s : Shared κ σ} {e : Event κ} {i : Nat} {content : Content} (removes : (label impl s e).Removes i content) :
    (∃ c msg, (s.desk c).place = .answered msg true ∧ i = msg.id.toNat) ∨ Clears impl content.2 e := by
  cases e with
  | call c maxBatch => exact removes.elim
  | restart c => exact removes.elim
  | move c env =>
    simp only [label] at removes
    split at removes
    · split at removes <;> exact removes.elim
    · rename_i msg place
      split at removes
      · exact .inl ⟨c,msg,place,eq_of_beq removes⟩
      · exact removes.elim
    · split at removes <;> exact removes.elim
    · exact removes.elim
  | enqueue c payload now step =>
    simp only [label] at removes
    split at removes
    · split at removes <;> exact removes.elim
    · exact removes.elim
  | purgeExpired c ttlHours now step =>
    simp only [label] at removes
    split at removes
    · rename_i executed
      exact .inr ⟨executed,of_decide_eq_true removes⟩
    · exact removes.elim
  | reset c step =>
    simp only [label] at removes
    split at removes
    · rename_i executed
      exact .inr executed
    · exact removes.elim

theorem failedBy {s : Shared κ σ} {e : Event κ} {i : Nat} (fails : (label impl s e).fails i = true) :
    ∃ c env msg retryCount, e = .move c env ∧ (s.desk c).place = .retried msg retryCount ∧ env.markFailed.mark = .runs ∧
      i = msg.id.toNat := by
  cases e with
  | move c env =>
    simp only [label] at fails
    split at fails
    · split at fails <;> contradiction
    · split at fails <;> contradiction
    · rename_i msg retryCount place
      split at fails
      · rename_i executed
        exact ⟨c,env,msg,retryCount,rfl,place,executed,eq_of_beq fails⟩
      · contradiction
    · contradiction
  | enqueue c payload now step =>
    simp only [label] at fails
    split at fails
    · split at fails <;> contradiction
    · contradiction
  | call c maxBatch => contradiction
  | restart c => contradiction
  | purgeExpired c ttlHours now step => simp only [label] at fails; split at fails <;> contradiction
  | reset c step => simp only [label] at fails; split at fails <;> contradiction

theorem leasedBy {s : Shared κ σ} {e : Event κ} {i : Nat} {now : Int} (leases : label impl s e = .lease i now) :
    ∃ c msg, (s.desk c).place = .selected msg ∧ msg.id.toNat = i ∧ now = msg.nextRetryAt-leaseSeconds := by
  cases e with
  | move c env =>
    simp only [label] at leases
    split at leases
    · rename_i msg place
      split at leases
      · obtain ⟨own,rfl⟩ := Label.lease.inj leases
        exact ⟨c,msg,place,own,rfl⟩
      · contradiction
    · split at leases <;> contradiction
    · split at leases <;> contradiction
    · contradiction
  | enqueue c payload now step =>
    simp only [label] at leases
    split at leases
    · split at leases <;> contradiction
    · contradiction
  | call c maxBatch => contradiction
  | restart c => contradiction
  | purgeExpired c ttlHours now step => simp only [label] at leases; split at leases <;> contradiction
  | reset c step => simp only [label] at leases; split at leases <;> contradiction

end Labels

theorem contentsItem {db : Db} {c : Entry} : c ∈ contents db ↔ ∃ m, (view db).item c.1 = some m ∧ m.content = c.2 := by
  obtain ⟨i,payload,createdAt⟩ := c
  simp only [contents,List.mem_map,rowEntry,Prod.mk.injEq]
  constructor
  · rintro ⟨row,mem,rfl,rfl,rfl⟩
    exact ⟨item row.cols,viewStored.mpr ⟨row.cols,mem,rfl⟩,rfl⟩
  · rintro ⟨m,stored,content⟩
    obtain ⟨cols,mem,rfl⟩ := viewStored.mp stored
    exact ⟨⟨i,cols⟩,mem,rfl,Prod.mk.inj content⟩

/- Whatever is stored under the id is this message. -/
def Known (s : Store Content Int) (msg : QueuedMessage) : Prop :=
  msg.id.toNat ≤ s.issued ∧ ∀ m, s.item msg.id.toNat = some m → m.content = (msg.payload,msg.createdAt)

theorem knownApply {s : Store Content Int} {msg : QueuedMessage} (known : Known s msg) (l : Label Content Int) :
    Known (l.apply leaseSeconds s) msg := by
  obtain ⟨low,content⟩ := known
  refine ⟨low.trans (issuedApply leaseSeconds s l),?_⟩
  intro m' found
  rw [itemApply low] at found
  cases stored : s.item msg.id.toNat with
  | none => simp [stored] at found
  | some m =>
    rw [stored] at found
    exact (effectContent found).1.trans (content m stored)

theorem knownRow {db : Db} {row : Row Message} (mem : row ∈ db.rows) (now : Int) : Known (view db) (queued now row) := by
  have id : (queued now row).id.toNat = row.id := rowidRoundTrip mem
  refine ⟨by rw [id]; exact (db.issued row mem).2,?_⟩
  intro m found
  rw [id,viewItem,cellOfRow mem] at found
  exact (Option.some.inj found) ▸ rfl

/- A request that a worker takes for accepted was. -/
def Told (log : List (κ × Attempt)) (c : κ) (d : Desk σ) : Prop :=
  ∀ msg, d.place = .answered msg true → ∃ a, (c,a) ∈ log ∧ a.message = msg ∧ a.delivered = true

section Moved
variable (α : Type) [Double α]

theorem heldMoved {P : QueuedMessage → Prop} {db : Db} {d : Desk σ} {m : Moved σ} {impl : Impl} {client : TraccarClient} {env : PassEnv}
    (held : ∀ msg, d.place.message = some msg → P msg) (found : ∀ row ∈ db.rows, ∀ now, P (queued now row))
    (made : Made α impl client db d env m) :
    (∀ msg, m.desk.place.message = some msg → P msg) ∧
    ∀ a ∈ m.request, P a.message ∧ a.url = client.buildUrl (reported α a.message.createdAt) := by
  cases made with
  | ended => exact ⟨by simp [Place.message],by simp⟩
  | found row _ mem =>
    refine ⟨?_,by simp⟩
    intro msg same
    rw [← Option.some.inj same]
    exact found row mem env.dequeue.now
  | leased msg place => exact ⟨fun msg' same => held msg' (by rw [place]; exact same),by simp⟩
  | asked msg a http place message url =>
    refine ⟨fun msg' same => held msg' (by rw [place]; exact same),?_⟩
    rintro _ ⟨⟩
    rw [message]
    exact ⟨held msg (by rw [place]; rfl),url⟩
  | sent => exact ⟨by simp [finish,Place.message],by simp⟩
  | counted msg retryCount place => exact ⟨fun msg' same => held msg' (by rw [place]; exact same),by simp⟩
  | skipped => exact ⟨by simp [finish,Place.message],by simp⟩
  | failed => exact ⟨by simp [finish,Place.message],by simp⟩

theorem toldMoved {impl : Impl} {client : TraccarClient} {db : Db} {d : Desk σ} {env : PassEnv} {m : Moved σ}
    (made : Made α impl client db d env m) (log : List (κ × Attempt)) (c : κ) :
    Told (log ++ m.request.toList.map (fun a => (c,a))) c m.desk := by
  intro msg place
  cases made with
  | asked msg' a http _ message =>
    obtain ⟨rfl,delivered⟩ := Place.answered.inj place
    exact ⟨a,by simp,message,delivered⟩
  | _ => simp [finish] at place

end Moved

variable [DecidableEq κ] [IHttpClient σ] (impl : κ → Impl) (α : Type) [Double α] (client : κ → TraccarClient)

theorem square (s : Shared κ σ) (e : Event κ) :
    view (step α impl client s e).db = (label impl s e).apply leaseSeconds (view s.db) := by
  cases e with
  | call c maxBatch =>
    simp only [step]
    split <;> rfl
  | restart c => rfl
  | move c env =>
    simp only [step,label]
    cases place : (s.desk c).place with
    | idle => simp only [move,place]; rfl
    | polling =>
      simp only [move,place]
      split
      · rfl
      · split
        · split <;> rfl
        · rfl
    | selected msg =>
      simp only [move,place]
      cases env.dequeue.mark with
      | runs =>
        have term := viewDequeueMark s.db (msg.nextRetryAt-leaseSeconds) msg.id
        rwa [sub_add_cancel] at term
      | fails code => rfl
    | leased msg => simp only [move,place]; rfl
    | answered msg delivered =>
      cases delivered with
      | true =>
        simp only [move,place]
        split
        · rename_i executed
          simp only [markSent,executed.1,executed.2,if_true]
          exact viewMarkSent s.db msg.id
        · rename_i missed
          rw [notAcknowledged missed]
          rfl
      | false =>
        simp only [move,place]
        split <;> rfl
    | retried msg retryCount =>
      simp only [move,place]
      cases env.markFailed.mark with
      | runs => exact viewMarkFailed s.db _ msg.id
      | fails code => rfl
  | enqueue c payload now step =>
    cases payload with
    | none => rfl
    | some text => exact viewEnqueued (impl c) s.db text now step
  | purgeExpired c ttlHours now step =>
    simp only [SharedWorkers.step,label,purgeExpired]
    by_cases prepared : (impl c).has .purgeExpired = true
    · cases step with
      | runs =>
        simp only [prepared,and_self,if_true]
        exact viewPurgeExpired s.db _
      | fails code => simp [prepared]; rfl
    · simp [prepared]; rfl
  | reset c step =>
    simp only [SharedWorkers.step,label,MessageQueue.reset]
    by_cases opened : (impl c).db = true
    · cases step with
      | runs =>
        simp only [opened,and_self,if_true]
        exact viewReset s.db
      | fails code => simp [opened]; rfl
    · simp [opened]; rfl

/- What all held messages have in common, a found message having it, they keep; and so do the requests. -/
theorem heldStep {P : QueuedMessage → Prop} {s : Shared κ σ} (held : ∀ c msg, (s.desk c).place.message = some msg → P msg)
    (found : ∀ row ∈ s.db.rows, ∀ now, P (queued now row)) (e : Event κ) :
    let after := step α impl client s e
    (∀ c msg, (after.desk c).place.message = some msg → P msg) ∧
    ∀ x ∈ after.log, x ∈ s.log ∨ P x.2.message ∧ x.2.url = (client x.1).buildUrl (reported α x.2.message.createdAt) := by
  intro after
  cases e with
  | call c maxBatch =>
    simp only [after,step]
    split
    · refine ⟨?_,fun x mem => .inl mem⟩
      refine (Function.forall_update_iff _ (p := fun _ (d : Desk σ) => ∀ msg, d.place.message = some msg → P msg)).mpr ⟨?_,fun c _ => held c⟩
      simp [Place.message]
    · exact ⟨held,fun x mem => .inl mem⟩
  | move c env =>
    obtain ⟨own,asked⟩ := heldMoved α (held c) found (moveMade α (impl c) (client c) s.db (s.desk c) env)
    refine ⟨?_,?_⟩
    · exact (Function.forall_update_iff _ (p := fun _ (d : Desk σ) => ∀ msg, d.place.message = some msg → P msg)).mpr ⟨own,fun c _ => held c⟩
    · intro x mem
      rcases List.mem_append.mp mem with old | new
      · exact .inl old
      · obtain ⟨a,request,rfl⟩ := List.mem_map.mp new
        exact .inr (asked a (Option.mem_toList.mp request))
  | enqueue c payload now step => exact ⟨held,fun x mem => .inl mem⟩
  | purgeExpired c ttlHours now step => exact ⟨held,fun x mem => .inl mem⟩
  | reset c step => exact ⟨held,fun x mem => .inl mem⟩
  | restart c =>
    refine ⟨?_,fun x mem => .inl mem⟩
    refine (Function.forall_update_iff _ (p := fun _ (d : Desk σ) => ∀ msg, d.place.message = some msg → P msg)).mpr ⟨?_,fun c _ => held c⟩
    simp [Place.message]

structure Honest (s : Shared κ σ) : Prop where
  known : ∀ c msg, (s.desk c).place.message = some msg → Known (view s.db) msg
  told : ∀ c, Told s.log c (s.desk c)

theorem honestStep {s : Shared κ σ} (honest : Honest s) (e : Event κ) : Honest (step α impl client s e) := by
  have kept : ∀ msg, Known (view s.db) msg → Known (view (step α impl client s e).db) msg := by
    intro msg known
    rw [square impl α client]
    exact knownApply known _
  refine ⟨(heldStep impl α client (fun c msg held => kept msg (honest.known c msg held))
    (fun row mem now => kept _ (knownRow mem now)) e).1,?_⟩
  cases e with
  | call c maxBatch =>
    simp only [step]
    split
    · refine (Function.forall_update_iff _ (p := fun c d => Told s.log c d)).mpr ⟨?_,fun c _ => honest.told c⟩
      intro msg place
      contradiction
    · exact honest.told
  | move c env =>
    refine (Function.forall_update_iff _ (p := fun c d => Told _ c d)).mpr ⟨?_,?_⟩
    · exact toldMoved α (moveMade α (impl c) (client c) s.db (s.desk c) env) s.log c
    · intro c' _ msg place
      obtain ⟨a,mem,same⟩ := honest.told c' msg place
      exact ⟨a,List.mem_append_left _ mem,same⟩
  | enqueue c payload now step => exact honest.told
  | purgeExpired c ttlHours now step => exact honest.told
  | reset c step => exact honest.told
  | restart c =>
    refine (Function.forall_update_iff _ (p := fun c d => Told s.log c d)).mpr ⟨?_,fun c _ => honest.told c⟩
    intro msg place
    contradiction

theorem honestRun (db : Db) (http : κ → σ) (es : List (Event κ)) : Honest (run (step α impl client) (opened db http) es) :=
  runKeeps (I := Honest) (P := fun _ => True) (fun _ e _ honest => honestStep impl α client honest e) (fun _ _ => trivial)
    ⟨by simp [opened,Place.message],fun c msg place => by simp [opened] at place⟩

/- The message is stored, or a request for it was accepted. -/
def Accounted (c : Entry) (s : Shared κ σ) : Prop :=
  c ∈ contents s.db ∨ ∃ x ∈ s.log, x.2.delivered = true ∧ entry x.2.message = c

theorem logGrows (s : Shared κ σ) (e : Event κ) : ∀ x ∈ s.log, x ∈ (step α impl client s e).log := by
  intro x mem
  cases e with
  | call c maxBatch =>
    simp only [step]
    split <;> exact mem
  | move c env => exact List.mem_append_left _ mem
  | _ => exact mem

theorem accountedStep {c : Entry} {s : Shared κ σ} (honest : Honest s) (accounted : Accounted c s) {e : Event κ}
    (kept : ¬Clears impl c.2.2 e) : Accounted c (step α impl client s e) := by
  rcases accounted with stored | ⟨x,mem,sent⟩
  · obtain ⟨m,found,content⟩ := contentsItem.mp stored
    by_cases removes : (label impl s e).Removes c.1 m.content
    · rcases removedBy impl removes with ⟨w,msg,place,own⟩ | clears
      · obtain ⟨a,mem,same,delivered⟩ := honest.told w msg place
        have known := (honest.known w msg (by rw [place]; rfl)).2 m (own ▸ found)
        refine .inr ⟨_,logGrows impl α client s e _ mem,delivered,?_⟩
        rw [same,entry]
        exact Prod.ext own.symm (known.symm.trans content)
      · exact absurd (content ▸ clears) kept
    · have present : ∃ m', (label impl s e).effect leaseSeconds c.1 (some m) = some m' := effectPresent.mpr removes
      obtain ⟨m',after⟩ := present
      refine .inl (contentsItem.mpr ⟨m',?_,(effectContent after).1.trans content⟩)
      rw [square impl α client,itemApply (knownOfStored found),found]
      exact after
  · exact .inr ⟨x,logGrows impl α client s e x mem,sent⟩

/- The entry was stored at some time of the run. -/
def Seen (db : Db) (http : κ → σ) (es : List (Event κ)) (c : Entry) : Prop :=
  ∃ pre post, es = pre ++ post ∧ c ∈ contents (run (step α impl client) (opened db http) pre).db

theorem seenRun (db : Db) (http : κ → σ) (es : List (Event κ)) :
    let s := run (step α impl client) (opened db http) es
    (∀ c msg, (s.desk c).place.message = some msg → Seen impl α client db http es (entry msg)) ∧
    ∀ x ∈ s.log, Seen impl α client db http es (entry x.2.message) ∧
      x.2.url = (client x.1).buildUrl (reported α x.2.message.createdAt) := by
  induction es using List.reverseRecOn with
  | nil => exact ⟨by simp [opened,Place.message],by simp [opened]⟩
  | append_singleton es e ih =>
    obtain ⟨held,logged⟩ := ih
    have longer : ∀ c, Seen impl α client db http es c → Seen impl α client db http (es ++ [e]) c := by
      rintro c ⟨pre,post,rfl,stored⟩
      exact ⟨pre,post ++ [e],List.append_assoc pre post [e],stored⟩
    obtain ⟨held',logged'⟩ := heldStep impl α client (P := fun msg => Seen impl α client db http (es ++ [e]) (entry msg))
      (fun c msg place => longer _ (held c msg place))
      (fun row mem now => ⟨es,[e],rfl,by rw [queuedEntry mem]; exact List.mem_map_of_mem mem⟩) e
    rw [runAppend]
    refine ⟨held',?_⟩
    intro x mem
    rcases logged' x mem with old | new
    · exact ⟨longer _ (logged x old).1,(logged x old).2⟩
    · exact new

/- Nothing is lost between the workers, and nothing is made up: a message that was stored at some time of the run is
stored at its end, or one of its requests was accepted, or an executed purge or reset cleared it out; and every request
reports a message that was stored. -/
theorem atLeastOnce (db : Db) (http : κ → σ) (es : List (Event κ)) :
    let s := run (step α impl client) (opened db http) es
    (∀ pre post, es = pre ++ post → ∀ c ∈ contents (run (step α impl client) (opened db http) pre).db,
      c ∈ contents s.db ∨ (∃ x ∈ s.log, x.2.delivered = true ∧ entry x.2.message = c) ∨ ∃ e ∈ post, Clears impl c.2.2 e) ∧
    ∀ x ∈ s.log, Seen impl α client db http es (entry x.2.message) ∧
      x.2.url = (client x.1).buildUrl (reported α x.2.message.createdAt) := by
  intro s
  refine ⟨?_,(seenRun impl α client db http es).2⟩
  rintro pre post rfl c stored
  by_cases kept : ∀ e ∈ post, ¬Clears impl c.2.2 e
  · have both : Honest s ∧ Accounted c s := by
      change Honest (run (step α impl client) (opened db http) (pre ++ post)) ∧ Accounted c _
      rw [show s = run (step α impl client) (run (step α impl client) (opened db http) pre) post from runAppend _ _ _,runAppend]
      exact runKeeps (I := fun s => Honest s ∧ Accounted c s)
        (fun t e clear held => ⟨honestStep impl α client held.1 e,accountedStep impl α client held.1 held.2 clear⟩) kept
        ⟨honestRun impl α client db http pre,.inl stored⟩
    exact both.2.imp_right .inl
  · push Not at kept
    exact .inr (.inr kept)

end UmapTracker.SharedDeliveries
