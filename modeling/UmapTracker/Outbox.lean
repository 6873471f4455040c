import Mathlib.Algebra.Order.Group.Defs
import UmapTracker.Machine

/-! What an outbox with leases is for, over any content and any ordered time. A message is
accepted once, handed out under a lease of a fixed term, put back with a new
availability when its delivery failed, and removed by content or identity. -/
namespace UmapTracker.Outbox

structure Item (α τ : Type) where
  content : α
  failures : Nat
  available : τ
  deriving DecidableEq, Repr

@[ext]
structure Store (α τ : Type) where
  issued : Nat
  item : Nat → Option (Item α τ)
  fresh : ∀ i, issued < i → item i = none

inductive Label (α τ : Type) where
  | accept (content : α) (available : τ)
  | lease (id : Nat) (now : τ)
  | fail (id : Nat) (next : τ)
  | remove (gone : Nat → α → Bool)
  | quiet

variable {α τ : Type}

namespace Label
variable [Add τ] (term : τ)

/- What a label does to the message `i` that is already issued. -/
def effect (i : Nat) : Label α τ → Option (Item α τ) → Option (Item α τ)
  | accept _ _,o => o
  | lease id now,o => if i = id then o.map (fun m => {m with available := now+term}) else o
  | fail id next,o =>
      if i = id then o.map (fun m => {m with failures := m.failures+1, available := next}) else o
  | remove gone,o => o.filter (fun m => !gone i m.content)
  | quiet,o => o

@[simp] theorem effectNone (i : Nat) (l : Label α τ) : l.effect term i none = none := by
  cases l <;> simp [effect]

def apply (s : Store α τ) (l : Label α τ) : Store α τ :=
  match l with
  | accept content available => {
      issued := s.issued+1
      item := fun i => if i = s.issued+1 then some ⟨content,0,available⟩ else s.item i
      fresh := by
        intro i above
        rw [if_neg (by omega)]
        exact s.fresh i (by omega) }
  | l => {
      issued := s.issued
      item := fun i => l.effect term i (s.item i)
      fresh := by
        intro i above
        rw [s.fresh i above]
        exact effectNone term i l }

def Removes (i : Nat) (content : α) : Label α τ → Prop
  | remove gone => gone i content = true
  | _ => False

def fails (i : Nat) : Label α τ → Bool
  | fail id _ => i == id
  | _ => false

def leases (i : Nat) : Label α τ → Bool
  | lease id _ => i == id
  | _ => false

/- A lease is given only on a stored message that is available at the time. -/
def Legal [LE τ] (s : Store α τ) : Label α τ → Prop
  | lease id now => ∃ m, s.item id = some m ∧ m.available ≤ now
  | _ => True

end Label

open Label Machine

theorem knownOfStored {s : Store α τ} {i : Nat} {m : Item α τ} (stored : s.item i = some m) : i ≤ s.issued := by
  by_contra above
  rw [s.fresh i (by omega)] at stored
  contradiction

section Fate
variable [Add τ] {term : τ}

theorem itemApply {s : Store α τ} {l : Label α τ} {i : Nat} (known : i ≤ s.issued) :
    (l.apply term s).item i = l.effect term i (s.item i) := by
  cases l <;> try rfl
  exact if_neg (by omega)

theorem issuedApply (term : τ) (s : Store α τ) (l : Label α τ) : s.issued ≤ (l.apply term s).issued := by
  cases l <;> simp [apply]

theorem issuedRun (term : τ) (s : Store α τ) (ls : List (Label α τ)) :
    s.issued ≤ (run (Label.apply term) s ls).issued :=
  runKeeps (I := fun x : Store α τ => s.issued ≤ x.issued) (P := fun _ => True)
    (fun x l _ h => Nat.le_trans h (issuedApply term x l)) (fun _ _ => trivial) (Nat.le_refl _)

theorem itemRun {s : Store α τ} {ls : List (Label α τ)} {i : Nat} (known : i ≤ s.issued) :
    (run (Label.apply term) s ls).item i = ls.foldl (fun o l => l.effect term i o) (s.item i) := by
  induction ls generalizing s with
  | nil => rfl
  | cons l ls ih =>
    rw [runCons,ih (Nat.le_trans known (issuedApply term s l)),itemApply known]
    rfl

theorem goneStaysGone (i : Nat) (ls : List (Label α τ)) : ls.foldl (fun o l => l.effect term i o) none = none := by
  induction ls with
  | nil => rfl
  | cons l ls ih => rw [List.foldl_cons,effectNone,ih]

theorem effectContent {l : Label α τ} {i : Nat} {m m' : Item α τ}
    (h : l.effect term i (some m) = some m') :
    m'.content = m.content ∧ m'.failures = m.failures + (if l.fails i then 1 else 0) := by
  cases l <;> simp only [effect,fails] at h ⊢
  case lease id now => split at h <;> cases h <;> simp
  case fail id next => split at h <;> cases h <;> simp_all
  case remove gone => cases (Option.filter_eq_some_iff.mp h).1; simp
  all_goals cases h; simp

theorem effectPresent {l : Label α τ} {i : Nat} {m : Item α τ} :
    (∃ m', l.effect term i (some m) = some m') ↔ ¬ l.Removes i m.content := by
  cases l <;> simp only [effect,Removes]
  case lease id now => split <;> simp
  case fail id next => split <;> simp
  case remove gone => simp [Option.filter_eq_some_iff]
  all_goals simp

/- A stored message stays exactly until a label removes it; its content never changes, and its
failures are counted. -/
theorem survives (term : τ) {s : Store α τ} {i : Nat} {m : Item α τ}
    (stored : s.item i = some m) (ls : List (Label α τ)) :
    ((∃ m', (run (Label.apply term) s ls).item i = some m') ↔ ∀ l ∈ ls, ¬ l.Removes i m.content) ∧
    ∀ m', (run (Label.apply term) s ls).item i = some m' →
      m'.content = m.content ∧ m'.failures = m.failures + ls.countP (fun l => l.fails i) := by
  rw [itemRun (knownOfStored stored),stored]
  clear stored
  induction ls generalizing m with
  | nil => simp
  | cons l ls ih =>
    rw [List.foldl_cons]
    cases h : l.effect term i (some m) with
    | none =>
      have removed : l.Removes i m.content := by
        by_contra kept
        have present : ∃ m', l.effect term i (some m) = some m' := effectPresent.mpr kept
        simp [h] at present
      simp [goneStaysGone,removed]
    | some next =>
      have kept : ¬ l.Removes i m.content := effectPresent.mp ⟨next,h⟩
      obtain ⟨content,failures⟩ := effectContent h
      obtain ⟨present,values⟩ := ih (m := next)
      rw [content] at present
      refine ⟨by simp [present,kept],?_⟩
      intro m' found
      obtain ⟨c,f⟩ := values m' found
      refine ⟨c.trans content,?_⟩
      rw [f,failures,List.countP_cons]
      omega

/- A label that leaves the message `i` alone. -/
def Spares (i : Nat) (content : α) (l : Label α τ) : Prop :=
  l.fails i = false ∧ l.leases i = false ∧ ¬ l.Removes i content

theorem sparedStays {s : Store α τ} {ls : List (Label α τ)} {i : Nat} {m : Item α τ}
    (stored : s.item i = some m) (spared : ∀ l ∈ ls, Spares i m.content l) :
    (run (Label.apply term) s ls).item i = some m := by
  rw [itemRun (knownOfStored stored),stored]
  clear stored
  induction ls with
  | nil => rfl
  | cons l ls ih =>
    obtain ⟨noFail,noLease,kept⟩ := spared l List.mem_cons_self
    have same : l.effect term i (some m) = some m := by
      cases l <;> simp_all [effect,fails,leases,Removes]
    rw [List.foldl_cons,same]
    exact ih (fun x hx => spared x (List.mem_cons_of_mem _ hx))

/- No message is lost to a lease: spared after it, the message is available again at the end
of the term, with its content and its failures. -/
theorem leaseReturns {s : Store α τ} {mid : List (Label α τ)} {i : Nat} {m : Item α τ} {now : τ}
    (stored : s.item i = some m) (spared : ∀ l ∈ mid, Spares i m.content l) :
    (run (Label.apply term) s (lease i now::mid)).item i = some {m with available := now+term} := by
  have leased : ((lease i now).apply term s).item i = some {m with available := now+term} := by
    rw [itemApply (knownOfStored stored),stored]
    simp [effect]
  rw [runCons]
  exact sparedStays leased spared

theorem availableApply [LE τ] {s : Store α τ} {l : Label α τ} {i : Nat} {bound : τ} (known : i ≤ s.issued)
    (held : ∀ m, s.item i = some m → bound ≤ m.available) (noFail : l.fails i = false)
    (later : ∀ now, l = lease i now → bound ≤ now+term) :
    ∀ m, (l.apply term s).item i = some m → bound ≤ m.available := by
  intro m found
  rw [itemApply known] at found
  cases l with
  | accept content available => exact held m found
  | quiet => exact held m found
  | remove gone => exact held m (Option.filter_eq_some_iff.mp found).1
  | fail id next =>
    have other : i ≠ id := by simpa [fails] using noFail
    simp only [effect,if_neg other] at found
    exact held m found
  | lease id now =>
    simp only [effect] at found
    split at found
    · rename_i same
      subst same
      obtain ⟨old,_,rfl⟩ := Option.map_eq_some_iff.mp found
      exact later now rfl
    · exact held m found

end Fate

section Lease
variable [AddCommGroup τ] [LinearOrder τ] [IsOrderedAddMonoid τ] {term : τ}

theorem availableAfterLease {s : Store α τ} {ls : List (Label α τ)} {i : Nat} {bound : τ}
    (positive : 0 ≤ term) (legal : Allowed (Label.apply term) Legal s ls) (known : i ≤ s.issued)
    (held : ∀ m, s.item i = some m → bound ≤ m.available) (noFail : ∀ l ∈ ls, l.fails i = false) :
    ∀ m, (run (Label.apply term) s ls).item i = some m → bound ≤ m.available := by
  have keep : ∀ (x : Store α τ) (l : Label α τ), Legal x l ∧ l.fails i = false →
      (i ≤ x.issued ∧ ∀ m, x.item i = some m → bound ≤ m.available) →
      i ≤ (l.apply term x).issued ∧ ∀ m, (l.apply term x).item i = some m → bound ≤ m.available := by
    rintro x l ⟨leased,alone⟩ ⟨low,held⟩
    refine ⟨Nat.le_trans low (issuedApply term x l),availableApply low held alone ?_⟩
    rintro now rfl
    obtain ⟨old,stored,ready⟩ := leased
    calc bound ≤ old.available := held old stored
      _ ≤ now := ready
      _ ≤ now+term := le_add_of_nonneg_right positive
  exact (runKeepsAllowed (I := fun x : Store α τ => i ≤ x.issued ∧ ∀ m, x.item i = some m → bound ≤ m.available)
    keep (allowedEach legal noFail) ⟨known,held⟩).2

/- One holder at a time: a second lease of the same message waits for a reported failure or for
the end of the first lease's term. -/
theorem leaseExclusive {s : Store α τ} {mid : List (Label α τ)} {i : Nat} {first second : τ}
    (positive : 0 ≤ term)
    (legal : Allowed (Label.apply term) Legal s (lease i first :: mid ++ [lease i second]))
    (noFail : ∀ l ∈ mid, l.fails i = false) : first+term ≤ second := by
  rw [List.cons_append,allowedCons,allowedAppend,allowedCons] at legal
  obtain ⟨⟨old,stored,_⟩,middle,⟨later,found,ready⟩,_⟩ := legal
  have known := knownOfStored stored
  have start : ∀ m, (Label.apply term s (lease i first)).item i = some m → first+term ≤ m.available := by
    intro m hm
    rw [itemApply known,stored] at hm
    simp only [effect,if_pos,Option.map_some] at hm
    cases Option.some.inj hm
    exact le_refl _
  exact (availableAfterLease positive middle known start noFail later found).trans ready

end Lease
end UmapTracker.Outbox
