import Mathlib.Data.List.MinMax
import Mathlib.Data.List.Nodup
import Mathlib.Data.List.Pairwise

/-! Rows under an autoincrement integer key, as an SQL engine keeps them: a key is
handed out once, above every key ever used, and deletion does not give it back.
A selection that ends in ORDER BY .. LIMIT 1 may return any of the rows that tie on
the sort key; `tie` stands for that choice. -/
namespace UmapTracker.AutoTable

structure Row (α : Type) where
  id : Nat
  cols : α
  deriving DecidableEq, Repr

def maxRowid : Nat := 9223372036854775807

structure Table (α : Type) where
  rows : List (Row α)
  sequence : Nat
  ordered : rows.Pairwise (fun a b => a.id < b.id)
  issued : ∀ r ∈ rows, 0 < r.id ∧ r.id ≤ sequence
  bounded : sequence ≤ maxRowid

variable {α : Type}

def empty : Table α := ⟨[],0,.nil,by simp,Nat.zero_le _⟩

def insert (t : Table α) (c : α) : Option (Table α) :=
  if room : t.sequence < maxRowid then
    some {
      rows := t.rows ++ [⟨t.sequence+1,c⟩]
      sequence := t.sequence+1
      ordered := by
        refine List.pairwise_append.mpr ⟨t.ordered,by simp,?_⟩
        intro a ha b hb
        have := (t.issued a ha).2
        simp only [List.mem_singleton] at hb
        subst b
        exact Nat.lt_succ_of_le this
      issued := by
        intro r hr
        rcases List.mem_append.mp hr with old | new
        · have := t.issued r old
          omega
        · simp only [List.mem_singleton] at new
          subst r
          exact ⟨Nat.succ_pos _,Nat.le_refl _⟩
      bounded := room }
  else none

def rewrite (p : Row α → Bool) (f : α → α) (r : Row α) : Row α :=
  if p r then ⟨r.id,f r.cols⟩ else r

@[simp] theorem rewriteId (p : Row α → Bool) (f : α → α) (r : Row α) : (rewrite p f r).id = r.id := by
  unfold rewrite; split <;> rfl

def update (t : Table α) (p : Row α → Bool) (f : α → α) : Table α where
  rows := t.rows.map (rewrite p f)
  sequence := t.sequence
  ordered := List.pairwise_map.mpr (t.ordered.imp (by intro a b h; simpa using h))
  issued := by
    intro r hr
    obtain ⟨old,mem,rfl⟩ := List.mem_map.mp hr
    simpa using t.issued old mem
  bounded := t.bounded

def delete (t : Table α) (p : Row α → Bool) : Table α where
  rows := t.rows.filter (fun r => !p r)
  sequence := t.sequence
  ordered := t.ordered.filter _
  issued := fun r hr => t.issued r (List.mem_of_mem_filter hr)
  bounded := t.bounded

def cell (t : Table α) (id : Nat) : Option α :=
  (t.rows.find? (fun r => r.id == id)).map Row.cols

@[simp] theorem emptyRows : (empty : Table α).rows = [] := rfl

theorem uniqueId {t : Table α} {a b : Row α} (ha : a ∈ t.rows) (hb : b ∈ t.rows)
    (same : a.id = b.id) : a = b := by
  by_contra different
  have apart : t.rows.Pairwise (fun x y => x.id ≠ y.id) := t.ordered.imp Nat.ne_of_lt
  have : Std.Symm (fun x y : Row α => x.id ≠ y.id) := ⟨fun _ _ h => h.symm⟩
  exact apart.forall ha hb different same

theorem cellMem {t : Table α} {id : Nat} {c : α} :
    cell t id = some c ↔ (⟨id,c⟩ : Row α) ∈ t.rows := by
  constructor
  · intro h
    obtain ⟨row,found,rfl⟩ := Option.map_eq_some_iff.mp h
    have key : row.id = id := by simpa using List.find?_some found
    subst key
    exact List.mem_of_find?_eq_some found
  · intro mem
    obtain ⟨row,found⟩ := Option.isSome_iff_exists.mp (List.find?_isSome.mpr ⟨_,mem,by simp⟩ :
      (t.rows.find? (fun r => r.id == id)).isSome)
    have key : row.id = id := by simpa using List.find?_some found
    have same := uniqueId (List.mem_of_find?_eq_some found) mem key
    simp [cell,found,same]

theorem cellOfRow {t : Table α} {r : Row α} (mem : r ∈ t.rows) : cell t r.id = some r.cols :=
  cellMem.mpr mem

theorem cellIssued {t : Table α} {id : Nat} {c : α} (h : cell t id = some c) :
    0 < id ∧ id ≤ t.sequence := t.issued _ (cellMem.mp h)

theorem cellAbove {t : Table α} {id : Nat} (above : t.sequence < id) : cell t id = none := by
  cases h : cell t id with
  | none => rfl
  | some c => have := (cellIssued h).2; omega

theorem cellInsert {t t' : Table α} {c : α} (h : insert t c = some t') (id : Nat) :
    cell t' id = if id = t.sequence+1 then some c else cell t id := by
  unfold insert at h
  split at h <;> try contradiction
  cases Option.some.inj h
  apply Option.ext
  intro d
  rw [cellMem,List.mem_append,List.mem_singleton,Row.mk.injEq]
  split
  · rename_i same
    subst id
    have fresh : (⟨t.sequence+1,d⟩ : Row α) ∉ t.rows := by
      intro mem
      have := (t.issued _ mem).2
      simp only at this
      omega
    simp [fresh,eq_comm]
  · rename_i different
    simp [different,cellMem]

theorem insertSequence {t t' : Table α} {c : α} (h : insert t c = some t') :
    t'.sequence = t.sequence+1 := by
  unfold insert at h
  split at h <;> try contradiction
  cases Option.some.inj h
  rfl

theorem insertRows {t t' : Table α} {c : α} (h : insert t c = some t') :
    t'.rows = t.rows ++ [⟨t.sequence+1,c⟩] := by
  unfold insert at h
  split at h <;> try contradiction
  cases Option.some.inj h
  rfl

theorem insertNone {t : Table α} {c : α} : insert t c = none ↔ t.sequence = maxRowid := by
  unfold insert
  have := t.bounded
  split
  · simp; omega
  · simp; omega

theorem cellUpdate (t : Table α) (p : Row α → Bool) (f : α → α) (id : Nat) :
    cell (update t p f) id = (cell t id).map (fun c => if p ⟨id,c⟩ then f c else c) := by
  apply Option.ext
  intro d
  rw [cellMem,Option.map_eq_some_iff]
  simp only [update,List.mem_map,cellMem]
  constructor
  · rintro ⟨row,mem,same⟩
    have key : row.id = id := by simpa using congrArg Row.id same
    subst key
    refine ⟨row.cols,mem,?_⟩
    have value := congrArg Row.cols same
    change (if p row then f row.cols else row.cols) = d
    unfold rewrite at value
    split at value <;> simp_all
  · rintro ⟨c,mem,rfl⟩
    refine ⟨_,mem,?_⟩
    unfold rewrite
    split <;> simp_all

theorem cellDelete (t : Table α) (p : Row α → Bool) (id : Nat) :
    cell (delete t p) id = (cell t id).filter (fun c => !p ⟨id,c⟩) := by
  apply Option.ext
  intro d
  rw [cellMem,Option.filter_eq_some_iff,cellMem]
  exact List.mem_filter

theorem countId {t : Table α} {r : Row α} (mem : r ∈ t.rows) :
    t.rows.countP (fun s => s.id == r.id) = 1 := by
  have unique : (t.rows.map Row.id).Nodup :=
    List.pairwise_map.mpr (t.ordered.imp Nat.ne_of_lt)
  have one := List.count_eq_one_of_mem unique (List.mem_map_of_mem (f := Row.id) mem)
  rw [List.count,List.countP_map] at one
  exact one

theorem countWithout {t : Table α} {r : Row α} {p : Row α → Bool} (mem : r ∈ t.rows) (wanted : p r = true) :
    t.rows.countP p = t.rows.countP (fun s => p s && !(s.id == r.id)) + 1 := by
  have here : t.rows.countP (fun s => p s && s.id == r.id) = 1 := by
    rw [← countId mem]
    apply List.countP_congr
    intro s hs
    constructor
    · intro h; simp_all
    · intro h
      have same := uniqueId hs mem (by simpa using h)
      simp [same,wanted]
  rw [List.countP_eq_countP_filter_add t.rows p (fun s => s.id == r.id),List.countP_filter,List.countP_filter,here]
  exact Nat.add_comm _ _

/- How many rows of the one table the other no longer has. -/
def gone (t t' : Table α) : Nat := t.rows.countP (fun r => (cell t' r.id).isNone)

theorem goneSelf (t : Table α) : gone t t = 0 := by
  rw [gone,List.countP_eq_zero]
  intro r mem
  simp [cellOfRow mem]

/- One row of the second table is rewritten or taken out. -/
theorem goneFate {t t' t'' : Table α} {id : Nat} {fate : Option α} (known : ∃ r ∈ t.rows, r.id = id) (present : cell t' id ≠ none)
    (cells : ∀ i, cell t'' i = if i = id then fate else cell t' i) :
    gone t t'' = gone t t' + if fate.isNone then 1 else 0 := by
  obtain ⟨r,mem,rfl⟩ := known
  cases fate with
  | none =>
    have missing : (cell t'' r.id).isNone = true := by rw [cells,if_pos rfl]; rfl
    rw [gone,countWithout mem missing]
    refine congrArg (· + 1) (List.countP_congr ?_)
    intro s _
    by_cases same : s.id = r.id
    · simp [same,present]
    · simp [same,cells]
  | some c =>
    refine List.countP_congr ?_
    intro s _
    by_cases same : s.id = r.id
    · simp [same,cells,present]
    · simp [same,cells]

theorem distinct (t : Table α) : t.rows.Nodup := t.ordered.imp (by
  rintro a b less rfl
  exact absurd less (Nat.lt_irrefl _))

/- A row is taken out of the table, and no other row is changed. -/
theorem rowsTaken {t t' : Table α} {r : Row α} (mem : r ∈ t.rows)
    (cells : ∀ i, cell t' i = if i = r.id then none else cell t i) : (r::t'.rows).Perm t.rows := by
  have kept : ∀ s, s ∈ t'.rows ↔ s ∈ t.rows ∧ s.id ≠ r.id := by
    intro s
    have stored : ∀ u : Table α, s ∈ u.rows ↔ cell u s.id = some s.cols := fun u => cellMem.symm
    rw [stored,stored,cells]
    by_cases same : s.id = r.id <;> simp [same]
  have fresh : r ∉ t'.rows := fun stored => ((kept r).mp stored).2 rfl
  refine (List.perm_ext_iff_of_nodup (List.nodup_cons.mpr ⟨fresh,distinct t'⟩) (distinct t)).mpr ?_
  intro s
  rw [List.mem_cons,kept]
  constructor
  · rintro (rfl | ⟨stored,_⟩)
    · exact mem
    · exact stored
  · intro stored
    by_cases same : s.id = r.id
    · exact .inl (uniqueId stored mem same)
    · exact .inr ⟨stored,same⟩

section Select
variable {κ : Type} [LinearOrder κ]

def best (t : Table α) (p : Row α → Bool) (key : Row α → κ) : List (Row α) :=
  let wanted := t.rows.filter p
  wanted.filter (fun r => wanted.all (fun s => key r ≤ key s))

def selectFirst (t : Table α) (p : Row α → Bool) (key : Row α → κ) (tie : Nat) : Option (Row α) :=
  (best t p key)[tie % (best t p key).length]?

theorem bestMem {t : Table α} {p : Row α → Bool} {key : Row α → κ} {r : Row α} :
    r ∈ best t p key ↔ r ∈ t.rows ∧ p r = true ∧ ∀ s ∈ t.rows, p s = true → key r ≤ key s := by
  simp only [best,List.mem_filter,List.all_eq_true,decide_eq_true_eq,and_assoc,and_imp]

theorem bestNonempty {t : Table α} {p : Row α → Bool} {key : Row α → κ} {r : Row α}
    (mem : r ∈ t.rows) (wanted : p r = true) : best t p key ≠ [] := by
  have present : r ∈ t.rows.filter p := List.mem_filter.mpr ⟨mem,wanted⟩
  cases h : (t.rows.filter p).argmin key with
  | none => rw [List.argmin_eq_none.mp h] at present; simp at present
  | some least =>
    have lm := List.mem_filter.mp (List.argmin_mem h)
    have : least ∈ best t p key := by
      refine bestMem.mpr ⟨lm.1,lm.2,?_⟩
      intro s hs ps
      exact List.le_of_mem_argmin (List.mem_filter.mpr ⟨hs,ps⟩) h
    exact List.ne_nil_of_mem this

theorem selectFirstSome {t : Table α} {p : Row α → Bool} {key : Row α → κ} {tie : Nat} {r : Row α}
    (h : selectFirst t p key tie = some r) :
    r ∈ t.rows ∧ p r = true ∧ ∀ s ∈ t.rows, p s = true → key r ≤ key s :=
  bestMem.mp (List.mem_of_getElem? h)

theorem selectFirstNone {t : Table α} {p : Row α → Bool} {key : Row α → κ} {tie : Nat} :
    selectFirst t p key tie = none ↔ ∀ r ∈ t.rows, p r = false := by
  constructor
  · intro h r mem
    by_contra wanted
    have some : best t p key ≠ [] := bestNonempty mem (by simpa using wanted)
    have := Nat.mod_lt tie (List.length_pos_iff.mpr some)
    rw [selectFirst,List.getElem?_eq_none_iff] at h
    omega
  · intro none
    have empty : best t p key = [] := by
      refine List.eq_nil_iff_forall_not_mem.mpr ?_
      intro r mem
      have found := bestMem.mp mem
      simp [none r found.1] at found
    simp [selectFirst,empty]

theorem selectFirstReaches {t : Table α} {p : Row α → Bool} {key : Row α → κ} {r : Row α}
    (mem : r ∈ t.rows) (wanted : p r = true) (least : ∀ s ∈ t.rows, p s = true → key r ≤ key s) :
    ∃ tie, selectFirst t p key tie = some r := by
  obtain ⟨n,inside,found⟩ := List.getElem_of_mem (bestMem.mpr ⟨mem,wanted,least⟩)
  refine ⟨n,?_⟩
  rw [selectFirst,Nat.mod_eq_of_lt inside,List.getElem?_eq_getElem inside,found]

end Select
end UmapTracker.AutoTable
