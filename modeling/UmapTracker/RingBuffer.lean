import Mathlib.Data.List.Basic
import UmapTracker.Machine

/-! utils/ring_buffer.h. The fixed array with its two indices and its count, and the bounded
list it stands for: a push into a full buffer drops the oldest element. -/
namespace UmapTracker
open Machine

-- RingBuffer<T, N>; std::array<T, N> data_{} holds default values
structure RingBuffer (T : Type) (N : Nat) where
  data : Vector T N
  head : Nat
  tail : Nat
  count : Nat

namespace RingBuffer
variable {T : Type} {N : Nat}

def push (b : RingBuffer T N) (item : T) : RingBuffer T N :=
  let data := b.data.setIfInBounds b.tail item
  let tail := (b.tail+1) % N
  if b.count < N then ⟨data,b.head,tail,b.count+1⟩ else ⟨data,(b.head+1) % N,tail,b.count⟩

def empty (b : RingBuffer T N) : Bool := b.count == 0

def full (b : RingBuffer T N) : Bool := b.count == N

def size (b : RingBuffer T N) : Nat := b.count

structure Valid (b : RingBuffer T N) : Prop where
  head : b.head < N
  tail : b.tail < N
  count : b.count ≤ N
  apart : b.tail = (b.head+b.count) % N

theorem nextTurn (h i : Nat) : ((h+1) % N + i) % N = (h+(i+1)) % N := by
  rw [Nat.mod_add_mod,Nat.add_assoc,Nat.add_comm 1 i]

theorem validPush {b : RingBuffer T N} (valid : Valid b) (item : T) : Valid (b.push item) := by
  have positive : 0 < N := Nat.zero_lt_of_lt valid.head
  have next : (b.tail+1) % N < N := Nat.mod_lt _ positive
  have tail : (b.tail+1) % N = (b.head+(b.count+1)) % N := by rw [valid.apart,Nat.mod_add_mod,Nat.add_assoc]
  unfold push
  split
  · rename_i room
    exact ⟨valid.head,next,room,tail⟩
  · refine ⟨Nat.mod_lt _ positive,next,valid.count,?_⟩
    exact tail.trans (nextTurn b.head b.count).symm

section Elements
variable [Inhabited T]

def new : RingBuffer T N := ⟨Vector.replicate N default,0,0,0⟩

-- data_[i]
def cell (b : RingBuffer T N) (i : Nat) : T := b.data[i]?.getD default

def pop (b : RingBuffer T N) : Option T × RingBuffer T N :=
  if b.count = 0 then (none,b) else (some (b.cell b.head),{b with head := (b.head+1) % N, count := b.count-1})

/- The elements in the order of their pushes. -/
def contents (b : RingBuffer T N) : List T := (List.range b.count).map (fun i => b.cell ((b.head+i) % N))

/- The bounded list that drops its oldest element. -/
namespace Bounded

def push (N : Nat) (l : List T) (item : T) : List T := (if l.length < N then l else l.tail) ++ [item]

def pop (l : List T) : Option T × List T := (l.head?,l.tail)

end Bounded

inductive Op (T : Type) where
  | push (item : T)
  | pop
  deriving DecidableEq, Repr

def step (b : RingBuffer T N) : Op T → RingBuffer T N
  | .push item => b.push item
  | .pop => b.pop.2

-- what the call returns
def answer (b : RingBuffer T N) : Op T → Option (Option T)
  | .push _ => none
  | .pop => some b.pop.1

def Bounded.step (N : Nat) (l : List T) : Op T → List T
  | .push item => Bounded.push N l item
  | .pop => (Bounded.pop l).2

def Bounded.answer (l : List T) : Op T → Option (Option T)
  | .push _ => none
  | .pop => some (Bounded.pop l).1

theorem contentsLength (b : RingBuffer T N) : b.contents.length = b.count := by simp [contents]

/- Positions less than a full turn apart are different cells. -/
theorem turnApart {h i j : Nat} (less : i < j) (turn : j < i+N) : (h+i) % N ≠ (h+j) % N := by
  intro same
  have divides : N ∣ (h+j)-(h+i) := Nat.dvd_of_mod_eq_zero (Nat.sub_mod_eq_zero_of_mod_eq same.symm)
  have := Nat.le_of_dvd (by omega) divides
  omega

theorem cellWritten {data : Vector T N} {i : Nat} (low : i < N) (item : T) (head tail count : Nat) :
    cell ⟨data.setIfInBounds i item,head,tail,count⟩ i = item := by
  simp [cell,low]

theorem cellKept {data : Vector T N} {i j : Nat} (other : j ≠ i) (item : T) (head tail count : Nat) :
    cell ⟨data.setIfInBounds j item,head,tail,count⟩ i = cell ⟨data,head,tail,count⟩ i := by
  simp [cell,Vector.getElem?_setIfInBounds_ne other]

theorem validNew (positive : 0 < N) : Valid (new : RingBuffer T N) := ⟨positive,positive,Nat.zero_le _,by simp [new]⟩

theorem validPop {b : RingBuffer T N} (valid : Valid b) : Valid b.pop.2 := by
  have positive : 0 < N := Nat.zero_lt_of_lt valid.head
  have below := valid.count
  unfold pop
  split
  · exact valid
  · rename_i some_stored
    refine ⟨Nat.mod_lt _ positive,valid.tail,by simp only; omega,?_⟩
    simp only [nextTurn]
    rw [valid.apart]
    congr 2
    omega

theorem pushData (b : RingBuffer T N) (item : T) (i : Nat) :
    (b.push item).cell i = cell ⟨b.data.setIfInBounds b.tail item,b.head,b.tail,b.count⟩ i := by
  unfold push
  split <;> rfl

theorem pushedNew {b : RingBuffer T N} (valid : Valid b) (item : T) :
    (b.push item).cell ((b.head+b.count) % N) = item := by
  rw [pushData,← valid.apart]
  exact cellWritten valid.tail _ _ _ _

theorem pushedOld {b : RingBuffer T N} (valid : Valid b) (item : T) {i : Nat} (less : i < b.count)
    (turn : b.count < i+N) : (b.push item).cell ((b.head+i) % N) = b.cell ((b.head+i) % N) := by
  have other : b.tail ≠ (b.head+i) % N := by
    rw [valid.apart]
    exact (turnApart less turn).symm
  rw [pushData]
  exact cellKept other _ _ _ _

theorem contentsPush {b : RingBuffer T N} (valid : Valid b) (item : T) :
    (b.push item).contents = Bounded.push N b.contents item := by
  by_cases room : b.count < N
  · have head : (b.push item).head = b.head := by simp [push,room]
    have count : (b.push item).count = b.count+1 := by simp [push,room]
    have old : (List.range b.count).map (fun i => (b.push item).cell ((b.head+i) % N)) = b.contents := by
      apply List.map_congr_left
      intro i mem
      have less := List.mem_range.mp mem
      exact pushedOld valid item less (by omega)
    rw [Bounded.push,contentsLength,if_pos room,contents,head,count,List.range_succ,List.map_append,old]
    simp [pushedNew valid item]
  · have head : (b.push item).head = (b.head+1) % N := by simp [push,room]
    have count : (b.push item).count = b.count := by simp [push,room]
    have stored := valid.count
    -- the buffer is full, so N and the count are one number, and not zero
    obtain ⟨m,last⟩ : ∃ m, b.count = m+1 := ⟨b.count-1,by have := valid.head; omega⟩
    have old : (List.range m).map (fun i => (b.push item).cell ((b.head+(i+1)) % N)) = b.contents.tail := by
      rw [contents,last,List.range_succ_eq_map,List.map_cons,List.tail_cons,List.map_map]
      apply List.map_congr_left
      intro i mem
      have less := List.mem_range.mp mem
      exact pushedOld valid item (by omega) (by omega)
    have new := pushedNew valid item
    rw [last] at new
    rw [Bounded.push,contentsLength,if_neg room,contents,head,count,last,List.range_succ,List.map_append]
    simp only [nextTurn,old,List.map_cons,List.map_nil,new]

theorem contentsPop (b : RingBuffer T N) (low : b.head < N) : (b.pop.1,b.pop.2.contents) = Bounded.pop b.contents := by
  unfold pop
  split
  · rename_i nothing
    simp [Bounded.pop,contents,nothing]
  · obtain ⟨m,stored⟩ : ∃ m, b.count = m+1 := ⟨b.count-1,by omega⟩
    have walk : b.contents = b.cell b.head::(List.range m).map (fun i => b.cell ((b.head+(i+1)) % N)) := by
      rw [contents,stored,List.range_succ_eq_map,List.map_cons,List.map_map]
      simp [Nat.mod_eq_of_lt low,Function.comp_def]
    rw [Bounded.pop,walk,contents]
    simp only [nextTurn,stored,Nat.add_sub_cancel]
    rfl

/- The buffer stands for the list. -/
structure Represents (b : RingBuffer T N) (l : List T) : Prop where
  valid : Valid b
  list : b.contents = l

theorem representsStep {b : RingBuffer T N} {l : List T} (r : Represents b l) (op : Op T) :
    answer b op = Bounded.answer l op ∧ Represents (step b op) (Bounded.step N l op) := by
  obtain ⟨valid,rfl⟩ := r
  cases op with
  | push item => exact ⟨rfl,validPush valid item,contentsPush valid item⟩
  | pop =>
    have popped := contentsPop b valid.head
    exact ⟨congrArg (fun p : Option T × List T => some p.1) popped,validPop valid,congrArg Prod.snd popped⟩

/- A run of pushes and pops answers as the bounded list does, and the indices and the count stay in
step with it. -/
theorem behavesAsBoundedList (positive : 0 < N) (ops : List (Op T)) :
    labels step answer (new : RingBuffer T N) ops = labels (Bounded.step N) Bounded.answer [] ops ∧
    let b := run step (new : RingBuffer T N) ops
    let l := run (Bounded.step N) [] ops
    b.contents = l ∧ b.size = l.length ∧ b.empty = l.isEmpty ∧ b.full = decide (l.length = N) ∧
      b.head < N ∧ b.tail < N ∧ b.count ≤ N ∧ b.tail = (b.head+b.count) % N := by
  have start : Represents (new : RingBuffer T N) [] := ⟨validNew positive,rfl⟩
  obtain ⟨answers,valid,list⟩ := bisimulates (R := Represents (N := N)) (fun _ _ op r => representsStep r op) start ops
  have length := contentsLength (run step (new : RingBuffer T N) ops)
  rw [list] at length
  refine ⟨answers,list,length.symm,?_,?_,valid.head,valid.tail,valid.count,valid.apart⟩
  · rw [empty,← length]
    cases run (Bounded.step N) [] ops <;> rfl
  · rw [full,← length,Bool.beq_eq_decide_eq]

/- Three elements wrap around a buffer of two. -/
theorem wrapsAround :
    labels step answer (new : RingBuffer Nat 2) [.push 1,.push 2,.push 3,.pop,.pop,.pop] =
      [none,none,none,some (some 2),some (some 3),some none] := by
  rw [(behavesAsBoundedList (by decide) _).1]
  rfl

end Elements
end RingBuffer
end UmapTracker
