import Mathlib.Data.Nat.Digits.Lemmas
import Mathlib.Data.Rat.Defs

/-! Byte strings, decimal numerals as printf writes them, and their readers. A C string
is the list of its bytes up to the terminator. -/
namespace UmapTracker.Text

-- a bound over a list is decided along the list, also where the bytes are known to be finitely many
instance (priority := high) boundedDecidable {β : Type} (p : β → Prop) [DecidablePred p] (l : List β) :
    Decidable (∀ b ∈ l, p b) := List.decidableBAll p l

abbrev Bytes := List UInt8

def ascii (s : String) : Bytes := s.toList.map (fun c => c.toNat.toUInt8)

/- What holds of the numbers below 256 holds of every byte. -/
theorem everyByte {p : UInt8 → Prop} (all : ∀ n < 256, p n.toUInt8) (b : UInt8) : p b := by
  have one := all b.toNat b.toNat_lt
  rwa [Nat.toUInt8_eq,UInt8.ofNat_toNat] at one

def digit (b : UInt8) : Bool := decide (48 ≤ b) && decide (b ≤ 57)

def digitByte (d : Nat) : UInt8 := (48+d).toUInt8

-- %lu and %lld of a value that is not negative
def decimal (n : Nat) : Bytes :=
  if n = 0 then [48] else ((Nat.digits 10 n).map digitByte).reverse

def fraction : Nat → Nat → Bytes
  | 0,_ => []
  | places+1,n => fraction places (n / 10) ++ [digitByte (n % 10)]

/- %.*f of the value `units / 10^places` with its sign. -/
def fixedPoint (places : Nat) (negative : Bool) (units : Nat) : Bytes :=
  (if negative then [45] else []) ++ decimal (units / 10^places) ++ [46] ++ fraction places (units % 10^places)

/- snprintf keeps at most size - 1 bytes of the text and returns the length of all of it. -/
def snprintf (size : Nat) (text : Bytes) : Bytes × Nat := (text.take (size-1),text.length)

def value (s : Bytes) : Nat := s.foldl (fun n b => 10*n + (b.toNat-48)) 0

def readNat (s : Bytes) : Option Nat :=
  if s ≠ [] ∧ s.all digit then some (value s) else none

def readUnsigned (s : Bytes) : Option ℚ :=
  match s.splitOn 46 with
  | [whole] => (readNat whole).map (fun n => (n : ℚ))
  | [whole,part] => do
    let n ← readNat whole
    let f ← readNat part
    some (n + f / 10^part.length)
  | _ => none

def readDecimal (s : Bytes) : Option ℚ :=
  match s with
  | 45::rest => (readUnsigned rest).map (fun q => -q)
  | s => readUnsigned s

theorem digitByteDigit {d : Nat} (small : d < 10) : digit (digitByte d) = true ∧ (digitByte d).toNat - 48 = d := by
  interval_cases d <;> decide

theorem decimalDigits (n : Nat) : ∀ b ∈ decimal n, digit b = true := by
  intro b mem
  unfold decimal at mem
  split at mem
  · cases List.mem_singleton.mp mem
    decide
  · obtain ⟨d,hd,rfl⟩ := List.mem_map.mp (List.mem_reverse.mp mem)
    exact (digitByteDigit (Nat.digits_lt_base (by decide) hd)).1

theorem decimalNonempty (n : Nat) : decimal n ≠ [] := by
  unfold decimal
  split
  · simp
  · rename_i positive
    simpa using Nat.digits_ne_nil_iff_ne_zero.mpr positive

theorem valueDigits {ds : List Nat} (small : ∀ d ∈ ds, d < 10) :
    value (ds.map digitByte).reverse = Nat.ofDigits 10 ds := by
  induction ds with
  | nil => rfl
  | cons d ds ih =>
    have tail := ih (fun x hx => small x (List.mem_cons_of_mem _ hx))
    have head := (digitByteDigit (small d List.mem_cons_self)).2
    rw [value] at tail
    rw [value,List.map_cons,List.reverse_cons,List.foldl_append,tail,Nat.ofDigits_cons]
    simp only [List.foldl_cons,List.foldl_nil,head]
    omega

theorem valueDecimal (n : Nat) : value (decimal n) = n := by
  unfold decimal
  split
  · rename_i zero
    rw [zero]
    rfl
  · rw [valueDigits (fun d hd => Nat.digits_lt_base (by decide) hd),Nat.ofDigits_digits]

theorem readDecimalText (n : Nat) : readNat (decimal n) = some n := by
  unfold readNat
  rw [if_pos ⟨decimalNonempty n,List.all_eq_true.mpr (decimalDigits n)⟩,valueDecimal]

theorem decimalLength {n k : Nat} (small : n < 10^(k+1)) : (decimal n).length ≤ k+1 := by
  unfold decimal
  split
  · simp
  · simpa using (Nat.digits_length_le_iff (by decide) n).mpr small

theorem fractionDigits (places n : Nat) : ∀ b ∈ fraction places n, digit b = true := by
  induction places generalizing n with
  | zero => simp [fraction]
  | succ places ih =>
    intro b mem
    rcases List.mem_append.mp mem with front | final
    · exact ih _ b front
    · cases List.mem_singleton.mp final
      exact (digitByteDigit (Nat.mod_lt n (by decide))).1

/- The bytes of a printed number: digits, the minus sign and the point. -/
def numeral (b : UInt8) : Bool := digit b || b == 45 || b == 46

theorem fixedPointNumeral (places : Nat) (negative : Bool) (units : Nat) :
    ∀ b ∈ fixedPoint places negative units, numeral b = true := by
  intro b mem
  simp only [fixedPoint,List.mem_append,List.mem_singleton] at mem
  rcases mem with ((sign | whole) | rfl) | part
  · split at sign <;> simp_all [numeral]
  · simp [numeral,decimalDigits _ b whole]
  · decide
  · simp [numeral,fractionDigits _ _ b part]

theorem snprintfFits {size : Nat} {text : Bytes} (fits : text.length < size) : (snprintf size text).1 = text :=
  List.take_of_length_le (by omega)

theorem snprintfKeeps {p : UInt8 → Prop} {text : Bytes} (all : ∀ b ∈ text, p b) (size : Nat) :
    ∀ b ∈ (snprintf size text).1, p b := fun b mem => all b (List.mem_of_mem_take mem)

/- The weight of a text by its bytes. -/
def weigh (w : UInt8 → Int) (text : Bytes) : Int := (text.map w).sum

@[simp] theorem weighNil (w : UInt8 → Int) : weigh w [] = 0 := rfl

@[simp] theorem weighCons (w : UInt8 → Int) (b : UInt8) (text : Bytes) : weigh w (b::text) = w b + weigh w text := by
  simp [weigh]

@[simp] theorem weighAppend (w : UInt8 → Int) (front text : Bytes) : weigh w (front ++ text) = weigh w front + weigh w text := by
  simp [weigh]

end UmapTracker.Text
