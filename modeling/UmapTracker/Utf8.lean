import UmapTracker.Text

/-! UTF-8, read one byte after the other: no overlong form, no surrogate, nothing above U+10FFFF. -/
namespace UmapTracker.Utf8
open Text

/- The bytes that a character still has to come, and the bounds of the next one. -/
structure Owed where
  count : Nat
  low : UInt8
  high : UInt8

def start : Owed := ⟨0,128,191⟩

def lead (b : UInt8) : Option Owed :=
  if b < 128 then some start
  else if b < 194 then none
  else if b < 224 then some ⟨1,128,191⟩
  else if b = 224 then some ⟨2,160,191⟩
  else if b = 237 then some ⟨2,128,159⟩
  else if b < 240 then some ⟨2,128,191⟩
  else if b = 240 then some ⟨3,144,191⟩
  else if b < 244 then some ⟨3,128,191⟩
  else if b = 244 then some ⟨3,128,143⟩
  else none

def next (s : Owed) (b : UInt8) : Option Owed :=
  if s.count = 0 then lead b
  else if s.low ≤ b ∧ b ≤ s.high then some ⟨s.count-1,128,191⟩
  else none

def validFrom (s : Owed) : Bytes → Bool
  | [] => decide (s.count = 0)
  | b::rest =>
    match next s b with
    | some s => validFrom s rest
    | none => false

def valid (text : Bytes) : Bool := validFrom start text

def ascii7 (b : UInt8) : Bool := decide (b < 128)

theorem asciiLead {s : Owed} (none_owed : s.count = 0) {b : UInt8} (plain : ascii7 b = true) : next s b = some start := by
  rw [next,if_pos none_owed,lead,if_pos (of_decide_eq_true plain)]

theorem validAscii {s : Owed} (none_owed : s.count = 0) {text : Bytes} (plain : ∀ b ∈ text, ascii7 b = true) :
    validFrom s text = true := by
  induction text generalizing s with
  | nil => exact decide_eq_true none_owed
  | cons b text ih =>
    rw [validFrom,asciiLead none_owed (plain b List.mem_cons_self)]
    exact ih rfl (fun x mem => plain x (List.mem_cons_of_mem _ mem))

theorem validFront {front : Bytes} (plain : ∀ b ∈ front, ascii7 b = true) (text : Bytes) :
    valid (front ++ text) = valid text := by
  induction front with
  | nil => rfl
  | cons b front ih =>
    have rest := ih (fun x mem => plain x (List.mem_cons_of_mem _ mem))
    rw [List.cons_append,valid,validFrom,asciiLead rfl (plain b List.mem_cons_self)]
    exact rest

theorem leadLow {b : UInt8} {t : Owed} (led : lead b = some t) : 128 ≤ t.low := by
  have all : ∀ b, ∀ t ∈ lead b, 128 ≤ t.low := everyByte (by decide +kernel)
  exact all b t led

/- A byte that is owed is never one of ASCII. -/
theorem nextLow {s t : Owed} {b : UInt8} (moved : next s b = some t) : 128 ≤ t.low := by
  unfold next at moved
  split at moved
  · exact leadLow moved
  · split at moved
    · cases Option.some.inj moved
      exact UInt8.le_refl 128
    · contradiction

theorem validBack {s : Owed} (low : 128 ≤ s.low) {back : Bytes} (plain : ∀ b ∈ back, ascii7 b = true) (text : Bytes) :
    validFrom s (text ++ back) = validFrom s text := by
  induction text generalizing s with
  | nil =>
    by_cases none_owed : s.count = 0
    · rw [List.nil_append,validAscii none_owed plain,validFrom,decide_eq_true none_owed]
    · cases back with
      | nil => rfl
      | cons b back =>
        have small : b < 128 := of_decide_eq_true (plain b List.mem_cons_self)
        have refused : next s b = none := by
          rw [next,if_neg none_owed,if_neg]
          rintro ⟨from_low,_⟩
          exact UInt8.not_le.mpr small (UInt8.le_trans low from_low)
        simp [validFrom,refused,none_owed]
  | cons b text ih =>
    rw [List.cons_append,validFrom,validFrom]
    cases moved : next s b with
    | none => rfl
    | some t => exact ih (nextLow moved)

/- What ASCII encloses decides. -/
theorem validEnclosed {front back : Bytes} (before : ∀ b ∈ front, ascii7 b = true) (after : ∀ b ∈ back, ascii7 b = true)
    (text : Bytes) : valid (front ++ (text ++ back)) = valid text := by
  rw [validFront before]
  exact validBack (by decide) after text

end UmapTracker.Utf8
