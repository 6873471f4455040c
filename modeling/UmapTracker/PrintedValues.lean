import UmapTracker.Double
import UmapTracker.Json

/-! What the texts of printed values read as: doubles with their decimals, and integers. -/
namespace UmapTracker.PrintedValues
open Text Numerals Double Json
variable {α : Type} [Double α]

/- The number that %.*f shows, where it shows one. -/
def rounded (places : Nat) (x : α) : Option ℚ :=
  match fixed places x with
  | .finite negative units => some (fixedValue places negative units)
  | _ => none

/- The sign and the digits in front of the point. -/
def frontDigits (places : Nat) (x : α) : Nat :=
  match fixed places x with
  | .finite negative units => (minus negative).length + wholeDigits places units
  | _ => 0

def double (places : Nat) (name : String) (x : α) : Bytes × Option Value := (ascii name,(rounded places x).map .number)

def integer (name : String) (n : Nat) : Bytes × Option Value := (ascii name,some (.number n))

theorem printLength (places : Nat) {x : α} (finite : (rounded places x).isSome) :
    (print places x).length = frontDigits places x + 1 + places := by
  unfold rounded frontDigits print at *
  split at finite <;> try contradiction
  rename_i negative units shown
  simp only [shown,fixedText,List.length_append,List.length_cons,fractionLength,wholeDigits]
  omega

theorem trimmedDecimal (n : Nat) : trimmed (decimal n) = true := by
  rcases Nat.eq_zero_or_pos n with rfl | positive
  · decide
  · obtain ⟨b,rest,front,nonzero⟩ := decimalHead positive
    rw [front,trimmed]
    rintro c more same
    exact absurd (List.cons.inj same).1 nonzero

theorem trimmedFraction (n : Nat) (rest : Bytes) : trimmed (decimal n ++ 46::rest) = true := by
  rcases Nat.eq_zero_or_pos n with rfl | positive
  · rfl
  · obtain ⟨b,more,front,nonzero⟩ := decimalHead positive
    rw [front,List.cons_append,trimmed]
    rintro c after same
    exact absurd (List.cons.inj same).1 nonzero

theorem readNumberTrimmed {text : Bytes} (tidy : trimmed text = true) (unsigned : text.head? ≠ some 45) (negative : Bool) :
    readNumber (minus negative ++ text) = readDecimal (minus negative ++ text) := by
  cases negative with
  | true => rw [readNumber,if_pos]; exact tidy
  | false =>
    rw [readNumber,if_pos]
    change trimmed (if text.head? = some 45 then _ else text) = true
    rw [if_neg unsigned]
    exact tidy

theorem readNumberFixed {places : Nat} (some_place : 0 < places) (negative : Bool) (units : Nat) :
    readNumber (fixedPoint places negative units) = some (fixedValue places negative units) := by
  rw [← readFixed some_place,fixedText]
  exact readNumberTrimmed (trimmedFraction _ _) (decimalUnsigned _ _) negative

theorem readNumberDecimal (n : Nat) : readNumber (decimal n) = some (n : ℚ) := by
  have unsigned : (decimal n).head? ≠ some 45 := by simpa using decimalUnsigned n []
  have whole := readWholeSigned false n
  rw [← readNumberTrimmed (trimmedDecimal n) unsigned] at whole
  exact whole

theorem readsDecimal (n : Nat) : Reads (decimal n) (some (.number n)) := by
  have token : ∀ b ∈ decimal n, numeral b = true := fun b mem => by simp [numeral,decimalDigits n b mem]
  have reads := readsNumeral token
  rw [readNumberDecimal] at reads
  exact reads

/- A sign in front of a letter is no number. -/
theorem readsWord {b : UInt8} (other : numeral b = false) (solid : space b = false) (unquoted : b ≠ 34) (negative : Bool)
    (more : Bytes) : Reads (minus negative ++ b::more) none := by
  refine readsRefused ?_ other solid unquoted ?_
  · cases negative <;> decide
  · cases negative <;> decide

theorem infiniteText (negative : Bool) : ascii (if negative then "-inf" else "inf") = minus negative ++ 105::[110,102] := by
  cases negative <;> decide

theorem nanText (negative : Bool) : ascii (if negative then "-nan" else "nan") = minus negative ++ 110::[97,110] := by
  cases negative <;> decide

theorem readsPrint {places : Nat} (some_place : 0 < places) (x : α) :
    Reads (print places x) ((rounded places x).map .number) := by
  cases shown : fixed places x with
  | finite negative units =>
    have reads := readsNumeral (fixedPointNumeral places negative units)
    rw [readNumberFixed some_place] at reads
    simpa only [print,rounded,shown] using reads
  | infinite negative =>
    simp only [print,rounded,shown,infiniteText]
    exact readsWord (by decide) (by decide) (by decide) negative _
  | notANumber negative =>
    simp only [print,rounded,shown,nanText]
    exact readsWord (by decide) (by decide) (by decide) negative _

theorem spellsDouble {places : Nat} (some_place : 0 < places) {name : String} (simple : ∀ b ∈ ascii name, plain b = true) (x : α) :
    Spells (Fields.quoted (ascii name),print places x) (double places name x) :=
  ⟨rfl,simple,readsPrint some_place x⟩

theorem spellsInteger {name : String} (simple : ∀ b ∈ ascii name, plain b = true) (n : Nat) :
    Spells (Fields.quoted (ascii name),decimal n) (integer name n) :=
  ⟨rfl,simple,readsDecimal n⟩

theorem printedBytes {b : UInt8} (shown : printed b = true) : Utf8.ascii7 b = true ∧ b ≠ 125 := by
  rw [Utf8.ascii7,decide_eq_true_eq]
  rcases printedCases shown with ⟨_,high⟩ | letter
  · exact ⟨by grind,by grind⟩
  · exact (by decide : ∀ b ∈ ([45,46,97,102,105,110] : Bytes), b < 128 ∧ b ≠ 125) b letter

end UmapTracker.PrintedValues
