import Mathlib.Algebra.Order.Floor.Ring
import Mathlib.Data.List.TakeWhile
import Mathlib.Data.Nat.Cast.Field
import Mathlib.Data.Nat.Cast.Order.Field
import Mathlib.Tactic.FieldSimp
import Mathlib.Tactic.Linarith
import Mathlib.Tactic.Positivity
import Mathlib.Tactic.Ring
import UmapTracker.Text

/-! What a reader makes of a number that %.*f has printed, whole or cut off by a buffer. -/
namespace UmapTracker.Numerals
open Text

def signed (negative : Bool) (q : ℚ) : ℚ := if negative then -q else q

def minus (negative : Bool) : Bytes := if negative then [45] else []

/- Double.parseDouble and strtod also read a number that ends in its point. -/
def readDouble (s : Bytes) : Option ℚ := readDecimal (if s.getLast? = some 46 then s.dropLast else s)

def hexDigit (b : UInt8) : Option Nat :=
  if digit b then some (b.toNat-48)
  else if 97 ≤ b ∧ b ≤ 102 then some (b.toNat-87)
  else if 65 ≤ b ∧ b ≤ 70 then some (b.toNat-55)
  else none

theorem hexDigitBelow {b : UInt8} {d : Nat} (read : hexDigit b = some d) : d < 16 := by
  have all : ∀ b, ∀ d ∈ hexDigit b, d < 16 := everyByte (by decide +kernel)
  exact all b d read

theorem valueSnoc (s : Bytes) (b : UInt8) : value (s ++ [b]) = 10 * value s + (b.toNat - 48) := by simp [value]

theorem valueFraction (places n : Nat) : value (fraction places n) = n % 10^places := by
  induction places generalizing n with
  | zero => simp [fraction,value,Nat.mod_one]
  | succ places ih =>
    have last := (digitByteDigit (Nat.mod_lt n (by decide : 0 < 10))).2
    have split := Nat.mod_mul (x := n) (a := 10) (b := 10^places)
    rw [fraction,valueSnoc,ih,last,pow_succ,mul_comm (10^places),split]
    omega

theorem fractionLength (places n : Nat) : (fraction places n).length = places := by
  induction places generalizing n with
  | zero => rfl
  | succ places ih => simp [fraction,ih]

theorem fractionTake {kept places : Nat} (fits : kept ≤ places) (n : Nat) :
    (fraction places n).take kept = fraction kept (n / 10^(places-kept)) := by
  induction places generalizing n with
  | zero =>
    cases Nat.le_zero.mp fits
    simp [fraction]
  | succ places ih =>
    rcases Nat.lt_or_eq_of_le fits with shorter | rfl
    · have below : kept ≤ places := by omega
      rw [fraction,List.take_append_of_le_length (by rw [fractionLength]; exact below),ih below,Nat.div_div_eq_div_mul,
        ← pow_succ',Nat.succ_sub below]
    · rw [List.take_of_length_le (by rw [fractionLength]),Nat.sub_self,pow_zero,Nat.div_one]

/- Digits of the fraction beyond its places do not show. -/
theorem fractionMod (places n : Nat) : fraction places (n % 10^places) = fraction places n := by
  induction places generalizing n with
  | zero => rfl
  | succ places ih =>
    have high : n % 10^(places+1) / 10 = n / 10 % 10^places := by
      rw [pow_succ,mul_comm,Nat.mod_mul_right_div_self]
    have low : n % 10^(places+1) % 10 = n % 10 := Nat.mod_mod_of_dvd n (dvd_pow_self 10 (by omega))
    rw [fraction,fraction,high,low,ih]

theorem decimalSmall {n : Nat} (small : n < 10) : decimal n = [digitByte n] := by
  interval_cases n <;> decide

theorem decimalSnoc {n : Nat} (large : 10 ≤ n) : decimal n = decimal (n / 10) ++ [digitByte (n % 10)] := by
  have above : n / 10 ≠ 0 := by omega
  rw [decimal,decimal,if_neg (by omega),if_neg above,Nat.digits_def' (by decide) (by omega),List.map_cons,List.reverse_cons]

theorem decimalTake {kept : Nat} (some_digit : 0 < kept) (n : Nat) :
    (decimal n).take kept = decimal (n / 10^((decimal n).length - kept)) := by
  induction n using Nat.strong_induction_on with
  | h n ih =>
    by_cases small : n < 10
    · have one : (decimal n).length = 1 := by rw [decimalSmall small]; rfl
      rw [List.take_of_length_le (by omega),Nat.sub_eq_zero_of_le (by omega),pow_zero,Nat.div_one]
    · have large : 10 ≤ n := Nat.not_lt.mp small
      have length : (decimal n).length = (decimal (n / 10)).length + 1 := by rw [decimalSnoc large]; simp
      rcases Nat.lt_or_ge (decimal (n / 10)).length kept with whole | shorter
      · rw [List.take_of_length_le (by omega),Nat.sub_eq_zero_of_le (by omega),pow_zero,Nat.div_one]
      · have shift : (decimal n).length - kept = (decimal (n / 10)).length - kept + 1 := by omega
        rw [shift,pow_succ',← Nat.div_div_eq_div_mul,← ih (n / 10) (by omega),decimalSnoc large,
          List.take_append_of_le_length shorter]

/- No leading zero. -/
theorem decimalHead {n : Nat} (positive : 0 < n) : ∃ b rest, decimal n = b::rest ∧ b ≠ 48 := by
  induction n using Nat.strong_induction_on with
  | h n ih =>
    by_cases small : n < 10
    · refine ⟨digitByte n,[],decimalSmall small,?_⟩
      interval_cases n <;> decide
    · obtain ⟨b,rest,front,nonzero⟩ := ih (n / 10) (by omega) (by omega)
      exact ⟨b,rest ++ [digitByte (n % 10)],by rw [decimalSnoc (Nat.not_lt.mp small),front]; rfl,nonzero⟩

theorem readDigits {s : Bytes} (nonempty : s ≠ []) (digits : ∀ b ∈ s, digit b = true) : readNat s = some (value s) :=
  if_pos ⟨nonempty,List.all_eq_true.mpr digits⟩

theorem pointFree {s : Bytes} (digits : ∀ b ∈ s, digit b = true) : (46 : UInt8) ∉ s :=
  fun mem => absurd (digits 46 mem) (by decide)

theorem readWhole (n : Nat) : readUnsigned (decimal n) = some (n : ℚ) := by
  rw [readUnsigned,List.splitOn_eq_singleton (pointFree (decimalDigits n))]
  simp [readDecimalText]

theorem readFraction {places : Nat} (some_place : 0 < places) (whole part : Nat) :
    readUnsigned (decimal whole ++ 46::fraction places part) = some ((whole : ℚ) + (part % 10^places : Nat) / 10^places) := by
  have nonempty : fraction places part ≠ [] := by
    intro empty
    have := fractionLength places part
    rw [empty] at this
    simp at this
    omega
  have segments : (decimal whole ++ 46::fraction places part).splitOn 46 = [decimal whole,fraction places part] := by
    rw [List.splitOn_append_cons_self,List.splitOn_eq_singleton (pointFree (decimalDigits whole)),
      List.splitOn_eq_singleton (pointFree (fractionDigits places part))]
    rfl
  rw [readUnsigned,segments]
  simp [readDecimalText,readDigits nonempty (fractionDigits places part),valueFraction,fractionLength]

theorem readSigned (negative : Bool) {text : Bytes} (unsigned : text.head? ≠ some 45) :
    readDecimal (minus negative ++ text) = (readUnsigned text).map (signed negative) := by
  cases negative with
  | true => rfl
  | false =>
    rw [minus,if_neg (by decide),List.nil_append]
    unfold readDecimal
    split
    · exact absurd rfl unsigned
    · cases readUnsigned text <;> rfl

theorem decimalUnsigned (n : Nat) (rest : Bytes) : (decimal n ++ rest).head? ≠ some 45 := by
  intro sign
  obtain ⟨b,digits,front⟩ := List.exists_cons_of_ne_nil (decimalNonempty n)
  have first : b = 45 := by simpa [front] using sign
  have digit_first := decimalDigits n b (by simp [front])
  rw [first] at digit_first
  exact absurd digit_first (by decide)

theorem fixedText (places : Nat) (negative : Bool) (units : Nat) :
    fixedPoint places negative units =
      minus negative ++ (decimal (units / 10^places) ++ 46::fraction places (units % 10^places)) := by
  simp [fixedPoint,minus]

/- The value that is printed. -/
def fixedValue (places : Nat) (negative : Bool) (units : Nat) : ℚ := signed negative (units / 10^places)

theorem wholeAndPart (places units : Nat) :
    ((units / 10^places : Nat) : ℚ) + (units % 10^places : Nat) / 10^places = units / 10^places := by
  have split := Nat.div_add_mod units (10^places)
  have cast : ((10^places : Nat) : ℚ) * (units / 10^places : Nat) + (units % 10^places : Nat) = units := by exact_mod_cast split
  have positive : (10 : ℚ)^places ≠ 0 := by positivity
  rw [Nat.cast_pow] at cast
  field_simp
  rw [mul_comm]
  exact cast

theorem readFixed {places : Nat} (some_place : 0 < places) (negative : Bool) (units : Nat) :
    readDecimal (fixedPoint places negative units) = some (fixedValue places negative units) := by
  rw [fixedText,readSigned negative (decimalUnsigned _ _),readFraction some_place,Nat.mod_mod,wholeAndPart]
  rfl

theorem readWholeSigned (negative : Bool) (n : Nat) : readDecimal (minus negative ++ decimal n) = some (signed negative n) := by
  have unsigned : (decimal n).head? ≠ some 45 := by simpa using decimalUnsigned n []
  rw [readSigned negative unsigned,readWhole]
  rfl

/- A text that ends in a digit reads the same with a point allowed at its end. -/
theorem readDoubleDigit {text : Bytes} {b : UInt8} (last : text.getLast? = some b) (numeric : digit b = true) :
    readDouble text = readDecimal text := by
  rw [readDouble,if_neg]
  rw [last]
  intro point
  cases Option.some.inj point
  exact absurd numeric (by decide)

theorem decimalLast (n : Nat) (front : Bytes) : ∃ b, (front ++ decimal n).getLast? = some b ∧ digit b = true := by
  refine ⟨(decimal n).getLast (decimalNonempty n),?_,decimalDigits n _ (List.getLast_mem _)⟩
  rw [List.getLast?_append_of_ne_nil _ (decimalNonempty n),List.getLast?_eq_some_getLast]

theorem readDoubleFixed (places : Nat) (negative : Bool) (units : Nat) :
    readDouble (fixedPoint places negative units) = some (fixedValue places negative units) := by
  cases places with
  | zero =>
    -- no decimals: the text ends in its point
    have text : fixedPoint 0 negative units = (minus negative ++ decimal units) ++ [46] := by simp [fixedPoint,minus,fraction]
    rw [readDouble,text,if_pos (by simp),List.dropLast_concat,readWholeSigned]
    simp [fixedValue]
  | succ places =>
    rw [readDoubleDigit (b := digitByte (units % 10^(places+1) % 10)),readFixed (Nat.succ_pos places)]
    · have text : fixedPoint (places+1) negative units =
          (minus negative ++ decimal (units / 10^(places+1)) ++ 46::fraction places (units % 10^(places+1) / 10)) ++
            [digitByte (units % 10^(places+1) % 10)] := by simp [fixedText,fraction]
      rw [text,List.getLast?_concat]
    · exact (digitByteDigit (Nat.mod_lt _ (by decide))).1

theorem readDoubleWhole (negative : Bool) (n : Nat) : readDouble (minus negative ++ decimal n) = some (signed negative n) := by
  obtain ⟨b,last,numeric⟩ := decimalLast n (minus negative)
  rw [readDoubleDigit last numeric,readWholeSigned]

section Cut
variable (size places : Nat) (negative : Bool) (units : Nat)

/- The bytes that the digits have in a buffer, and the digits before the point. -/
def room : Nat := size - 1 - (minus negative).length

def wholeDigits : Nat := (decimal (units / 10^places)).length

/- The decimals that are left. -/
def kept : Nat := min places (room size negative - wholeDigits places units - 1)

/- The number that is left of %.*f in a buffer. -/
def cutValue : ℚ :=
  if wholeDigits places units ≤ room size negative then
    fixedValue (kept size places negative units) negative (units / 10^(places - kept size places negative units))
  else signed negative (units / 10^places / 10^(wholeDigits places units - room size negative) : Nat)

/- The digits before the point are left, and what is cut off are zeros. -/
def Intact : Prop :=
  wholeDigits places units ≤ room size negative ∧ 10^(places - kept size places negative units) ∣ units

instance : Decidable (Intact size places negative units) := by unfold Intact; infer_instance

end Cut

theorem cutText {size places : Nat} {negative : Bool} {units : Nat} (some_room : 0 < room size negative) :
    (snprintf size (fixedPoint places negative units)).1 =
      if wholeDigits places units < room size negative then
        fixedPoint (kept size places negative units) negative (units / 10^(places - kept size places negative units))
      else minus negative ++ decimal (units / 10^places / 10^(wholeDigits places units - room size negative)) := by
  have sign : (minus negative).length ≤ size - 1 := by
    unfold room at some_room
    omega
  rw [snprintf,fixedText,List.take_append,List.take_of_length_le sign]
  change minus negative ++ List.take (room size negative) _ = _
  split
  · rename_i longer
    have point : ∃ m, room size negative - (decimal (units / 10^places)).length = m+1 ∧
        kept size places negative units = min places m := by
      unfold wholeDigits at longer
      exact ⟨room size negative - (decimal (units / 10^places)).length - 1,by omega,rfl⟩
    obtain ⟨m,left,keeps⟩ := point
    have below : kept size places negative units ≤ places := min_le_left _ _
    have product : 10^(places - kept size places negative units) * 10^(kept size places negative units) = 10^places := by
      rw [← pow_add,Nat.sub_add_cancel below]
    have whole : units / 10^(places - kept size places negative units) / 10^(kept size places negative units) = units / 10^places := by
      rw [Nat.div_div_eq_div_mul,product]
    have part : (fraction places (units % 10^places)).take m =
        fraction (kept size places negative units) (units / 10^(places - kept size places negative units)) := by
      rw [List.take_eq_take_min,fractionLength,min_comm,← keeps,fractionTake below,← product,Nat.mod_mul_right_div_self,fractionMod]
    rw [List.take_append,List.take_of_length_le (Nat.le_of_lt longer),left,List.take_succ_cons,part,fixedText,whole,fractionMod]
  · rename_i short
    rw [List.take_append_of_le_length (Nat.not_lt.mp short),decimalTake some_room]
    rfl

theorem readCut {size places : Nat} {negative : Bool} {units : Nat} (some_room : 0 < room size negative) :
    readDouble (snprintf size (fixedPoint places negative units)).1 = some (cutValue size places negative units) := by
  rw [cutText some_room,cutValue]
  split
  · rename_i longer
    rw [readDoubleFixed,if_pos (Nat.le_of_lt longer)]
  · rename_i short
    rw [readDoubleWhole]
    rcases Nat.lt_or_eq_of_le (Nat.not_lt.mp short) with cut | exactly
    · rw [if_neg (Nat.not_le.mpr cut)]
    · -- the digits fill the buffer
      have none : kept size places negative units = 0 := by simp [kept,exactly]
      rw [if_pos (Nat.le_of_eq exactly.symm),exactly,Nat.sub_self,pow_zero,Nat.div_one,none,fixedValue,pow_zero,Nat.sub_zero]
      simp

theorem signedInjective {negative : Bool} {p q : ℚ} : signed negative p = signed negative q ↔ p = q := by
  cases negative <;> simp [signed]

theorem castDivIff {n d : Nat} (positive : 0 < d) : ((n / d : Nat) : ℚ) = n / d ↔ d ∣ n := by
  have nonzero : (d : ℚ) ≠ 0 := by exact_mod_cast positive.ne'
  constructor
  · intro same
    rw [eq_div_iff nonzero] at same
    have whole : n / d * d = n := by exact_mod_cast same
    exact ⟨n / d,by rw [mul_comm,whole]⟩
  · intro divides
    exact Nat.cast_div divides nonzero

/- Digits that are cut off before the point change the number. -/
theorem cutSmaller {places units : Nat} {n : Nat} (some_room : 0 < n) (cut : n < wholeDigits places units) :
    units / 10^places / 10^(wholeDigits places units - n) < units / 10^places := by
  refine Nat.div_lt_self ?_ (Nat.one_lt_pow (by omega) (by decide))
  by_contra zero
  have one : wholeDigits places units = 1 := by
    rw [wholeDigits,Nat.eq_zero_of_not_pos zero]
    rfl
  omega

/- A cut number is still the number that was printed exactly when it is intact. -/
theorem cutValueIff {size places : Nat} {negative : Bool} {units : Nat} (some_room : 0 < room size negative) :
    cutValue size places negative units = fixedValue places negative units ↔ Intact size places negative units := by
  unfold cutValue Intact
  split
  · rename_i fits
    have below : kept size places negative units ≤ places := min_le_left _ _
    have product : (10 : ℚ)^places = ((10^(places - kept size places negative units) : Nat) : ℚ) * 10^(kept size places negative units) := by
      rw [Nat.cast_pow,Nat.cast_ofNat,← pow_add,Nat.sub_add_cancel below]
    have scale : (10 : ℚ)^(kept size places negative units) ≠ 0 := by positivity
    simp only [fits,true_and,fixedValue,signedInjective]
    rw [product,← div_div,div_left_inj' scale]
    exact castDivIff (Nat.pow_pos (by decide))
  · rename_i cut
    refine iff_of_false ?_ (fun intact => cut intact.1)
    rw [fixedValue,signedInjective]
    have smaller := cutSmaller some_room (Nat.not_le.mp cut)
    have whole : ((units / 10^places : Nat) : ℚ) ≤ units / 10^places := by
      have := Nat.cast_div_le (α := ℚ) (m := units) (n := 10^places)
      rwa [Nat.cast_pow,Nat.cast_ofNat] at this
    exact ((Nat.cast_lt.mpr smaller).trans_le whole).ne

end UmapTracker.Numerals
