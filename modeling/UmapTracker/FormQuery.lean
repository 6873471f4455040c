import UmapTracker.Fields
import UmapTracker.Numerals

/-! The query part of a URL, read as a form: parameters between '&', a name and a value around the first '=',
and %XX for a byte. -/
namespace UmapTracker.FormQuery
open Text Fields Numerals

/- How a reader takes '+', as a space or as itself, and a '%' that begins no escape, as itself or as an error. -/
structure Reader where
  plus : Bool
  lenient : Bool
  deriving DecidableEq, Repr

/- From the first '?' up to a '#'. -/
def query (url : Bytes) : Option Bytes :=
  match (url.takeWhile (· != 35)).dropWhile (· != 63) with
  | _::text => some text
  | [] => none

section Decoding
variable (r : Reader)

def decode : Bytes → Option Bytes
  | [] => some []
  | 37::a::b::text =>
    match hexDigit a,hexDigit b with
    | some x,some y => (decode text).map ((16*x+y).toUInt8 :: ·)
    | _,_ => if r.lenient then (decode (a::b::text)).map (37 :: ·) else none
  | b::text =>
    if b = 43 ∧ r.plus then (decode text).map (32 :: ·)
    else if b = 37 ∧ !r.lenient then none
    else (decode text).map (b :: ·)

def pair (p : Bytes × Bytes) : Option (Bytes × Bytes) :=
  (decode r p.1).bind (fun name => (decode r p.2).map (fun value => (name,value)))

def pairs (text : Bytes) : Option (List (Bytes × Bytes)) := (fields 38 61 text).mapM (pair r)

end Decoding

/- A '%' with two hexadecimal digits stands in the text. -/
def escapes : Bytes → Bool
  | [] => false
  | 37::a::b::text => (hexDigit a).isSome && (hexDigit b).isSome || escapes (a::b::text)
  | _::text => escapes text

/- A text without anything to decode, and without what the reader refuses. -/
def Literal (r : Reader) (text : Bytes) : Prop :=
  (r.plus → (43 : UInt8) ∉ text) ∧ if r.lenient then escapes text = false else (37 : UInt8) ∉ text

/- Weights by which every escape is heavier than what it stands for. -/
structure Falls (w : UInt8 → Int) : Prop where
  plus : w 32 < w 43
  escape : ∀ {a b : UInt8} {x y : Nat}, hexDigit a = some x → hexDigit b = some y → w (16*x+y).toUInt8 < w 37 + w a + w b

theorem literalEscape {r : Reader} {a b : UInt8} {text : Bytes} (no_escape : ∀ x y, hexDigit a = some x → hexDigit b ≠ some y)
    (lenient : r.lenient = true) : Literal r (37::a::b::text) ↔ Literal r (a::b::text) := by
  have not_both : ((hexDigit a).isSome && (hexDigit b).isSome) = false := by
    cases first : hexDigit a with
    | none => rfl
    | some x =>
      cases second : hexDigit b with
      | none => rfl
      | some y => exact absurd second (no_escape x y first)
  simp [Literal,lenient,escapes,not_both]

theorem escapesOther {b : UInt8} {text : Bytes} (short : ∀ x y rest, b = 37 → text = x::y::rest → False) :
    escapes (b::text) = escapes text := by
  conv_lhs => unfold escapes
  split
  · contradiction
  · rename_i x y rest same
    exact (short x y rest (List.cons.inj same).1 (List.cons.inj same).2).elim
  · rename_i same
    rw [(List.cons.inj same).2]

theorem literalOther {r : Reader} {b : UInt8} {text : Bytes} (short : ∀ x y rest, b = 37 → text = x::y::rest → False) :
    Literal r (b::text) ↔ Literal r text ∧ ¬(b = 43 ∧ r.plus = true) ∧ ¬(b = 37 ∧ (!r.lenient) = true) := by
  have apart : ∀ x : UInt8, x ∉ b::text ↔ b ≠ x ∧ x ∉ text := fun x => by rw [List.mem_cons,not_or,← ne_eq,ne_comm]
  unfold Literal
  rw [escapesOther short,apart,apart]
  cases r.plus <;> cases r.lenient <;> simp <;> tauto

theorem decodeFalls {r : Reader} {w : UInt8 → Int} (falls : Falls w) {text s : Bytes} (read : decode r text = some s) :
    (s = text ∧ Literal r text) ∨ weigh w s < weigh w text := by
  fun_induction decode r text generalizing s with
  | case1 =>
    cases Option.some.inj read
    refine .inl ⟨rfl,by simp,?_⟩
    split <;> simp [escapes]
  | case2 a b text x y second first ih =>
    obtain ⟨tail,decoded,rfl⟩ := Option.map_eq_some_iff.mp read
    have lower := falls.escape first second
    right
    simp only [weighCons]
    rcases ih decoded with ⟨rfl,_⟩ | less <;> omega
  | case3 a b text lenient no_escape ih =>
    obtain ⟨tail,decoded,rfl⟩ := Option.map_eq_some_iff.mp read
    have same : Literal r (37::a::b::text) ↔ Literal r (a::b::text) := literalEscape no_escape lenient
    rcases ih decoded with ⟨rfl,literal⟩ | less
    · exact .inl ⟨rfl,same.mpr literal⟩
    · right
      rw [weighCons,weighCons]
      omega
  | case4 => contradiction
  | case5 b text short plus ih =>
    obtain ⟨tail,decoded,rfl⟩ := Option.map_eq_some_iff.mp read
    have lower := falls.plus
    right
    rw [weighCons,weighCons,plus.1]
    rcases ih decoded with ⟨rfl,_⟩ | less <;> omega
  | case6 => contradiction
  | case7 b text short other kept ih =>
    obtain ⟨tail,decoded,rfl⟩ := Option.map_eq_some_iff.mp read
    rcases ih decoded with ⟨rfl,literal⟩ | less
    · exact .inl ⟨rfl,(literalOther (fun x y rest same => short x y rest same)).mpr ⟨literal,other,kept⟩⟩
    · right
      rw [weighCons,weighCons]
      omega

theorem decodeLiteral {r : Reader} {text : Bytes} (literal : Literal r text) : decode r text = some text := by
  fun_induction decode r text with
  | case1 => rfl
  | case2 a b text x y second first ih =>
    -- an escape
    obtain ⟨_,free⟩ := literal
    split at free
    · simp [escapes,first,second] at free
    · simp at free
  | case3 a b text lenient no_escape ih =>
    have same : Literal r (37::a::b::text) ↔ Literal r (a::b::text) := literalEscape no_escape lenient
    rw [ih (same.mp literal)]
    rfl
  | case4 a b text strict _ =>
    have free := literal.2
    rw [if_neg strict] at free
    simp at free
  | case5 b text short plus ih => exact absurd plus ((literalOther short).mp literal).2.1
  | case6 b text short other strict => exact absurd strict ((literalOther short).mp literal).2.2
  | case7 b text short other kept ih =>
    rw [ih ((literalOther short).mp literal).1]
    rfl

/- Weights by which no escape is lighter than what it stands for. -/
structure Sinks (w : UInt8 → Int) : Prop where
  plus : w 32 ≤ w 43
  escape : ∀ {a b : UInt8} {x y : Nat}, hexDigit a = some x → hexDigit b = some y → w (16*x+y).toUInt8 ≤ w 37 + w a + w b

theorem decodeSinks {r : Reader} {w : UInt8 → Int} (sinks : Sinks w) {text s : Bytes} (read : decode r text = some s) :
    weigh w s ≤ weigh w text := by
  fun_induction decode r text generalizing s with
  | case1 => cases Option.some.inj read; exact le_rfl
  | case2 a b text x y second first ih =>
    obtain ⟨tail,decoded,rfl⟩ := Option.map_eq_some_iff.mp read
    have lower := sinks.escape first second
    have rest := ih decoded
    simp only [weighCons]
    omega
  | case4 => contradiction
  | case5 b text short plus ih =>
    obtain ⟨tail,decoded,rfl⟩ := Option.map_eq_some_iff.mp read
    have lower := sinks.plus
    have rest := ih decoded
    rw [weighCons,weighCons,plus.1]
    omega
  | case6 => contradiction
  | case3 | case7 =>
    rename_i ih
    obtain ⟨tail,decoded,rfl⟩ := Option.map_eq_some_iff.mp read
    have rest := ih decoded
    simp only [weighCons] at rest ⊢
    omega

theorem decodeLength {r : Reader} {text s : Bytes} (read : decode r text = some s) : s.length ≤ text.length := by
  have sinks : Sinks (fun _ => 1) := ⟨le_rfl,fun _ _ => by decide⟩
  have count : ∀ text : Bytes, weigh (fun _ => 1) text = text.length := fun text => by simp [weigh]
  have less := decodeSinks sinks read
  rw [count,count] at less
  exact_mod_cast less

/- A '%', a '+' and a hexadecimal digit weigh one. -/
def reserved (b : UInt8) : Int := if b = 37 ∨ b = 43 ∨ (hexDigit b).isSome then 1 else 0

theorem reservedFalls : Falls reserved := by
  have light : ∀ b, reserved b ≤ 1 := by
    intro b
    unfold reserved
    split <;> decide
  refine ⟨by decide,?_⟩
  intro a b x y first second
  have one : reserved a = 1 := if_pos (by simp [first])
  have two : reserved b = 1 := if_pos (by simp [second])
  have out := light (16*x+y).toUInt8
  have percent : reserved 37 = 1 := rfl
  omega

/- A text is decoded to itself exactly when it is literal. -/
theorem decodeIff {r : Reader} {text : Bytes} : decode r text = some text ↔ Literal r text := by
  refine ⟨fun same => ?_,decodeLiteral⟩
  rcases decodeFalls reservedFalls same with ⟨_,literal⟩ | less
  · exact literal
  · exact absurd less (lt_irrefl _)

/- Bytes that no reader takes for anything else. -/
theorem decodeSafe (r : Reader) {text : Bytes} (safe : ∀ b ∈ text, b ≠ 37 ∧ b ≠ 43) : decode r text = some text := by
  induction text with
  | nil => rfl
  | cons b text ih =>
    obtain ⟨first,rest⟩ := List.forall_mem_cons.mp safe
    have literal := decodeIff.mp (ih rest)
    exact decodeIff.mpr ((literalOther (fun _ _ _ same _ => first.1 same)).mpr
      ⟨literal,fun plus => first.2 plus.1,fun percent => first.1 percent.1⟩)

theorem differs {a : UInt8} {text : Bytes} (absent : a ∉ text) : ∀ b ∈ text, (b != a) = true := by
  intro b mem
  rw [bne_iff_ne]
  rintro rfl
  exact absent mem

theorem takeWhileStops {p : UInt8 → Bool} {a : UInt8} (stop : p a = false) (front rest : Bytes) :
    (front ++ a::rest).takeWhile p = front.takeWhile p := by
  rw [List.takeWhile_append]
  split
  · rename_i whole
    simp [stop,(List.takeWhile_prefix p).eq_of_length whole]
  · rfl

theorem splitHead (a : UInt8) (text : Bytes) : ∃ rest, text.splitOn a = text.takeWhile (· != a)::rest := by
  by_cases inside : a ∈ text
  · obtain ⟨front,back,rfl,before⟩ := List.eq_append_cons_of_mem inside
    refine ⟨back.splitOn a,?_⟩
    rw [List.splitOn_append_cons_self,List.splitOn_eq_singleton before,takeWhileStops (by simp),
      List.takeWhile_eq_self_iff.mpr (differs before)]
    rfl
  · refine ⟨[],?_⟩
    rw [List.splitOn_eq_singleton inside,List.takeWhile_eq_self_iff.mpr (differs inside)]

/- A query begins after the first '?', which a base URL does not have. -/
theorem queryAfter {base : Bytes} (no_query : (63 : UInt8) ∉ base) (no_fragment : (35 : UInt8) ∉ base) (text : Bytes) :
    query (base ++ 63::text) = some (text.takeWhile (· != 35)) := by
  rw [query,List.takeWhile_append_of_pos (differs no_fragment),List.takeWhile_cons_of_pos (by decide),
    List.dropWhile_append_of_pos (differs no_query),List.dropWhile_cons_of_neg (by decide)]

theorem pairLiteral {r : Reader} {p : Bytes × Bytes} (name : Literal r p.1) (value : Literal r p.2) : pair r p = some p := by
  rw [pair,decodeLiteral name,decodeLiteral value]
  rfl

theorem pairsLiteral {r : Reader} {ps : List (Bytes × Bytes)} (all : ∀ p ∈ ps, Literal r p.1 ∧ Literal r p.2) :
    ps.mapM (pair r) = some ps := by
  induction ps with
  | nil => rfl
  | cons p ps ih =>
    obtain ⟨first,rest⟩ := List.forall_mem_cons.mp all
    rw [List.mapM_cons,pairLiteral first.1 first.2,ih rest]
    rfl

/- The first parameter of a query that begins with a name. -/
theorem pairsFirst {r : Reader} {name text : Bytes} (plain : (38 : UInt8) ∉ name ∧ (61 : UInt8) ∉ name) (literal : Literal r name)
    {ps : List (Bytes × Bytes)} (read : pairs r (name ++ 61::text) = some ps) :
    ∃ value rest, ps = (name,value)::rest ∧ decode r (text.takeWhile (· != 38)) = some value := by
  obtain ⟨segments,split⟩ := splitHead 38 (name ++ 61::text)
  rw [List.takeWhile_append_of_pos (differs plain.1),List.takeWhile_cons_of_pos (by decide)] at split
  rw [pairs,fields,split,List.map_cons,fieldEncoded plain.2,List.mapM_cons,pair,decodeLiteral literal] at read
  obtain ⟨first,one,more⟩ := Option.bind_eq_some_iff.mp read
  obtain ⟨value,decoded,rfl⟩ := Option.map_eq_some_iff.mp one
  obtain ⟨rest,_,same⟩ := Option.bind_eq_some_iff.mp more
  cases Option.some.inj same
  exact ⟨value,rest,rfl,decoded⟩

end UmapTracker.FormQuery
