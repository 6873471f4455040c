import UmapTracker.Fields
import UmapTracker.Numerals
import UmapTracker.Utf8

/-! A reader of JSON texts that are one flat object: members that are strings or plain decimal numbers,
between white space. A text is read only where it is UTF-8 and is read to its end. -/
namespace UmapTracker.Json
open Text Fields Numerals

inductive Value where
  | number (q : ℚ)
  | string (text : Bytes)
  deriving DecidableEq, Repr

def space (b : UInt8) : Bool := b == 32 || b == 9 || b == 10 || b == 13

def skip (text : Bytes) : Bytes := text.dropWhile space

section Strings

/- A byte that stands for itself in a string. -/
def plain (b : UInt8) : Bool := decide (32 ≤ b) && b != 34 && b != 92

/- The UTF-8 form of a code point. -/
def character (code : Nat) : Bytes :=
  let continued (n : Nat) : UInt8 := (128 + n % 64).toUInt8
  if code < 128 then [code.toUInt8]
  else if code < 2048 then [(192 + code / 64).toUInt8,continued code]
  else if code < 65536 then [(224 + code / 4096).toUInt8,continued (code / 64),continued code]
  else [(240 + code / 262144).toUInt8,continued (code / 4096),continued (code / 64),continued code]

-- what a letter after a backslash stands for
def letters : List (UInt8 × UInt8) := [(34,34),(92,92),(47,47),(98,8),(102,12),(110,10),(114,13),(116,9)]

def hex : Nat → Nat → Bytes → Option (Nat × Bytes)
  | 0,code,text => some (code,text)
  | _+1,_,[] => none
  | n+1,code,b::text => (hexDigit b).bind (fun d => hex n (16*code+d) text)

-- a pair of surrogates is one character
def surrogate (high low : Nat) : Nat := 65536 + (high-55296)*1024 + (low-56320)

def lowHalf (high : Nat) : Bytes → Option (Bytes × Bytes)
  | 92::117::text => do
    let (low,text) ← hex 4 0 text
    if high < 56320 ∧ 56320 ≤ low ∧ low ≤ 57343 then some (character (surrogate high low),text) else none
  | _ => none

-- after \u; neither half of a pair is a character
def unicode (text : Bytes) : Option (Bytes × Bytes) := do
  let (code,text) ← hex 4 0 text
  if code < 55296 ∨ 57343 < code then some (character code,text) else lowHalf code text

def escape : Bytes → Option (Bytes × Bytes)
  | [] => none
  | 117::text => unicode text
  | b::text => (letters.lookup b).map (fun c => ([c],text))

/- A string up to its closing quote, and what follows. -/
def scan : Nat → Bytes → Option (Bytes × Bytes)
  | 0,_ => none
  | _+1,[] => none
  | n+1,b::text =>
    if b = 34 then some ([],text)
    else if b = 92 then do
      let (c,text) ← escape text
      let (s,rest) ← scan n text
      some (c ++ s,rest)
    else if plain b then (scan n text).map (fun r => (b::r.1,r.2))
    else none

def Hex4 (digits : Bytes) : Prop := digits.length = 4 ∧ ∀ b ∈ digits, (hexDigit b).isSome

/- What may follow a backslash, and the bytes it is for. -/
inductive Escape : Bytes → Bytes → Prop
  | letter {b c : UInt8} (listed : (b,c) ∈ letters) : Escape [b] [c]
  | unit {digits : Bytes} {code : Nat} (four : Hex4 digits) (below : code < 65536) : Escape (117::digits) (character code)
  | pair {high low : Bytes} {code : Nat} (first : Hex4 high) (second : Hex4 low) (from_plane : 65536 ≤ code)
      (below : code < 1114112) : Escape (117::(high ++ 92::117::low)) (character code)

/- The text between the quotes, and the string it spells. -/
inductive Spelled : Bytes → Bytes → Prop
  | nil : Spelled [] []
  | byte {b : UInt8} {raw s : Bytes} (itself : plain b = true) (rest : Spelled raw s) : Spelled (b::raw) (b::s)
  | escape {e c raw s : Bytes} (one : Escape e c) (rest : Spelled raw s) : Spelled (92::(e ++ raw)) (c ++ s)

theorem highByte {n : Nat} (low : 128 ≤ n) (high : n < 256) : 128 ≤ n.toUInt8 := by
  rw [UInt8.le_iff_toNat_le,Nat.toUInt8_eq,UInt8.toNat_ofNat',Nat.mod_eq_of_lt high]
  exact low

/- Beyond ASCII, a character has no byte of ASCII. -/
theorem characterHigh {code : Nat} (above : 128 ≤ code) (below : code < 1114112) : ∀ b ∈ character code, 128 ≤ b := by
  have continued : ∀ n, 128 ≤ (128 + n % 64).toUInt8 := fun n => highByte (by omega) (by omega)
  unfold character
  rw [if_neg (by omega)]
  split
  · simp only [List.forall_mem_cons]
    exact ⟨highByte (by omega) (by omega),continued _,by simp⟩
  · split
    · simp only [List.forall_mem_cons]
      exact ⟨highByte (by omega) (by omega),continued _,continued _,by simp⟩
    · simp only [List.forall_mem_cons]
      exact ⟨highByte (by omega) (by omega),continued _,continued _,continued _,by simp⟩

theorem hexSpec {n code code' : Nat} {text rest : Bytes} (read : hex n code text = some (code',rest)) :
    ∃ digits, text = digits ++ rest ∧ digits.length = n ∧ (∀ b ∈ digits, (hexDigit b).isSome) ∧ code' < 16^n * (code+1) := by
  induction n generalizing code text with
  | zero =>
    cases Option.some.inj read
    exact ⟨[],rfl,rfl,by simp,by omega⟩
  | succ n ih =>
    cases text with
    | nil => contradiction
    | cons b text =>
      obtain ⟨d,digit,read⟩ := Option.bind_eq_some_iff.mp read
      obtain ⟨digits,rfl,length,all,below⟩ := ih read
      refine ⟨b::digits,rfl,by simp [length],?_,?_⟩
      · exact List.forall_mem_cons.mpr ⟨by simp [digit],all⟩
      · have small := hexDigitBelow digit
        calc code' < 16^n * (16*code+d+1) := below
          _ ≤ 16^n * (16*(code+1)) := Nat.mul_le_mul_left _ (by omega)
          _ = 16^(n+1) * (code+1) := by ring

theorem surrogateBounds {high low : Nat} (first : high < 56320) (second : low ≤ 57343) :
    65536 ≤ surrogate high low ∧ surrogate high low < 1114112 := by
  unfold surrogate
  omega

theorem lowHalfSpec {high : Nat} {text c rest : Bytes} (read : lowHalf high text = some (c,rest)) :
    ∃ digits low, text = 92::117::(digits ++ rest) ∧ Hex4 digits ∧ c = character (surrogate high low) ∧
      high < 56320 ∧ low ≤ 57343 := by
  unfold lowHalf at read
  split at read
  · obtain ⟨⟨low,after⟩,half,last⟩ := Option.bind_eq_some_iff.mp read
    obtain ⟨digits,rfl,length,all,_⟩ := hexSpec half
    dsimp only at last
    split at last <;> try contradiction
    rename_i paired
    obtain ⟨same,rfl⟩ := Prod.mk.inj (Option.some.inj last)
    exact ⟨digits,low,rfl,⟨length,all⟩,same.symm,paired.1,paired.2.2⟩
  · contradiction

theorem unicodeSpec {text c rest : Bytes} (read : unicode text = some (c,rest)) :
    ∃ e, 117::text = e ++ rest ∧ Escape e c := by
  obtain ⟨⟨code,after⟩,first,last⟩ := Option.bind_eq_some_iff.mp read
  obtain ⟨digits,rfl,length,all,below⟩ := hexSpec first
  dsimp only at last
  split at last
  · obtain ⟨rfl,rfl⟩ := Prod.mk.inj (Option.some.inj last)
    have small : code < 65536 := by simpa using below
    exact ⟨117::digits,rfl,.unit ⟨length,all⟩ small⟩
  · obtain ⟨digits',low,rfl,four,paired,high_half,low_half⟩ := lowHalfSpec last
    obtain ⟨from_plane,to_plane⟩ := surrogateBounds high_half low_half
    rw [paired]
    exact ⟨117::(digits ++ 92::117::digits'),by simp,.pair ⟨length,all⟩ four from_plane to_plane⟩

theorem escapeSpec {text c rest : Bytes} (read : escape text = some (c,rest)) : ∃ e, text = e ++ rest ∧ Escape e c := by
  unfold escape at read
  split at read
  · contradiction
  · exact unicodeSpec read
  · rename_i b text _
    obtain ⟨d,listed,same⟩ := Option.map_eq_some_iff.mp read
    cases same
    obtain ⟨front,back,split,_⟩ := List.lookup_eq_some_iff.mp listed
    exact ⟨[b],rfl,.letter (by rw [split]; simp)⟩

theorem scanSpec {n : Nat} {text s rest : Bytes} (read : scan n text = some (s,rest)) :
    ∃ raw, text = raw ++ 34::rest ∧ Spelled raw s := by
  induction n generalizing text s with
  | zero => contradiction
  | succ n ih =>
    cases text with
    | nil => contradiction
    | cons b text =>
      rw [scan] at read
      split at read
      · rename_i quote
        cases Option.some.inj read
        exact ⟨[],by rw [quote]; rfl,.nil⟩
      · split at read
        · rename_i backslash
          simp only [bind,Option.bind_eq_some_iff] at read
          obtain ⟨⟨c,after⟩,escaped,⟨s',rest'⟩,scanned,same⟩ := read
          cases Option.some.inj same
          obtain ⟨e,rfl,one⟩ := escapeSpec escaped
          obtain ⟨raw,rfl,spelled⟩ := ih scanned
          exact ⟨92::(e ++ raw),by rw [backslash]; simp,.escape one spelled⟩
        · split at read <;> try contradiction
          rename_i itself
          obtain ⟨⟨s',rest'⟩,scanned,same⟩ := Option.map_eq_some_iff.mp read
          cases same
          obtain ⟨raw,rfl,spelled⟩ := ih scanned
          exact ⟨b::raw,rfl,.byte itself spelled⟩

theorem scanPlain {n : Nat} {s : Bytes} (all : ∀ b ∈ s, plain b = true) (fuel : s.length < n) (rest : Bytes) :
    scan n (s ++ 34::rest) = some (s,rest) := by
  induction s generalizing n with
  | nil =>
    obtain ⟨m,rfl⟩ := Nat.exists_eq_succ_of_ne_zero (Nat.ne_of_gt fuel)
    rfl
  | cons b s ih =>
    obtain ⟨m,rfl⟩ := Nat.exists_eq_succ_of_ne_zero (Nat.ne_of_gt (Nat.zero_lt_of_lt fuel))
    have head := all b List.mem_cons_self
    have tail := ih (fun x mem => all x (List.mem_cons_of_mem _ mem)) (by simpa using fuel : s.length < m)
    have other : b ≠ 34 ∧ b ≠ 92 := by
      simp only [plain,Bool.and_eq_true,bne_iff_ne] at head
      exact ⟨head.1.2,head.2⟩
    rw [List.cons_append,scan,if_neg other.1,if_neg other.2,if_pos head,tail]
    rfl

end Strings

section Members

/- The digits of a number, with no zero in front of another digit. -/
def trimmed : Bytes → Bool
  | 48::b::_ => !digit b
  | _ => true

def readNumber (token : Bytes) : Option ℚ :=
  if trimmed (if token.head? = some 45 then token.tail else token) then readDecimal token else none

def value (n : Nat) : Bytes → Option (Value × Bytes)
  | 34::text => (scan n text).map (fun r => (.string r.1,r.2))
  | text => (readNumber (text.takeWhile numeral)).map (fun q => (.number q,text.dropWhile numeral))

def member (n : Nat) (text : Bytes) : Option ((Bytes × Value) × Bytes) :=
  match skip text with
  | 34::text => do
    let (name,text) ← scan n text
    match skip text with
    | 58::text => (value n (skip text)).map (fun r => ((name,r.1),skip r.2))
    | _ => none
  | _ => none

/- The members up to the closing brace, which ends the text. -/
def members : Nat → Bytes → Option (List (Bytes × Value))
  | 0,_ => none
  | n+1,text => do
    let (m,text) ← member n text
    match text with
    | 44::text => (members n text).map (m :: ·)
    | 125::text => if skip text = [] then some [m] else none
    | _ => none

def readObject (text : Bytes) : Option (List (Bytes × Value)) :=
  match skip text with
  | 123::text =>
    match skip text with
    | 125::text => if skip text = [] then some [] else none
    | text => members (text.length+1) text
  | _ => none

def read (text : Bytes) : Option (List (Bytes × Value)) := if Utf8.valid text then readObject text else none

theorem skipSolid {b : UInt8} (solid : space b = false) (text : Bytes) : skip (b::text) = b::text := by
  simp [skip,solid]

theorem valueNumber {text : Bytes} (unquoted : text.head? ≠ some 34) (n : Nat) :
    value n text = (readNumber (text.takeWhile numeral)).map (fun q => (.number q,text.dropWhile numeral)) := by
  unfold value
  split
  · exact absurd rfl unquoted
  · rfl

/- What a text that stands for a value is read as, in front of a comma or the closing brace. -/
def Reads (text : Bytes) (v : Option Value) : Prop :=
  ∀ n c rest, text.length < n → c = 44 ∨ c = 125 → value n (skip (text ++ c::rest)) = v.map (fun v => (v,c::rest))

theorem closerSolid {c : UInt8} (closer : c = 44 ∨ c = 125) : space c = false ∧ numeral c = false := by
  rcases closer with rfl | rfl <;> decide

/- A byte that no number has ends the number. -/
theorem readsToken {front : Bytes} {b : UInt8} (token : ∀ x ∈ front, numeral x = true) (other : numeral b = false)
    (solid : space b = false) (unquoted : b ≠ 34) (n : Nat) (rest : Bytes) :
    value n (skip (front ++ b::rest)) = (readNumber front).map (fun q => (.number q,b::rest)) := by
  have start : ∃ x text, front ++ b::rest = x::text ∧ space x = false ∧ x ≠ 34 := by
    cases front with
    | nil => exact ⟨b,rest,rfl,solid,unquoted⟩
    | cons x front =>
      have numeric := token x List.mem_cons_self
      refine ⟨x,front ++ b::rest,rfl,?_,?_⟩
      · by_contra blank
        simp only [space,Bool.not_eq_false,Bool.or_eq_true,beq_iff_eq] at blank
        rcases blank with ((rfl | rfl) | rfl) | rfl <;> exact absurd numeric (by decide)
      · rintro rfl
        exact absurd numeric (by decide)
  obtain ⟨x,text,split,solid_start,unquoted_start⟩ := start
  have kept : skip (front ++ b::rest) = front ++ b::rest := by rw [split,skipSolid solid_start]
  have head : (front ++ b::rest).head? ≠ some 34 := by
    rw [split]
    simpa using unquoted_start
  rw [kept,valueNumber head,List.takeWhile_append_of_pos token,List.dropWhile_append_of_pos token]
  simp [other]

theorem readsNumeral {text : Bytes} (token : ∀ b ∈ text, numeral b = true) :
    Reads text ((readNumber text).map .number) := by
  intro n c rest _ closer
  obtain ⟨solid,other⟩ := closerSolid closer
  have unquoted : c ≠ 34 := by rcases closer with rfl | rfl <;> decide
  rw [readsToken token other solid unquoted,Option.map_map]
  rfl

theorem readsString {s : Bytes} (all : ∀ b ∈ s, plain b = true) : Reads (quoted s) (some (.string s)) := by
  intro n c rest fuel _
  have size : s.length < n := by
    simp only [quoted,List.length_cons,List.length_append] at fuel
    omega
  have front : quoted s ++ c::rest = 34::(s ++ 34::c::rest) := by simp [quoted]
  rw [front,skipSolid (by decide),value,scanPlain all size]
  rfl

/- A text that goes on after what could be a number, and that is none. -/
theorem readsRefused {front more : Bytes} {b : UInt8} (token : ∀ x ∈ front, numeral x = true) (other : numeral b = false)
    (solid : space b = false) (unquoted : b ≠ 34) (refused : readNumber front = none) : Reads (front ++ b::more) none := by
  intro n c rest _ _
  rw [List.append_assoc,List.cons_append,readsToken token other solid unquoted,refused]
  rfl

/- A member as it is written, its name, and what its value is read as. -/
structure Spells (m : Bytes × Bytes) (r : Bytes × Option Value) : Prop where
  name : m.1 = quoted r.1
  plain : ∀ b ∈ r.1, plain b = true
  value : Reads m.2 r.2

def entries (rs : List (Bytes × Option Value)) : Option (List (Bytes × Value)) :=
  rs.mapM (fun r => r.2.map (fun v => (r.1,v)))

theorem entriesCons (r : Bytes × Option Value) (rs : List (Bytes × Option Value)) :
    entries (r::rs) = r.2.bind (fun v => (entries rs).map ((r.1,v) :: ·)) := by
  rw [entries,List.mapM_cons]
  cases r.2 with
  | none => rfl
  | some v => cases loaded : entries rs <;> simp_all [entries]

theorem entriesSome {rs : List (Bytes × Option Value)} : (∃ values, entries rs = some values) ↔ ∀ r ∈ rs, r.2.isSome := by
  induction rs with
  | nil => exact iff_of_true ⟨[],rfl⟩ (by simp)
  | cons r rs ih =>
    rw [List.forall_mem_cons,← ih,entriesCons]
    cases r.2 <;> cases entries rs <;> simp

theorem entriesNames {rs : List (Bytes × Option Value)} {values : List (Bytes × Value)} (known : entries rs = some values) :
    values.map Prod.fst = rs.map Prod.fst := by
  induction rs generalizing values with
  | nil => cases Option.some.inj known; rfl
  | cons r rs ih =>
    rw [entriesCons] at known
    obtain ⟨v,_,more⟩ := Option.bind_eq_some_iff.mp known
    obtain ⟨rest,others,rfl⟩ := Option.map_eq_some_iff.mp more
    rw [List.map_cons,List.map_cons,ih others]

theorem entriesMem {rs : List (Bytes × Option Value)} {values : List (Bytes × Value)} (known : entries rs = some values)
    {r : Bytes × Option Value} (mem : r ∈ rs) : ∃ v, r.2 = some v ∧ (r.1,v) ∈ values := by
  induction rs generalizing values with
  | nil => contradiction
  | cons s rs ih =>
    rw [entriesCons] at known
    obtain ⟨v,value,more⟩ := Option.bind_eq_some_iff.mp known
    obtain ⟨rest,others,rfl⟩ := Option.map_eq_some_iff.mp more
    rcases List.mem_cons.mp mem with rfl | later
    · exact ⟨v,value,List.mem_cons_self⟩
    · obtain ⟨u,other,inside⟩ := ih others later
      exact ⟨u,other,List.mem_cons_of_mem _ inside⟩

theorem entriesLookup {rs : List (Bytes × Option Value)} {values : List (Bytes × Value)} (known : entries rs = some values)
    (unique : (rs.map Prod.fst).Nodup) {r : Bytes × Option Value} (mem : r ∈ rs) :
    ∃ v, r.2 = some v ∧ values.lookup r.1 = some v := by
  obtain ⟨v,value,inside⟩ := entriesMem known mem
  exact ⟨v,value,lookupUnique (by rwa [entriesNames known]) inside⟩

theorem memberSpelled {m : Bytes × Bytes} {r : Bytes × Option Value} (spells : Spells m r) {n : Nat}
    (fuel : m.1.length + m.2.length < n) {c : UInt8} (closer : c = 44 ∨ c = 125) (rest : Bytes) :
    member n (m.1 ++ 58::(m.2 ++ c::rest)) = r.2.map (fun v => ((r.1,v),c::rest)) := by
  obtain ⟨name,plain,value⟩ := spells
  have size : m.1.length = r.1.length + 2 := by rw [name]; simp [quoted]
  have front : m.1 ++ 58::(m.2 ++ c::rest) = 34::(r.1 ++ 34::58::(m.2 ++ c::rest)) := by rw [name]; simp [quoted]
  have scanned := scanPlain plain (by omega : r.1.length < n) (58::(m.2 ++ c::rest))
  rw [front,member,skipSolid (by decide)]
  simp only [scanned,bind,Option.bind_some,skipSolid (by decide : space 58 = false),value n c rest (by omega) closer]
  cases r.2 with
  | none => rfl
  | some v => simp [skipSolid (closerSolid closer).1]

/- The text of members after the brace. -/
def listed (m : Bytes × Bytes) (ms : List (Bytes × Bytes)) : Bytes := m.1 ++ 58::(m.2 ++ (encode 44 58 ms ++ [125]))

theorem listedCons (m p : Bytes × Bytes) (ms : List (Bytes × Bytes)) :
    listed m (p::ms) = m.1 ++ 58::(m.2 ++ 44::listed p ms) := by
  simp [listed,encode]

theorem objectListed (m : Bytes × Bytes) (ms : List (Bytes × Bytes)) : object (m::ms) = 123::listed m ms := by
  simp [object,listed,encode]

theorem membersSpelled {m : Bytes × Bytes} {ms : List (Bytes × Bytes)} {r : Bytes × Option Value}
    {rs : List (Bytes × Option Value)} (first : Spells m r) (others : List.Forall₂ Spells ms rs) {n : Nat}
    (fuel : (listed m ms).length < n) : members n (listed m ms) = entries (r::rs) := by
  induction others generalizing m r n with
  | nil =>
    obtain ⟨k,rfl⟩ := Nat.exists_eq_succ_of_ne_zero (Nat.ne_of_gt (Nat.zero_lt_of_lt fuel))
    have size : m.1.length + m.2.length < k := by
      simp only [listed,List.length_append,List.length_cons] at fuel
      omega
    rw [members,listed,encode,List.flatMap_nil,List.nil_append,memberSpelled first size (.inr rfl),entriesCons]
    cases r.2 <;> simp [entries,skip]
  | @cons p q ms rs second others ih =>
    obtain ⟨k,rfl⟩ := Nat.exists_eq_succ_of_ne_zero (Nat.ne_of_gt (Nat.zero_lt_of_lt fuel))
    rw [listedCons] at fuel ⊢
    simp only [List.length_append,List.length_cons] at fuel
    have rest := ih second (by omega : (listed p ms).length < k)
    rw [members,memberSpelled first (by omega) (.inl rfl),entriesCons]
    cases r.2 with
    | none => rfl
    | some v => simp [rest]

theorem listedStart {m : Bytes × Bytes} {name : Bytes} (spelled : m.1 = quoted name) (ms : List (Bytes × Bytes)) :
    ∃ text, listed m ms = 34::text := by
  rw [listed,spelled]
  exact ⟨_,rfl⟩

theorem readObjectListed {m : Bytes × Bytes} {name : Bytes} (spelled : m.1 = quoted name) (ms : List (Bytes × Bytes)) :
    readObject (object (m::ms)) = members ((listed m ms).length+1) (listed m ms) := by
  obtain ⟨text,start⟩ := listedStart spelled ms
  rw [objectListed,readObject,skipSolid (by decide),start]
  simp only [skipSolid (by decide : space 34 = false)]
  rfl

/- An object of members that are spelled out reads back, each as what its value is read as. -/
theorem readSpelled {m : Bytes × Bytes} {ms : List (Bytes × Bytes)} {r : Bytes × Option Value}
    {rs : List (Bytes × Option Value)} (spells : List.Forall₂ Spells (m::ms) (r::rs)) (valid : Utf8.valid (object (m::ms)) = true) :
    read (object (m::ms)) = entries (r::rs) := by
  cases spells with
  | cons first others => rw [read,if_pos valid,readObjectListed first.name,membersSpelled first others (Nat.lt_succ_self _)]

end Members

section Weights
variable {w : UInt8 → Int} {raw s : Bytes}

theorem spelledRises (rises : ∀ {e c}, Escape e c → weigh w (92::e) ≤ weigh w c) (spelled : Spelled raw s) :
    weigh w raw ≤ weigh w s := by
  induction spelled with
  | nil => exact le_rfl
  | byte itself rest ih => simpa using ih
  | escape one rest ih =>
    have first := rises one
    simp only [weighCons,weighAppend] at first ⊢
    omega

/- Where every escape is lighter than what it stands for, only a text without escapes weighs what it spells. -/
theorem spelledGains (gains : ∀ {e c}, Escape e c → weigh w (92::e) < weigh w c) (spelled : Spelled raw s) :
    (raw = s ∧ ∀ b ∈ raw, plain b = true) ∨ weigh w raw < weigh w s := by
  induction spelled with
  | nil => exact .inl ⟨rfl,by simp⟩
  | byte itself rest ih =>
    rcases ih with ⟨rfl,all⟩ | less
    · exact .inl ⟨rfl,List.forall_mem_cons.mpr ⟨itself,all⟩⟩
    · exact .inr (by simpa using less)
  | escape one rest ih =>
    have first := gains one
    have others := spelledRises (fun e => (gains e).le) rest
    right
    simp only [weighCons,weighAppend] at first ⊢
    omega

end Weights

section Consumed

theorem digitsUnquoted {digits : Bytes} (all : ∀ b ∈ digits, (hexDigit b).isSome) : (34 : UInt8) ∉ digits :=
  fun mem => absurd (all 34 mem) (by decide)

theorem escapeUnquoted {e c : Bytes} (one : Escape e c) (unquoted : (34 : UInt8) ∉ c) : (34 : UInt8) ∉ e := by
  cases one with
  | @letter b c listed =>
    rw [List.mem_singleton] at unquoted ⊢
    rintro rfl
    exact unquoted ((by decide : ∀ p ∈ letters, p.1 = 34 → 34 = p.2) _ listed rfl)
  | unit four _ => simpa using digitsUnquoted four.2
  | pair first second _ _ => simp [digitsUnquoted first.2,digitsUnquoted second.2]

/- A string without a quote has none in its text. -/
theorem spelledUnquoted {raw s : Bytes} (spelled : Spelled raw s) (unquoted : (34 : UInt8) ∉ s) : (34 : UInt8) ∉ raw := by
  induction spelled with
  | nil => exact unquoted
  | @byte b raw s itself rest ih =>
    rw [List.mem_cons,not_or] at unquoted ⊢
    exact ⟨unquoted.1,ih unquoted.2⟩
  | @escape e c raw s one rest ih =>
    rw [List.mem_append,not_or] at unquoted
    simp [escapeUnquoted one unquoted.1,ih unquoted.2]

def isNumber : Value → Bool
  | .number _ => true
  | .string _ => false

/- What a value takes of the text; a number has no quote in it. -/
theorem valueUsed {n : Nat} {text rest : Bytes} {v : Value} (read : value n text = some (v,rest)) :
    ∃ used, text = used ++ rest ∧ (isNumber v = true → (34 : UInt8) ∉ used) := by
  unfold value at read
  split at read
  · obtain ⟨⟨s,after⟩,scanned,same⟩ := Option.map_eq_some_iff.mp read
    cases same
    obtain ⟨raw,rfl,_⟩ := scanSpec scanned
    exact ⟨34::(raw ++ [34]),by simp,by simp [isNumber]⟩
  · obtain ⟨q,_,same⟩ := Option.map_eq_some_iff.mp read
    cases same
    refine ⟨text.takeWhile numeral,List.takeWhile_append_dropWhile.symm,fun _ mem => ?_⟩
    exact absurd (List.mem_takeWhile_imp mem) (by decide)

theorem skipUsed (text : Bytes) : ∃ blank, text = blank ++ skip text ∧ (34 : UInt8) ∉ blank := by
  refine ⟨text.takeWhile space,List.takeWhile_append_dropWhile.symm,fun mem => ?_⟩
  exact absurd (List.mem_takeWhile_imp mem) (by decide)

/- What a member takes; one of a number has the quotes of its name and no other. -/
theorem memberUsed {n : Nat} {text rest : Bytes} {m : Bytes × Value} (read : member n text = some (m,rest)) :
    ∃ used, text = used ++ rest ∧ (isNumber m.2 = true → (34 : UInt8) ∉ m.1 → used.count 34 = 2) := by
  obtain ⟨blank,before,free⟩ := skipUsed text
  unfold member at read
  split at read
  · rename_i text' opened
    obtain ⟨⟨name,after⟩,scanned,last⟩ := Option.bind_eq_some_iff.mp read
    obtain ⟨raw,rfl,spelled⟩ := scanSpec scanned
    obtain ⟨blank',before',free'⟩ := skipUsed after
    dsimp only at last
    split at last <;> try contradiction
    rename_i text'' colon
    obtain ⟨⟨v,tail⟩,valued,same⟩ := Option.map_eq_some_iff.mp last
    cases same
    obtain ⟨blank'',before'',free''⟩ := skipUsed text''
    obtain ⟨used,taken,number⟩ := valueUsed valued
    obtain ⟨blanks,trail,frees⟩ := skipUsed tail
    refine ⟨blank ++ 34::(raw ++ 34::(blank' ++ 58::(blank'' ++ (used ++ blanks)))),?_,?_⟩
    · rw [before,opened,before',colon,before'',taken]
      simp [← trail]
    · intro numeric unquoted
      have name_free := spelledUnquoted spelled unquoted
      have value_free := number numeric
      simp [List.count_eq_zero.mpr free,List.count_eq_zero.mpr free',List.count_eq_zero.mpr free'',
        List.count_eq_zero.mpr frees,List.count_eq_zero.mpr name_free,List.count_eq_zero.mpr value_free]
  · contradiction

theorem membersUsed {n : Nat} {text : Bytes} {ms : List (Bytes × Value)} (read : members n text = some ms) :
    (125 : UInt8) ∈ text ∧ ((∀ m ∈ ms, isNumber m.2 = true ∧ (34 : UInt8) ∉ m.1) → text.count 34 = 2 * ms.length) := by
  induction n generalizing text ms with
  | zero => contradiction
  | succ n ih =>
    obtain ⟨⟨m,after⟩,one,last⟩ := Option.bind_eq_some_iff.mp read
    obtain ⟨used,rfl,quotes⟩ := memberUsed one
    dsimp only at last
    split at last
    · rename_i tail
      obtain ⟨rest,others,rfl⟩ := Option.map_eq_some_iff.mp last
      obtain ⟨closes,counts⟩ := ih others
      refine ⟨by simp [closes],fun all => ?_⟩
      obtain ⟨first,still⟩ := List.forall_mem_cons.mp all
      have number := quotes first.1 first.2
      have more := counts still
      simp only [List.count_append,List.count_cons,number,more,List.length_cons]
      simp
      omega
    · rename_i tail
      split at last <;> try contradiction
      rename_i ended
      cases Option.some.inj last
      refine ⟨by simp,fun all => ?_⟩
      obtain ⟨first,_⟩ := List.forall_mem_cons.mp all
      obtain ⟨blank,before,free⟩ := skipUsed tail
      have number := quotes first.1 first.2
      rw [ended,List.append_nil] at before
      have none_left : tail.count 34 = 0 := by rw [before]; exact List.count_eq_zero.mpr free
      simp [number,none_left]
    · contradiction

theorem encodeQuotes {ms : List (Bytes × Bytes)} (each : ∀ m ∈ ms, m.1.count 34 = 2 ∧ (34 : UInt8) ∉ m.2) :
    (encode 44 58 ms).count 34 = 2 * ms.length := by
  induction ms with
  | nil => rfl
  | cons m ms ih =>
    obtain ⟨first,others⟩ := List.forall_mem_cons.mp each
    have rest := ih others
    rw [encode] at rest
    simp only [encode,List.flatMap_cons,List.count_append,List.count_cons,first.1,List.count_eq_zero.mpr first.2,rest,
      List.length_cons]
    simp
    omega

/- A first member that is a string: it is spelled by what stands in front of some quote. -/
theorem stringFirst {name s : Bytes} (simple : ∀ b ∈ name, plain b = true) {ms : List (Bytes × Bytes)} {n : Nat}
    (fuel : name.length < n) {values : List (Bytes × Value)}
    (done : members (n+1) (listed (quoted name,quoted s) ms) = some values) :
    ∃ raw d rest others, s ++ 34::(encode 44 58 ms ++ [125]) = raw ++ 34::rest ∧ Spelled raw d ∧
      values = (name,.string d)::others ∧
      (others = [] ∨ ∃ k text, members k text = some others ∧ text.count 34 = rest.count 34) := by
  have front : listed (quoted name,quoted s) ms = 34::(name ++ 34::58::34::(s ++ 34::(encode 44 58 ms ++ [125]))) := by
    simp [listed,quoted]
  obtain ⟨⟨m,after⟩,one,last⟩ := Option.bind_eq_some_iff.mp done
  rw [front,member,skipSolid (by decide)] at one
  simp only [scanPlain simple fuel,bind,Option.bind_some,skipSolid (by decide : space 58 = false),
    skipSolid (by decide : space 34 = false),value,Option.map_map] at one
  obtain ⟨⟨d,rest⟩,scanned,same⟩ := Option.map_eq_some_iff.mp one
  cases same
  obtain ⟨raw,split,spelled⟩ := scanSpec scanned
  obtain ⟨blank,before,free⟩ := skipUsed rest
  dsimp only [Function.comp] at last
  split at last
  · rename_i text comma
    obtain ⟨others,more,rfl⟩ := Option.map_eq_some_iff.mp last
    refine ⟨raw,d,rest,others,split,spelled,rfl,.inr ⟨n,text,more,?_⟩⟩
    rw [before,comma]
    simp [List.count_eq_zero.mpr free]
  · split at last <;> try contradiction
    cases Option.some.inj last
    exact ⟨raw,d,rest,[],split,spelled,rfl,.inl rfl⟩
  · contradiction

/- Where the members after a string are read as numbers, their quotes are all there, and so the string ends where
it was written to end. -/
theorem stringWhole {name s : Bytes} (simple : ∀ b ∈ name, plain b = true) {ms : List (Bytes × Bytes)} (some_member : ms ≠ [])
    {n : Nat} (fuel : name.length < n) (quotes : (encode 44 58 ms).count 34 = 2 * ms.length) {values : List (Bytes × Value)}
    (length : values.length = ms.length + 1)
    (numbers : ∀ v others, values = (name,v)::others → ∀ m ∈ others, isNumber m.2 = true ∧ (34 : UInt8) ∉ m.1)
    (done : members (n+1) (listed (quoted name,quoted s) ms) = some values) :
    ∃ d others, values = (name,.string d)::others ∧ Spelled s d := by
  obtain ⟨raw,d,rest,others,split,spelled,rfl,more⟩ := stringFirst simple fuel done
  have size : others.length = ms.length := by simpa using length
  have nonempty : others ≠ [] := by
    rintro rfl
    exact some_member (List.length_eq_zero_iff.mp size.symm)
  obtain ⟨k,text,read,count⟩ := more.resolve_left nonempty
  have counted := (membersUsed read).2 (numbers _ _ rfl)
  have total : (encode 44 58 ms ++ [125]).count 34 = rest.count 34 := by
    rw [List.count_append,quotes,← count,counted,size]
    rfl
  have whole : raw = s := by
    rcases List.append_eq_append_iff.mp split with ⟨beyond,raw_text,tail⟩ | ⟨inside,s_text,tail⟩
    · cases beyond with
      | nil => rwa [List.append_nil] at raw_text
      | cons b beyond =>
        -- the closing quote was escaped
        have later : encode 44 58 ms ++ [125] = beyond ++ 34::rest := (List.cons.inj tail).2
        rw [later,List.count_append,List.count_cons_self] at total
        omega
    · cases inside with
      | nil => rw [s_text,List.append_nil]
      | cons b inside =>
        -- a quote in the string closed it
        have earlier : rest = inside ++ 34::(encode 44 58 ms ++ [125]) := (List.cons.inj tail).2
        simp only [earlier,List.count_append,List.count_cons_self] at total
        omega
  exact ⟨d,others,rfl,whole ▸ spelled⟩

/- A text that is read has its closing brace. -/
theorem readCloses {text : Bytes} {ms : List (Bytes × Value)} (done : read text = some ms) : (125 : UInt8) ∈ text := by
  unfold read at done
  split at done <;> try contradiction
  unfold readObject at done
  obtain ⟨blank,before,_⟩ := skipUsed text
  split at done <;> try contradiction
  rename_i after opened
  obtain ⟨blank',before',_⟩ := skipUsed after
  rw [before,opened,before']
  split at done
  · rename_i closed
    simp [closed]
  · have closes := (membersUsed done).1
    simp [closes]

theorem encodeKeeps {p : UInt8 → Prop} (comma : p 44) (colon : p 58) {ms : List (Bytes × Bytes)}
    (all : ∀ m ∈ ms, (∀ b ∈ m.1, p b) ∧ ∀ b ∈ m.2, p b) : ∀ b ∈ encode 44 58 ms, p b := by
  intro b mem
  obtain ⟨m,inside,here⟩ := List.mem_flatMap.mp mem
  obtain ⟨names,values⟩ := all m inside
  rcases List.mem_cons.mp here with rfl | here
  · exact comma
  rcases List.mem_append.mp here with name | here
  · exact names b name
  rcases List.mem_cons.mp here with rfl | value
  · exact colon
  · exact values b value

theorem objectAscii {ms : List (Bytes × Bytes)}
    (all : ∀ m ∈ ms, (∀ b ∈ m.1, Utf8.ascii7 b = true) ∧ ∀ b ∈ m.2, Utf8.ascii7 b = true) : Utf8.valid (object ms) = true := by
  have bytes := encodeKeeps (p := (Utf8.ascii7 · = true)) (by decide) (by decide) all
  refine Utf8.validAscii rfl ?_
  intro b mem
  rcases List.mem_cons.mp mem with rfl | mem
  · decide
  rcases List.mem_append.mp mem with inside | closing
  · exact bytes b (List.mem_of_mem_tail inside)
  · cases List.mem_singleton.mp closing
    decide

/- An object that is cut off is not read. -/
theorem cutUnread {ms : List (Bytes × Bytes)} (open_members : ∀ m ∈ ms, (125 : UInt8) ∉ m.1 ∧ (125 : UInt8) ∉ m.2) {size : Nat}
    (cut : size < (object ms).length) : read ((object ms).take size) = none := by
  have bytes := encodeKeeps (p := (· ≠ 125)) (by decide) (by decide)
    (fun m mem => ⟨fun b inside same => (open_members m mem).1 (same ▸ inside),
      fun b inside same => (open_members m mem).2 (same ▸ inside)⟩)
  have front : object ms = (123::(encode 44 58 ms).tail) ++ [125] := rfl
  cases done : read ((object ms).take size) with
  | none => rfl
  | some values =>
    have closes := readCloses done
    rw [front] at cut
    simp only [List.length_append,List.length_cons,List.length_nil] at cut
    rw [front,List.take_append_of_le_length (by simp only [List.length_cons]; omega)] at closes
    rcases List.mem_cons.mp (List.mem_of_mem_take closes) with opening | inside
    · contradiction
    · exact absurd rfl (bytes 125 (List.mem_of_mem_tail inside))

end Consumed
end UmapTracker.Json
