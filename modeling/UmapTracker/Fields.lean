import UmapTracker.Text

/-! Texts made of fields, as a query string or a flat JSON object is: segments between
separators, each a name, an assignment byte and a value. Where a name occurs more
than once the last field counts. -/
namespace UmapTracker.Fields
open Text

def field (assign : UInt8) (segment : Bytes) : Bytes × Bytes :=
  (segment.takeWhile (· != assign),(segment.dropWhile (· != assign)).tail)

def fields (separator assign : UInt8) (text : Bytes) : List (Bytes × Bytes) :=
  (text.splitOn separator).map (field assign)

def last (separator assign : UInt8) (text name : Bytes) : Option Bytes :=
  (fields separator assign text).reverse.lookup name

def encode (separator assign : UInt8) (pairs : List (Bytes × Bytes)) : Bytes :=
  pairs.flatMap (fun p => separator::(p.1 ++ assign::p.2))

/- The fields can be told apart: no separator inside, no assignment byte in a name. -/
def Plain (separator assign : UInt8) (pairs : List (Bytes × Bytes)) : Prop :=
  separator ≠ assign ∧ ∀ p ∈ pairs, separator ∉ p.1 ∧ assign ∉ p.1 ∧ separator ∉ p.2

theorem fieldEncoded {assign : UInt8} {name value : Bytes} (absent : assign ∉ name) :
    field assign (name ++ assign::value) = (name,value) := by
  have before : ∀ b ∈ name, (b != assign) = true := by
    intro b mem
    simp only [bne_iff_ne]
    exact fun same => absent (same ▸ mem)
  simp only [field,List.takeWhile_append_of_pos before,List.dropWhile_append_of_pos before]
  simp

theorem fieldsEncoded {separator assign : UInt8} {pairs : List (Bytes × Bytes)}
    (plain : Plain separator assign pairs) (front : Bytes) :
    fields separator assign (front ++ encode separator assign pairs) = fields separator assign front ++ pairs := by
  induction pairs generalizing front with
  | nil => simp [encode]
  | cons p pairs ih =>
    obtain ⟨different,apart⟩ := plain
    obtain ⟨freeName,noAssign,freeValue⟩ := apart p List.mem_cons_self
    have segment : separator ∉ p.1 ++ assign::p.2 := by
      simp [freeName,freeValue,different]
    have one : fields separator assign (front ++ separator::(p.1 ++ assign::p.2)) =
        fields separator assign front ++ [p] := by
      rw [fields,List.splitOn_append_cons_self,List.splitOn_eq_singleton segment,List.map_append,fields]
      simp [fieldEncoded noAssign]
    have rest : Plain separator assign pairs := ⟨different,fun q hq => apart q (List.mem_cons_of_mem _ hq)⟩
    rw [encode,List.flatMap_cons,← List.append_assoc,← encode,ih rest,one,List.append_assoc]
    rfl

theorem lookupUnique {α β : Type} [BEq α] [LawfulBEq α] {pairs : List (α × β)} {name : α} {value : β}
    (unique : (pairs.map Prod.fst).Nodup) (mem : (name,value) ∈ pairs) : pairs.lookup name = some value := by
  obtain ⟨front,rest,rfl⟩ := List.append_of_mem mem
  refine List.lookup_eq_some_iff.mpr ⟨front,rest,rfl,?_⟩
  intro p hp
  rw [List.map_append,List.map_cons,List.nodup_append] at unique
  have := unique.2.2 p.1 (List.mem_map_of_mem hp) name List.mem_cons_self
  simpa using fun same => this same.symm

theorem lastEncoded {separator assign : UInt8} {pairs : List (Bytes × Bytes)} {name value : Bytes}
    (plain : Plain separator assign pairs) (unique : (pairs.map Prod.fst).Nodup) (mem : (name,value) ∈ pairs)
    (front : Bytes) : last separator assign (front ++ encode separator assign pairs) name = some value := by
  have reversed : (pairs.reverse.map Prod.fst).Nodup := by
    rw [List.map_reverse]
    exact List.nodup_reverse.mpr unique
  rw [last,fieldsEncoded plain,List.reverse_append,List.lookup_append,
    lookupUnique reversed (List.mem_reverse.mpr mem),Option.some_or]

def quoted (text : Bytes) : Bytes := 34::(text ++ [34])

/- A flat JSON object, and what stands between its braces with a separator before every member. -/
def object (members : List (Bytes × Bytes)) : Bytes := 123::((encode 44 58 members).tail ++ [125])

def body : Bytes → Option Bytes
  | 123::text => if text.getLast? = some 125 then some (44::text.dropLast) else none
  | _ => none

def member (text name : Bytes) : Option Bytes := (body text).bind (fun b => last 44 58 b name)

theorem bodyObject {members : List (Bytes × Bytes)} (some_member : members ≠ []) :
    body (object members) = some (encode 44 58 members) := by
  cases members with
  | nil => contradiction
  | cons p members =>
    rw [object,body,if_pos (by simp),List.dropLast_concat]
    rfl

theorem objectLength {members : List (Bytes × Bytes)} (some_member : members ≠ []) :
    (object members).length = (members.map (fun p => p.1.length+p.2.length+2)).sum+1 := by
  have size : (encode 44 58 members).length = (members.map (fun p => p.1.length+p.2.length+2)).sum := by
    rw [encode,List.length_flatMap]
    congr 1
    apply List.map_congr_left
    intro p _
    simp only [List.length_cons,List.length_append]
    omega
  have positive : (encode 44 58 members).length ≠ 0 := by
    cases members with
    | nil => contradiction
    | cons p members => simp [encode]
  simp only [object,List.length_cons,List.length_append,List.length_tail,List.length_nil]
  omega

theorem memberObject {front members : List (Bytes × Bytes)} {name value : Bytes} (plain : Plain 44 58 members)
    (unique : (members.map Prod.fst).Nodup) (mem : (name,value) ∈ members) :
    member (object (front ++ members)) name = some value := by
  have nonempty : front ++ members ≠ [] := by
    intro empty
    rw [(List.append_eq_nil_iff.mp empty).2] at mem
    contradiction
  rw [member,bodyObject nonempty,Option.bind_some,encode,List.flatMap_append]
  exact lastEncoded plain unique mem _

end UmapTracker.Fields
