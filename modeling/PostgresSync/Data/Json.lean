import PostgresSync.Data.Dict
import PostgresSync.Data.Loop

namespace PostgresSync.Data

/-! JSON as `encoding/json` writes and reads it, one level above the text. -/

/-- The tree of a JSON text.  The only numbers are integers. -/
inductive Json where
  | null
  | bool (flag : Bool)
  | number (n : Int)
  | string (text : String)
  | array (items : List Json)
  | object (fields : List (String × Json))

/-- The `float64` nearest to a natural number, ties to the even mantissa. -/
def float64Nat (n : Nat) : Nat :=
  let unit := 2 ^ (n.log2 - 52)
  let mantissa := n / unit
  let rest := 2 * (n % unit)
  if rest < unit ∨ (rest = unit ∧ mantissa % 2 = 0) then
    mantissa * unit
  else
    (mantissa + 1) * unit

/-- The `float64` that an integer becomes when it is read into an `any`. -/
def float64 (n : Int) : Int :=
  n.sign * float64Nat n.natAbs

theorem float64Nat_of_le {n : Nat} (bound : n ≤ 2 ^ 53) : float64Nat n = n := by
  rcases Nat.lt_or_eq_of_le bound with below | rfl
  · have short : n.log2 - 52 = 0 := by
      cases n with
      | zero => rfl
      | succ n =>
          have small : (n + 1).log2 < 53 := (Nat.log2_lt (Nat.succ_ne_zero n)).mpr below
          omega
    simp [float64Nat, short, Nat.mod_one]
  · decide +kernel

theorem float64_of_natAbs_le {n : Int} (bound : n.natAbs ≤ 2 ^ 53) : float64 n = n := by
  rw [float64, float64Nat_of_le bound, Int.sign_mul_natAbs]

/-- How values of a Go type are written and read.  Reading `null`, or a field that is
not there, leaves the zero value. -/
structure Codec (α : Type u) where
  encode : α → Json
  decode : Json → Option α

namespace Codec

variable {α : Type u} {codec : Codec α}

def Keeps (codec : Codec α) (value : α) : Prop :=
  codec.decode (codec.encode value) = some value

def text : Codec String where
  encode := .string
  decode
    | .null => some ""
    | .string text => some text
    | _ => none

def flag : Codec Bool where
  encode := .bool
  decode
    | .null => some false
    | .bool flag => some flag
    | _ => none

def int : Codec Int where
  encode := .number
  decode
    | .null => some 0
    | .number n => some n
    | _ => none

def pointer (codec : Codec α) : Codec (Option α) where
  encode
    | none => .null
    | some value => codec.encode value
  decode
    | .null => some none
    | json => (codec.decode json).map some

def list (codec : Codec α) : Codec (List α) where
  encode items := .array (items.map codec.encode)
  decode
    | .null => some []
    | .array items => items.mapM codec.decode
    | _ => none

/-- Keys are written in their order, and of two fields of one name the later is read. -/
def dict (codec : Codec α) : Codec (Dict α) where
  encode entries := .object (entries.toList.map fun entry => (entry.1, codec.encode entry.2))
  decode
    | .null => some ∅
    | .object fields =>
        (fields.mapM fun field => (codec.decode field.2).map fun value =>
          (field.1, value)).map Dict.ofPairs
    | _ => none

theorem keeps_text (value : String) : text.Keeps value :=
  rfl

theorem keeps_pointer (written : ∀ value, codec.encode value ≠ .null)
    {pointed : Option α} (keeps : ∀ value, pointed = some value → codec.Keeps value) :
    (pointer codec).Keeps pointed := by
  cases pointed with
  | none => rfl
  | some value =>
      have kept : codec.decode (codec.encode value) = some value := keeps value rfl
      have present := written value
      unfold Keeps pointer
      dsimp only
      split
      · next absent => exact absurd absent present
      · rw [kept]
        rfl

theorem keeps_list {items : List α} (keeps : ∀ item ∈ items, codec.Keeps item) :
    (list codec).Keeps items := by
  show (items.map codec.encode).mapM codec.decode = some items
  rw [List.mapM_map]
  refine (mapM_eq_some_map keeps).trans ?_
  rw [List.map_id']

theorem keeps_dict {entries : Dict α}
    (keeps : ∀ (key : String) (value : α), entries[key]? = some value → codec.Keeps value) :
    (dict codec).Keeps entries := by
  have read : ∀ entry ∈ entries.toList,
      ((codec.decode (codec.encode entry.2)).map fun value => (entry.1, value)) =
        some entry := by
    intro entry member
    have found := Std.ExtTreeMap.mem_toList_iff_getElem?_eq_some.mp member
    rw [keeps entry.1 entry.2 found]
    rfl
  show ((entries.toList.map fun entry => (entry.1, codec.encode entry.2)).mapM fun field =>
    (codec.decode field.2).map fun value => (field.1, value)).map Dict.ofPairs = some entries
  rw [List.mapM_map, Option.map_eq_some_iff]
  refine ⟨entries.toList, (mapM_eq_some_map read).trans ?_, Dict.ofPairs_toList entries⟩
  rw [List.map_id']

/-! Structs. -/

def present (fields : List (String × Option Json)) : List (String × Json) :=
  fields.filterMap fun field => field.2.map fun json => (field.1, json)

/-- A field with the option `omitempty`. -/
def unlessEmpty (empty : Bool) (json : Json) : Option Json :=
  if empty then none else some json

def read (fields : List (String × Json)) (name : String) (codec : Codec α) : Option α :=
  codec.decode ((fields.lookup name).getD .null)

def struct (zero : α) (write : α → List (String × Option Json))
    (fill : List (String × Json) → Option α) : Codec α where
  encode value := .object (present (write value))
  decode
    | .null => some zero
    | .object fields => fill fields
    | _ => none

theorem lookup_present {fields : List (String × Option Json)}
    (distinct : (fields.map (·.1)).Nodup) (name : String) :
    (present fields).lookup name = (fields.lookup name).join := by
  induction fields with
  | nil => rfl
  | cons field rest hypothesis =>
      obtain ⟨own, json⟩ := field
      obtain ⟨fresh, distinct⟩ := List.nodup_cons.mp distinct
      have later := hypothesis distinct
      cases json with
      | some json =>
          show List.lookup name ((own, json) :: present rest) = _
          rw [List.lookup_cons, List.lookup_cons, later]
          cases name == own <;> rfl
      | none =>
          show List.lookup name (present rest) = _
          rw [later, List.lookup_cons]
          cases same : name == own with
          | false => rfl
          | true =>
              obtain rfl : name = own := by simpa using same
              have absent : rest.lookup name = none := by
                rw [List.lookup_eq_none_iff]
                intro entry member
                have apart : name ≠ entry.1 := by
                  rintro rfl
                  exact fresh (List.mem_map.mpr ⟨entry, member, rfl⟩)
                simpa using apart
              simp [absent]

section Written

/-! Reading a field of a struct that has just been written. -/

variable {fields : List (String × Option Json)} (distinct : (fields.map (·.1)).Nodup)
  (name : String)

include distinct

theorem read_present {value : α}
    (written : fields.lookup name = some (some (codec.encode value)))
    (keeps : codec.Keeps value) : read (present fields) name codec = some value := by
  rw [read, lookup_present distinct, written]
  exact keeps

theorem read_unlessEmpty {empty : Bool} {value : α}
    (written : fields.lookup name = some (unlessEmpty empty (codec.encode value)))
    (zero : empty = true → codec.decode .null = some value) (keeps : codec.Keeps value) :
    read (present fields) name codec = some value := by
  rw [read, lookup_present distinct, written]
  cases empty with
  | true => exact zero rfl
  | false => exact keeps

theorem read_text {value : String} (written : fields.lookup name =
    some (unlessEmpty (value = "") (text.encode value))) :
    read (present fields) name text = some value := by
  apply read_unlessEmpty distinct name written
  · intro empty
    rw [of_decide_eq_true empty]
    rfl
  · exact keeps_text value

theorem read_dict {value : Dict α} (written : fields.lookup name =
    some (unlessEmpty value.isEmpty ((dict codec).encode value)))
    (keeps : (dict codec).Keeps value) :
    read (present fields) name (dict codec) = some value := by
  apply read_unlessEmpty distinct name written
  · intro empty
    rw [Std.ExtTreeMap.isEmpty_iff.mp empty]
    rfl
  · exact keeps

theorem read_list {value : List α} (written : fields.lookup name =
    some (unlessEmpty value.isEmpty ((list codec).encode value)))
    (keeps : (list codec).Keeps value) :
    read (present fields) name (list codec) = some value := by
  apply read_unlessEmpty distinct name written
  · intro empty
    rw [List.isEmpty_iff.mp empty]
    rfl
  · exact keeps

theorem read_pointer {value : Option α} (written : fields.lookup name =
    some (unlessEmpty value.isNone ((pointer codec).encode value)))
    (keeps : (pointer codec).Keeps value) :
    read (present fields) name (pointer codec) = some value := by
  apply read_unlessEmpty distinct name written
  · intro empty
    rw [Option.isNone_iff_eq_none.mp empty]
    rfl
  · exact keeps

end Written

end Codec

end PostgresSync.Data
