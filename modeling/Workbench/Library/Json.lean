import Mathlib.Data.List.Basic

/-! JSON values, and codecs between them and the values of a program.

A record is written as an object, field by field. Each field has a rule for
when it is left out and a rule for what its absence means to the reader; the two
rules are independent, and a codec restores a value only where they agree. -/

set_option autoImplicit false

namespace Workbench.Library

/-- A JSON value. The numbers that are not natural are kept as their text. -/
inductive Json where
  | null
  | bool (value : Bool)
  | number (value : Nat)
  | decimal (text : String)
  | string (text : String)
  | array (items : List Json)
  | object (fields : List (String × Json))

namespace Json

abbrev Object := List (String × Json)

/-- The values that an object has under a key, in their order. -/
def values (key : String) (fields : Object) : List Json :=
  fields.filterMap fun field => if field.1 = key then some field.2 else none

/-- The fields that are left for a flattened value. -/
def without (key : String) (fields : Object) : Object := fields.filter fun field => field.1 ≠ key

@[simp] theorem values_nil (key : String) : values key [] = [] := rfl

@[simp] theorem values_append (key : String) (fields rest : Object) :
    values key (fields ++ rest) = values key fields ++ values key rest :=
  List.filterMap_append

theorem values_without {key other : String} (fields : Object) (apart : key ≠ other) :
    values key (without other fields) = values key fields := by
  unfold values without
  rw [List.filterMap_filter]
  apply List.filterMap_congr
  intro field _
  by_cases same : field.1 = other
  · simp [same, Ne.symm apart]
  · simp [same]

end Json

open Json

structure Codec (α : Type) where
  write : α → Json
  read : Json → Option α

namespace Codec

variable {α : Type}

/-- Reading what was written gives the value back. -/
def Restores (codec : Codec α) (value : α) : Prop := codec.read (codec.write value) = some value

/-- A value that is restored, and whose writing is not taken for an absent one. -/
structure Exact (codec : Codec α) (value : α) : Prop where
  restores : codec.Restores value
  present : codec.write value ≠ .null

/-- A field that is always written. -/
def put (codec : Codec α) (key : String) (value : α) : Object := [(key, codec.write value)]

/-- A field that is left out where a predicate holds of its value. -/
def putUnless (skipped : α → Bool) (codec : Codec α) (key : String) (value : α) : Object :=
  if skipped value then [] else codec.put key value

/-- A field that is left out where it is `none`. -/
def putSome (codec : Codec α) (key : String) : Option α → Object
  | none => []
  | some value => codec.put key value

/-- A field without a default: its absence is an error, and so is a second one. -/
def take (codec : Codec α) (key : String) (fields : Object) : Option α :=
  match values key fields with
  | [value] => codec.read value
  | _ => none

/-- An optional field: it may be absent, or null. -/
def takeOption (codec : Codec α) (key : String) (fields : Object) : Option (Option α) :=
  match values key fields with
  | [] | [.null] => some none
  | [value] => (codec.read value).map some
  | _ => none

@[simp] theorem values_put (codec : Codec α) (key other : String) (value : α) :
    values key (codec.put other value) = if other = key then [codec.write value] else [] := by
  by_cases same : other = key <;> simp [values, put, same]

@[simp] theorem values_putUnless (skipped : α → Bool) (codec : Codec α) (key other : String)
    (value : α) : values key (codec.putUnless skipped other value) =
      if skipped value then [] else if other = key then [codec.write value] else [] := by
  unfold putUnless
  split
  · rfl
  · exact values_put codec key other value

@[simp] theorem values_putSome (codec : Codec α) (key other : String) (value : Option α) :
    values key (codec.putSome other value) =
      if other = key then value.toList.map codec.write else [] := by
  cases value with
  | none => simp [putSome]
  | some value => simp [putSome]

theorem take_of_values {codec : Codec α} {key : String} {fields : Object} (value : α)
    (alone : values key fields = [codec.write value]) :
    codec.take key fields = codec.read (codec.write value) := by
  simp only [take, alone]

theorem take_of_exact {codec : Codec α} {key : String} {fields : Object} {value : α}
    (exact : codec.Exact value) (alone : values key fields = [codec.write value]) :
    codec.take key fields = some value :=
  (take_of_values value alone).trans exact.restores

theorem take_of_absent {codec : Codec α} {key : String} {fields : Object}
    (absent : values key fields = []) : codec.take key fields = none := by
  simp only [take, absent]

theorem takeOption_of_absent {codec : Codec α} {key : String} {fields : Object}
    (absent : values key fields = []) : codec.takeOption key fields = some none := by
  simp only [takeOption, absent]

theorem takeOption_of_values {codec : Codec α} {key : String} {fields : Object} (value : α)
    (alone : values key fields = [codec.write value]) (present : codec.write value ≠ .null) :
    codec.takeOption key fields = (codec.read (codec.write value)).map some := by
  unfold takeOption
  rw [alone]
  cases written : codec.write value with
  | null => exact absurd written present
  | _ => rfl

/-- An optional field whose value is exact, where it has one, reads back. -/
theorem takeOption_of_exact {codec : Codec α} {key : String} {fields : Object} {value : Option α}
    (exact : ∀ inner, value = some inner → codec.Exact inner)
    (alone : values key fields = value.toList.map codec.write) :
    codec.takeOption key fields = some value := by
  cases value with
  | none => exact takeOption_of_absent alone
  | some inner =>
    have restored := exact inner rfl
    rw [takeOption_of_values inner alone restored.present, restored.restores]
    rfl

/-- A record is an object; its fields may come in any order, among others. -/
def record (write : α → Object) (read : Object → Option α) : Codec α where
  write value := .object (write value)
  read
    | .object fields => read fields
    | _ => none

theorem record_present (write : α → Object) (read : Object → Option α) (value : α) :
    (record write read).write value ≠ .null := nofun

/-- An enumeration without data: the name of the variant, alone or as the key of null. -/
def variants (name : α → String) (parse : String → Option α) : Codec α where
  write value := .string (name value)
  read
    | .string text => parse text
    | .object [(text, .null)] => parse text
    | _ => none

theorem variants_exact {name : α → String} {parse : String → Option α}
    (parses : ∀ value, parse (name value) = some value) (value : α) :
    (variants name parse).Exact value :=
  ⟨parses value, nofun⟩

def number : Codec Nat where
  write := .number
  read
    | .number value => some value
    | _ => none

theorem number_exact (value : Nat) : number.Exact value := ⟨rfl, nofun⟩

def boolean : Codec Bool where
  write := .bool
  read
    | .bool value => some value
    | _ => none

def text : Codec String where
  write := .string
  read
    | .string value => some value
    | _ => none

theorem text_exact (value : String) : text.Exact value := ⟨rfl, nofun⟩

/-- A value that is kept as the JSON it is. -/
def raw : Codec Json where
  write := id
  read := some

/-- A variant with its data, as two fields: its name under one key, the data under another. -/
def putTagged (tag content name : String) (data : Json) : Object :=
  text.put tag name ++ raw.put content data

def takeTagged (tag content : String) (variant : String → Json → Option α) (fields : Object) :
    Option α := do
  let name ← text.take tag fields
  let data ← raw.take content fields
  variant name data

theorem takeTagged_of_values {tag content : String} {fields : Object}
    (variant : String → Json → Option α) (name : String) (data : Json)
    (tags : values tag fields = [text.write name]) (contents : values content fields = [data]) :
    takeTagged tag content variant fields = variant name data := by
  unfold takeTagged
  rw [take_of_exact (text_exact name) tags, take_of_values data contents]
  rfl

def list (codec : Codec α) : Codec (List α) where
  write items := .array (items.map codec.write)
  read
    | .array items => items.mapM codec.read
    | _ => none

/-- A list is restored iff each of its items is. -/
theorem list_restores_iff (codec : Codec α) (items : List α) :
    codec.list.Restores items ↔ ∀ item ∈ items, codec.Restores item := by
  show (items.map codec.write).mapM codec.read = some items ↔ _
  induction items with
  | nil => simp
  | cons item items ih =>
    simp only [List.map_cons, List.mapM_cons, List.forall_mem_cons, ← ih]
    constructor
    · intro restored
      obtain ⟨first, read, rest, readRest, same⟩ :
          ∃ first, codec.read (codec.write item) = some first ∧
            ∃ rest, (items.map codec.write).mapM codec.read = some rest ∧
              first :: rest = item :: items := by
        simpa [Option.bind_eq_some_iff] using restored
      cases same
      exact ⟨read, readRest⟩
    · rintro ⟨restored, rest⟩
      rw [show codec.read (codec.write item) = some item from restored]
      simp [rest]

end Codec

end Workbench.Library
