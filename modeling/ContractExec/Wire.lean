import ContractExec.Bytes
import ContractExec.Json

/-!
# Serialized forms

Each type that leaves the library has one form as a JSON document. Reading is strict: integers have
to be plain integers in range, and null stands for nothing but a missing option. Objects may have
members that their type does not know.

* `Wire` — the form of a type, to write and to read;
* `Json.record?`, `Record.required`, `Record.optional` — records, by the names of their fields;
* `Json.choice?` — a choice between named alternatives; `Choice.bare`, `Choice.carrying`,
  `Choice.record?`, `Choice.members?` — what may come with an alternative.
-/

namespace ContractExec

/-- A type with a serialized form. -/
class Wire (α : Type) where
  write : α → Json
  read? : Json → Option α

namespace Wire

/-! ### Plain values -/

instance : Wire Bool where
  write := .bool
  read? := Json.bool?

instance : Wire String where
  write := .text
  read? := Json.text?

/-- A natural number below a bound. -/
def readNat? (bound : Nat) (document : Json) : Option Nat := do
  let n ← document.int?
  if 0 ≤ n ∧ n.toNat < bound then some n.toNat else none

/-- An integer between two bounds, both included. -/
def readInt? (least greatest : Int) (document : Json) : Option Int := do
  let n ← document.int?
  if least ≤ n ∧ n ≤ greatest then some n else none

def writeNat (n : Nat) : Json := .int n

instance : Wire UInt8 where
  write n := writeNat n.toNat
  read? document := UInt8.ofNat <$> readNat? UInt8.size document

instance : Wire UInt32 where
  write n := writeNat n.toNat
  read? document := UInt32.ofNat <$> readNat? UInt32.size document

instance : Wire UInt64 where
  write n := writeNat n.toNat
  read? document := UInt64.ofNat <$> readNat? UInt64.size document

instance : Wire Int32 where
  write n := .int n.toInt
  read? document := Int32.ofInt <$> readInt? Int32.minValue.toInt Int32.maxValue.toInt document

instance : Wire Int64 where
  write n := .int n.toInt
  read? document := Int64.ofInt <$> readInt? Int64.minValue.toInt Int64.maxValue.toInt document

instance {α : Type} [Wire α] : Wire (List α) where
  write values := .array (values.map write)
  read? document := do (← document.elements?).mapM read?

instance {α : Type} [Wire α] : Wire (Option α) where
  write
    | some value => write value
    | none => .null
  read?
    | .null => some none
    | document => some <$> read? document

end Wire

/-! ### Records -/

abbrev Record := List (String × Json)

/-- The members of a record: an object, or an array of its values in the order of the fields. -/
def Json.record? (fields : List String) : Json → Option Record
  | .object members => some members
  | .array values => if values.length = fields.length then some (fields.zip values) else none
  | _ => none

namespace Record

def required {α : Type} [Wire α] (record : Record) (name : String) : Option α :=
  record.lookup name >>= Wire.read?

/-- A field that is missing or null where there is nothing. -/
def optional {α : Type} [Wire α] (record : Record) (name : String) : Option (Option α) :=
  match record.lookup name with
  | none => some none
  | some document => Wire.read? document

/-- A field that has a value even where it is missing. -/
def withDefault {α : Type} [Wire α] (record : Record) (name : String) (value : α) : Option α :=
  match record.lookup name with
  | none => some value
  | some document => Wire.read? document

end Record

/-! ### Choices -/

/-- The name of an alternative, and what comes with it. -/
structure Choice where
  name : String
  body : Option Json

/-- A choice is written as a name alone, or as an object with one member. -/
def Json.choice? : Json → Option Choice
  | .text name => some ⟨name, none⟩
  | .object [(name, body)] => some ⟨name, some body⟩
  | _ => none

namespace Choice

def bare {α : Type} (choice : Choice) (value : α) : Option α :=
  match choice.body with
  | none | some .null => some value
  | some _ => none

def carrying {α β : Type} [Wire α] (choice : Choice) (make : α → β) : Option β :=
  make <$> (choice.body >>= Wire.read?)

def record? (choice : Choice) (fields : List String) : Option Record :=
  choice.body >>= Json.record? fields

/-- An alternative whose fields are its own. They stand in an object, never in an array. -/
def members? (choice : Choice) : Option Record :=
  match choice.body with
  | some (.object members) => some members
  | _ => none

end Choice

def Json.alternative (name : String) (body : Json) : Json := .object [(name, body)]

end ContractExec
