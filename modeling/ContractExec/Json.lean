/-!
# JSON documents

A document as a tree. Integers are exact. A number that is not written as a plain integer (one with
a fraction, an exponent, or a negative zero) keeps its literal and never counts as an integer.

* `Json` — the tree;
* `Json.ofMembers` — an object, its members in the order of their names, the last of each name;
* `Json.field?` — the member of an object with a given name.
-/

namespace ContractExec

inductive Json where
  | null
  | bool (value : Bool)
  | int (value : Int)
  /-- A number that is not a plain integer, by its literal. -/
  | fraction (literal : String)
  | text (value : String)
  | array (elements : List Json)
  | object (members : List (String × Json))

namespace Json

/-- Members in the order of their names, with one more; it replaces one of the same name. -/
def insertMember (member : String × Json) : List (String × Json) → List (String × Json)
  | [] => [member]
  | other :: rest =>
    if member.1 < other.1 then member :: other :: rest
    else if member.1 = other.1 then member :: rest
    else other :: insertMember member rest

/-- The object with these members. Where a name repeats, the last member stands. -/
def ofMembers (members : List (String × Json)) : Json :=
  object (members.foldl (fun ms m => insertMember m ms) [])

/-- The member of an object with a name; other documents have none. -/
def field? (name : String) : Json → Option Json
  | object members => members.lookup name
  | _ => none

def elements? : Json → Option (List Json)
  | array elements => some elements
  | _ => none

def text? : Json → Option String
  | text value => some value
  | _ => none

def int? : Json → Option Int
  | int value => some value
  | _ => none

def bool? : Json → Option Bool
  | bool value => some value
  | _ => none

end Json

end ContractExec
