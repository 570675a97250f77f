import ContractExec.Hex
import ContractExec.Json

/-!
# Writing JSON text

Documents are written without blanks. Inside strings, quotes, backslashes and control characters
are escaped and all else is written as it is.
-/

namespace ContractExec.Json.Writer

def character (out : String) (c : Char) : String :=
  if c = '"' then out ++ "\\\""
  else if c = '\\' then out ++ "\\\\"
  else if c = '\n' then out ++ "\\n"
  else if c = '\r' then out ++ "\\r"
  else if c = '\t' then out ++ "\\t"
  else if c.toNat < 32 then
    (out ++ "\\u00").push (Hex.digit (c.toNat / 16)) |>.push (Hex.digit (c.toNat % 16))
  else out.push c

def quoted (out chars : String) : String :=
  (chars.toList.foldl character (out.push '"')).push '"'

mutual

def value (out : String) : Json → String
  | .null => out ++ "null"
  | .bool true => out ++ "true"
  | .bool false => out ++ "false"
  | .int n => out ++ Int.repr n
  | .fraction literal => out ++ literal
  | .text chars => quoted out chars
  | .array elements => (elementsFrom (out.push '[') true elements).push ']'
  | .object members => (membersFrom (out.push '\x7b') true members).push '\x7d'

/-- The elements of an array, with a comma before all but the first. -/
def elementsFrom (out : String) (first : Bool) : List Json → String
  | [] => out
  | e :: es => elementsFrom (value (if first then out else out.push ',') e) false es

/-- The members of an object, with a comma before all but the first. -/
def membersFrom (out : String) (first : Bool) : List (String × Json) → String
  | [] => out
  | (name, v) :: ms =>
    membersFrom (value ((quoted (if first then out else out.push ',') name).push ':') v) false ms

end

end ContractExec.Json.Writer

namespace ContractExec

def Json.write (document : Json) : String := Json.Writer.value "" document

end ContractExec
