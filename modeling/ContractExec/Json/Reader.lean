import ContractExec.Hex
import ContractExec.Json

/-!
# Reading JSON text

A recursive reader over the characters of a text. Each reader answers with what it read and the
rest of the text, or with nothing where the text is malformed. Nesting is followed as deep as the
text has characters.
-/

namespace ContractExec.Json.Reader

/-- Blanks may stand around every token. -/
def isBlank (c : Char) : Bool := c = ' ' || c = '\t' || c = '\n' || c = '\r'

/-- The text behind leading blanks. -/
def skip (cs : List Char) : List Char := cs.dropWhile isBlank

/-! ### Strings -/

/-- The code unit that four digits write. -/
def unit? (a b c d : Char) : Option Nat := do
  let a ← Hex.digitValue? a
  let b ← Hex.digitValue? b
  let c ← Hex.digitValue? c
  let d ← Hex.digitValue? d
  return ((a * 16 + b) * 16 + c) * 16 + d

/-- The character behind a backslash that stands for itself or for a control character. -/
def escape? (c : Char) : Option Char :=
  if c = '"' || c = '\\' || c = '/' then some c
  else if c = 'b' then some (Char.ofNat 8)
  else if c = 'f' then some (Char.ofNat 12)
  else if c = 'n' then some '\n'
  else if c = 'r' then some '\r'
  else if c = 't' then some '\t'
  else none

/-- The characters up to the closing quote, in front of those already read. -/
def characters : List Char → List Char → Option (String × List Char)
  | [], _ => none
  | c :: rest, read =>
    if c = '"' then some (String.ofList read.reverse, rest)
    else if c = '\\' then
      match rest with
      | [] => none
      | 'u' :: a :: b :: c :: d :: rest =>
        match unit? a b c d with
        | none => none
        | some unit =>
          if 0xD800 ≤ unit ∧ unit < 0xDC00 then
            match rest with
            | '\\' :: 'u' :: a :: b :: c :: d :: rest =>
              match unit? a b c d with
              | none => none
              | some low =>
                if 0xDC00 ≤ low ∧ low < 0xE000 then
                  characters rest
                    (Char.ofNat (0x10000 + (unit - 0xD800) * 0x400 + (low - 0xDC00)) :: read)
                else none
            | _ => none
          else if 0xDC00 ≤ unit ∧ unit < 0xE000 then none
          else characters rest (Char.ofNat unit :: read)
      | e :: rest =>
        match escape? e with
        | none => none
        | some c => characters rest (c :: read)
    else if c.toNat < 32 then none
    else characters rest (c :: read)

/-! ### Numbers -/

/-- Whether a character may stand in a number. -/
def isNumeric (c : Char) : Bool :=
  c.isDigit || c = '-' || c = '+' || c = '.' || c = 'e' || c = 'E'

/-- The value of decimal digits without a leading zero. -/
def digits? (cs : List Char) : Option Nat :=
  if cs.isEmpty || !cs.all Char.isDigit || (cs.head? = some '0' && cs.length ≠ 1) then none
  else some (cs.foldl (fun n c => 10 * n + (c.toNat - 48)) 0)

/-- Whether the characters are an exponent, or nothing. -/
def isExponent : List Char → Bool
  | [] => true
  | e :: rest =>
    let digits := match rest with
      | '+' :: ds | '-' :: ds => ds
      | ds => ds
    (e = 'e' || e = 'E') && !digits.isEmpty && digits.all Char.isDigit

/-- Whether the characters are a fraction or an exponent, or both in this order. -/
def isTail : List Char → Bool
  | '.' :: rest =>
    !(rest.takeWhile Char.isDigit).isEmpty && isExponent (rest.dropWhile Char.isDigit)
  | rest => !rest.isEmpty && isExponent rest

/-- The number that a literal writes. -/
def number? (literal : List Char) : Option Json :=
  let (negative, unsigned) := match literal with
    | '-' :: rest => (true, rest)
    | rest => (false, rest)
  match digits? unsigned with
  | some n =>
    if negative then
      if n = 0 then some (.fraction (String.ofList literal)) else some (.int (-n))
    else some (.int n)
  | none =>
    if (digits? (unsigned.takeWhile Char.isDigit)).isSome
        && isTail (unsigned.dropWhile Char.isDigit) then
      some (.fraction (String.ofList literal))
    else none

/-! ### Documents -/

/-- Reads a word that stands for a value. -/
def word? (word : String) (value : Json) (cs : List Char) : Option (Json × List Char) :=
  if word.toList.isPrefixOf cs then some (value, cs.drop word.length) else none

mutual

/-- Reads one value; the text begins with its first character. -/
def value : Nat → List Char → Option (Json × List Char)
  | 0, _ => none
  | _ + 1, [] => none
  | fuel + 1, c :: rest =>
    if c = '"' then (characters rest []).map fun (chars, rest) => (.text chars, rest)
    else if c = '[' then
      match skip rest with
      | ']' :: rest => some (.array [], rest)
      | cs => (elements fuel cs).map fun (elements, rest) => (.array elements, rest)
    else if c = '\x7b' then
      match skip rest with
      | '\x7d' :: rest => some (.object [], rest)
      | cs => (members fuel cs).map fun (members, rest) => (.ofMembers members, rest)
    else if c = 'n' then word? "null" .null (c :: rest)
    else if c = 't' then word? "true" (.bool true) (c :: rest)
    else if c = 'f' then word? "false" (.bool false) (c :: rest)
    else
      (number? ((c :: rest).takeWhile isNumeric)).map fun number =>
        (number, (c :: rest).dropWhile isNumeric)

/-- Reads the elements of an array and its closing bracket. -/
def elements : Nat → List Char → Option (List Json × List Char)
  | 0, _ => none
  | fuel + 1, cs => do
    let (head, rest) ← value fuel cs
    match skip rest with
    | ',' :: rest =>
      let (tail, rest) ← elements fuel (skip rest)
      return (head :: tail, rest)
    | ']' :: rest => return ([head], rest)
    | _ => none

/-- Reads the members of an object and its closing brace. -/
def members : Nat → List Char → Option (List (String × Json) × List Char)
  | 0, _ => none
  | fuel + 1, cs => do
    let '"' :: rest := cs | none
    let (name, rest) ← characters rest []
    let ':' :: rest := skip rest | none
    let (head, rest) ← value fuel (skip rest)
    match skip rest with
    | ',' :: rest =>
      let (tail, rest) ← members fuel (skip rest)
      return ((name, head) :: tail, rest)
    | '\x7d' :: rest => return ([(name, head)], rest)
    | _ => none

end

end ContractExec.Json.Reader

namespace ContractExec

/-- The document that a text holds, with nothing but blanks around it. No character of the text
is behind more than two steps of the reader. -/
def Json.read? (source : String) : Option Json := do
  let cs := Json.Reader.skip source.toList
  let (document, rest) ← Json.Reader.value (2 * cs.length + 1) cs
  if (Json.Reader.skip rest).isEmpty then some document else none

end ContractExec
