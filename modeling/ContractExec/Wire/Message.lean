import ContractExec.Message
import ContractExec.Wire.Hex

/-!
# Serialized values and messages

A value is a choice by its type. A message is a choice by what it asks for, and carries a record
with sender, amount and gas limit among its fields.
-/

namespace ContractExec

instance : Wire Value where
  write
    | .bool value => .alternative "Bool" (Wire.write value)
    | .u32 value => .alternative "U32" (Wire.write value)
    | .i32 value => .alternative "I32" (Wire.write value)
    | .u64 value => .alternative "U64" (Wire.write value)
    | .i64 value => .alternative "I64" (Wire.write value)
    | .u256 value => .alternative "U256" (Wire.write value)
    | .address value => .alternative "Address" (Wire.write value)
    | .text value => .alternative "String" (Wire.write value)
    | .bytes value => .alternative "Bytes" (Wire.write value)
  read? document := do
    let choice ← document.choice?
    match choice.name with
    | "Bool" => choice.carrying .bool
    | "U32" => choice.carrying .u32
    | "I32" => choice.carrying .i32
    | "U64" => choice.carrying .u64
    | "I64" => choice.carrying .i64
    | "U256" => choice.carrying .u256
    | "Address" => choice.carrying .address
    | "String" => choice.carrying .text
    | "Bytes" => choice.carrying .bytes
    | _ => none

instance : Wire MethodCall where
  write call := .object [
    ("name", Wire.write call.name),
    ("parameters", Wire.write call.parameters)]
  read? document := do
    let record ← document.record? ["name", "parameters"]
    return { name := ← record.required "name", parameters := ← record.required "parameters" }

namespace Message

/-- The members that all messages have but for the target. -/
def commonMembers (m : Message) : Record := [
  ("from", Wire.write m.sender),
  ("amount", Wire.write m.amount),
  ("gas_limit", Wire.write m.gasLimit)]

/-- A message from the members that all have and an action of its own. -/
def ofRecord? (record : Record) (action : Option Action) : Option Message := do
  return {
    sender := ← record.required "from"
    amount := ← record.required "amount"
    gasLimit := ← record.required "gas_limit"
    action := ← action }

/-- The members of a message whose target comes first. -/
def targetedMembers (m : Message) (target : Address) : Record :=
  ("to", Wire.write target) :: m.commonMembers

end Message

instance : Wire Message where
  write m :=
    match m.action with
    | .externalCreate code parameters typeName =>
      .alternative "ExternalCreate" <| .object <| m.commonMembers ++ [
        ("code", Wire.write code),
        ("parameters", Wire.write parameters),
        ("type_name", Wire.write typeName)]
    | .internalCreate parameters typeName =>
      .alternative "InternalCreate" <| .object <| m.commonMembers ++ [
        ("parameters", Wire.write parameters),
        ("type_name", Wire.write typeName)]
    | .externalCall target method =>
      .alternative "ExternalCall" <| .object <|
        m.targetedMembers target ++ [("method", Wire.write method)]
    | .internalCall target method =>
      .alternative "InternalCall" <| .object <|
        m.targetedMembers target ++ [("method", Wire.write method)]
    | .contractTransfer target =>
      .alternative "ContractTransfer" (.object (m.targetedMembers target))
  read? document := do
    let choice ← document.choice?
    match choice.name with
    | "ExternalCreate" =>
      let record ← choice.record?
        ["from", "amount", "gas_limit", "code", "parameters", "type_name"]
      Message.ofRecord? record do
        return .externalCreate (← record.required "code") (← record.required "parameters")
          (← record.optional "type_name")
    | "InternalCreate" =>
      let record ← choice.record?
        ["from", "amount", "gas_limit", "parameters", "type_name"]
      Message.ofRecord? record do
        return .internalCreate (← record.required "parameters") (← record.required "type_name")
    | "ExternalCall" =>
      let record ← choice.record? ["to", "from", "amount", "gas_limit", "method"]
      Message.ofRecord? record do
        return .externalCall (← record.required "to") (← record.required "method")
    | "InternalCall" =>
      let record ← choice.record? ["to", "from", "amount", "gas_limit", "method"]
      Message.ofRecord? record do
        return .internalCall (← record.required "to") (← record.required "method")
    | "ContractTransfer" =>
      let record ← choice.record? ["to", "from", "amount", "gas_limit"]
      Message.ofRecord? record do
        return .contractTransfer (← record.required "to")
    | _ => none

instance : Wire MessageView where
  write view := .object [
    ("contract_address", Wire.write view.contract),
    ("sender", Wire.write view.sender),
    ("amount", Wire.write view.amount),
    ("gas_limit", Wire.write view.gasLimit)]
  read? document := do
    let record ← document.record? ["contract_address", "sender", "amount", "gas_limit"]
    return {
      contract := ← record.required "contract_address"
      sender := ← record.required "sender"
      amount := ← record.required "amount"
      gasLimit := ← record.required "gas_limit" }

instance : Wire Block where
  write block := .object [
    ("number", Wire.write block.number),
    ("coinbase", Wire.write block.coinbase)]
  read? document := do
    let record ← document.record? ["number", "coinbase"]
    return { number := ← record.required "number", coinbase := ← record.required "coinbase" }

end ContractExec
