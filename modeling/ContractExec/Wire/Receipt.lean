import ContractExec.Receipt
import ContractExec.Wire.Message

/-!
# Serialized faults and receipts

Faults, fatals and failures are choices by their cause. A receipt is a choice between success and
failure, each with fields of its own.
-/

namespace ContractExec

instance : Wire Fault where
  write
    | .outOfGas => .text "OutOfGas"
    | .reverted => .text "Reverted"
    | .assertionFailed => .text "AssertionFailed"
    | .methodNotFound name => .alternative "MethodNotFound" (Wire.write name)
    | .typeNotFound name => .alternative "TypeNotFound" (Wire.write name)
    | .codeImmutable => .text "CodeImmutable"
    | .other text => .alternative "Other" (Wire.write text)
  read? document := do
    let choice ← document.choice?
    match choice.name with
    | "OutOfGas" => choice.bare .outOfGas
    | "Reverted" => choice.bare .reverted
    | "AssertionFailed" => choice.bare .assertionFailed
    | "MethodNotFound" => choice.carrying .methodNotFound
    | "TypeNotFound" => choice.carrying .typeNotFound
    | "CodeImmutable" => choice.bare .codeImmutable
    | "Other" => choice.carrying .other
    | _ => none

instance : Wire Fatal where
  write
    | .unaffordableCreate sender amount balance =>
      .alternative "UnaffordableInternalCreate" <| .object [
        ("sender", Wire.write sender),
        ("amount", Wire.write amount),
        ("balance", Wire.write balance)]
    | .layerOutOfOrder layer => .alternative "LayerOutOfOrder" (Wire.writeNat layer)
    | .balanceOutOfRange account => .alternative "BalanceOutOfRange" (Wire.write account)
    | .other text => .alternative "Other" (Wire.write text)
  read? document := do
    let choice ← document.choice?
    match choice.name with
    | "UnaffordableInternalCreate" =>
      let record ← choice.members?
      return .unaffordableCreate (← record.required "sender") (← record.required "amount")
        (← record.required "balance")
    | "LayerOutOfOrder" => Fatal.layerOutOfOrder <$> (choice.body >>= Wire.readNat? UInt64.size)
    | "BalanceOutOfRange" => choice.carrying .balanceOutOfRange
    | "Other" => choice.carrying .other
    | _ => none

instance : Wire Failure where
  write
    | .insufficientGas => .text "InsufficientGas"
    | .noMethodName => .text "NoMethodName"
    | .noCode => .text "NoCode"
    | .insufficientBalance => .text "InsufficientBalance"
    | .callTooDeep => .text "CallTooDeep"
    | .faulted fault => .alternative "VmError" (Wire.write fault)
  read? document := do
    let choice ← document.choice?
    match choice.name with
    | "InsufficientGas" => choice.bare .insufficientGas
    | "NoMethodName" => choice.bare .noMethodName
    | "NoCode" => choice.bare .noCode
    | "InsufficientBalance" => choice.bare .insufficientBalance
    | "CallTooDeep" => choice.bare .callTooDeep
    | "VmError" => choice.carrying .faulted
    | _ => none

instance : Wire Receipt where
  write
    | .succeeded gasConsumed contract returned =>
      .alternative "Succeed" <| .object [
        ("gas_consumed", Wire.write gasConsumed),
        ("contract_address", Wire.write contract),
        ("return_value", Wire.write returned)]
    | .failed gasConsumed failure =>
      .alternative "Fail" <| .object [
        ("gas_consumed", Wire.write gasConsumed),
        ("error", Wire.write failure)]
  read? document := do
    let choice ← document.choice?
    let record ← choice.members?
    match choice.name with
    | "Succeed" =>
      return .succeeded (← record.required "gas_consumed") (← record.required "contract_address")
        (← record.optional "return_value")
    | "Fail" =>
      return .failed (← record.required "gas_consumed") (← record.required "error")
    | _ => none

end ContractExec
