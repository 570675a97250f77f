import ContractExec.Backend.Memory
import ContractExec.Config
import ContractExec.Wire.Message

/-!
# Serialized stores, change sets and schedules

A schedule may leave out fields, which then have their standard values. Storage is keyed by byte
strings, which no object can hold as names: only empty storage can be written or read.
-/

namespace ContractExec

instance : Wire Config where
  write config := .object [
    ("base_cost", Wire.write config.baseCost),
    ("storage_retrieve_base", Wire.write config.storageRetrieveBase),
    ("storage_retrieve_per_byte", Wire.write config.storageRetrievePerByte),
    ("storage_save_base", Wire.write config.storageSaveBase),
    ("storage_save_per_byte", Wire.write config.storageSavePerByte),
    ("log_base", Wire.write config.logBase),
    ("log_per_byte", Wire.write config.logPerByte),
    ("hash_per_byte", Wire.write config.hashPerByte),
    ("call_stack_limit", Wire.write config.callStackLimit)]
  read? document := do
    let fields := ["base_cost", "storage_retrieve_base", "storage_retrieve_per_byte",
      "storage_save_base", "storage_save_per_byte", "log_base", "log_per_byte", "hash_per_byte",
      "call_stack_limit"]
    let record ← match document with
      | .array values => (Json.array values).record? (fields.take values.length)
      | _ => document.record? fields
    let standard := Config.standard
    return {
      baseCost := ← record.withDefault "base_cost" standard.baseCost
      storageRetrieveBase :=
        ← record.withDefault "storage_retrieve_base" standard.storageRetrieveBase
      storageRetrievePerByte :=
        ← record.withDefault "storage_retrieve_per_byte" standard.storageRetrievePerByte
      storageSaveBase := ← record.withDefault "storage_save_base" standard.storageSaveBase
      storageSavePerByte :=
        ← record.withDefault "storage_save_per_byte" standard.storageSavePerByte
      logBase := ← record.withDefault "log_base" standard.logBase
      logPerByte := ← record.withDefault "log_per_byte" standard.logPerByte
      hashPerByte := ← record.withDefault "hash_per_byte" standard.hashPerByte
      callStackLimit := ← record.withDefault "call_stack_limit" standard.callStackLimit }

instance : Wire Log where
  write log := .object [
    ("address", Wire.write log.address),
    ("topics", Wire.write log.topics),
    ("data", Wire.write log.data)]
  read? document := do
    let record ← document.record? ["address", "topics", "data"]
    return {
      address := ← record.required "address"
      topics := ← record.required "topics"
      data := ← record.required "data" }

instance : Wire Transfer where
  write transfer := .object [
    ("from", Wire.write transfer.source),
    ("to", Wire.write transfer.target),
    ("value", Wire.write transfer.value)]
  read? document := do
    let record ← document.record? ["from", "to", "value"]
    return {
      source := ← record.required "from"
      target := ← record.required "to"
      value := ← record.required "value" }

instance : Wire Vicinity where
  write vicinity := .object [
    ("block_number", Wire.write vicinity.blockNumber),
    ("block_coinbase", Wire.write vicinity.blockCoinbase)]
  read? document := do
    let record ← document.record? ["block_number", "block_coinbase"]
    return {
      blockNumber := ← record.required "block_number"
      blockCoinbase := ← record.required "block_coinbase" }

/-! ### What holds storage -/

def Storage.write? (entries : Storage) : Option Json :=
  if entries.isEmpty then some (.object []) else none

/-- No name of a member can be read as a storage key. -/
def Storage.read? : Json → Option Storage
  | .object [] => some ∅
  | _ => none

def Record.storage (record : Record) : Option Storage :=
  record.lookup "storage" >>= Storage.read?

/-- The serialized form of a committed account with empty storage. -/
def MemoryAccount.write? (account : MemoryAccount) : Option Json := do
  return .object [
    ("balance", Wire.write account.balance),
    ("code", Wire.write account.code),
    ("contract_type", Wire.write account.contractType),
    ("storage", ← Storage.write? account.storage)]

def MemoryAccount.read? (document : Json) : Option MemoryAccount := do
  let record ← document.record? ["balance", "code", "contract_type", "storage"]
  return {
    balance := ← record.required "balance"
    code := ← record.required "code"
    contractType := ← record.optional "contract_type"
    storage := ← record.storage }

/-- The serialized form of the changes to an account, without storage. -/
def AccountChange.write? (change : AccountChange) : Option Json := do
  return .object [
    ("created", Wire.write change.created),
    ("code", Wire.write change.code),
    ("contract_type", Wire.write change.contractType),
    ("storage", ← Storage.write? change.storage)]

def AccountChange.read? (document : Json) : Option AccountChange := do
  let record ← document.record? ["created", "code", "contract_type", "storage"]
  return {
    created := ← record.required "created"
    code := ← record.optional "code"
    contractType := ← record.optional "contract_type"
    storage := ← record.storage }

/-- The serialized form of changes: an object keyed by address. -/
def Changes.write? (changes : Changes) : Option Json := do
  return .object (← changes.toList.mapM fun (address, change) => do
    return (address.toText, ← change.write?))

/-- Reads changes. Where two names are the same address, the later one stands. -/
def Changes.read? : Json → Option Changes
  | .object members => do
    let changes ← members.mapM fun (name, document) => do
      return (← Address.ofHex? name, ← AccountChange.read? document)
    return changes.foldl (fun all (address, change) => all.insert address change) ∅
  | _ => none

/-- The serialized form of a change set without storage. -/
def ChangeSet.write? (changeSet : ChangeSet) : Option Json := do
  return .object [
    ("accounts", ← changeSet.accounts.write?),
    ("logs", Wire.write changeSet.logs),
    ("transfers", Wire.write changeSet.transfers)]

def ChangeSet.read? (document : Json) : Option ChangeSet := do
  let record ← document.record? ["accounts", "logs", "transfers"]
  return {
    accounts := ← record.lookup "accounts" >>= Changes.read?
    logs := ← record.required "logs"
    transfers := ← record.required "transfers" }

end ContractExec
