import ContractExec.Bytes
import ContractExec.Address

/-!
# Accounts as they read

What can be read of an account, and of all accounts at one moment.

* `Account` — code, contract type, storage, and whether the account exists;
* `World` — an account for every address;
* `Write` — the four ways in which an account can be written, with `Account.write` and
  `World.write` as their effect on what is read afterwards.
-/

namespace ContractExec

structure Account where
  code : Option Bytes
  contractType : Option String
  storage : Bytes → Option Bytes
  isPresent : Bool

abbrev World := Address → Account

namespace Account

def absent : Account := ⟨none, none, fun _ => none, false⟩

/-- An account that was created and holds nothing yet. -/
def fresh : Account := ⟨none, none, fun _ => none, true⟩

theorem ext_fields {x y : Account} (code : x.code = y.code)
    (contractType : x.contractType = y.contractType) (storage : ∀ key, x.storage key = y.storage key)
    (isPresent : x.isPresent = y.isPresent) : x = y := by
  cases x
  cases y
  simp_all [funext_iff]

end Account

/-! ### Writes -/

inductive Write where
  | create
  | setCode (code : Bytes)
  | setContractType (typeName : String)
  /-- An empty value deletes the key. -/
  | setStorage (key value : Bytes)
  deriving DecidableEq

/-- How a written value reads: an empty one reads as none. -/
def written (value : Bytes) : Option Bytes :=
  if value = [] then none else some value

@[simp] theorem written_nil : written [] = none := rfl

@[simp] theorem written_cons (byte : UInt8) (rest : Bytes) :
    written (byte :: rest) = some (byte :: rest) := rfl

/-- An account after a write. An account whose code is set exists from then on. -/
def Account.write (account : Account) : Write → Account
  | .create => .fresh
  | .setCode code => { account with code := some code, isPresent := true }
  | .setContractType typeName => { account with contractType := some typeName }
  | .setStorage key value =>
    { account with storage := fun k => if k = key then written value else account.storage k }

def World.write (world : World) (address : Address) (w : Write) : World :=
  fun a => if a = address then (world a).write w else world a

end ContractExec
