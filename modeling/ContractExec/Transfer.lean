import ContractExec.Fault

/-!
# Transfers and balances in flight

Layers hold no balances. What an address owns inside a transaction is its committed balance adjusted
by the transfers recorded so far, in their order.

* `Transfer` — value that a successful internal transition moved;
* `Transfer.adjust` — one transfer, seen from one address: what comes in counts before what goes out;
* `effectiveBalance` — all transfers in turn, unless one of them leaves the range of amounts.
-/

namespace ContractExec

structure Transfer where
  source : Address
  target : Address
  value : Amount
  deriving DecidableEq

def Transfer.adjust (transfer : Transfer) (address : Address) (balance : Amount) : Option Amount := do
  let credited ← if transfer.target = address then balance.add? transfer.value else some balance
  if transfer.source = address then credited.sub? transfer.value else some credited

/-- A transfer between two other addresses leaves a balance as it was. -/
theorem Transfer.adjust_of_ne {transfer : Transfer} {address : Address} (balance : Amount)
    (source : transfer.source ≠ address) (target : transfer.target ≠ address) :
    transfer.adjust address balance = some balance := by
  simp [adjust, source, target]

def effectiveBalance (committed : Amount) (transfers : List Transfer) (address : Address) :
    Except Fatal Amount :=
  match transfers.foldlM (fun balance transfer => transfer.adjust address balance) committed with
  | some balance => .ok balance
  | none => .error (.balanceOutOfRange address)

@[simp] theorem effectiveBalance_nil (committed : Amount) (address : Address) :
    effectiveBalance committed [] address = .ok committed := rfl

end ContractExec
