import ContractExec.Address

/-!
# Logs

Logs are written by contracts while they run, and are kept as they are.

* `Log` — one event and the number of bytes that it is charged for;
* `LogBuffer` — logs in their order, with a saved copy to come back to.
-/

namespace ContractExec

structure Log where
  address : Address
  topics : List Bytes
  data : Bytes
  deriving DecidableEq

/-- The number of bytes in topics and data together. -/
def Log.byteLength (log : Log) : Nat :=
  log.topics.flatten.length + log.data.length

/-! ### Buffers -/

/-- Logs in the order in which they were written, and a saved copy. -/
structure LogBuffer where
  logs : List Log := []
  saved : List Log := []
  deriving DecidableEq

inductive LogUse where
  | add (logs : List Log)
  | clear
  | save
  /-- Add the saved logs behind those that are there. -/
  | restore
  deriving DecidableEq

namespace LogBuffer

def use (b : LogBuffer) : LogUse → LogBuffer
  | .add logs => { b with logs := b.logs ++ logs }
  | .clear => { b with logs := [] }
  | .save => { b with saved := b.logs }
  | .restore => { b with logs := b.logs ++ b.saved }

def history (b : LogBuffer) : List LogUse → List LogBuffer
  | [] => []
  | u :: us => b.use u :: (b.use u).history us

end LogBuffer

end ContractExec
