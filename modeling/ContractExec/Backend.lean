import ContractExec.Account
import ContractExec.Message

/-!
# Backends

A backend is the committed store under a transaction. Execution only reads from it; what a finished
transaction leaves behind is written back at its end.
-/

namespace ContractExec

/-- What a transaction can read of the committed store. -/
structure Backend where
  block : Block
  balance : Address → Amount
  accounts : World

end ContractExec
