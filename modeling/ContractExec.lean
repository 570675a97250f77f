import ContractExec.Apply
import ContractExec.Json.Reader
import ContractExec.Json.Writer
import ContractExec.Proofs.Arena.Bracketing
import ContractExec.Proofs.Backend.Ledger
import ContractExec.Proofs.Budget
import ContractExec.Proofs.Closing
import ContractExec.Proofs.Consumption
import ContractExec.Proofs.Deployment
import ContractExec.Proofs.Depth
import ContractExec.Proofs.FirstFatal
import ContractExec.Proofs.Gas.History
import ContractExec.Proofs.Gating
import ContractExec.Proofs.Metering
import ContractExec.Proofs.Recreation
import ContractExec.Proofs.Replay
import ContractExec.Proofs.Rollback
import ContractExec.Proofs.Settlement
import ContractExec.Script.Trace
import ContractExec.Settlement
import ContractExec.Wire.Form
import ContractExec.Proofs.Arena.Walk
import ContractExec.Proofs.Charging
import ContractExec.Proofs.Layering
import ContractExec.Proofs.Wire.Hex
import ContractExec.Proofs.Wire.Records
import ContractExec.Proofs.Wire.Messages
import ContractExec.Proofs.Wire.Store
import ContractExec.Proofs.Wire.Form
