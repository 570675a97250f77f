import ContractExec.Keccak
import ContractExec.State

/-!
# Frames

A frame is one running piece of contract code: its layer, its meter and its message. While it runs
it holds the whole state of the transaction.

* `Frame` — the frame; `Active` — the frame with the state that it holds;
* `Active.charge` — every operation with a price pays before it acts;
* the operations that stay inside the frame. What leads to other frames is in `Apply`.
-/

namespace ContractExec

/-- A running piece of contract code. -/
structure Frame where
  layer : Nat
  meter : Meter
  message : MessageView
  /-- The number of open layers when the frame began, one for an outermost frame. -/
  depth : Nat
  constructing : Bool
  /-- Gas on the meter that nested transitions have already taken from the budget. -/
  nestedGas : Gas
  deriving DecidableEq

namespace Frame

/-- The gas limit of a nested transition: what is available, or less where less is asked for. -/
def nestedLimit (frame : Frame) : Option Gas → Gas
  | none => frame.meter.available
  | some gas => min gas frame.meter.available

/-- Puts what a nested transition consumed on the meter. -/
def chargeNested (frame : Frame) (receipt : Receipt) : Frame :=
  { frame with
    meter := frame.meter.spend receipt.gasConsumed
    nestedGas := frame.nestedGas.add receipt.gasConsumed }

end Frame

/-- A frame with the state that it holds while it runs. -/
structure Active (ν : Type) where
  frame : Frame
  state : State ν

namespace Active

variable {ν : Type}

def contract (x : Active ν) : Address := x.frame.message.contract

def world (x : Active ν) : World := x.state.worldAt x.frame.layer

def balance (x : Active ν) : Except Fatal Amount := x.state.balance x.contract

/-- Whether the frame is as deep as frames may be. -/
def tooDeep (x : Active ν) : Bool :=
  decide (x.state.config.callStackLimit.toNat ≤ x.frame.depth)

/-- Puts a cost on the meter, which has to fit. -/
def charge (x : Active ν) (cost : Gas) : Except Fault Unit × Active ν :=
  let (answer, meter) := x.frame.meter.charge cost
  (answer, { x with frame := { x.frame with meter } })

/-- Pays a cost and, once it is paid, goes on. -/
def paying {α : Type} (x : Active ν) (cost : Gas) (act : Active ν → Except Fault α × Active ν) :
    Except Fault α × Active ν :=
  match x.charge cost with
  | (.error fault, x) => (.error fault, x)
  | (.ok (), x) => act x

def write (x : Active ν) (w : Write) : Except Stop Unit × Active ν :=
  match x.state.arena.write x.frame.layer x.contract w with
  | .error fatal => (.error (.fatal fatal), x)
  | .ok arena => (.ok (), { x with state := { x.state with arena } })

/-- Writes that only a constructor may make. -/
def construct (x : Active ν) (w : Write) : Except Stop Unit × Active ν :=
  if x.frame.constructing then x.write w else (.error (.fault .codeImmutable), x)

/-- Reads storage. The price depends on the value that is found. -/
def storage (x : Active ν) (key : Bytes) : Except Fault (Option Bytes) × Active ν :=
  let value := (x.world x.contract).storage key
  x.paying (x.state.config.storageRetrieveCost key value) fun x => (.ok value, x)

def setStorage (x : Active ν) (key value : Bytes) : Except Stop Unit × Active ν :=
  match x.charge (x.state.config.storageSaveCost key value) with
  | (.error fault, x) => (.error (.fault fault), x)
  | (.ok (), x) => x.write (.setStorage key value)

/-- Writes a log in the name of the running contract. -/
def log (x : Active ν) (topics : List Bytes) (data : Bytes) : Except Fault Unit × Active ν :=
  let log : Log := ⟨x.contract, topics, data⟩
  x.paying (x.state.config.logCost log) fun x =>
    (.ok (), { x with state := { x.state with logs := x.state.logs ++ [log] } })

def hash (x : Active ν) (data : Bytes) : Except Fault Hash × Active ν :=
  x.paying (x.state.config.hashCost data.length) fun x => (.ok (Hash.keccak data), x)

end Active

end ContractExec
