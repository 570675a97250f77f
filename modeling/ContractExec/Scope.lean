import ContractExec.Frame

/-!
# Scopes

A message that runs contract code runs it in a scope of its own: a layer, a frame, and a snapshot to
roll back to. Applying a message is entering, running the program, and leaving.

* `State.enter` — looks at a message: it is settled at once, or a scope is opened for it;
* `Scope` — what has to be kept while the scope's program runs;
* `Scope.leave` — merges the layer into its parent or rolls back.
-/

namespace ContractExec

variable {ν : Type}

structure Scope (ν : Type) where
  saved : Snapshot
  /-- The created contract, or the one called. -/
  contract : Address
  /-- The value that moves if the scope succeeds. -/
  transfer : Option Transfer
  frame : Frame
  program : Program ν Outcome

/-- What becomes of a message that is looked at. -/
inductive Entrance (ν : Type) where
  | settled (result : Except Fatal Receipt)
  | opened (scope : Scope ν)

namespace State

/-! ### Entering -/

/-- A message that fails before any scope is opened for it. -/
def refuse (s : State ν) (gasConsumed : Gas) (failure : Failure) : Entrance ν × State ν :=
  (.settled (.ok (.failed gasConsumed failure)), s)

/-- The transfer that an internal message makes when its scope succeeds. -/
def transferOf (m : Message) (target : Address) : Option Transfer :=
  if m.isInternal then some ⟨m.sender, target, m.amount⟩ else none

/-- The frame that a message starts with at a layer just opened. -/
def frameOf (s : State ν) (m : Message) (contract : Address) (constructing : Bool) : Frame where
  layer := s.current
  meter := (Meter.new m.gasLimit).spend s.config.baseCost
  message := ⟨contract, m.sender, m.amount, m.gasLimit⟩
  depth := s.arena.depth
  constructing
  nestedGas := 0

/-- Opens a scope that constructs a contract at a new address. -/
def openCreate (s : State ν) (m : Message) (code : Bytes) (parameters : List Value)
    (typeName : Option String) : Entrance ν × State ν :=
  if s.covers m.gasLimit then
    let saved := s.snapshot
    let contract := Address.derive s.transaction s.nonce
    let s := { s with nonce := s.nonce + 1 }
    match s.arena.openLayer s.current with
    | .error fatal => (.settled (.error fatal), s)
    | .ok (layer, arena) =>
      let s := { s with arena, current := layer }
      match s.arena.write layer contract .create with
      | .error fatal => (.settled (.error fatal), s)
      | .ok arena =>
        let s := { s with arena }
        (.opened {
          saved
          contract
          transfer := transferOf m contract
          frame := s.frameOf m contract true
          program := s.vm.create code parameters typeName }, s)
  else s.refuse 0 .insufficientGas

/-- Opens a scope that runs a method of the contract at an address. A call without a method name
pays the base cost and opens none. -/
def openCall (s : State ν) (m : Message) (contract : Address) (method : MethodCall)
    (code : Bytes) : Entrance ν × State ν :=
  if s.covers m.gasLimit then
    if method.hasName then
      let saved := s.snapshot
      match s.arena.openLayer s.current with
      | .error fatal => (.settled (.error fatal), s)
      | .ok (layer, arena) =>
        let s := { s with arena, current := layer }
        (.opened {
          saved
          contract
          transfer := transferOf m contract
          frame := s.frameOf m contract false
          program := s.vm.call method code (s.world contract).contractType }, s)
    else (s.debit s.config.baseCost).refuse s.config.baseCost .noMethodName
  else s.refuse 0 .insufficientGas

/-- Goes on with an internal message that its sender can pay. -/
def ifAffordable (s : State ν) (m : Message) (act : State ν → Entrance ν × State ν) :
    Entrance ν × State ν :=
  match s.balance m.sender with
  | .error fatal => (.settled (.error fatal), s)
  | .ok balance => if balance < m.amount then s.refuse 0 .insufficientBalance else act s

/-- Goes on with the code at an address, where there is any. -/
def callCode (s : State ν) (m : Message) (target : Address) (method : MethodCall) :
    Entrance ν × State ν :=
  match s.contractCode? target with
  | none => s.refuse 0 .noCode
  | some code => s.openCall m target method code

/-- Looks at a message, and opens a scope for it unless it is settled at once. -/
def enter (s : State ν) (m : Message) : Entrance ν × State ν :=
  let s := s.emit (.apply m s.arena.depth s.gasRemaining)
  match m.action with
  | .externalCreate code parameters typeName => s.openCreate m code parameters typeName
  | .internalCreate parameters typeName =>
    match s.balance m.sender with
    | .error fatal => (.settled (.error fatal), s)
    | .ok balance =>
      if balance < m.amount then
        (.settled (.error (.unaffordableCreate m.sender m.amount balance)), s)
      else s.openCreate m ((s.world m.sender).code.getD []) parameters (some typeName)
  | .externalCall target method => s.callCode m target method
  | .internalCall target method => s.ifAffordable m fun s => s.callCode m target method
  | .contractTransfer target =>
    s.ifAffordable m fun s =>
      match s.contractCode? target with
      | none =>
        (.settled (.ok (.succeeded 0 target none)), s.record ⟨m.sender, target, m.amount⟩)
      | some code => s.openCall m target .receive code

end State

/-! ### Leaving -/

namespace Scope

/-- Whether the value of a scope can still be paid. Code that ran meanwhile may have spent it. -/
def canPay (scope : Scope ν) (s : State ν) : Except Fatal Bool :=
  match scope.transfer with
  | none => .ok true
  | some transfer =>
    match s.balance transfer.source with
    | .error fatal => .error fatal
    | .ok balance => .ok (decide (transfer.value ≤ balance))

def discard (scope : Scope ν) (consumed : Gas) (s : State ν) : State ν :=
  let s := s.rollback scope.saved
  s.emit (.rollback scope.frame.layer s.nonce consumed)

/-- Merges a scope's layer into its parent, tells of it, and moves the value. -/
def merge (scope : Scope ν) (consumed : Gas) (returned : Option Value) (s : State ν) :
    Except Fatal Receipt × State ν :=
  match s.arena.commit scope.frame.layer with
  | .error fatal => (.error fatal, s)
  | .ok (parent, arena) =>
    let s := { s with arena, current := parent }.emit (.commit scope.frame.layer consumed)
    let s := match scope.transfer with
      | none => s
      | some transfer => s.record transfer
    (.ok (.succeeded consumed scope.contract returned), s)

/-- Closes a scope. The budget pays for what nested transitions have not already paid. A scope whose
code ended well is merged if its value can be paid and rolled back if it cannot. A scope whose code
stopped is rolled back, silently where the cause is fatal. -/
def leave (scope : Scope ν) (outcome : Outcome) (frame : Frame) (s : State ν) :
    Except Fatal Receipt × State ν :=
  let consumed := frame.meter.consumed
  let s := s.debit (consumed.sub frame.nestedGas)
  match outcome with
  | .ok returned =>
    match scope.canPay s with
    | .error fatal => (.error fatal, s)
    | .ok true => scope.merge consumed returned s
    | .ok false => (.ok (.failed consumed .insufficientBalance), scope.discard consumed s)
  | .error (.fault fault) => (.ok (.failed consumed (.faulted fault)), scope.discard consumed s)
  | .error (.fatal fatal) => (.error fatal, s.rollback scope.saved)

end Scope

end ContractExec
