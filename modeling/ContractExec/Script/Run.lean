import ContractExec.Program
import ContractExec.Script

/-!
# Running scripts

Scripts run as programs, in a virtual machine that notes every step.

* `Note` — what is noted: that a frame began or ended, and what each operation found;
* `Operation.effect` — what an operation does and finds;
* `Script.program` — a script as a program;
* `Library.vm` — the virtual machine of a library of contracts.
-/

namespace ContractExec

/-! ### Notes -/

inductive Beginning where
  | create (code : Bytes) (typeName : Option String) (parameters : List Value)
  | call (code : Bytes) (typeName : Option String) (method : MethodCall)

inductive Finding where
  | nothing
  | message (view : MessageView)
  | block (block : Block)
  | meter (meter : Meter)
  | amount (amount : Amount)
  | bytes (bytes : Option Bytes)
  | text (text : Option String)
  | hash (hash : Hash)
  | receipt (receipt : Receipt)
  | flag (flag : Bool)
  | stopped (stop : Stop)

/-- What the virtual machine notes, each time with the gas that the frame has consumed. -/
inductive Note where
  | entered (beginning : Beginning) (consumed : Gas)
  | found (operation : String) (finding : Finding) (consumed : Gas)
  | exited (outcome : Outcome) (consumed : Gas)

/-- Leaves a note that needs the gas consumed so far. -/
def Note.leave (note : Gas → Note) : Program Note Unit :=
  .ask .meter fun meter => .leave (note meter.consumed)

/-! ### Operands -/

structure Locals where
  code : Bytes
  typeName : Option String
  arguments : List Value
  accumulator : Bytes
  /-- The receipt of the latest nested transition that gave one. -/
  last : Option Receipt

abbrev Stoppable := ExceptT Stop (Program Note)

namespace Stoppable

/-- Asks for something that cannot fail. -/
def ask (request : Request) : Stoppable request.Answer := ExceptT.lift (Program.query request)

/-- Passes a result on, with its error as a reason to stop. -/
def pass {α ε : Type} (stop : ε → Stop) : Except ε α → Stoppable α
  | .ok value => pure value
  | .error cause => throw (stop cause)

/-- Stops with a fault in words. -/
def refuse {α : Type} (text : String) : Stoppable α := throw (.fault (.other text))

end Stoppable

namespace Locals

def argument (l : Locals) (index : Nat) : Stoppable Value :=
  match l.arguments[index]? with
  | some value => pure value
  | none => .refuse "missing argument"

def created (l : Locals) : Stoppable Address :=
  match l.last.bind Receipt.contract? with
  | some contract => pure contract
  | none => .refuse "no created address"

def succeeded (l : Locals) : Bool := (l.last.map Receipt.isSuccess).getD false

def address (l : Locals) : AddressOperand → Stoppable Address
  | .literal address => pure address
  | .self => do return (← Stoppable.ask .message).contract
  | .sender => do return (← Stoppable.ask .message).sender
  | .created => l.created
  | .argument index => do
    match ← l.argument index with
    | .address address => pure address
    | _ => .refuse "expected address"

def balance : Stoppable Amount := do
  Stoppable.pass .fatal (← Stoppable.ask .balance)

def amount (l : Locals) : AmountOperand → Stoppable Amount
  | .literal amount => pure amount
  | .balance => balance
  | .sent => do return (← Stoppable.ask .message).amount
  | .argument index => do
    match ← l.argument index with
    | .u256 amount => pure amount
    | _ => .refuse "expected amount"

def bytes (l : Locals) : BytesOperand → Bytes
  | .literal bytes => bytes
  | .accumulator suffix => l.accumulator ++ suffix

def parameter (l : Locals) : ParameterOperand → Stoppable Value
  | .literal value => pure value
  | .argument index => l.argument index

def returned (l : Locals) : ReturnOperand → Stoppable (Option Value)
  | .nothing => pure none
  | .literal value => pure (some value)
  | .argument index => some <$> l.argument index
  | .last => pure (l.last.bind Receipt.returned?)
  | .accumulator => pure (some (.bytes l.accumulator))
  | .created => do return some (.address (← l.created))
  | .balance => do return some (.u256 (← balance))

end Locals

/-! ### Operations -/

namespace Operation

/-- The name under which an operation is noted. What ends the script is not noted. -/
def name? : Operation → Option String
  | message => some "message"
  | block => some "block"
  | gas => some "gas"
  | recordCost _ => some "record_cost"
  | balance => some "balance"
  | code _ => some "code"
  | contractType _ => some "contract_type"
  | storage _ => some "storage"
  | setStorage .. => some "set_storage"
  | install => some "install"
  | setCode _ => some "set_code"
  | setContractType _ => some "set_type"
  | log .. => some "log"
  | hash _ => some "hash"
  | create .. => some "create"
  | call .. => some "call"
  | transfer .. => some "transfer"
  | require => some "require"
  | result _ | fault _ | fatal _ => none

/-- What an operation comes to: a finding and new locals, or the end of the script. -/
inductive Effect where
  | found (finding : Finding) (locals : Locals)
  | returned (value : Option Value)

/-- The receipt of a nested transition, which becomes the latest one. -/
def nested (l : Locals) (answer : Except Fatal Receipt) : Stoppable Effect := do
  let receipt ← Stoppable.pass .fatal answer
  return .found (.receipt receipt) { l with last := some receipt }

def effect (l : Locals) : Operation → Stoppable Effect
  | message => do return .found (.message (← Stoppable.ask .message)) l
  | block => do return .found (.block (← Stoppable.ask .block)) l
  | gas => do return .found (.meter (← Stoppable.ask .meter)) l
  | recordCost cost => do
    Stoppable.pass .fault (← Stoppable.ask (.recordCost cost))
    return .found .nothing l
  | balance => do return .found (.amount (← Locals.balance)) l
  | code place => do
    let found ← Stoppable.ask (.code (← l.address place))
    return .found (.bytes found) { l with accumulator := found.getD [] }
  | contractType place => do
    return .found (.text (← Stoppable.ask (.contractType (← l.address place)))) l
  | storage key => do
    let found ← Stoppable.pass .fault (← Stoppable.ask (.storage (l.bytes key)))
    return .found (.bytes found) { l with accumulator := found.getD [] }
  | setStorage key value => do
    Stoppable.pass id (← Stoppable.ask (.setStorage (l.bytes key) (l.bytes value)))
    return .found .nothing l
  | install => do
    Stoppable.pass id (← Stoppable.ask (.setCode l.code))
    match l.typeName with
    | none => return .found .nothing l
    | some typeName =>
      Stoppable.pass id (← Stoppable.ask (.setContractType typeName))
      return .found .nothing l
  | setCode newCode => do
    Stoppable.pass id (← Stoppable.ask (.setCode (l.bytes newCode)))
    return .found .nothing l
  | setContractType typeName => do
    Stoppable.pass id (← Stoppable.ask (.setContractType typeName))
    return .found .nothing l
  | log topics data => do
    Stoppable.pass .fault (← Stoppable.ask (.log (topics.map l.bytes) (l.bytes data)))
    return .found .nothing l
  | hash data => do
    let digest ← Stoppable.pass .fault (← Stoppable.ask (.hash (l.bytes data)))
    return .found (.hash digest) { l with accumulator := digest.toBytes }
  | create amount typeName parameters limit => do
    let value ← l.amount amount
    let arguments ← parameters.mapM l.parameter
    nested l (← Stoppable.ask (.create value typeName arguments limit))
  | call target amount method parameters limit => do
    let address ← l.address target
    let value ← l.amount amount
    let arguments ← parameters.mapM l.parameter
    nested l (← Stoppable.ask (.call address value ⟨method, arguments⟩ limit))
  | transfer target amount => do
    let address ← l.address target
    let value ← l.amount amount
    nested l (← Stoppable.ask (.transfer address value))
  | require =>
    if l.succeeded then return .found .nothing l else throw (.fault .reverted)
  | result value => do return .returned (← l.returned value)
  | fault cause => throw (.fault cause)
  | fatal cause => throw (.fatal cause)

end Operation

/-! ### Scripts -/

/-- How a script, or a part of one, came to its end. -/
inductive Ending where
  | completed (locals : Locals)
  | returned (value : Option Value)
  /-- Stopped, with the locals as they were then. -/
  | stopped (stop : Stop) (locals : Locals)

namespace Ending

/-- Goes on with the rest of a script after what it tolerates. -/
def goOn (tolerance : Tolerance) (rest : Locals → Program Note Ending) :
    Ending → Program Note Ending
  | completed l => rest l
  | returned value => .done (.returned value)
  | stopped stop l => if tolerance.accepts stop then rest l else .done (.stopped stop l)

/-- The outcome of a whole script; one that is completed returns no value. -/
def outcome : Ending → Outcome
  | completed _ => .ok none
  | returned value => .ok value
  | stopped stop _ => .error stop

end Ending

/-- Performs an operation and notes what it found. -/
def Operation.program (operation : Operation) (l : Locals) : Program Note Ending := do
  let note (finding : Finding) : Program Note Unit :=
    match operation.name? with
    | some name => Note.leave (.found name finding)
    | none => .done ()
  match ← operation.effect l with
  | .ok (.found finding l) => do
    note finding
    return .completed l
  | .ok (.returned value) => return .returned value
  | .error stop => do
    note (.stopped stop)
    return .stopped stop l

def Script.program : Script → Locals → Program Note Ending
  | finish, l => .done (.completed l)
  | perform operation tolerance rest, l =>
    (operation.program l).andThen (Ending.goOn tolerance rest.program)
  | branch tolerance yes no rest, l =>
    (Note.leave (.found "if_ok" (.flag l.succeeded))).andThen fun _ =>
      (if l.succeeded then yes.program l else no.program l).andThen
        (Ending.goOn tolerance rest.program)

/-! ### The virtual machine -/

namespace Library

/-- Runs a frame: notes its beginning, runs the script or faults where there is none, and notes its
end. -/
def frame (beginning : Beginning) (script : Except Fault Script) (l : Locals) :
    Program Note Outcome := do
  Note.leave (.entered beginning)
  let outcome ← match script with
    | .ok script => Ending.outcome <$> script.program l
    | .error fault => pure (.error (.fault fault))
  Note.leave (.exited outcome)
  return outcome

/-- The virtual machine that runs the scripts of a library. -/
def vm (library : Library) : Vm Note where
  create code parameters typeName :=
    let script :=
      match library.find? code with
      | some contract => .ok contract.construct
      | none => .error (.other "unknown code")
    frame (.create code typeName parameters) script ⟨code, typeName, parameters, [], none⟩
  call method code typeName :=
    let script :=
      match library.find? code with
      | some contract =>
        match contract.method? method.name with
        | some script => .ok script
        | none => .error (.methodNotFound method.name)
      | none => .error (.other "unknown code")
    frame (.call code typeName method) script ⟨code, typeName, method.parameters, [], none⟩

end Library

end ContractExec
