import ContractExec.Fault
import ContractExec.Gas.Meter
import ContractExec.Message
import ContractExec.Receipt

/-!
# Contract code as programs

To the executor, running contract code is a dialogue: the code asks, the executor answers, and what
the code asks next may depend on every answer so far. A virtual machine turns code and arguments
into such a program.

* `Request` and `Request.Answer` — what contract code may ask, and the type of each answer;
* `Program` — a finite dialogue that ends with a value. Besides asking, a program may leave notes in
  the journal of the transaction and recall all notes left so far, so a virtual machine can carry
  anything it likes from one frame to the next;
* `Vm` — a virtual machine: one program for constructing a contract, one for calling a method.
-/

namespace ContractExec

inductive Request where
  | message
  | block
  | meter
  /-- Charge gas for work that the virtual machine does itself. -/
  | recordCost (cost : Gas)
  | balance
  | code (address : Address)
  | contractType (address : Address)
  | storage (key : Bytes)
  | setStorage (key value : Bytes)
  /-- Install code for a contract under construction. -/
  | setCode (code : Bytes)
  | setContractType (typeName : String)
  | log (topics : List Bytes) (data : Bytes)
  | hash (data : Bytes)
  /-- Deploy another instance of a type from the running contract's code. -/
  | create (amount : Amount) (typeName : String) (parameters : List Value) (gas : Option Gas)
  | call (target : Address) (amount : Amount) (method : MethodCall) (gas : Option Gas)
  | transfer (target : Address) (amount : Amount)

/-- The answer to a request. The type tells what may go wrong with it. -/
@[reducible]
def Request.Answer : Request → Type
  | message => MessageView
  | block => Block
  | meter => Meter
  | recordCost _ => Except Fault Unit
  | balance => Except Fatal Amount
  | code _ => Option Bytes
  | contractType _ => Option String
  | storage _ => Except Fault (Option Bytes)
  | setStorage .. => Except Stop Unit
  | setCode _ => Except Stop Unit
  | setContractType _ => Except Stop Unit
  | log .. => Except Fault Unit
  | hash _ => Except Fault Hash
  | create .. => Except Fatal Receipt
  | call .. => Except Fatal Receipt
  | transfer .. => Except Fatal Receipt

/-- A dialogue with the executor that leaves notes of type `ν` and ends with an `α`. -/
inductive Program (ν α : Type) where
  | done (value : α)
  | ask (request : Request) (next : request.Answer → Program ν α)
  | note (note : ν) (next : Program ν α)
  /-- Read all notes left so far, the first one first. -/
  | recollect (next : List ν → Program ν α)

namespace Program

variable {ν α β : Type}

/-- Continues a program with another one at its end. -/
def andThen : Program ν α → (α → Program ν β) → Program ν β
  | done value, f => f value
  | ask request next, f => ask request fun answer => (next answer).andThen f
  | note n next, f => note n (next.andThen f)
  | recollect next, f => recollect fun notes => (next notes).andThen f

instance : Monad (Program ν) where
  pure := done
  bind := andThen

def query (request : Request) : Program ν request.Answer := ask request done

def leave (n : ν) : Program ν Unit := note n (done ())

end Program

structure Vm (ν : Type) where
  /-- Construct a contract: install code and type, and run the constructor. -/
  create : (code : Bytes) → (parameters : List Value) → (typeName : Option String) →
    Program ν Outcome
  call : (method : MethodCall) → (code : Bytes) → (typeName : Option String) →
    Program ν Outcome

end ContractExec
