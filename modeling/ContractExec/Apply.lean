import ContractExec.Scope

/-!
# Applying messages

A message is entered, its program is run with an answer to each request, and its scope is left.
Requests to create, call and transfer apply further messages in the same way, one level deeper.

* `Active.Issue` — what becomes of a request that leads to another frame: a message to apply, unless
  it is settled at once;
* `Active.answer` — the answer to each request, given how nested messages are applied;
* `Program.run` — a program run to its end;
* `State.apply` — a message applied. Frames at the call stack limit issue no messages, so that
  limit bounds the levels.
-/

namespace ContractExec

variable {ν α : Type}

abbrev Applying (ν : Type) := Message → State ν → Except Fatal Receipt × State ν

/-! ### Answering requests -/

namespace Active

/-- What becomes of a request to create, call or transfer. -/
inductive Issue where
  | settled (result : Except Fatal Receipt)
  | issued (message : Message)

def outgoing (x : Active ν) (amount : Amount) (gas : Option Gas) (action : Action) : Message :=
  ⟨x.contract, amount, x.frame.nestedLimit gas, action⟩

/-- Issues a call or a transfer, unless the frame is as deep as frames may be. -/
def issue (x : Active ν) (amount : Amount) (gas : Option Gas) (action : Action) : Issue :=
  if x.tooDeep then .settled (.ok (.failed 0 .callTooDeep))
  else .issued (x.outgoing amount gas action)

/-- Issues a create, which the running contract also has to be able to pay. -/
def issueCreate (x : Active ν) (amount : Amount) (gas : Option Gas) (action : Action) : Issue :=
  if x.tooDeep then .settled (.ok (.failed 0 .callTooDeep))
  else
    match x.balance with
    | .error fatal => .settled (.error fatal)
    | .ok balance =>
      if balance < amount then .settled (.ok (.failed 0 .insufficientBalance))
      else .issued (x.outgoing amount gas action)

/-- Applies what is issued and puts what it consumed on the frame's meter. -/
def follow (nested : Applying ν) (x : Active ν) : Issue → Except Fatal Receipt × Active ν
  | .settled result => (result, x)
  | .issued message =>
    match nested message x.state with
    | (.error fatal, state) => (.error fatal, { x with state })
    | (.ok receipt, state) => (.ok receipt, ⟨x.frame.chargeNested receipt, state⟩)

def answer (nested : Applying ν) (x : Active ν) : (q : Request) → q.Answer × Active ν
  | .message => (x.frame.message, x)
  | .block => (x.state.block, x)
  | .meter => (x.frame.meter, x)
  | .recordCost cost => x.charge cost
  | .balance => (x.balance, x)
  | .code address => ((x.world address).code, x)
  | .contractType address => ((x.world address).contractType, x)
  | .storage key => x.storage key
  | .setStorage key value => x.setStorage key value
  | .setCode code => x.construct (.setCode code)
  | .setContractType typeName => x.construct (.setContractType typeName)
  | .log topics data => x.log topics data
  | .hash data => x.hash data
  | .create amount typeName parameters gas =>
    x.follow nested (x.issueCreate amount gas (.internalCreate parameters typeName))
  | .call target amount method gas =>
    x.follow nested (x.issue amount gas (.internalCall target method))
  | .transfer target amount => x.follow nested (x.issue amount none (.contractTransfer target))

end Active

/-! ### Running programs -/

def Program.run (nested : Applying ν) : Program ν α → Active ν → α × Active ν
  | done value, x => (value, x)
  | ask request next, x =>
    let (answer, x) := x.answer nested request
    (next answer).run nested x
  | note n next, x => next.run nested { x with state := x.state.keep n }
  | recollect next, x => (next x.state.journal.notes).run nested x

/-! ### Applying messages -/

namespace State

/-- Applies a message, given how the messages of its program are applied. -/
def applyWith (nested : Applying ν) (m : Message) (s : State ν) :
    Except Fatal Receipt × State ν :=
  match s.enter m with
  | (.settled result, s) => (result, s)
  | (.opened scope, s) =>
    let (outcome, x) := scope.program.run nested ⟨scope.frame, s⟩
    scope.leave outcome x.frame x.state

/-- Applies a message with at most so many levels of nested messages below it. -/
def applyWithin : (levels : Nat) → Message → State ν → Except Fatal Receipt × State ν
  | 0, m, s => applyWith (fun _ s => (.ok (.failed 0 .callTooDeep), s)) m s
  | levels + 1, m, s => applyWith (applyWithin levels) m s

/-- Applies a message. A failure comes back in the receipt; a fatal means that the whole transaction
has to be rejected. -/
def apply (s : State ν) (m : Message) : Except Fatal Receipt × State ν :=
  applyWithin s.config.callStackLimit.toNat m s

end State

end ContractExec
