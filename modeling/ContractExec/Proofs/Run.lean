import ContractExec.Apply

/-!
# What contract code can do

Contract code reaches the transaction through the answers to its requests alone. One request pays,
writes to the layer of the frame, adds one log, or applies a message, and nothing of a frame but its
gas figures ever changes. All that a whole run keeps follows from this.

* `Active.issueOf` — what becomes of a request that leads to another frame;
* `Active.Acted`, `acted_answer` — what a request does that leads to no other frame;
* `Active.Answered`, `answered_answer` — the few things that one request does;
* `Program.run_keeps` — **what every answer and every note keep, every run keeps**;
* `Program.run_congr` — a run depends on how nested messages are applied at the states that it meets
  and at no others.
-/

namespace ContractExec

variable {ν α : Type}

namespace Active

/-- What becomes of a request that leads to another frame. -/
def issueOf (x : Active ν) : Request → Option Issue
  | .create amount typeName parameters gas =>
    some (x.issueCreate amount gas (.internalCreate parameters typeName))
  | .call target amount method gas => some (x.issue amount gas (.internalCall target method))
  | .transfer target amount => some (x.issue amount none (.contractTransfer target))
  | _ => none

/-- Whether some request of a frame issues a message. -/
def Issues (x : Active ν) (m : Message) : Prop := ∃ q, x.issueOf q = some (.issued m)

/-- Only a frame above the call stack limit issues messages. -/
theorem Issues.tooDeep_eq_false {x : Active ν} {m : Message} (h : x.Issues m) :
    x.tooDeep = false := by
  obtain ⟨q, hq⟩ := h
  cases hdeep : x.tooDeep with
  | false => rfl
  | true => cases q <;> simp [issueOf, issue, issueCreate, hdeep] at hq

theorem eq_outgoing_of_issue {x : Active ν} {m : Message} {amount : Amount} {gas : Option Gas}
    {action : Action} (h : x.issue amount gas action = .issued m) :
    m = x.outgoing amount gas action := by
  rw [issue] at h
  split at h
  case isTrue => nomatch h
  case isFalse => exact (Issue.issued.inj h).symm

theorem eq_outgoing_of_issueCreate {x : Active ν} {m : Message} {amount : Amount}
    {gas : Option Gas} {action : Action} (h : x.issueCreate amount gas action = .issued m) :
    m = x.outgoing amount gas action := by
  rw [issueCreate] at h
  split at h
  case isTrue => nomatch h
  case isFalse =>
    split at h
    case h_1 => nomatch h
    case h_2 =>
      split at h
      case isTrue => nomatch h
      case isFalse => exact (Issue.issued.inj h).symm

/-- What a frame issues comes from its own contract and under its own gas. -/
theorem Issues.exists_eq_outgoing {x : Active ν} {m : Message} (h : x.Issues m) :
    ∃ amount gas action, m = x.outgoing amount gas action := by
  obtain ⟨q, hissue⟩ := h
  cases q with
  | create amount typeName parameters gas =>
    exact ⟨_, _, _, eq_outgoing_of_issueCreate (Option.some.inj hissue)⟩
  | call target amount method gas => exact ⟨_, _, _, eq_outgoing_of_issue (Option.some.inj hissue)⟩
  | transfer target amount => exact ⟨_, _, _, eq_outgoing_of_issue (Option.some.inj hissue)⟩
  | _ => nomatch hissue

/-- What paying can lead to: nothing was charged, or one cost. -/
inductive Paid (x : Active ν) : Active ν → Prop where
  | free : Paid x x
  | charged (cost : Gas) : Paid x (x.charge cost).2

/-- The writes that a frame may ask for: a constructor any but the creation of its own account, other
code those to storage. -/
def MayWrite (x : Active ν) : Write → Prop
  | .create => False
  | .setCode _ | .setContractType _ => x.frame.constructing = true
  | .setStorage .. => True

/-- What a request can lead to that leads to no other frame. -/
inductive Acted (x : Active ν) : Active ν → Prop where
  | paid {y : Active ν} : x.Paid y → Acted x y
  | written {y : Active ν} {arena : Arena} {w : Write} :
      x.Paid y → y.MayWrite w → y.state.arena.write y.frame.layer y.contract w = .ok arena →
      Acted x { y with state := { y.state with arena } }
  | logged {y : Active ν} (log : Log) :
      x.Paid y → Acted x { y with state := { y.state with logs := y.state.logs ++ [log] } }

/-- What one request can lead to. -/
inductive Answered (nested : Applying ν) (x : Active ν) : Active ν → Prop where
  | paid {y : Active ν} : x.Paid y → Answered nested x y
  | written {y : Active ν} {arena : Arena} (w : Write) :
      x.Paid y → y.state.arena.write y.frame.layer y.contract w = .ok arena →
      Answered nested x { y with state := { y.state with arena } }
  | logged {y : Active ν} (log : Log) :
      x.Paid y →
      Answered nested x { y with state := { y.state with logs := y.state.logs ++ [log] } }
  -- a fatal of a nested message is handed on without a charge
  | fatal {m : Message} {cause : Fatal} {s : State ν} :
      x.Issues m → nested m x.state = (.error cause, s) → Answered nested x { x with state := s }
  | applied {m : Message} {receipt : Receipt} {s : State ν} :
      x.Issues m → nested m x.state = (.ok receipt, s) →
      Answered nested x ⟨x.frame.chargeNested receipt, s⟩

/-! ### One request -/

section

variable {nested : Applying ν} {x y : Active ν}

theorem Paid.state_eq (h : x.Paid y) : y.state = x.state := by
  cases h with
  | free => rfl
  | charged cost => rfl

theorem Paid.frame_eq (h : x.Paid y) : ∃ meter, y.frame = { x.frame with meter } := by
  cases h with
  | free => exact ⟨_, rfl⟩
  | charged cost => exact ⟨_, rfl⟩

/-- Of a frame only the gas figures change. -/
theorem Answered.frame_eq (h : x.Answered nested y) :
    ∃ meter nestedGas, y.frame = { x.frame with meter, nestedGas } := by
  cases h with
  | paid hpaid
  | written w hpaid
  | logged log hpaid =>
    obtain ⟨meter, hframe⟩ := hpaid.frame_eq
    exact ⟨meter, x.frame.nestedGas, hframe⟩
  | fatal hissues hnested => exact ⟨_, _, rfl⟩
  | applied hissues hnested => exact ⟨_, _, rfl⟩

/-- Of a frame that acts by itself only the meter changes. -/
theorem Acted.frame_eq (h : x.Acted y) : ∃ meter, y.frame = { x.frame with meter } := by
  cases h with
  | paid hpaid
  | written hpaid hmay hwrite
  | logged log hpaid =>
    have hframe := hpaid.frame_eq
    exact hframe

/-- Of the state only the arena and the logs change, and logs are only added. -/
theorem Acted.state_eq (h : x.Acted y) :
    ∃ arena logs, y.state = { x.state with arena, logs := x.state.logs ++ logs } := by
  cases h with
  | paid hpaid =>
    refine ⟨x.state.arena, [], ?_⟩
    rw [hpaid.state_eq, List.append_nil]
  | @written y arena w hpaid hmay hwrite =>
    refine ⟨arena, [], ?_⟩
    rw [hpaid.state_eq, List.append_nil]
  | logged log hpaid =>
    refine ⟨x.state.arena, [log], ?_⟩
    rw [hpaid.state_eq]

theorem Acted.answered (h : x.Acted y) : x.Answered nested y := by
  cases h with
  | paid hpaid => exact .paid hpaid
  | written hpaid hmay hwrite => exact .written _ hpaid hwrite
  | logged log hpaid => exact .logged log hpaid

theorem acted_paying {β : Type} {act : Active ν → Except Fault β × Active ν} (cost : Gas)
    (hact : x.Acted (act (x.charge cost).2).2) : x.Acted (x.paying cost act).2 := by
  rw [paying]
  split
  case h_1 hcharge =>
    have hpaid := Paid.charged (x := x) cost
    rw [hcharge] at hpaid
    exact .paid hpaid
  case h_2 hcharge =>
    rw [hcharge] at hact
    exact hact

theorem acted_write (hpaid : x.Paid y) {w : Write} (hmay : y.MayWrite w) :
    x.Acted (y.write w).2 := by
  rw [write]
  split
  case h_1 => exact .paid hpaid
  case h_2 hwrite => exact .written hpaid hmay hwrite

theorem acted_construct {w : Write} (hmay : x.frame.constructing = true → x.MayWrite w) :
    x.Acted (x.construct w).2 := by
  rw [construct]
  split
  case isTrue hconstructing => exact acted_write .free (hmay hconstructing)
  case isFalse => exact .paid .free

theorem acted_setStorage (key value : Bytes) : x.Acted (x.setStorage key value).2 := by
  have hpaid := Paid.charged (x := x) (x.state.config.storageSaveCost key value)
  rw [setStorage]
  split
  case h_1 hcharge =>
    rw [hcharge] at hpaid
    exact .paid hpaid
  case h_2 hcharge =>
    rw [hcharge] at hpaid
    exact acted_write hpaid trivial

/-- A request that leads to no other frame pays, writes or logs. -/
theorem acted_answer (nested : Applying ν) {q : Request} (h : x.issueOf q = none) :
    x.Acted (x.answer nested q).2 := by
  cases q with
  | message => exact .paid .free
  | block => exact .paid .free
  | meter => exact .paid .free
  | recordCost cost => exact .paid (.charged cost)
  | balance => exact .paid .free
  | code address => exact .paid .free
  | contractType address => exact .paid .free
  | storage key => exact acted_paying _ (.paid (.charged _))
  | setStorage key value => exact acted_setStorage key value
  | setCode code => exact acted_construct fun hconstructing => hconstructing
  | setContractType typeName => exact acted_construct fun hconstructing => hconstructing
  | log topics data => exact acted_paying _ (.logged _ (.charged _))
  | hash data => exact acted_paying _ (.paid (.charged _))
  | create amount typeName parameters gas => nomatch h
  | call target amount method gas => nomatch h
  | transfer target amount => nomatch h

/-- A request that leads to another frame is followed. -/
theorem answer_of_issue (nested : Applying ν) {q : Request} {issue : Issue}
    (h : x.issueOf q = some issue) : (x.answer nested q).2 = (x.follow nested issue).2 := by
  cases q with
  | create amount typeName parameters gas
  | call target amount method gas
  | transfer target amount =>
    injection h with h
    rw [← h]
    rfl
  | _ => nomatch h

theorem answered_follow (q : Request) {issue : Issue} (h : x.issueOf q = some issue) :
    x.Answered nested (x.follow nested issue).2 := by
  cases issue with
  | settled result => exact .paid .free
  | issued m =>
    rw [follow]
    split
    case h_1 hnested => exact .fatal ⟨q, h⟩ hnested
    case h_2 hnested => exact .applied ⟨q, h⟩ hnested

/-- The state after a message that was issued is the one that applying it leaves. -/
theorem state_follow (nested : Applying ν) (x : Active ν) (m : Message) :
    (x.follow nested (.issued m)).2.state = (nested m x.state).2 := by
  rw [follow]
  split
  case h_1 hnested => rw [hnested]
  case h_2 hnested => rw [hnested]

theorem answered_issued {m : Message} (h : x.Issues m) :
    x.Answered nested (x.follow nested (.issued m)).2 := by
  obtain ⟨q, hissue⟩ := h
  exact answered_follow q hissue

/-- **One request pays, writes, logs or applies a message.** -/
theorem answered_answer (nested : Applying ν) (x : Active ν) (q : Request) :
    x.Answered nested (x.answer nested q).2 := by
  cases h : x.issueOf q with
  | none => exact (acted_answer nested h).answered
  | some issue =>
    rw [answer_of_issue nested h]
    exact answered_follow q h

end

/-! ### How nested messages are applied -/

theorem follow_congr {nested nested' : Applying ν} {x : Active ν} (q : Request)
    {issue : Issue} (hissue : x.issueOf q = some issue)
    (h : ∀ m, x.Issues m → nested m x.state = nested' m x.state) :
    x.follow nested issue = x.follow nested' issue := by
  cases issue with
  | settled result => rfl
  | issued m => rw [follow, follow, h m ⟨q, hissue⟩]

/-- An answer depends on how the messages that the frame issues are applied to its state. -/
theorem answer_congr {nested nested' : Applying ν} {x : Active ν}
    (h : ∀ m, x.Issues m → nested m x.state = nested' m x.state) (q : Request) :
    x.answer nested q = x.answer nested' q := by
  cases q with
  | create amount typeName parameters gas =>
    exact follow_congr (.create amount typeName parameters gas) rfl h
  | call target amount method gas => exact follow_congr (.call target amount method gas) rfl h
  | transfer target amount => exact follow_congr (.transfer target amount) rfl h
  | _ => rfl

end Active

/-! ### Whole runs -/

namespace Program

variable {nested nested' : Applying ν} {I : Active ν → Prop}

/-- **What every answer and every note keep, every run keeps.** -/
theorem run_keeps (hanswer : ∀ {x y}, I x → x.Answered nested y → I y)
    (hnote : ∀ {x} n, I x → I { x with state := x.state.keep n }) (p : Program ν α) {x : Active ν}
    (hx : I x) : I (p.run nested x).2 := by
  induction p generalizing x with
  | done value => exact hx
  | ask q next ih => exact ih _ (hanswer hx (x.answered_answer nested q))
  | note n next ih => exact ih (hnote n hx)
  | recollect next ih => exact ih _ hx

/-- Two ways to apply nested messages run a program alike if they agree wherever it applies one. -/
theorem run_congr (hanswer : ∀ {x y}, I x → x.Answered nested y → I y)
    (hnote : ∀ {x} n, I x → I { x with state := x.state.keep n })
    (hsame : ∀ {x} m, I x → x.Issues m → nested m x.state = nested' m x.state)
    (p : Program ν α) {x : Active ν} (hx : I x) : p.run nested x = p.run nested' x := by
  induction p generalizing x with
  | done value => rfl
  | ask q next ih =>
    have hagree := Active.answer_congr (fun m hissues => hsame m hx hissues) q
    have hnext := ih (x.answer nested q).1 (hanswer hx (x.answered_answer nested q))
    rw [run, run, ← hagree]
    exact hnext
  | note n next ih => exact ih (hnote n hx)
  | recollect next ih => exact ih _ hx

end Program

end ContractExec
