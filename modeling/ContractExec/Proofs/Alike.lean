import ContractExec.Proofs.Run
import ContractExec.Proofs.Scope

/-!
# States that differ in their budgets alone

The budget of a transaction is looked at when a message is entered, and it pays when a scope is left.
Nothing else reads it. So two states that differ in their budgets alone lead to such states again and to
the same answers, at every step where neither budget turns a message away.

* `State.Alike` — two states of which only the budgets differ, and the events told of them;
* `State.alike_enter` — **a message that both budgets cover is looked at alike**;
* `Active.Alike`, `Active.Alike.answer` — **a request that leads to no other frame is answered alike**;
* `Scope.alike_leave` — a scope is left alike.
-/

namespace ContractExec

variable {ν α : Type}

/-! ### Alike states -/

namespace State

/-- The states differ in their budgets alone. Of what the journals hold only the notes count, which a
machine can recall: the events tell of budgets. -/
structure Alike (s t : State ν) : Prop where
  state_eq : t = { s with gasRemaining := t.gasRemaining, journal := t.journal }
  notes_eq : t.journal.notes = s.journal.notes

/-- What two messages or requests have led to, one in each of two states: the same, but for budgets. -/
structure AlikeIn (r r' : α × State ν) : Prop where
  fst_eq : r'.1 = r.1
  alike : r.2.Alike r'.2

variable {s t : State ν} {m : Message}

theorem alike_budget (s : State ν) (gas : Gas) {journal : Journal ν}
    (h : journal.notes = s.journal.notes) :
    s.Alike { s with gasRemaining := gas, journal } := ⟨rfl, h⟩

theorem Alike.exists_eq (h : s.Alike t) : ∃ gas journal,
    journal.notes = s.journal.notes ∧ t = { s with gasRemaining := gas, journal := journal } :=
  ⟨_, _, h.notes_eq, h.state_eq⟩

theorem Alike.config_eq (h : s.Alike t) : t.config = s.config := by rw [h.state_eq]

theorem Alike.sound (h : s.Alike t) (hs : s.Sound) : t.Sound := by
  rw [h.state_eq]
  exact ⟨hs.linked, hs.current_eq⟩

theorem Alike.debit (h : s.Alike t) (gas : Gas) : (s.debit gas).Alike (t.debit gas) := by
  obtain ⟨budget, journal, hnotes, rfl⟩ := h.exists_eq
  exact ⟨rfl, hnotes⟩

/-- The events that are told may differ. -/
theorem Alike.emit (h : s.Alike t) (event event' : Event) :
    (s.emit event).Alike (t.emit event') := by
  obtain ⟨budget, journal, hnotes, rfl⟩ := h.exists_eq
  refine ⟨rfl, ?_⟩
  simp only [State.emit, Journal.notes_event]
  exact hnotes

theorem Alike.keep (h : s.Alike t) (n : ν) : (s.keep n).Alike (t.keep n) := by
  obtain ⟨budget, journal, hnotes, rfl⟩ := h.exists_eq
  refine ⟨rfl, ?_⟩
  simp only [State.keep, Journal.notes_note, hnotes]

theorem Alike.record (h : s.Alike t) (transfer : Transfer) :
    (s.record transfer).Alike (t.record transfer) := by
  have htold := h.emit (.transfer transfer) (.transfer transfer)
  obtain ⟨budget, journal, hnotes, htold⟩ := htold.exists_eq
  rw [State.record, State.record, htold]
  exact ⟨rfl, hnotes⟩

theorem Alike.rollback (h : s.Alike t) (saved : Snapshot) :
    (s.rollback saved).Alike (t.rollback saved) := by
  obtain ⟨budget, journal, hnotes, rfl⟩ := h.exists_eq
  exact ⟨rfl, hnotes⟩

/-! ### Entering -/

/-- Where both budgets cover the gas limit of a message, its own limit decides on its scope. -/
theorem Alike.covers_eq (h : s.Alike t) {gas : Gas} (hs : gas ≤ s.gasRemaining)
    (ht : gas ≤ t.gasRemaining) : t.covers gas = s.covers gas := by
  rw [covers, covers, h.config_eq]
  by_cases hbase : s.config.baseCost ≤ gas
  · have hbs := UInt64.le_trans hbase hs
    have hbt := UInt64.le_trans hbase ht
    simp [hs, ht, hbase, hbs, hbt]
  · simp [hbase]

theorem alike_openCreate (h : s.Alike t) (hcovers : t.covers m.gasLimit = s.covers m.gasLimit)
    (code : Bytes) (parameters : List Value) (typeName : Option String) :
    AlikeIn (s.openCreate m code parameters typeName) (t.openCreate m code parameters typeName) := by
  rw [openCreate, openCreate, hcovers]
  obtain ⟨budget, journal, hnotes, rfl⟩ := h.exists_eq
  split
  case isFalse => exact ⟨rfl, h⟩
  case isTrue =>
    dsimp only
    split
    case h_1 => exact ⟨rfl, alike_budget _ _ hnotes⟩
    case h_2 =>
      split
      case h_1 => exact ⟨rfl, alike_budget _ _ hnotes⟩
      case h_2 => exact ⟨rfl, alike_budget _ _ hnotes⟩

theorem alike_openCall (h : s.Alike t) (hcovers : t.covers m.gasLimit = s.covers m.gasLimit)
    (target : Address) (method : MethodCall) (code : Bytes) :
    AlikeIn (s.openCall m target method code) (t.openCall m target method code) := by
  rw [openCall, openCall, hcovers]
  obtain ⟨budget, journal, hnotes, rfl⟩ := h.exists_eq
  split
  case isFalse => exact ⟨rfl, h⟩
  case isTrue =>
    split
    case isFalse => exact ⟨rfl, h.debit _⟩
    case isTrue =>
      dsimp only
      split
      case h_1 => exact ⟨rfl, h⟩
      case h_2 => exact ⟨rfl, alike_budget _ _ hnotes⟩

theorem Alike.balance_eq (h : s.Alike t) (address : Address) : t.balance address = s.balance address := by
  rw [h.state_eq]
  rfl

theorem Alike.world_eq (h : s.Alike t) : t.world = s.world := by
  rw [h.state_eq]
  rfl

theorem Alike.contractCode?_eq (h : s.Alike t) (address : Address) :
    t.contractCode? address = s.contractCode? address := by
  rw [contractCode?, contractCode?, h.world_eq]

theorem alike_callCode (h : s.Alike t) (hcovers : t.covers m.gasLimit = s.covers m.gasLimit)
    (target : Address) (method : MethodCall) :
    AlikeIn (s.callCode m target method) (t.callCode m target method) := by
  rw [callCode, callCode, h.contractCode?_eq]
  split
  case h_1 => exact ⟨rfl, h⟩
  case h_2 => exact alike_openCall h hcovers _ _ _

theorem alike_ifAffordable (h : s.Alike t) {act : State ν → Entrance ν × State ν}
    (hact : AlikeIn (act s) (act t)) : AlikeIn (s.ifAffordable m act) (t.ifAffordable m act) := by
  rw [ifAffordable, ifAffordable, h.balance_eq]
  split
  case h_1 => exact ⟨rfl, h⟩
  case h_2 =>
    split
    case isTrue => exact ⟨rfl, h⟩
    case isFalse => exact hact

/-- **A message that both budgets cover is looked at alike.** -/
theorem alike_enter (h : s.Alike t) (hs : m.gasLimit ≤ s.gasRemaining)
    (ht : m.gasLimit ≤ t.gasRemaining) : AlikeIn (s.enter m) (t.enter m) := by
  have htold : (s.announce m).Alike (t.announce m) := h.emit _ _
  have hcovers : (t.announce m).covers m.gasLimit = (s.announce m).covers m.gasLimit :=
    htold.covers_eq hs ht
  rw [enter, enter]
  rw [announce, announce] at htold hcovers
  generalize s.emit (.apply m s.arena.depth s.gasRemaining) = u at htold hcovers ⊢
  generalize t.emit (.apply m t.arena.depth t.gasRemaining) = v at htold hcovers ⊢
  cases haction : m.action with
  | externalCreate code parameters typeName => exact alike_openCreate htold hcovers _ _ _
  | internalCreate parameters typeName =>
    dsimp only
    rw [htold.balance_eq, htold.world_eq]
    split
    case h_1 => exact ⟨rfl, htold⟩
    case h_2 =>
      split
      case isTrue => exact ⟨rfl, htold⟩
      case isFalse => exact alike_openCreate htold hcovers _ _ _
  | externalCall target method => exact alike_callCode htold hcovers _ _
  | internalCall target method => exact alike_ifAffordable htold (alike_callCode htold hcovers _ _)
  | contractTransfer target =>
    refine alike_ifAffordable htold ?_
    rw [htold.contractCode?_eq]
    split
    case h_1 => exact ⟨rfl, htold.record _⟩
    case h_2 => exact alike_openCall htold hcovers _ _ _

end State

/-! ### Requests -/

namespace Active

/-- The same frame, over states that differ in their budgets alone. -/
structure Alike (x y : Active ν) : Prop where
  frame_eq : y.frame = x.frame
  alike : x.state.Alike y.state

/-- The same answer, but for budgets. -/
structure AlikeIn (r r' : α × Active ν) : Prop where
  fst_eq : r'.1 = r.1
  alike : r.2.Alike r'.2

variable {x y : Active ν}

theorem alike_budget (x : Active ν) (gas : Gas) {journal : Journal ν}
    (h : journal.notes = x.state.journal.notes) :
    x.Alike { x with state := { x.state with gasRemaining := gas, journal } } :=
  ⟨rfl, State.alike_budget _ gas h⟩

theorem Alike.exists_eq (h : x.Alike y) : ∃ gas journal, journal.notes = x.state.journal.notes ∧
    y = { x with state := { x.state with gasRemaining := gas, journal := journal } } := by
  obtain ⟨gas, journal, hnotes, hstate⟩ := h.alike.exists_eq
  refine ⟨gas, journal, hnotes, ?_⟩
  rw [← hstate, ← h.frame_eq]

/-- A cost is put on the meter alike. -/
theorem Alike.charge (h : x.Alike y) (cost : Gas) : AlikeIn (x.charge cost) (y.charge cost) := by
  obtain ⟨budget, journal, hnotes, rfl⟩ := h.exists_eq
  exact ⟨rfl, alike_budget _ budget hnotes⟩

/-- What is done once a cost is paid is done alike if it is from any two frames alike. -/
theorem Alike.paying (h : x.Alike y) (cost : Gas)
    {act act' : Active ν → Except Fault α × Active ν}
    (hact : ∀ {x y : Active ν}, x.Alike y → AlikeIn (act x) (act' y)) :
    AlikeIn (x.paying cost act) (y.paying cost act') := by
  obtain ⟨budget, journal, hnotes, rfl⟩ := h.exists_eq
  rw [Active.paying, Active.paying, Active.charge, Active.charge]
  rcases x.frame.meter.charge cost with ⟨fault | paid, meter⟩
  · exact ⟨rfl, alike_budget ⟨_, x.state⟩ budget hnotes⟩
  · exact hact (alike_budget ⟨_, x.state⟩ budget hnotes)

theorem Alike.write (h : x.Alike y) (w : Write) : AlikeIn (x.write w) (y.write w) := by
  obtain ⟨budget, journal, hnotes, rfl⟩ := h.exists_eq
  rw [Active.write, Active.write]
  dsimp only [contract]
  split
  case h_1 => exact ⟨rfl, h⟩
  case h_2 => exact ⟨rfl, alike_budget _ budget hnotes⟩

theorem Alike.construct (h : x.Alike y) (w : Write) : AlikeIn (x.construct w) (y.construct w) := by
  rw [Active.construct, Active.construct, h.frame_eq]
  split
  case isTrue => exact h.write w
  case isFalse => exact ⟨rfl, h⟩

theorem Alike.setStorage (h : x.Alike y) (key value : Bytes) :
    AlikeIn (x.setStorage key value) (y.setStorage key value) := by
  obtain ⟨budget, journal, hnotes, rfl⟩ := h.exists_eq
  rw [Active.setStorage, Active.setStorage, Active.charge, Active.charge]
  rcases x.frame.meter.charge (x.state.config.storageSaveCost key value) with ⟨fault | paid, meter⟩
  · exact ⟨rfl, alike_budget ⟨_, x.state⟩ budget hnotes⟩
  · have hpaid := alike_budget ⟨{ x.frame with meter }, x.state⟩ budget hnotes
    exact hpaid.write (.setStorage key value)

/-- **What leads to no other frame is answered alike.** -/
theorem Alike.answer (h : x.Alike y) {q : Request} (hissue : x.issueOf q = none)
    (nested nested' : Applying ν) : AlikeIn (x.answer nested q) (y.answer nested' q) := by
  obtain ⟨budget, journal, hnotes, rfl⟩ := h.exists_eq
  cases q with
  | message => exact ⟨rfl, h⟩
  | block => exact ⟨rfl, h⟩
  | meter => exact ⟨rfl, h⟩
  | recordCost cost => exact h.charge cost
  | balance => exact ⟨rfl, h⟩
  | code address => exact ⟨rfl, h⟩
  | contractType address => exact ⟨rfl, h⟩
  | storage key => exact h.paying _ fun h => ⟨rfl, h⟩
  | setStorage key value => exact h.setStorage key value
  | setCode code => exact h.construct _
  | setContractType typeName => exact h.construct _
  | log topics data =>
    refine h.paying _ fun {x y} h => ?_
    obtain ⟨budget, journal, hnotes, rfl⟩ := h.exists_eq
    exact ⟨rfl, alike_budget _ budget hnotes⟩
  | hash data => exact h.paying _ fun h => ⟨rfl, h⟩
  | create amount typeName parameters gas => cases hissue
  | call target amount method gas => cases hissue
  | transfer target amount => cases hissue

/-- What is asked for leads to the same message. -/
theorem Alike.issueOf_eq (h : x.Alike y) (q : Request) : y.issueOf q = x.issueOf q := by
  obtain ⟨budget, journal, hnotes, rfl⟩ := h.exists_eq
  cases q <;> rfl

end Active

/-! ### Leaving -/

theorem Scope.alike_merge {s t : State ν} (h : s.Alike t) (scope : Scope ν) (consumed : Gas)
    (returned : Option Value) :
    State.AlikeIn (scope.merge consumed returned s) (scope.merge consumed returned t) := by
  obtain ⟨budget, journal, hnotes, rfl⟩ := h.exists_eq
  rw [merge, merge]
  dsimp only
  split
  case h_1 => exact ⟨rfl, h⟩
  case h_2 parent arena hcommit =>
    have hcommitted := (State.alike_budget { s with arena, current := parent } budget hnotes).emit
      (.commit scope.frame.layer consumed) (.commit scope.frame.layer consumed)
    cases scope.transfer with
    | none => exact ⟨rfl, hcommitted⟩
    | some transfer => exact ⟨rfl, hcommitted.record transfer⟩

/-- A scope is left alike, however its code ended. -/
theorem Scope.alike_leave {s t : State ν} (h : s.Alike t) (scope : Scope ν) (outcome : Outcome)
    (frame : Frame) : State.AlikeIn (scope.leave outcome frame s) (scope.leave outcome frame t) := by
  have hdebited := h.debit (frame.meter.consumed.sub frame.nestedGas)
  have hcan : scope.canPay (t.debit (frame.meter.consumed.sub frame.nestedGas))
      = scope.canPay (s.debit (frame.meter.consumed.sub frame.nestedGas)) := by
    rw [canPay, canPay]
    cases scope.transfer with
    | none => rfl
    | some transfer =>
      dsimp only
      rw [hdebited.balance_eq]
  cases outcome with
  | error stop =>
    cases stop with
    | fault fault => exact ⟨rfl, (hdebited.rollback scope.saved).emit _ _⟩
    | fatal cause => exact ⟨rfl, hdebited.rollback scope.saved⟩
  | ok returned =>
    rw [leave, leave, hcan]
    generalize s.debit (frame.meter.consumed.sub frame.nestedGas) = u at hdebited ⊢
    generalize t.debit (frame.meter.consumed.sub frame.nestedGas) = v at hdebited ⊢
    split
    case h_1 => exact ⟨rfl, hdebited⟩
    case h_2 => exact scope.alike_merge hdebited _ returned
    case h_3 => exact ⟨rfl, (hdebited.rollback scope.saved).emit _ _⟩

end ContractExec
