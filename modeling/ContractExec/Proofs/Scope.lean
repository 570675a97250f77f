import ContractExec.Proofs.Arena.Snapshots
import ContractExec.Scope

/-!
# Opening and closing scopes

What a message does before its code runs, and what the end of the code does. Both start from a sound
state, in which the current layer is the top of a chain, so a scope always gets a layer of its own
above all others, and rolling it back leaves nothing of what was done in it but spent gas and the
journal.

* `State.Sound`, `State.Continues`, `State.Recovered` — how states of one transaction compare;
* `Sound.exists_opened` — in a sound state a layer can be opened and written;
* `recovered_rollback` — **a rollback recovers the state that the scope was opened in**;
* `State.Opens`, `State.Entered`, `entered_enter` — all that entering can do;
* `Scope.Left`, `left_leave` — all that leaving can do.
-/

namespace ContractExec

open Arena (SameBelow)

variable {ν : Type}

namespace State

/-! ### States of one transaction -/

/-- The arena is a chain and its top layer is the current one. -/
structure Sound (s : State ν) : Prop where
  linked : s.arena.Linked
  current_eq : s.current = s.arena.top

theorem sound_new (config : Config) (vm : Vm ν) (backend : Backend) (transaction : Hash)
    (gasLimit : Gas) : (State.new config vm backend transaction gasLimit).Sound :=
  ⟨Arena.linked_new backend, rfl⟩

theorem Sound.worldAt_top {s : State ν} (hs : s.Sound) :
    s.worldAt s.arena.top = s.arena.topWorld := by
  have hsize := hs.linked.size_eq
  rw [worldAt, Arena.worldAt?_eq hs.linked, if_pos (by omega), Arena.topWorld, hsize]
  rfl

/-- What is read in a sound state is read at the top layer. -/
theorem Sound.world_eq {s : State ν} (hs : s.Sound) : s.world = s.arena.topWorld := by
  rw [world, hs.current_eq, hs.worldAt_top]

/-- The second arena has one more layer than the first one, whatever it holds. -/
structure Raised (x y : Arena) : Prop where
  linked : y.Linked
  top_eq : y.top = x.layers.size
  below : SameBelow x.layers.size x y

theorem Raised.size_eq {x y : Arena} (h : Raised x y) : y.layers.size = x.layers.size + 1 := by
  rw [h.linked.size_eq, h.top_eq]

/-- A layer can always be opened on the current one, which is the top one, and then be written. -/
theorem Sound.exists_opened {s : State ν} (hs : s.Sound) :
    ∃ opened, s.arena.openLayer s.current = .ok (s.arena.layers.size, opened) ∧
      Raised s.arena opened ∧
      ∀ address w, ∃ written, opened.write s.arena.layers.size address w = .ok written ∧
        Raised s.arena written := by
  obtain ⟨opened, hopen, hlinked, hsize, hbelow, -⟩ := hs.linked.openLayer
  have htop : opened.top = s.arena.layers.size := by rw [Arena.top, hsize]; rfl
  refine ⟨opened, by rw [hs.current_eq, hopen], ⟨hlinked, htop, hbelow⟩, fun address w => ?_⟩
  obtain ⟨written, hwrite, hlinked', hsize', hbelow', -⟩ := hlinked.write address w
  rw [htop] at hwrite hbelow'
  exact ⟨written, hwrite, hlinked', by rw [Arena.top, hsize', hsize]; rfl, hbelow.trans hbelow'⟩

/-- The same transaction, with no more gas left and with the first `n` layers as they were. -/
structure Continues (n : Nat) (s t : State ν) : Prop where
  config_eq : t.config = s.config
  vm_eq : t.vm = s.vm
  block_eq : t.block = s.block
  transaction_eq : t.transaction = s.transaction
  gas_le : t.gasRemaining ≤ s.gasRemaining
  below : SameBelow n s.arena t.arena

namespace Continues

variable {n k : Nat} {s t u : State ν}

theorem refl (n : Nat) (s : State ν) : Continues n s s :=
  ⟨rfl, rfl, rfl, rfl, UInt64.le_refl _, .refl n _⟩

theorem trans (hst : Continues n s t) (htu : Continues n t u) : Continues n s u where
  config_eq := htu.config_eq.trans hst.config_eq
  vm_eq := htu.vm_eq.trans hst.vm_eq
  block_eq := htu.block_eq.trans hst.block_eq
  transaction_eq := htu.transaction_eq.trans hst.transaction_eq
  gas_le := UInt64.le_trans htu.gas_le hst.gas_le
  below := hst.below.trans htu.below

theorem mono (h : Continues n s t) (hle : k ≤ n) : Continues k s t :=
  { h with below := h.below.mono hle }

/-- What has gas later on had gas before. -/
theorem gas_ne_zero (h : Continues n s t) (hgas : t.gasRemaining ≠ 0) : s.gasRemaining ≠ 0 := by
  intro hnone
  have hle := h.gas_le
  rw [hnone] at hle
  exact hgas (UInt64.le_antisymm hle UInt64.zero_le)

end Continues

/-- The state of the same transaction later on: nothing below its top layer has changed. -/
structure Later (s t : State ν) : Prop extends Continues s.arena.top s t where
  size_le : s.arena.layers.size ≤ t.arena.layers.size

namespace Later

variable {s t u : State ν}

theorem refl (s : State ν) : Later s s := ⟨.refl _ s, Nat.le_refl _⟩

theorem top_le (h : Later s t) : s.arena.top ≤ t.arena.top := Nat.sub_le_sub_right h.size_le 1

theorem trans (hst : Later s t) (htu : Later t u) : Later s u :=
  ⟨hst.toContinues.trans (htu.toContinues.mono hst.top_le), Nat.le_trans hst.size_le htu.size_le⟩

end Later

/-- Only spent gas and the journal tell a state from an earlier one: the layers, the current one,
the nonce, the logs and the transfers are the same. -/
def Recovered (s t : State ν) : Prop :=
  t.gasRemaining ≤ s.gasRemaining ∧
    t = { s with gasRemaining := t.gasRemaining, journal := t.journal }

namespace Recovered

variable {s t u : State ν}

theorem refl (s : State ν) : Recovered s s := ⟨UInt64.le_refl _, rfl⟩

theorem arena_eq (h : Recovered s t) : t.arena = s.arena := by rw [h.2]

theorem transfers_eq (h : Recovered s t) : t.transfers = s.transfers := by rw [h.2]

theorem sound (h : Recovered s t) (hs : s.Sound) : t.Sound := by
  rw [h.2]
  exact ⟨hs.linked, hs.current_eq⟩

theorem later (h : Recovered s t) : Later s t := by
  obtain ⟨hgas, heq⟩ := h
  rw [heq]
  exact ⟨⟨rfl, rfl, rfl, rfl, hgas, .refl _ _⟩, Nat.le_refl _⟩

end Recovered

theorem gasRemaining_debit_le (s : State ν) (gas : Gas) :
    (s.debit gas).gasRemaining ≤ s.gasRemaining := by
  rw [UInt64.le_iff_toNat_le, debit, Gas.toNat_sub]
  omega

/-- **A rollback recovers the state of its snapshot**, if all its layers are still there. -/
theorem recovered_rollback {s t : State ν} (hs : s.Sound) (h : Continues s.arena.layers.size s t) :
    Recovered s (t.rollback s.snapshot) := by
  have harena : t.arena.abandon s.current = s.arena := by
    rw [hs.current_eq]
    exact Arena.abandon_eq hs.linked h.below
  refine ⟨h.gas_le, ?_⟩
  obtain ⟨config, vm, block, transaction, arena, current, gas, nonce, logs, transfers, journal⟩ := t
  obtain ⟨rfl, rfl, rfl, rfl, -, -⟩ := h
  show ({ s with arena := arena.abandon s.current, gasRemaining := gas, journal } : State ν) = _
  rw [show arena.abandon s.current = s.arena from harena]
  rfl

/-! ### Entering -/

/-- The state once a message was announced. -/
def announce (s : State ν) (m : Message) : State ν :=
  s.emit (.apply m s.arena.depth s.gasRemaining)

/-- How a scope begins. A create takes the next nonce and makes a new account at the address that
derives from it. A call runs the code that is at its target. -/
inductive Begins (s : State ν) (m : Message) (scope : Scope ν) (t : State ν) : Prop where
  | create {layer : Nat} {opened : Arena} :
      m.target? = none → scope.frame.constructing = true →
      scope.contract = Address.derive s.transaction s.nonce → t.nonce = s.nonce + 1 →
      s.arena.openLayer s.current = .ok (layer, opened) →
      opened.write layer scope.contract .create = .ok t.arena → Begins s m scope t
  | call {layer : Nat} {code : Bytes} :
      m.target? = some scope.contract → scope.frame.constructing = false →
      s.contractCode? scope.contract = some code → t.nonce = s.nonce →
      s.arena.openLayer s.current = .ok (layer, t.arena) → Begins s m scope t

/-- A scope was opened for a message: it has a new layer, which is the current one now, and what was
there before is what it rolls back to. -/
structure Opens (s : State ν) (m : Message) (scope : Scope ν) (t : State ν) : Prop where
  sound : t.Sound
  size_eq : t.arena.layers.size = s.arena.layers.size + 1
  continues : Continues s.arena.layers.size s t
  gas_eq : t.gasRemaining = s.gasRemaining
  logs_eq : t.logs = s.logs
  transfers_eq : t.transfers = s.transfers
  journal_eq : t.journal = (s.announce m).journal
  saved_eq : scope.saved = s.snapshot
  layer_eq : scope.frame.layer = t.arena.top
  depth_eq : scope.frame.depth = t.arena.depth
  transfer_eq : scope.transfer = transferOf m scope.contract
  covers_eq : s.covers m.gasLimit = true
  frame_eq : scope.frame = t.frameOf m scope.contract scope.frame.constructing
  begins : s.Begins m scope t

theorem Opens.contract_eq {s t : State ν} {m : Message} {scope : Scope ν} (h : s.Opens m scope t) :
    scope.frame.message.contract = scope.contract := by
  rw [h.frame_eq]
  rfl

/-- What entering can lead to. -/
inductive Entered (s : State ν) (m : Message) : Entrance ν × State ν → Prop where
  -- only a call without a method name pays for its failure
  | failed (gas : Gas) (failure : Failure) :
      gas = 0 ∨ gas = s.config.baseCost ∧ failure = .noMethodName ∧ s.covers m.gasLimit = true →
      Entered s m (.settled (.ok (.failed gas failure)), (s.announce m).debit gas)
  | fatal (cause : Fatal) : Entered s m (.settled (.error cause), s.announce m)
  | paid (target : Address) {balance : Amount} :
      s.balance m.sender = .ok balance → m.amount ≤ balance →
      m.action = .contractTransfer target →
      Entered s m (.settled (.ok (.succeeded 0 target none)),
        (s.announce m).record ⟨m.sender, target, m.amount⟩)
  | opened {scope : Scope ν} {t : State ν} : s.Opens m scope t → Entered s m (.opened scope, t)

section

variable {s t : State ν} {m : Message}

/-- Entering charges no more than the message and the budget cover. -/
theorem Entered.gas_le {receipt : Receipt} (h : s.Entered m (.settled (.ok receipt), t)) :
    receipt.gasConsumed ≤ m.gasLimit ∧ receipt.gasConsumed ≤ s.gasRemaining := by
  cases h with
  | failed gas failure hgas =>
    rcases hgas with rfl | ⟨rfl, -, hcovers⟩
    · exact ⟨UInt64.zero_le, UInt64.zero_le⟩
    · simp only [covers, Bool.and_eq_true, decide_eq_true_iff] at hcovers
      exact ⟨hcovers.2, hcovers.1.2⟩
  | paid => exact ⟨UInt64.zero_le, UInt64.zero_le⟩

theorem entered_refuse (failure : Failure) : Entered s m ((s.announce m).refuse 0 failure) := by
  have hsame : (s.announce m).debit 0 = s.announce m := by
    have hgas : s.gasRemaining.sub 0 = s.gasRemaining := by
      rw [← UInt64.toNat_inj, Gas.toNat_sub]
      rfl
    show { s.announce m with gasRemaining := s.gasRemaining.sub 0 } = _
    rw [hgas]
    rfl
  have hfailed := Entered.failed (s := s) (m := m) 0 failure (.inl rfl)
  rw [hsame] at hfailed
  exact hfailed

/-- Opening a scope never fails once the gas is there: the current layer is the top one. -/
theorem entered_openCreate (hs : s.Sound) (htarget : m.target? = none) (code : Bytes)
    (parameters : List Value) (typeName : Option String) :
    Entered s m ((s.announce m).openCreate m code parameters typeName) := by
  rw [openCreate]
  split
  case isFalse => exact entered_refuse _
  case isTrue hcovers =>
    obtain ⟨opened, hopen, -, hwritable⟩ := hs.exists_opened
    obtain ⟨written, hwrite, hraised⟩ :=
      hwritable (Address.derive s.transaction s.nonce) .create
    dsimp only [announce, emit]
    rw [hopen]
    dsimp only
    rw [hwrite]
    exact .opened {
      sound := ⟨hraised.linked, hraised.top_eq.symm⟩
      size_eq := hraised.size_eq
      continues := ⟨rfl, rfl, rfl, rfl, UInt64.le_refl _, hraised.below⟩
      gas_eq := rfl
      logs_eq := rfl
      transfers_eq := rfl
      journal_eq := rfl
      saved_eq := rfl
      layer_eq := hraised.top_eq.symm
      depth_eq := rfl
      transfer_eq := rfl
      covers_eq := hcovers
      frame_eq := rfl
      begins := .create htarget rfl rfl rfl hopen hwrite }

theorem entered_openCall (hs : s.Sound) {target : Address} (htarget : m.target? = some target)
    (method : MethodCall) {code : Bytes} (hcode : s.contractCode? target = some code) :
    Entered s m ((s.announce m).openCall m target method code) := by
  rw [openCall]
  split
  case isFalse => exact entered_refuse _
  case isTrue hcovers =>
    split
    case isFalse => exact .failed _ _ (.inr ⟨rfl, rfl, hcovers⟩)
    case isTrue =>
      obtain ⟨opened, hopen, hraised, -⟩ := hs.exists_opened
      dsimp only [announce, emit]
      rw [hopen]
      exact .opened {
        sound := ⟨hraised.linked, hraised.top_eq.symm⟩
        size_eq := hraised.size_eq
        continues := ⟨rfl, rfl, rfl, rfl, UInt64.le_refl _, hraised.below⟩
        gas_eq := rfl
        logs_eq := rfl
        transfers_eq := rfl
        journal_eq := rfl
        saved_eq := rfl
        layer_eq := hraised.top_eq.symm
        depth_eq := rfl
        transfer_eq := rfl
        covers_eq := hcovers
        frame_eq := rfl
        begins := .call htarget rfl hcode rfl hopen }

theorem entered_callCode (hs : s.Sound) {target : Address} (htarget : m.target? = some target)
    (method : MethodCall) : Entered s m ((s.announce m).callCode m target method) := by
  rw [callCode]
  split
  case h_1 => exact entered_refuse _
  case h_2 code hcode => exact entered_openCall hs htarget method hcode

theorem entered_ifAffordable {act : State ν → Entrance ν × State ν}
    (hact : ∀ balance, s.balance m.sender = .ok balance → m.amount ≤ balance →
      Entered s m (act (s.announce m))) :
    Entered s m ((s.announce m).ifAffordable m act) := by
  rw [ifAffordable]
  split
  case h_1 => exact .fatal _
  case h_2 balance hbalance =>
    split
    case isTrue => exact entered_refuse _
    case isFalse hpay => exact hact balance hbalance (BitVec.not_lt.mp hpay)

/-- **Entering settles a message at once, or opens one scope for it.** -/
theorem entered_enter (hs : s.Sound) (m : Message) : Entered s m (s.enter m) := by
  have htarget : m.target? = m.action.target? := rfl
  rw [enter]
  cases haction : m.action with
  | externalCreate code parameters typeName =>
    rw [haction] at htarget
    exact entered_openCreate hs htarget _ _ _
  | internalCreate parameters typeName =>
    rw [haction] at htarget
    dsimp only
    split
    · exact .fatal _
    · split
      · exact .fatal _
      · exact entered_openCreate hs htarget _ _ _
  | externalCall target method =>
    rw [haction] at htarget
    exact entered_callCode hs htarget _
  | internalCall target method =>
    rw [haction] at htarget
    exact entered_ifAffordable fun _ _ _ => entered_callCode hs htarget _
  | contractTransfer target =>
    rw [haction] at htarget
    refine entered_ifAffordable fun balance hbalance hpay => ?_
    split
    case h_1 => exact .paid target hbalance hpay haction
    case h_2 code hcode => exact entered_openCall hs htarget _ hcode

end

end State

/-! ### Leaving -/

/-- What the budget still has to pay when the code of a frame has ended: nested transitions have
paid for themselves. -/
def Frame.owed (frame : Frame) : Gas := frame.meter.consumed.sub frame.nestedGas

namespace Scope

variable (scope : Scope ν)

/-- The state once the layer of a scope was merged into its parent and its value has moved. -/
def merged (consumed : Gas) (parent : Nat) (arena : Arena) (s : State ν) : State ν :=
  let s := { s with arena, current := parent }.emit (.commit scope.frame.layer consumed)
  match scope.transfer with
  | none => s
  | some transfer => s.record transfer

theorem merged_eq (consumed : Gas) (parent : Nat) (arena : Arena) (s : State ν) :
    scope.merged consumed parent arena s = { s with
      arena
      current := parent
      transfers := s.transfers ++ scope.transfer.toList
      journal := (scope.merged consumed parent arena s).journal } := by
  rw [merged]
  cases scope.transfer with
  | none => simp [State.emit]
  | some transfer => rfl

/-- What leaving can lead to, by how the code ended. -/
inductive Left (frame : Frame) (s : State ν) : Outcome → Except Fatal Receipt × State ν → Prop where
  | faulted (fault : Fault) :
      Left frame s (.error (.fault fault))
        (.ok (.failed frame.meter.consumed (.faulted fault)),
          scope.discard frame.meter.consumed (s.debit frame.owed))
  | stopped (cause : Fatal) :
      Left frame s (.error (.fatal cause)) (.error cause, (s.debit frame.owed).rollback scope.saved)
  | unaffordable (returned : Option Value) :
      scope.canPay s = .ok false →
      Left frame s (.ok returned)
        (.ok (.failed frame.meter.consumed .insufficientBalance),
          scope.discard frame.meter.consumed (s.debit frame.owed))
  -- the two ways to end in a fatal without a rollback
  | unreadable (returned : Option Value) {cause : Fatal} :
      scope.canPay s = .error cause → Left frame s (.ok returned) (.error cause, s.debit frame.owed)
  | buried (returned : Option Value) {cause : Fatal} :
      scope.canPay s = .ok true → s.arena.commit scope.frame.layer = .error cause →
      Left frame s (.ok returned) (.error cause, s.debit frame.owed)
  | merged (returned : Option Value) {parent : Nat} {arena : Arena} :
      scope.canPay s = .ok true → s.arena.commit scope.frame.layer = .ok (parent, arena) →
      Left frame s (.ok returned)
        (.ok (.succeeded frame.meter.consumed scope.contract returned),
          scope.merged frame.meter.consumed parent arena (s.debit frame.owed))

theorem left_leave (outcome : Outcome) (frame : Frame) (s : State ν) :
    scope.Left frame s outcome (scope.leave outcome frame s) := by
  cases outcome with
  | error stop =>
    cases stop with
    | fault fault => exact .faulted fault
    | fatal cause => exact .stopped cause
  | ok returned =>
    rw [leave]
    -- the debit touches nothing that a balance depends on
    split
    case h_1 hcan => exact .unreadable returned hcan
    case h_3 hcan => exact .unaffordable returned hcan
    case h_2 hcan =>
      rw [merge]
      split
      case h_1 hcommit => exact .buried returned hcan hcommit
      case h_2 hcommit => exact .merged returned hcan hcommit

/-- Leaving takes from the budget what is owed and nothing else, and a receipt reports what was
consumed. -/
theorem Left.gas_eq {scope : Scope ν} {frame : Frame} {s : State ν} {outcome : Outcome}
    {r : Except Fatal Receipt × State ν} (h : scope.Left frame s outcome r) :
    r.2.gasRemaining = s.gasRemaining.sub frame.owed ∧
      ∀ receipt, r.1 = .ok receipt → receipt.gasConsumed = frame.meter.consumed := by
  cases h with
  | faulted fault => exact ⟨rfl, fun receipt h => by rw [← Except.ok.inj h]; rfl⟩
  | unaffordable returned hcan => exact ⟨rfl, fun receipt h => by rw [← Except.ok.inj h]; rfl⟩
  | stopped cause => exact ⟨rfl, nofun⟩
  | unreadable returned hcan => exact ⟨rfl, nofun⟩
  | buried returned hcan hcommit => exact ⟨rfl, nofun⟩
  | merged returned hcan hcommit =>
    rw [merged_eq]
    exact ⟨rfl, fun receipt h => by rw [← Except.ok.inj h]; rfl⟩

end Scope

end ContractExec
