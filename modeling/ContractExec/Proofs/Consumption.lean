import ContractExec.Proofs.Application
import ContractExec.Proofs.Moment

/-!
# What the budget pays

A frame puts on its meter what its own code costs and what the receipts of nested messages report.
The budget pays for a frame once, when its scope is left, and only for the part that nested messages
have not paid. A nested message that ends in a fatal reports nothing: what it paid stays paid, and
if the code around it goes on, no meter ever shows it.

* `Frame.Metered` — the invariant of a frame: the base cost and nested gas within consumed gas, and
  that within the limit;
* `Application.untold`, `untoldIn` — the gas of applications that ended in a fatal;
* `Application.Paying` — what the budget has paid while code runs; `acted`, `followed` keep it;
* `Application.Billed`, `billed` — **the budget pays what the receipt reports and what nobody was told
  of**, at every depth;
* `debit_exact_unless_dropped` — a receipt reports all that the budget paid, unless a fatal that had
  cost gas was dropped below;
* `dropped_fatal_untold` — code that drops one.
-/

namespace ContractExec

variable {ν : Type}

/-! ### Meters of frames -/

/-- A frame under a limit has not consumed more than that, nor less than the base cost and what nested
messages have reported to it. -/
structure Frame.Metered (base limit : Gas) (frame : Frame) : Prop where
  limit_eq : frame.meter.limit = limit
  consumed_le : frame.meter.consumed ≤ limit
  nested_le : base.toNat + frame.nestedGas.toNat ≤ frame.meter.consumed.toNat

namespace Frame.Metered

variable {base limit : Gas} {frame : Frame}

theorem charge (h : frame.Metered base limit) (cost : Gas) :
    Frame.Metered base limit { frame with meter := (frame.meter.charge cost).2 } where
  limit_eq := (frame.meter.limit_charge cost).trans h.limit_eq
  consumed_le := by
    have hle := Meter.consumed_charge_le (m := frame.meter) (by rw [h.limit_eq]; exact h.consumed_le)
      cost
    rw [h.limit_eq] at hle
    exact hle
  nested_le :=
    Nat.le_trans h.nested_le (UInt64.le_iff_toNat_le.mp (frame.meter.le_consumed_charge cost))

/-- What a nested message reports is put on both figures in full, if it was available. -/
theorem chargeNested (h : frame.Metered base limit) {receipt : Receipt}
    (hfits : receipt.gasConsumed ≤ frame.meter.available) :
    (frame.chargeNested receipt).Metered base limit ∧
      (frame.chargeNested receipt).nestedGas.toNat
        = frame.nestedGas.toNat + receipt.gasConsumed.toNat := by
  have hconsumed : (frame.chargeNested receipt).meter.consumed.toNat
      = frame.meter.consumed.toNat + receipt.gasConsumed.toNat :=
    Meter.toNat_consumed_spend hfits
  have hnested := h.nested_le
  have hsmall := (frame.chargeNested receipt).meter.consumed.toNat_le_greatest
  have hadded : (frame.chargeNested receipt).nestedGas.toNat
      = frame.nestedGas.toNat + receipt.gasConsumed.toNat :=
    Gas.toNat_add_of_le (by omega)
  refine ⟨⟨h.limit_eq, ?_, ?_⟩, hadded⟩
  · have hwithin := UInt64.le_iff_toNat_le.mp hfits
    have hlimit := UInt64.le_iff_toNat_le.mp h.consumed_le
    rw [Meter.toNat_available, h.limit_eq] at hwithin
    rw [UInt64.le_iff_toNat_le, hconsumed]
    omega
  · rw [hadded, hconsumed]
    omega

/-- What is owed at the end and what nested messages have paid is all that was consumed. -/
theorem owed_add_nestedGas (h : frame.Metered base limit) :
    frame.owed.toNat + frame.nestedGas.toNat = frame.meter.consumed.toNat := by
  have hnested := h.nested_le
  rw [Frame.owed, Gas.toNat_sub]
  omega

end Frame.Metered

theorem Frame.nestedLimit_le (frame : Frame) (gas : Option Gas) :
    frame.nestedLimit gas ≤ frame.meter.available := by
  cases gas with
  | none => exact UInt64.le_refl _
  | some gas =>
    show (if gas ≤ frame.meter.available then gas else frame.meter.available) ≤ _
    split
    case isTrue hle => exact hle
    case isFalse => exact UInt64.le_refl _

/-- A frame issues no message for more gas than it has available. -/
theorem Active.Issues.gasLimit_le {x : Active ν} {m : Message} (h : x.Issues m) :
    m.gasLimit ≤ x.frame.meter.available := by
  obtain ⟨amount, gas, action, rfl⟩ := h.exists_eq_outgoing
  exact x.frame.nestedLimit_le gas

theorem Active.Acted.metered {base limit : Gas} {x y : Active ν}
    (h : x.frame.Metered base limit) (hacted : x.Acted y) : y.frame.Metered base limit := by
  have hpay : ∀ {z : Active ν}, x.Paid z → z.frame.Metered base limit := by
    intro z hpaid
    cases hpaid with
    | free => exact h
    | charged cost => exact h.charge cost
  cases hacted with
  | paid hpaid
  | written hpaid hmay hwrite
  | logged log hpaid =>
    have hy := hpay hpaid
    exact hy

/-- The meter of a frame begins at the base cost. -/
theorem State.Opens.consumed_eq {s t : State ν} {m : Message} {scope : Scope ν}
    (h : s.Opens m scope t) : scope.frame.meter.consumed = s.config.baseCost := by
  rw [h.frame_eq, State.frameOf, h.continues.config_eq]
  exact Gas.zero_add s.config.baseCost

/-- The base cost, with which the meter of a frame begins, is covered by its limit. -/
theorem State.Opens.metered {s t : State ν} {m : Message} {scope : Scope ν}
    (h : s.Opens m scope t) :
    scope.frame.Metered s.config.baseCost m.gasLimit ∧ scope.frame.nestedGas = 0 := by
  have hcovers := h.covers_eq
  simp only [State.covers, Bool.and_eq_true, decide_eq_true_iff] at hcovers
  have hnested : scope.frame.nestedGas = 0 := by
    rw [h.frame_eq]
    rfl
  refine ⟨⟨?_, ?_, ?_⟩, hnested⟩
  · rw [h.frame_eq]
    rfl
  · rw [h.consumed_eq]
    exact hcovers.2
  · rw [h.consumed_eq, hnested]
    exact Nat.le_refl _

/-! ### Gas that nobody is told of -/

namespace Application

/-- What the receipt of an application reports. A fatal comes without a receipt. -/
def reported (a : Application ν) : Nat :=
  match a.result.1 with
  | .ok receipt => receipt.gasConsumed.toNat
  | .error _ => 0

/-- What the meter of an application shows when its code has ended, zero where no code ran. -/
def metered (a : Application ν) : Nat :=
  match a.state.ending a.message with
  | some (_, _, x) => x.frame.meter.consumed.toNat
  | none => 0

/-- The gas of an application that ended in a fatal. -/
def untold (a : Application ν) : Nat :=
  match a.result.1 with
  | .ok _ => 0
  | .error _ => a.metered

/-- The gas that nobody is told of, over a list of applications. -/
def untoldIn : List (Application ν) → Nat
  | [] => 0
  | a :: rest => a.untold + untoldIn rest

theorem untoldIn_append (l k : List (Application ν)) :
    untoldIn (l ++ k) = untoldIn l + untoldIn k := by
  induction l with
  | nil => exact (Nat.zero_add _).symm
  | cons a l ih =>
    show _ + untoldIn (l ++ k) = _ + untoldIn l + untoldIn k
    rw [ih, Nat.add_assoc]

theorem untoldIn_eq_zero_iff {l : List (Application ν)} :
    untoldIn l = 0 ↔ ∀ a ∈ l, a.untold = 0 := by
  induction l with
  | nil => exact ⟨fun _ => nofun, fun _ => rfl⟩
  | cons a l ih => rw [untoldIn, Nat.add_eq_zero_iff, ih, List.forall_mem_cons]

/-- What an application takes from the budget, and how much of it its receipt can tell. -/
structure Billed (a : Application ν) : Prop where
  gas_eq : a.result.2.gasRemaining.toNat
    = a.state.gasRemaining.toNat - (a.reported + untoldIn a.tree)
  le_limit : a.reported ≤ a.message.gasLimit.toNat
  le_budget : a.reported ≤ a.state.gasRemaining.toNat

variable {s t : State ν} {m : Message} {scope : Scope ν}

/-! ### One level -/

theorem billed_settled (hs : s.Sound) {result : Except Fatal Receipt}
    (henter : s.enter m = (.settled result, t)) (hentered : s.Entered m (.settled result, t)) :
    Billed ⟨m, s⟩ := by
  have hresult : Application.result ⟨m, s⟩ = (result, t) := State.apply_settled hs henter
  have hmetered : metered ⟨m, s⟩ = 0 := by rw [metered, State.ending_settled henter]
  have htree : untoldIn (tree ⟨m, s⟩) = 0 := by
    rw [tree, below_eq hs, issued_settled henter, List.flatMap_nil, untoldIn, untold, hresult,
      hmetered]
    cases result <;> rfl
  cases hentered with
  | failed gas failure hgas =>
    have hreported : reported ⟨m, s⟩ = gas.toNat := by rw [reported, hresult]; rfl
    have hcovered := (State.Entered.failed gas failure hgas).gas_le
    refine ⟨?_, ?_, ?_⟩
    · rw [hreported, htree, hresult]
      exact Gas.toNat_sub _ _
    · rw [hreported]
      exact UInt64.le_iff_toNat_le.mp hcovered.1
    · rw [hreported]
      exact UInt64.le_iff_toNat_le.mp hcovered.2
  | fatal cause
  | paid target hbalance hpay =>
    have hreported : reported ⟨m, s⟩ = 0 := by simp [reported, hresult, Receipt.gasConsumed]
    refine ⟨?_, ?_, ?_⟩
    · rw [hreported, htree, hresult]
      rfl
    · rw [hreported]
      exact Nat.zero_le _
    · rw [hreported]
      exact Nat.zero_le _

/-- A nested message with a receipt is on the meter from then on. One that ended in a fatal is not. -/
theorem metered_followed {base limit : Gas} {x : Active ν} (h : x.frame.Metered base limit)
    {n : Message} (hissues : x.Issues n) (hbilled : Billed ⟨n, x.state⟩) :
    (x.follow (fun m s => s.apply m) (.issued n)).2.frame.Metered base limit ∧
      (x.follow (fun m s => s.apply m) (.issued n)).2.frame.nestedGas.toNat
        = x.frame.nestedGas.toNat + reported ⟨n, x.state⟩ := by
  rcases hresult : x.state.apply n with ⟨cause | receipt, u⟩
  · have hreported : reported ⟨n, x.state⟩ = 0 := by rw [reported, result, hresult]
    rw [Active.follow, hresult, hreported]
    exact ⟨h, rfl⟩
  · have hreported : reported ⟨n, x.state⟩ = receipt.gasConsumed.toNat := by
      rw [reported, result, hresult]
    have hfits : receipt.gasConsumed ≤ x.frame.meter.available := by
      refine UInt64.le_trans ?_ hissues.gasLimit_le
      rw [UInt64.le_iff_toNat_le, ← hreported]
      exact hbilled.le_limit
    rw [Active.follow, hresult, hreported]
    exact h.chargeNested hfits

/-- While code runs under a limit, the budget has paid what nested messages have reported to the frame
and what nobody was told of. -/
structure Paying (base limit budget : Gas) (l : List (Application ν)) (x : Active ν) : Prop where
  metered : x.frame.Metered base limit
  gas_eq : x.state.gasRemaining.toNat
    = budget.toNat - (x.frame.nestedGas.toNat + untoldIn (l.flatMap tree))

namespace Paying

variable {base limit budget : Gas} {l : List (Application ν)} {x y : Active ν}

theorem acted (h : Paying base limit budget l x) (hacted : x.Acted y) :
    Paying base limit budget l y := by
  obtain ⟨meter, hframe⟩ := hacted.frame_eq
  have hnested : y.frame.nestedGas = x.frame.nestedGas := by rw [hframe]
  obtain ⟨arena, logs, hstate⟩ := hacted.state_eq
  refine ⟨hacted.metered h.metered, ?_⟩
  rw [hstate, hnested]
  exact h.gas_eq

theorem followed (h : Paying base limit budget l x) {n : Message} (hissues : x.Issues n)
    (hbilled : Billed ⟨n, x.state⟩) :
    Paying base limit budget (l ++ [⟨n, x.state⟩])
      (x.follow (fun m s => s.apply m) (.issued n)).2 := by
  obtain ⟨hmetered, hnested⟩ := metered_followed h.metered hissues hbilled
  have hgas : (x.state.apply n).2.gasRemaining.toNat = x.state.gasRemaining.toNat
      - (reported ⟨n, x.state⟩ + untoldIn (tree ⟨n, x.state⟩)) := hbilled.gas_eq
  have hbefore := h.gas_eq
  refine ⟨hmetered, ?_⟩
  rw [hnested, Active.state_follow, hgas, hbefore, List.flatMap_append, List.flatMap_singleton,
    untoldIn_append]
  omega

end Paying

theorem billed_left (hs : s.Sound) (henter : s.enter m = (.opened scope, t))
    (hopens : s.Opens m scope t)
    (ih : ∀ {x : Active ν} {n : Message}, x.Within t → x.Issues n → Billed ⟨n, x.state⟩)
    {outcome : Outcome} {x : Active ν}
    (hrun : scope.program.run (fun m s => s.apply m) ⟨scope.frame, t⟩ = (outcome, x))
    (hleft : scope.Left x.frame x.state outcome (s.apply m)) : Billed ⟨m, s⟩ := by
  have hstart : Paying s.config.baseCost m.gasLimit s.gasRemaining [] ⟨scope.frame, t⟩ := by
    obtain ⟨hmetered, hnested⟩ := hopens.metered
    refine ⟨hmetered, ?_⟩
    rw [hopens.gas_eq, hnested]
    rfl
  have hend := hopens.run_issued henter hrun
    (J := Paying s.config.baseCost m.gasLimit s.gasRemaining)
    (fun _ h hacted => h.acted hacted) (fun hx h hissues => h.followed hissues (ih hx hissues))
    (fun _ h => ⟨h.metered, h.gas_eq⟩) hstart
  obtain ⟨hgas, hreport⟩ := hleft.gas_eq
  -- what the meter shows at the end is either reported or untold
  have hsplit : reported ⟨m, s⟩ + untold ⟨m, s⟩ = x.frame.meter.consumed.toNat := by
    have hmetered : metered ⟨m, s⟩ = x.frame.meter.consumed.toNat := by
      rw [metered, State.ending_opened henter, hrun]
    rw [reported, untold, hmetered]
    cases hok : (result ⟨m, s⟩).1 with
    | ok receipt => exact congrArg UInt64.toNat (hreport receipt hok)
    | error cause => exact Nat.zero_add _
  have hlimit := UInt64.le_iff_toNat_le.mp hend.metered.consumed_le
  have hbudget : m.gasLimit.toNat ≤ s.gasRemaining.toNat := by
    have hcovers := hopens.covers_eq
    simp only [State.covers, Bool.and_eq_true, decide_eq_true_iff] at hcovers
    exact UInt64.le_iff_toNat_le.mp hcovers.1.1
  refine ⟨?_, ?_, ?_⟩
  · have hpaid := hend.gas_eq
    have howed := hend.metered.owed_add_nestedGas
    have htree : untoldIn (tree ⟨m, s⟩)
        = untold ⟨m, s⟩ + untoldIn ((issued ⟨m, s⟩).flatMap tree) := by
      rw [tree, untoldIn, below_eq hs]
    show (s.apply m).2.gasRemaining.toNat = s.gasRemaining.toNat - _
    rw [hgas, Gas.toNat_sub, htree]
    omega
  · show _ ≤ m.gasLimit.toNat
    omega
  · show _ ≤ s.gasRemaining.toNat
    omega

/-! ### All levels -/

/-- **The budget pays what the receipt reports and what nobody was told of.** -/
theorem billed (hs : s.Sound) (m : Message) : Billed ⟨m, s⟩ := by
  refine Application.induction (Q := Billed) ?_ hs m
  intro s m hs ih
  have happlied := State.applied_apply hs m
  generalize hr : s.apply m = r at happlied
  cases happlied with
  | settled henter hentered => exact billed_settled hs henter hentered
  | left henter hopens hrun hx hleft =>
    rw [← hr] at hleft
    exact billed_left hs henter hopens (ih hopens) hrun hleft

end Application

open Application (untoldIn untoldIn_eq_zero_iff)

/-- **A receipt reports all that the budget paid, unless a fatal was dropped.** A message that ends
with a receipt, at any moment of a transaction, has taken from the budget what the receipt reports
and the gas of every application below it that ended in a fatal. So the budget has lost exactly what
is reported if no such application had any gas on its meter, and otherwise only if that is the whole
budget, which cannot pay more. -/
theorem debit_exact_unless_dropped {μ : Moment ν} (hμ : μ.Reached) {m : Message} {receipt : Receipt}
    (hreceipt : (μ.state.apply m).1 = .ok receipt) :
    (μ.state.apply m).2.gasRemaining.toNat
        = μ.state.gasRemaining.toNat
          - (receipt.gasConsumed.toNat + untoldIn (Application.below ⟨m, μ.state⟩)) ∧
      receipt.gasConsumed.toNat ≤ μ.state.gasRemaining.toNat ∧
      ((μ.state.apply m).2.gasRemaining.toNat + receipt.gasConsumed.toNat
          = μ.state.gasRemaining.toNat ↔
        (∀ b ∈ Application.below ⟨m, μ.state⟩, b.untold = 0) ∨
          receipt.gasConsumed = μ.state.gasRemaining) := by
  obtain ⟨hgas, -, hbudget⟩ := Application.billed hμ.sound.state m
  have hok : (Application.result ⟨m, μ.state⟩).1 = .ok receipt := hreceipt
  have hreported : Application.reported ⟨m, μ.state⟩ = receipt.gasConsumed.toNat := by
    rw [Application.reported, hok]
  have htree : untoldIn (Application.tree ⟨m, μ.state⟩)
      = untoldIn (Application.below ⟨m, μ.state⟩) := by
    rw [Application.tree, untoldIn, Application.untold, hok]
    exact Nat.zero_add _
  rw [hreported] at hgas hbudget
  rw [htree] at hgas
  have hafter : (μ.state.apply m).2.gasRemaining.toNat = μ.state.gasRemaining.toNat
      - (receipt.gasConsumed.toNat + untoldIn (Application.below ⟨m, μ.state⟩)) := hgas
  have hbound : receipt.gasConsumed.toNat ≤ μ.state.gasRemaining.toNat := hbudget
  refine ⟨hafter, hbound, ?_⟩
  rw [hafter, ← untoldIn_eq_zero_iff, ← UInt64.toNat_inj]
  omega

/-- Methods named `outer` call their own contract and go on whatever comes of it. All others end the
transaction. -/
def dropping : Vm Empty where
  create _ _ _ := .done (.ok none)
  call method _ _ :=
    if method.name = "outer" then
      .ask (.call 1 0 ⟨"inner", []⟩ none) fun _ => .done (.ok none)
    else .done (.error (.fatal (.other "stop")))

def droppingState : State Empty := .new .standard dropping (oneContract 0 0) 0 5000

def droppingCall : Message := ⟨2, 0, 4000, .externalCall 1 ⟨"outer", []⟩⟩

/-- **Not every receipt reports all that the budget paid.** The nested call of `outer` pays the base
cost and ends in a fatal. The code around it goes on and ends well, and reports its own base cost,
half of what the budget has lost. -/
theorem dropped_fatal_untold :
    (Moment.idle droppingState).Reached ∧
      (droppingState.apply droppingCall).1 = .ok (.succeeded 1000 1 none) ∧
      droppingState.gasRemaining = 5000 ∧
      (droppingState.apply droppingCall).2.gasRemaining = 3000 ∧
      (droppingState.apply droppingCall).2.gasRemaining.toNat + (1000 : Gas).toNat
        ≠ droppingState.gasRemaining.toNat := by
  refine ⟨.new _ _ _ _ _, by decide +kernel, by decide +kernel, by decide +kernel, by decide +kernel⟩

theorem debit_exact_unless_dropped_of_outer :
    (droppingState.apply droppingCall).1 = .ok (.succeeded 1000 1 none) ∧
      untoldIn (Application.below ⟨droppingCall, droppingState⟩) = 1000 := by
  have hreceipt : (droppingState.apply droppingCall).1 = .ok (.succeeded 1000 1 none) := by
    decide +kernel
  have hbefore : droppingState.gasRemaining.toNat = 5000 := by decide +kernel
  have hafter : (droppingState.apply droppingCall).2.gasRemaining.toNat = 3000 := by
    decide +kernel
  have hconsumed : (1000 : Gas).toNat = 1000 := by decide
  have hreached : (Moment.idle droppingState).Reached := .new _ _ _ _ _
  obtain ⟨hgas, -⟩ := debit_exact_unless_dropped hreached hreceipt
  dsimp only [Moment.state, Receipt.gasConsumed] at hgas
  rw [hafter, hbefore, hconsumed] at hgas
  exact ⟨hreceipt, by omega⟩

end ContractExec
