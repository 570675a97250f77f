import ContractExec.Proofs.Consumption
import ContractExec.Proofs.Course
import ContractExec.Proofs.Verdict

/-!
# The budget covers the open frames

What a frame consumes is taken from the budget when its scope is left, and what nested messages
consume before that. So while code runs, the budget shows more than what may still be spent, and it is
this figure that the gas of the next message is checked against. The check is sound nonetheless: every
frame got its limit out of what the frame around it had available, so all open frames together fit in
the budget that the outermost message found.

* `nestedGasIn`, `consumedIn` — sums over open frames;
* `Frame.Stacked`, `consumedIn_add_room_le` — frames that got their limits from one another **fit in
  the budget together, with what the innermost one has available**;
* `Moment.Balanced`, `balanced_course` — the budget has paid what the open frames were told of;
* `Active.Covered` — what follows for the next debit and the next check;
* `budget_covers_frames` — **it follows at every moment, as long as no nested message has ended in a
  fatal**.
-/

namespace ContractExec

variable {ν : Type}

/-! ### Stacks of frames -/

/-- The gas that nested messages have reported to the frames. -/
def nestedGasIn : List Frame → Nat
  | [] => 0
  | frame :: outer => frame.nestedGas.toNat + nestedGasIn outer

/-- The gas on the meters of the frames. -/
def consumedIn : List Frame → Nat
  | [] => 0
  | frame :: outer => frame.meter.consumed.toNat + consumedIn outer

namespace Frame

/-- What a new frame inside others can get: what the innermost one has available, and the whole
budget if there is none. -/
def room (budget : Gas) : List Frame → Nat
  | [] => budget.toNat
  | frame :: _ => frame.meter.available.toNat

/-- Frames, the innermost one first, each with a sound meter and with a limit that the frame around it
had available. -/
def Stacked (base budget : Gas) : List Frame → Prop
  | [] => True
  | frame :: outer =>
    frame.Metered base frame.meter.limit ∧ frame.meter.limit.toNat ≤ room budget outer ∧
      Stacked base budget outer

variable {base budget : Gas} {frames : List Frame}

theorem Stacked.nestedGasIn_le (h : Stacked base budget frames) :
    nestedGasIn frames ≤ consumedIn frames := by
  induction frames with
  | nil => exact Nat.le_refl _
  | cons frame outer ih =>
    obtain ⟨hmetered, -, houter⟩ := h
    have hnested := hmetered.nested_le
    have hrest := ih houter
    rw [nestedGasIn, consumedIn]
    omega

/-- **Frames that got their limits from one another fit in the budget together**, with what the
innermost one still has available. -/
theorem Stacked.consumedIn_add_room_le (h : Stacked base budget frames) :
    consumedIn frames + room budget frames ≤ budget.toNat := by
  induction frames with
  | nil => exact Nat.le_of_eq (Nat.zero_add _)
  | cons frame outer ih =>
    obtain ⟨hmetered, hlimit, houter⟩ := h
    have hrest := ih houter
    have hconsumed := UInt64.le_iff_toNat_le.mp hmetered.consumed_le
    have havailable := frame.meter.toNat_available
    rw [consumedIn, room]
    omega

/-- Only the innermost frame changes, and its limit stays. -/
theorem Stacked.replace {frame frame' : Frame} {outer : List Frame}
    (h : Stacked base budget (frame :: outer))
    (hmetered : frame'.Metered base frame.meter.limit) : Stacked base budget (frame' :: outer) := by
  obtain ⟨-, hlimit, houter⟩ := h
  have hsame := hmetered.limit_eq
  refine ⟨?_, ?_, houter⟩
  · rw [hsame]
    exact hmetered
  · rw [hsame]
    exact hlimit

end Frame

/-! ### What has been paid -/

namespace Moment

/-- While code runs, the open frames got their limits from one another, and the budget has paid what
nested messages have reported to them. -/
def Balanced (base budget : Gas) : Moment ν → Prop
  | idle _ => False
  | running waiting _ x =>
    x.state.config.baseCost = base ∧ Frame.Stacked base budget (x.frame :: waiting) ∧
      x.state.gasRemaining.toNat + nestedGasIn (x.frame :: waiting) = budget.toNat

end Moment

variable {base budget : Gas} {waiting : List Frame} {s t : State ν} {m : Message}
  {scope : Scope ν} {x y : Active ν}

/-- A scope begins with a frame of its own, and has not paid for anything. -/
theorem State.Opens.stacked (h : s.Opens m scope t) (hbase : s.config.baseCost = base)
    (houter : Frame.Stacked base budget waiting)
    (hroom : m.gasLimit.toNat ≤ Frame.room budget waiting) :
    Frame.Stacked base budget (scope.frame :: waiting) := by
  obtain ⟨hmetered, -⟩ := h.metered
  have hlimit := hmetered.limit_eq
  rw [← hbase] at houter ⊢
  refine ⟨?_, ?_, houter⟩
  · rw [hlimit]
    exact hmetered
  · rw [hlimit]
    exact hroom

/-- If all applications of a tree end with receipts, there is no gas that nobody is told of. -/
theorem Application.untoldIn_tree_eq_zero {a : Application ν}
    (h : ∀ b ∈ a.tree, ∃ receipt, b.result.1 = .ok receipt) : untoldIn a.tree = 0 := by
  refine untoldIn_eq_zero_iff.mpr fun b hb => ?_
  obtain ⟨receipt, hreceipt⟩ := h b hb
  rw [untold, hreceipt]

namespace Moment

theorem Balanced.acted {p p' : Program ν Outcome} (h : Balanced base budget (.running waiting p x))
    (hacted : x.Acted y) : Balanced base budget (.running waiting p' y) := by
  obtain ⟨hbase, hstacked, hgas⟩ := h
  obtain ⟨arena, logs, hstate⟩ := hacted.state_eq
  obtain ⟨meter, hframe⟩ := hacted.frame_eq
  have hnested : y.frame.nestedGas = x.frame.nestedGas := by rw [hframe]
  refine ⟨?_, hstacked.replace (hacted.metered hstacked.1), ?_⟩
  · rw [hstate]
    exact hbase
  · rw [hstate, nestedGasIn, hnested]
    exact hgas

/-- A nested message that ends with a receipt, as all below it do, is paid and told of in full. -/
theorem Balanced.followed {p p' : Program ν Outcome} (h : Balanced base budget (.running waiting p x))
    (hx : x.state.Sound) {n : Message} (hissues : x.Issues n)
    (hreceipts : ∀ b ∈ Application.tree ⟨n, x.state⟩, ∃ receipt, b.result.1 = .ok receipt) :
    Balanced base budget (.running waiting p' (x.follow (fun m s => s.apply m) (.issued n)).2) := by
  obtain ⟨hbase, hstacked, hgas⟩ := h
  have hbilled := Application.billed hx n
  obtain ⟨hmetered, hnested⟩ := Application.metered_followed hstacked.1 hissues hbilled
  have hpaid := hbilled.gas_eq
  rw [Application.untoldIn_tree_eq_zero hreceipts] at hpaid
  have hbudget := hbilled.le_budget
  refine ⟨?_, hstacked.replace hmetered, ?_⟩
  · rw [Active.state_follow, (State.transition_apply hx n).later.config_eq]
    exact hbase
  · rw [nestedGasIn] at hgas ⊢
    rw [hnested, Active.state_follow]
    dsimp only [Application.result] at hpaid hbudget
    omega

/-- **The budget has paid what the open frames were told of**, at every moment of an outermost message
of which no nested one has ended in a fatal. -/
theorem balanced_course (hs : (Moment.idle s).Reached) (henter : s.enter m = (.opened scope, t))
    {admits : Message → Prop} {returns : List (Return ν)} {μ : Moment ν}
    (hcourse : Course admits (.running [] scope.program ⟨scope.frame, t⟩) returns μ)
    (hreceipts : ∀ a, .applied a ∈ returns → ∃ receipt, a.result.1 = .ok receipt) :
    μ.Balanced s.config.baseCost s.gasRemaining := by
  induction hcourse with
  | start =>
    have hopens := State.opens_of_enter hs.sound henter
    have hcovers := hopens.covers_eq
    simp only [State.covers, Bool.and_eq_true, decide_eq_true_iff] at hcovers
    refine ⟨?_, hopens.stacked rfl trivial (UInt64.le_iff_toNat_le.mp hcovers.1.1), ?_⟩
    · show t.config.baseCost = _
      rw [hopens.continues.config_eq]
    · show t.gasRemaining.toNat + (scope.frame.nestedGas.toNat + 0) = _
      rw [hopens.gas_eq, hopens.metered.2]
      rfl
  | applied h hadmits ih => exact (ih fun a ha => hreceipts a (List.mem_append_left _ ha)).elim
  | entered h hadmits henter ih => exact (ih hreceipts).elim
  | @nested returns waiting q next x u n inner h hissue hinner ih =>
    obtain ⟨hbase, hstacked, hgas⟩ := ih hreceipts
    have hsound := (h.reached (hs.entered henter)).sound.state
    have hopens := State.opens_of_enter hsound hinner
    refine ⟨?_, hopens.stacked hbase hstacked
      (UInt64.le_iff_toNat_le.mp (Active.Issues.gasLimit_le ⟨q, hissue⟩)), ?_⟩
    · show u.config.baseCost = _
      rw [hopens.continues.config_eq]
      exact hbase
    · show u.gasRemaining.toNat + (inner.frame.nestedGas.toNat + nestedGasIn (x.frame :: waiting)) = _
      rw [hopens.gas_eq, hopens.metered.2, ← hgas]
      exact congrArg _ (Nat.zero_add _)
  | @asked returns waiting q next x h ih =>
    have hbefore := ih fun a ha => hreceipts a (List.mem_append_left _ ha)
    have hsound := (h.reached (hs.entered henter)).sound.state
    rcases x.acted_or_issued (fun m s => s.apply m) q with ⟨-, hacted⟩ | ⟨n, hmade, hissues, hfollow⟩
    · exact hbefore.acted hacted
    · rw [hfollow]
      refine hbefore.followed hsound hissues fun b hb => hreceipts b ?_
      exact List.mem_append_right _ (Active.applied_mem_returns hmade hsound hb)
  | noted h ih => exact ih hreceipts
  | recalled h ih => exact ih hreceipts

end Moment

/-! ### What follows -/

/-- The gas that a request asks to pass on. A transfer passes on all that is available. -/
def Request.gas? : Request → Option Gas
  | .create _ _ _ gas => gas
  | .call _ _ _ gas => gas
  | _ => none

/-- Code runs for a message that found a budget, and the budget covers all frames that are open. -/
structure Active.Covered (budget : Gas) (waiting : List Frame) (x : Active ν) : Prop where
  /-- The budget has paid what nested messages have reported, and nothing else. -/
  gas_eq : x.state.gasRemaining.toNat + nestedGasIn (x.frame :: waiting) = budget.toNat
  stacked : Frame.Stacked x.state.config.baseCost budget (x.frame :: waiting)
  consumed_le :
    consumedIn (x.frame :: waiting) + x.frame.meter.available.toNat ≤ budget.toNat
  /-- If the scope is left now, the budget pays all that the frame has not been told of. -/
  debit_eq : (x.state.debit x.frame.owed).gasRemaining.toNat + x.frame.meter.consumed.toNat
    = x.state.gasRemaining.toNat + x.frame.nestedGas.toNat
  /-- If a message is issued now that opens no scope, the budget pays what its receipt reports. -/
  settled_eq : ∀ q n receipt u, x.issueOf q = some (.issued n) →
    x.state.enter n = (.settled (.ok receipt), u) →
    u.gasRemaining.toNat + receipt.gasConsumed.toNat = x.state.gasRemaining.toNat
  /-- If a message is issued now and comes to the gas check, its own limit decides. -/
  refused_iff : ∀ q n, x.issueOf q = some (.issued n) →
    n.gasLimit = x.frame.nestedLimit q.gas? ∧
      (x.state.Eligible n → ∀ gas, (x.state.apply n).1 = .ok (.failed gas .insufficientGas) ↔
        gas = 0 ∧ n.gasLimit < x.state.config.baseCost)

/-- The limit of what is issued is the one that was asked for, within what is available. -/
theorem Active.gasLimit_of_issueOf {q : Request} {n : Message} (h : x.issueOf q = some (.issued n)) :
    n.gasLimit = x.frame.nestedLimit q.gas? := by
  cases q with
  | create amount typeName parameters gas =>
    rw [eq_outgoing_of_issueCreate (Option.some.inj h)]
    rfl
  | call target amount method gas =>
    rw [eq_outgoing_of_issue (Option.some.inj h)]
    rfl
  | transfer target amount =>
    rw [eq_outgoing_of_issue (Option.some.inj h)]
    rfl
  | _ => cases h

/-- A message that opens no scope takes from the budget what its receipt reports. -/
theorem State.gas_settled (hs : s.Sound) {receipt : Receipt}
    (henter : s.enter m = (.settled (.ok receipt), t)) :
    t.gasRemaining.toNat + receipt.gasConsumed.toNat = s.gasRemaining.toNat := by
  have hentered := entered_enter hs m
  rw [henter] at hentered
  have hle := UInt64.le_iff_toNat_le.mp hentered.gas_le.2
  cases hentered with
  | failed gas failure hgas =>
    have hpaid : ((s.announce m).debit gas).gasRemaining.toNat
        = s.gasRemaining.toNat - gas.toNat := Gas.toNat_sub _ _
    rw [Receipt.gasConsumed] at hle ⊢
    rw [hpaid]
    omega
  | paid target hbalance hpay haction => rfl

/-- If the open frames got their limits from one another and the budget has paid what they were told
of, it covers them. -/
theorem Active.covered_of_balanced {p : Program ν Outcome} (hx : x.state.Sound)
    (h : Moment.Balanced base budget (.running waiting p x)) : x.Covered budget waiting := by
  obtain ⟨hbase, hstacked, hgas⟩ := h
  have hfits := hstacked.consumedIn_add_room_le
  have howed := hstacked.1.owed_add_nestedGas
  have houter := hstacked.2.2.nestedGasIn_le
  have hinner := hstacked.1.nested_le
  rw [consumedIn, Frame.room] at hfits
  -- what is available in the innermost frame is left in the budget
  have havailable : x.frame.meter.available.toNat ≤ x.state.gasRemaining.toNat := by
    rw [nestedGasIn] at hgas
    omega
  rw [← hbase] at hstacked
  refine ⟨hgas, hstacked, hfits, ?_, ?_, ?_⟩
  · have hpaid : (x.state.debit x.frame.owed).gasRemaining.toNat
        = x.state.gasRemaining.toNat - x.frame.owed.toNat := Gas.toNat_sub _ _
    rw [nestedGasIn] at hgas
    rw [hpaid]
    omega
  · intro q n receipt u hissue hsettled
    exact State.gas_settled hx hsettled
  · intro q n hissue
    refine ⟨gasLimit_of_issueOf hissue, fun heligible gas => ?_⟩
    have hlimit := UInt64.le_iff_toNat_le.mp (Issues.gasLimit_le ⟨q, hissue⟩)
    rw [State.apply_eq_insufficientGas_iff hx heligible]
    refine and_congr_right fun _ => ?_
    simp only [State.covers, Bool.and_eq_false_iff, decide_eq_false_iff_not, UInt64.le_iff_toNat_le,
      UInt64.lt_iff_toNat_lt]
    omega

/-- **The budget covers the open frames.** An outermost message that opens no scope takes from the
budget what its receipt reports. One that opens a scope found a budget of which, at every moment
until a nested message ends in a fatal, just the gas that nested messages have reported to the open
frames was paid. All that the open frames have consumed, and all that the innermost one has available,
fits in it. So no debit is cut short, and the next message is refused for gas only if its own limit
is below the base cost. -/
theorem budget_covers_frames (hs : (Moment.idle s).Reached) (m : Message) :
    (∀ receipt t, s.enter m = (.settled (.ok receipt), t) →
      t.gasRemaining.toNat + receipt.gasConsumed.toNat = s.gasRemaining.toNat) ∧
    ∀ scope t returns waiting program (x : Active ν), s.enter m = (.opened scope, t) →
      Moment.Course (fun _ => True) (.running [] scope.program ⟨scope.frame, t⟩) returns
        (.running waiting program x) →
      (∀ a, .applied a ∈ returns → ∃ receipt, a.result.1 = .ok receipt) →
      x.Covered s.gasRemaining waiting := by
  refine ⟨fun receipt t hsettled => State.gas_settled hs.sound hsettled, ?_⟩
  intro scope t returns waiting program x henter hcourse hreceipts
  have hsound := (hcourse.reached (hs.entered henter)).sound.state
  exact Active.covered_of_balanced hsound (Moment.balanced_course hs henter hcourse hreceipts)

/-- Methods named `twice` call another method of their own contract twice. -/
def twofold : Vm Empty where
  create _ _ _ := .done (.ok none)
  call method _ _ :=
    if method.name = "twice" then
      .ask (.call 1 0 ⟨"once", []⟩ none) fun _ =>
        .ask (.call 1 0 ⟨"once", []⟩ none) fun _ => .done (.ok none)
    else .done (.ok none)

def twofoldState : State Empty := .new .standard twofold (oneContract 0 0) 0 5000

def twofoldCall : Message := ⟨2, 0, 4000, .externalCall 1 ⟨"twice", []⟩⟩

-- the first nested call has ended and the second one is at its beginning
theorem budget_covers_frames_of_second :
    ∃ (frame : Frame) (x : Active Empty), x.Covered 5000 [frame] ∧
      x.state.gasRemaining = 4000 ∧ frame.nestedGas = 1000 ∧ frame.meter.consumed = 2000 ∧
      x.frame.meter.limit = 2000 ∧ x.frame.meter.available = 1000 := by
  refine ⟨_, _, (budget_covers_frames (.new _ _ _ _ _) twofoldCall).2 _ _ _ _ _ _
    (rfl : twofoldState.enter twofoldCall = _)
    (.nested (.asked .start) rfl rfl) ?_, ?_, ?_, ?_, ?_, ?_⟩
  · exact fun a ha => exists_receipt_of_mem (by decide +kernel) ha
  all_goals decide +kernel

end ContractExec
