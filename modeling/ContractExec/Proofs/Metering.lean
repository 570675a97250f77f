import ContractExec.Proofs.Consumption
import ContractExec.Proofs.Verdict

/-!
# What the meters of frames can show

A meter may be told to record more than its limit: gas that nested messages report is put on it
without a look at the limit. It never comes to that. A scope is opened only if its limit covers the
base cost, a frame passes on no more than it has available, and a message reports no more than was
passed on to it. None of this depends on what the code does with a fatal that it receives, since a
fatal is not charged at all.

* `State.Opens.metered_run` — the meter of a frame when its code has ended;
* `Moment.Metered`, `Moment.Reached.metered` — **every open frame has consumed the base cost at least
  and its limit at most**, at every moment;
* `Active.Exact`, `exact_of_metered` — what is put on the meter next is put there in full;
* `consumption_within_limit` — no message consumes more than its limit.
-/

namespace ContractExec

variable {ν : Type}

/-! ### When code has ended -/

namespace State

variable {s t : State ν} {m : Message} {scope : Scope ν}

/-- A message reports no more than its gas limit. -/
theorem gasConsumed_le (hs : s.Sound) {receipt : Receipt}
    (hreceipt : (s.apply m).1 = .ok receipt) : receipt.gasConsumed ≤ m.gasLimit := by
  have hreported : Application.reported ⟨m, s⟩ = receipt.gasConsumed.toNat := by
    rw [Application.reported, Application.result, hreceipt]
  have hlimit := (Application.billed hs m).le_limit
  rw [hreported] at hlimit
  exact UInt64.le_iff_toNat_le.mpr hlimit

/-- Whatever the code of a scope does, its meter ends within the limit, and not below the base cost. -/
theorem Opens.metered_run (h : s.Opens m scope t) (henter : s.enter m = (.opened scope, t))
    {outcome : Outcome} {x : Active ν}
    (hrun : scope.program.run (fun m s => s.apply m) ⟨scope.frame, t⟩ = (outcome, x)) :
    x.frame.Metered s.config.baseCost m.gasLimit := by
  refine h.run_issued henter hrun
    (J := fun _ x => x.frame.Metered s.config.baseCost m.gasLimit)
    (fun _ hmetered hacted => hacted.metered hmetered)
    (fun {l x n} hx hmetered hissues => ?_) (fun _ hmetered => hmetered) h.metered.1
  exact (Application.metered_followed hmetered hissues (Application.billed hx.sound n)).1

end State

/-! ### At every moment -/

/-- Every open frame is metered under the limit of its message. -/
def Moment.Metered : Moment ν → Prop
  | idle _ => True
  | running waiting _ x =>
    ∀ frame ∈ x.frame :: waiting, frame.Metered x.state.config.baseCost frame.message.gasLimit

/-- What the next request can put on the meter of the frame is put there in full: a cost that is
accepted, and what a message that the frame issues reports. -/
structure Active.Exact (x : Active ν) : Prop where
  charge_eq : ∀ cost, cost ≤ x.frame.meter.available →
    (x.charge cost).2.frame.meter.consumed.toNat = x.frame.meter.consumed.toNat + cost.toNat
  nested_le : ∀ n receipt, x.Issues n → (x.state.apply n).1 = .ok receipt →
    receipt.gasConsumed ≤ x.frame.meter.available
  nested_eq : ∀ n receipt, x.Issues n → (x.state.apply n).1 = .ok receipt →
    (x.frame.chargeNested receipt).meter.consumed.toNat
        = x.frame.meter.consumed.toNat + receipt.gasConsumed.toNat ∧
      (x.frame.chargeNested receipt).nestedGas.toNat
        = x.frame.nestedGas.toNat + receipt.gasConsumed.toNat

section

variable {x y : Active ν} {waiting : List Frame} {p p' : Program ν Outcome}

/-- A message that a frame issues reports no more than the frame has available. -/
theorem Active.Issues.reported_le (hx : x.state.Sound) {n : Message} {receipt : Receipt}
    (h : x.Issues n) (hreceipt : (x.state.apply n).1 = .ok receipt) :
    receipt.gasConsumed ≤ x.frame.meter.available :=
  UInt64.le_trans (State.gasConsumed_le hx hreceipt) h.gasLimit_le

/-- One request leaves the schedule alone. -/
theorem Active.config_answer (hx : x.state.Sound) (q : Request) :
    (x.answer (fun m s => s.apply m) q).2.state.config = x.state.config := by
  rcases x.acted_or_issued (fun m s => s.apply m) q with ⟨-, hacted⟩ | ⟨n, -, -, hfollow⟩
  · obtain ⟨arena, logs, hstate⟩ := hacted.state_eq
    rw [hstate]
  · rw [hfollow, state_follow]
    exact (State.transition_apply hx n).later.config_eq

/-- **One request** keeps the meter of the frame within its limit, whatever it is answered. -/
theorem Frame.Metered.answer {base limit : Gas} (h : x.frame.Metered base limit)
    (hx : x.state.Sound) (q : Request) :
    (x.answer (fun m s => s.apply m) q).2.frame.Metered base limit := by
  rcases x.acted_or_issued (fun m s => s.apply m) q with ⟨-, hacted⟩ | ⟨n, -, hissues, hfollow⟩
  · exact hacted.metered h
  · rw [hfollow]
    exact (Application.metered_followed h hissues (Application.billed hx n)).1

theorem Active.exact_of_metered (hx : x.state.Sound) {base limit : Gas}
    (h : x.frame.Metered base limit) : x.Exact where
  charge_eq cost hfits := Meter.toNat_consumed_charge hfits
  nested_le n receipt hissues hreceipt := hissues.reported_le hx hreceipt
  nested_eq n receipt hissues hreceipt := by
    have hfits := hissues.reported_le hx hreceipt
    exact ⟨Meter.toNat_consumed_spend hfits, (h.chargeNested hfits).2⟩

namespace Moment

/-- Only the innermost frame changes, and its limit stays. -/
theorem Metered.replace (h : Metered (.running waiting p x))
    (hconfig : y.state.config = x.state.config) (hmessage : y.frame.message = x.frame.message)
    (hmetered : y.frame.Metered x.state.config.baseCost x.frame.message.gasLimit) :
    Metered (.running waiting p' y) := by
  intro frame hframe
  rw [hconfig]
  rcases List.mem_cons.mp hframe with rfl | hwaiting
  · rw [hmessage]
    exact hmetered
  · exact h frame (List.mem_cons_of_mem _ hwaiting)

/-- A scope begins with a frame of its own. -/
theorem metered_opened {s t : State ν} {m : Message} {scope : Scope ν} (hopens : s.Opens m scope t)
    (hwaiting : ∀ frame ∈ waiting, frame.Metered s.config.baseCost frame.message.gasLimit) :
    Metered (.running waiting p ⟨scope.frame, t⟩) := by
  intro frame hframe
  show frame.Metered t.config.baseCost _
  rw [hopens.continues.config_eq]
  rcases List.mem_cons.mp hframe with rfl | hmem
  · have hlimit : scope.frame.message.gasLimit = m.gasLimit := by
      rw [hopens.frame_eq]
      rfl
    rw [hlimit]
    exact hopens.metered.1
  · exact hwaiting frame hmem

/-- **Every open frame is metered**, at every moment of every transaction. -/
theorem Reached.metered {μ : Moment ν} (h : μ.Reached) : μ.Metered := by
  induction h with
  | new config vm backend transaction gasLimit => trivial
  | applied m hs ih => trivial
  | entered hs henter ih => exact metered_opened (State.opens_of_enter hs.sound henter) nofun
  | nested hx hissue henter ih =>
    exact metered_opened (State.opens_of_enter hx.sound.state henter) ih
  | @asked waiting q next x hx ih =>
    have hsound : x.state.Sound := hx.sound.state
    have hinner := ih x.frame List.mem_cons_self
    obtain ⟨meter, nestedGas, hframe⟩ := (x.answered_answer (fun m s => s.apply m) q).frame_eq
    have hmessage : (x.answer (fun m s => s.apply m) q).2.frame.message = x.frame.message := by
      rw [hframe]
    exact ih.replace (x.config_answer hsound q) hmessage (hinner.answer hsound q)
  | noted hx ih => exact ih
  | recalled hx ih => exact ih

end Moment

end

/-! ### What receipts report -/

namespace State

variable {s t : State ν} {m : Message} {scope : Scope ν} {receipt : Receipt}

/-- A message that opens a scope reports the base cost at least, and does not fail for want of a name. -/
theorem reports_opened (hs : s.Sound) (henter : s.enter m = (.opened scope, t))
    (hreceipt : (s.apply m).1 = .ok receipt) :
    s.config.baseCost ≤ receipt.gasConsumed ∧ receipt.failure? ≠ some .noMethodName := by
  have hopens := opens_of_enter hs henter
  rcases hrun : scope.program.run (fun m s => s.apply m) ⟨scope.frame, t⟩ with ⟨outcome, x⟩
  have happly := apply_eq hs m
  rw [applyWith_opened henter, hrun] at happly
  have hleft := scope.left_leave outcome x.frame x.state
  rw [← happly] at hleft
  constructor
  · have hnested := (hopens.metered_run henter hrun).nested_le
    rw [hleft.gas_eq.2 receipt hreceipt, UInt64.le_iff_toNat_le]
    omega
  · intro hfailure
    generalize s.apply m = r at hleft hreceipt
    cases hleft with
    | faulted fault
    | unaffordable returned hcan
    | merged returned hcan hcommit =>
      injection hreceipt with hreceipt
      rw [← hreceipt] at hfailure
      cases hfailure
    | stopped cause
    | unreadable returned hcan
    | buried returned hcan hcommit => cases hreceipt

/-- A message that opens no scope reports the base cost where the name of its method is missing, and
nothing otherwise. -/
theorem reports_settled (hs : s.Sound) (henter : s.enter m = (.settled (.ok receipt), t)) :
    receipt.gasConsumed
      = if receipt.failure? = some .noMethodName then s.config.baseCost else 0 := by
  cases verdict_enter hs henter with
  | noMethodName heligible hcovers => rfl
  | insufficientGas heligible hcovers => rfl
  | insufficientBalance hinternal hbalance hpoor => rfl
  | noCode htarget hnone => rfl
  | paid haction hnone => rfl

end State

/-- **No message consumes more than its limit.** A message that ends with a receipt, at any moment of a
transaction and at any depth, reports no more than its gas limit. If it opened a scope it reports the
base cost at least, and its meter began there; if it opened none, it reports the base cost where the
name of the method was missing and nothing else. And whenever code runs, whatever became of the
messages below, every open frame has consumed the base cost at least and its limit at most, and what
is put on the meter of the running frame next neither overdraws it nor is cut short. -/
theorem consumption_within_limit {μ : Moment ν} (hμ : μ.Reached) :
    (∀ m receipt, (μ.state.apply m).1 = .ok receipt →
      receipt.gasConsumed ≤ m.gasLimit ∧
      (receipt.failure? = some .noMethodName → receipt.gasConsumed = μ.state.config.baseCost) ∧
      (∀ scope t, μ.state.enter m = (.opened scope, t) →
        scope.frame.meter.consumed = μ.state.config.baseCost ∧
          μ.state.config.baseCost ≤ receipt.gasConsumed) ∧
      ∀ result t, μ.state.enter m = (.settled result, t) →
        receipt.failure? ≠ some .noMethodName → receipt.gasConsumed = 0) ∧
    ∀ waiting program x, μ = .running waiting program x →
      (∀ frame ∈ x.frame :: waiting, frame.meter.limit = frame.message.gasLimit ∧
        x.state.config.baseCost ≤ frame.meter.consumed ∧
        frame.meter.consumed ≤ frame.meter.limit) ∧
      x.Exact := by
  refine ⟨fun m receipt hreceipt => ?_, ?_⟩
  · have hs : μ.state.Sound := hμ.sound.state
    refine ⟨State.gasConsumed_le hs hreceipt, ?_, ?_, ?_⟩
    · intro hfailure
      rcases henter : μ.state.enter m with ⟨result | scope, t⟩
      · rw [State.apply_settled hs henter] at hreceipt
        rw [show result = .ok receipt from hreceipt] at henter
        rw [State.reports_settled hs henter, if_pos hfailure]
      · exact absurd hfailure (State.reports_opened hs henter hreceipt).2
    · intro scope t henter
      exact ⟨(State.opens_of_enter hs henter).consumed_eq,
        (State.reports_opened hs henter hreceipt).1⟩
    · intro result t henter hfailure
      rw [State.apply_settled hs henter] at hreceipt
      rw [show result = .ok receipt from hreceipt] at henter
      rw [State.reports_settled hs henter, if_neg hfailure]
  · rintro waiting program x rfl
    have hmetered := hμ.metered
    refine ⟨fun frame hframe => ?_, ?_⟩
    · have hframe' := hmetered frame hframe
      refine ⟨hframe'.limit_eq, ?_, ?_⟩
      · have hnested := hframe'.nested_le
        rw [UInt64.le_iff_toNat_le]
        omega
      · rw [hframe'.limit_eq]
        exact hframe'.consumed_le
    · exact Active.exact_of_metered hμ.sound.state (hmetered x.frame List.mem_cons_self)

-- the nested call of `outer` has ended in a fatal, and the code around it has control again
theorem consumption_within_limit_of_outer :
    (∃ (program : Program Empty Outcome) (x : Active Empty),
      (Moment.running [] program x).Reached ∧ x.state.gasRemaining = 4000 ∧
        x.frame.meter = ⟨4000, 1000⟩ ∧ x.state.config.baseCost ≤ x.frame.meter.consumed ∧
        x.frame.meter.consumed ≤ x.frame.meter.limit ∧ x.Exact) ∧
    (droppingState.apply droppingCall).1 = .ok (.succeeded 1000 1 none) ∧
      (1000 : Gas) ≤ droppingCall.gasLimit := by
  have hstart : (Moment.idle droppingState).Reached := .new _ _ _ _ _
  have hreceipt : (droppingState.apply droppingCall).1 = .ok (.succeeded 1000 1 none) := by
    decide +kernel
  have hdropped := (hstart.entered (rfl : droppingState.enter droppingCall = _)).asked
  obtain ⟨hframes, hexact⟩ := (consumption_within_limit hdropped).2 _ _ _ rfl
  obtain ⟨-, hbase, hlimit⟩ := hframes _ List.mem_cons_self
  refine ⟨⟨_, _, hdropped, ?_, ?_, hbase, hlimit, hexact⟩, hreceipt, ?_⟩
  · decide +kernel
  · decide +kernel
  · exact ((consumption_within_limit hstart).1 _ _ hreceipt).1

end ContractExec
