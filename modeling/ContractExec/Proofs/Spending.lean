import ContractExec.Proofs.Balances
import ContractExec.Proofs.Moment

/-!
# No money is spent twice

A call that carries value is checked before its code runs and recorded after it, so the code can
spend the same money in between. What keeps the record honest is the second check, when the scope is
left. With it, every transfer in the record was covered by what its source had at that point of the
record, through any nesting of calls, failures and fatals.

* `State.Affordable` — the invariant: every recorded transfer was covered;
* `Affordable.answered`, `affordable_applyWith` — one request and one level of messages keep it;
* `spending_covered` — **at every moment of a transaction every recorded transfer was covered, no
  address is below zero, and a balance that can be told is the exact sum**.
-/

namespace ContractExec

variable {ν : Type}

namespace State

/-- Every recorded transfer was covered by what its source had before it. -/
def Affordable (s : State ν) : Prop :=
  ContractExec.Affordable s.arena.backend.balance s.transfers

variable {nested : Applying ν} {s t : State ν} {m : Message} {scope : Scope ν} {x y : Active ν}

/-! ### One step -/

theorem affordable_new (config : Config) (vm : Vm ν) (backend : Backend) (transaction : Hash)
    (gasLimit : Gas) : (State.new config vm backend transaction gasLimit).Affordable :=
  .nil _

/-- Only the backend and the recorded transfers matter. -/
theorem Affordable.congr (h : s.Affordable) (hbackend : t.arena.backend = s.arena.backend)
    (htransfers : t.transfers = s.transfers) : t.Affordable := by
  rw [Affordable, hbackend, htransfers]
  exact h

theorem Affordable.recovered (h : s.Affordable) (hrecovered : s.Recovered t) : t.Affordable :=
  h.congr (congrArg Arena.backend hrecovered.arena_eq) hrecovered.transfers_eq

theorem Affordable.opens (h : s.Affordable) (hopens : s.Opens m scope t) : t.Affordable :=
  h.congr hopens.continues.below.backend hopens.transfers_eq

theorem Affordable.answered
    (hnested : ∀ (m : Message) (s : State ν), s.Sound → s.Affordable → (nested m s).2.Affordable)
    (hs : x.state.Sound) (h : x.state.Affordable) (hanswered : x.Answered nested y) :
    y.state.Affordable := by
  cases hanswered with
  | paid hpaid =>
    rw [hpaid.state_eq]
    exact h
  | @written y arena w hpaid hwrite =>
    rw [hpaid.state_eq] at hwrite
    refine h.congr (Arena.backend_of_write hwrite) ?_
    show y.state.transfers = _
    rw [hpaid.state_eq]
  | logged log hpaid =>
    rw [← hpaid.state_eq] at h
    exact h
  | @fatal m cause u hissues happlied
  | @applied m receipt u hissues happlied =>
    have hkept := hnested m x.state hs h
    rw [happlied] at hkept
    exact hkept

/-- The value of a scope that can be paid is held by its source. -/
theorem balance_of_canPay {transfer : Transfer} (htransfer : scope.transfer = some transfer)
    (hcan : scope.canPay s = .ok true) :
    ∃ balance, s.balance transfer.source = .ok balance ∧ transfer.value ≤ balance := by
  rw [Scope.canPay, htransfer] at hcan
  dsimp only at hcan
  split at hcan
  case h_1 => nomatch hcan
  case h_2 balance hbalance =>
    injection hcan with hpay
    exact ⟨balance, hbalance, of_decide_eq_true hpay⟩

/-! ### One level of messages -/

/-- However a scope is left: a rollback restores a record that was covered, and a merge adds the
value of the scope, which has just been found covered once more. -/
theorem Affordable.left (h : s.Affordable) (hs : s.Sound) (hopens : s.Opens m scope t)
    (hx : x.Within t) (hend : x.state.Affordable) {outcome : Outcome}
    {r : Except Fatal Receipt × State ν} (hleft : scope.Left x.frame x.state outcome r) :
    r.2.Affordable := by
  cases hopens.closed hs hx hleft with
  | recovered hrecovered hfailed => exact h.recovered hrecovered
  | stuck returned cause => exact hend
  | @merged returned arena hcan hcommit hlinked hsize hbelow =>
    have hbackend : arena.backend = x.state.arena.backend := Arena.backend_of_commit hcommit
    rw [Scope.merged_eq, Affordable]
    show ContractExec.Affordable arena.backend.balance (x.state.transfers ++ scope.transfer.toList)
    rw [hbackend]
    cases htransfer : scope.transfer with
    | none =>
      rw [Option.toList_none, List.append_nil]
      exact hend
    | some transfer =>
      obtain ⟨balance, hbalance, hpay⟩ := balance_of_canPay htransfer hcan
      exact hend.concat hbalance hpay

theorem affordable_applyWith (hnested : nested.Transitions)
    (hkeeps : ∀ (m : Message) (s : State ν), s.Sound → s.Affordable → (nested m s).2.Affordable)
    (hs : s.Sound) (h : s.Affordable) (m : Message) : (applyWith nested m s).2.Affordable := by
  rcases henter : s.enter m with ⟨result | scope, t⟩
  · have hentered := entered_enter hs m
    rw [henter] at hentered
    rw [applyWith_settled henter]
    cases hentered with
    | failed gas failure => exact h
    | fatal cause => exact h
    | paid target hbalance hpay => exact h.concat hbalance hpay
  · have hopens := opens_of_enter hs henter
    rw [applyWith_opened henter]
    -- while the code runs, the invariant is kept along with the scope
    obtain ⟨hwithin, hend⟩ := Program.run_keeps (I := fun x => x.Within t ∧ x.state.Affordable)
      (fun hkept hanswered => ⟨hkept.1.answered hnested hanswered,
        hkept.2.answered hkeeps hkept.1.sound hanswered⟩)
      (fun n hkept => ⟨hkept.1.keep n, hkept.2⟩) scope.program
      (x := ⟨scope.frame, t⟩) ⟨hopens.within, h.opens hopens⟩
    exact h.left hs hopens hwithin hend (scope.left_leave _ _ _)

/-! ### Whole transactions -/

theorem affordable_apply (hs : s.Sound) (h : s.Affordable) (m : Message) :
    (s.apply m).2.Affordable :=
  (applyWithin_induction (P := fun _ s r => s.Affordable → r.2.Affordable)
    (fun _ _ _ h => h)
    (fun _ htransitions hkeeps m _ hs h => affordable_applyWith htransitions hkeeps hs h m)
    s.config.callStackLimit.toNat).2 m s hs h

end State

/-- At every moment of a transaction every recorded transfer was covered. -/
theorem Moment.Reached.affordable {μ : Moment ν} (h : μ.Reached) : μ.state.Affordable := by
  induction h with
  | new config vm backend transaction gasLimit => exact State.affordable_new _ _ _ _ _
  | applied m hs ih => exact State.affordable_apply hs.sound ih m
  | entered hs henter ih => exact ih.opens (State.opens_of_enter hs.sound henter)
  | nested hx hissue henter ih => exact ih.opens (State.opens_of_enter hx.sound.state henter)
  | @asked waiting q next x hx ih =>
    refine ih.answered ?_ hx.sound.state (x.answered_answer _ q)
    intro m s hs hcovered
    exact State.affordable_apply hs hcovered m
  | noted hx ih => exact ih
  | recalled hx ih => exact ih

/-- **No money is spent twice.** At every moment of a transaction, the source of each recorded
transfer had its value by the transfers recorded before it; so no address was driven below zero by
any first part of the record, and a balance that can be told is the committed one and all that came
in, less all that went out. -/
theorem spending_covered {μ : Moment ν} (hμ : μ.Reached) :
    (∀ before t rest, μ.state.transfers = before ++ t :: rest →
      ∃ balance, effectiveBalance (μ.state.arena.backend.balance t.source) before t.source
        = .ok balance ∧ t.value ≤ balance) ∧
    (∀ before rest address, μ.state.transfers = before ++ rest →
      outgoing address before
        ≤ (μ.state.arena.backend.balance address).toNat + incoming address before) ∧
    ∀ address balance, μ.state.balance address = .ok balance →
      (balance.toNat : Int) = (μ.state.arena.backend.balance address).toNat
        + incoming address μ.state.transfers - outgoing address μ.state.transfers := by
  have hcovered : Affordable μ.state.arena.backend.balance μ.state.transfers := hμ.affordable
  refine ⟨hcovered, ?_, ?_⟩
  · intro before rest address hsplit
    rw [hsplit] at hcovered
    exact outgoing_le hcovered.of_append address
  · intro address balance hbalance
    have htold := toNat_effectiveBalance hbalance
    omega

/-- Every method sends five units on to the plain account. -/
def forwarding : Vm Empty where
  create _ _ _ := .done (.ok none)
  call _ _ _ := .ask (.transfer 2 5) fun _ => .done (.ok none)

/-- The plain account pays four units for a call. -/
def forwardCall : Message := ⟨2, 4, 4000, .internalCall 1 ⟨"forward", []⟩⟩

/-- A transaction that makes the call and does nothing else. -/
def forwardState : State Empty :=
  ((State.new .standard forwarding (oneContract 7 4) 0 5000).apply forwardCall).2

-- what the contract pays while it runs is recorded before what it was called with
theorem spending_covered_of_forward :
    forwardState.transfers = [⟨1, 2, 5⟩, ⟨2, 1, 4⟩] ∧
      (∃ balance, effectiveBalance (forwardState.arena.backend.balance 2) [⟨1, 2, 5⟩] 2
        = .ok balance ∧ 4 ≤ balance) ∧
      (6 : Int) = (forwardState.arena.backend.balance 1).toNat
        + incoming 1 forwardState.transfers - outgoing 1 forwardState.transfers := by
  have htransfers : forwardState.transfers = [⟨1, 2, 5⟩, ⟨2, 1, 4⟩] := by rfl
  have hbalance : forwardState.balance 1 = .ok 6 := by rfl
  have hreached : (Moment.idle forwardState).Reached := .applied forwardCall (.new _ _ _ _ _)
  obtain ⟨hcovered, -, hsum⟩ := spending_covered hreached
  exact ⟨htransfers, hcovered [⟨1, 2, 5⟩] ⟨2, 1, 4⟩ [] htransfers, hsum 1 6 hbalance⟩

end ContractExec
