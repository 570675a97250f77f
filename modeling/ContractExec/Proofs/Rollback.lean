import ContractExec.Proofs.Application
import ContractExec.Proofs.Balances
import ContractExec.Proofs.Moment

/-!
# What failures and fatals leave behind

A message that fails leaves no trace but spent gas and the journal, however much its code did before
and at whatever moment it was applied. A message that ends in a fatal leaves none either, with one
exception: its code ended well and its scope could not be closed then.

* `failed_recovers` — **rollback is exact**;
* `State.LeavesOpen` — the code of a message ends well, but the value of its scope can no longer be
  told, or layers above its own are still open;
* `fatal_recovers_unless_open` — **a fatal is rolled back exactly unless it leaves the scope open**;
* `refund_leaves_open` — a call whose recipient sends the caller more than it can hold.
-/

namespace ContractExec

variable {ν : Type}

/-! ### Failures -/

/-- **Rollback is exact.** A message that fails, applied at any moment of a transaction, leaves the
layers, the current layer, the nonce, the logs and the transfers as they were. -/
theorem failed_recovers {μ : Moment ν} (hμ : μ.Reached) {m : Message} {gas : Gas}
    {failure : Failure} (hfailed : (μ.state.apply m).1 = .ok (.failed gas failure)) :
    μ.state.Recovered (μ.state.apply m).2 :=
  (State.transition_apply hμ.sound.state m).recovered hfailed

/-- A machine on which every method writes a log, pays the plain account and reverts. -/
def regretful : Vm Empty where
  create _ _ _ := .done (.ok none)
  call _ _ _ :=
    .ask (.log [] [1]) fun _ => .ask (.transfer 2 5) fun _ => .done (.error (.fault .reverted))

theorem failed_recovers_of_revert :
    let s := State.new .standard regretful (oneContract 10 0) 0 5000
    let m : Message := ⟨2, 0, 4000, .externalCall 1 ⟨"pay", []⟩⟩
    (s.apply m).1 = .ok (.failed 1031 (.faulted .reverted)) ∧ s.Recovered (s.apply m).2 :=
  ⟨by rfl, failed_recovers (.new .standard regretful (oneContract 10 0) 0 5000) (by rfl)⟩

/-! ### Fatals -/

namespace State

variable {s t : State ν} {m : Message} {scope : Scope ν} {x : Active ν}

/-- The code of a message ends well, but its scope cannot be closed then: the balance of the sender
is out of range, or a layer above that of the scope is still open. -/
def LeavesOpen (s : State ν) (m : Message) : Prop :=
  ∃ scope returned x, s.ending m = some (scope, .ok returned, x) ∧
    ((∃ cause, scope.canPay x.state = .error cause) ∨
      scope.canPay x.state = .ok true ∧ scope.frame.layer ≠ x.state.arena.top)

/-- A sound state finishes only once all layers above the root are closed. -/
theorem finish_of_open (h : 1 < s.arena.layers.size) :
    s.finish = .error (.layerOutOfOrder s.arena.top) := by
  have hdepth : s.arena.depth ≠ 0 := by rw [Arena.depth]; omega
  rw [finish, Arena.finish, if_neg hdepth]

theorem Recovered.finish_eq (h : s.Recovered t) : t.finish = s.finish := by
  rw [h.2]
  rfl

/-- If the value of a scope cannot be told, that is for the balance of the sender. -/
theorem Opens.canPay_eq_error (h : s.Opens m scope t) {u : State ν} {cause : Fatal}
    (hcan : scope.canPay u = .error cause) : cause = .balanceOutOfRange m.sender := by
  rw [Scope.canPay, h.transfer_eq, transferOf] at hcan
  cases hinternal : m.isInternal with
  | false =>
    rw [hinternal] at hcan
    nomatch hcan
  | true =>
    rw [hinternal, if_pos rfl] at hcan
    dsimp only at hcan
    split at hcan
    case h_1 hbalance =>
      injection hcan with hcause
      rw [← hcause]
      exact effectiveBalance_eq_error hbalance
    case h_2 => nomatch hcan

/-- Leaving a scope open ends in one of two fatals, and the scope stands above all layers that were
there before. -/
theorem LeavesOpen.apply (hs : s.Sound) (h : s.LeavesOpen m) :
    ((s.apply m).1 = .error (.balanceOutOfRange m.sender) ∨
        (s.apply m).1 = .error (.layerOutOfOrder s.arena.layers.size)) ∧
      s.arena.layers.size < (s.apply m).2.arena.layers.size := by
  obtain ⟨scope, returned, x, hending, hopen⟩ := h
  obtain ⟨t, hopens, hx, happly⟩ := apply_opened hs hending
  have hsize : s.arena.layers.size < x.state.arena.layers.size := by
    rw [← Nat.add_one_le_iff, ← hopens.size_eq]
    exact hx.later.size_le
  have hleft := scope.left_leave (.ok returned) x.frame x.state
  rw [← happly] at hleft
  generalize s.apply m = r at hleft ⊢
  rcases hopen with ⟨cause, hcan⟩ | ⟨hcan, hlayer⟩
  · cases hleft with
    | unreadable returned hcan' => exact ⟨.inl (by rw [hopens.canPay_eq_error hcan']), hsize⟩
    | unaffordable returned hcan'
    | buried returned hcan' hcommit
    | merged returned hcan' hcommit =>
      rw [hcan] at hcan'
      nomatch hcan'
  · have hrefused := Arena.commit_of_ne hlayer
    cases hleft with
    | buried returned hcan' hcommit =>
      rw [hrefused, hopens.layer_eq, hopens.top_eq] at hcommit
      injection hcommit with hcause
      exact ⟨.inr (by rw [hcause]), hsize⟩
    | merged returned hcan' hcommit =>
      rw [hrefused] at hcommit
      nomatch hcommit
    | unaffordable returned hcan'
    | unreadable returned hcan' =>
      rw [hcan] at hcan'
      nomatch hcan'

/-- A fatal is rolled back, unless the scope is left open. -/
theorem recovered_of_fatal (hs : s.Sound) {cause : Fatal} (hfatal : (s.apply m).1 = .error cause)
    (hclosed : ¬s.LeavesOpen m) : s.Recovered (s.apply m).2 := by
  rcases henter : s.enter m with ⟨result | scope, t⟩
  · have hentered := entered_enter hs m
    rw [henter] at hentered
    rw [apply_settled hs henter] at hfatal ⊢
    cases hentered with
    | failed gas failure => cases hfatal
    | fatal cause => exact ⟨UInt64.le_refl _, rfl⟩
    | paid target hbalance hpay => cases hfatal
  · rcases hrun : scope.program.run (fun m s => s.apply m) ⟨scope.frame, t⟩ with ⟨outcome, x⟩
    have hending : s.ending m = some (scope, outcome, x) := by rw [ending, henter, ← hrun]
    obtain ⟨u, hopens, hx, happly⟩ := apply_opened hs hending
    have hleft := scope.left_leave outcome x.frame x.state
    rw [← happly] at hleft
    generalize s.apply m = r at hleft hfatal ⊢
    cases hleft with
    | faulted fault => cases hfatal
    | unaffordable returned hcan => cases hfatal
    | merged returned hcan hcommit => cases hfatal
    | stopped cause => exact hopens.recovered_rollback hs hx _
    | unreadable returned hcan =>
      exact absurd ⟨scope, returned, x, hending, .inl ⟨_, hcan⟩⟩ hclosed
    | buried returned hcan hcommit =>
      refine absurd ⟨scope, returned, x, hending, .inr ⟨hcan, ?_⟩⟩ hclosed
      -- as the top layer it could have been committed
      intro htop
      obtain ⟨merged, hmerge, -⟩ := hopens.exists_commit hs hx htop
      rw [hmerge] at hcommit
      cases hcommit

end State

/-- **A fatal is rolled back exactly unless it leaves the scope open.** At any moment of a
transaction, a message that ends in a fatal either leaves the layers, the current layer, the nonce,
the logs and the transfers as they were, and the transaction finishes as it would have before, or it
leaves a layer open above them and the transaction cannot finish. The latter happens just where the
code of the message ended well, and the fatal is then one of two. -/
theorem fatal_recovers_unless_open {μ : Moment ν} (hμ : μ.Reached) {m : Message} {cause : Fatal}
    (hfatal : (μ.state.apply m).1 = .error cause) :
    (¬μ.state.LeavesOpen m ∧ μ.state.Recovered (μ.state.apply m).2 ∧
        (μ.state.apply m).2.finish = μ.state.finish) ∨
      (μ.state.LeavesOpen m ∧
        (cause = .balanceOutOfRange m.sender ∨ cause = .layerOutOfOrder μ.state.arena.layers.size) ∧
        ¬μ.state.Recovered (μ.state.apply m).2 ∧
        μ.state.arena.layers.size < (μ.state.apply m).2.arena.layers.size ∧
        (μ.state.apply m).2.finish = .error (.layerOutOfOrder (μ.state.apply m).2.arena.top)) := by
  have hs := hμ.sound.state
  by_cases hopen : μ.state.LeavesOpen m
  · obtain ⟨hcause, hsize⟩ := hopen.apply hs
    rw [hfatal] at hcause
    refine .inr ⟨hopen, ?_, ?_, hsize, State.finish_of_open ?_⟩
    · rcases hcause with hbalance | hlayer
      · exact .inl (Except.error.inj hbalance)
      · exact .inr (Except.error.inj hlayer)
    · intro hrecovered
      rw [hrecovered.arena_eq] at hsize
      exact Nat.lt_irrefl _ hsize
    · exact Nat.lt_of_le_of_lt hs.linked.size_pos hsize
  · have hrecovered := State.recovered_of_fatal hs hfatal hopen
    exact .inl ⟨hopen, hrecovered, hrecovered.finish_eq⟩

/-- A machine on which every method sends one unit to the plain account. -/
def refunding : Vm Empty where
  create _ _ _ := .done (.ok none)
  call _ _ _ := .ask (.transfer 2 1) fun _ => .done (.ok none)

/-- A call from the plain account, which carries no value. -/
def refundCall : Message := ⟨2, 0, 4000, .internalCall 1 ⟨"refund", []⟩⟩

/-- The transaction in which the plain account holds the greatest amount. -/
def refundState : State Empty := .new .standard refunding (oneContract 1 (-1)) 0 5000

/-- **Not every fatal is rolled back.** The recipient of a call sends its caller more than the caller
can hold, so the balance of the caller is out of range when the scope is left. The layer of the scope
stays open, the transfer stays recorded, and the transaction, which could have finished before,
cannot. -/
theorem refund_leaves_open :
    (Moment.idle refundState).Reached ∧
      (refundState.apply refundCall).1 = .error (.balanceOutOfRange 2) ∧
      (refundState.apply refundCall).2.arena.layers.size = refundState.arena.layers.size + 1 ∧
      (refundState.apply refundCall).2.current ≠ refundState.current ∧
      (refundState.apply refundCall).2.transfers = refundState.transfers ++ [⟨1, 2, 1⟩] ∧
      refundState.finish = .ok ⟨∅, [], []⟩ ∧
      (refundState.apply refundCall).2.finish = .error (.layerOutOfOrder 1) := by
  refine ⟨.new _ _ _ _ _, by rfl, by rfl, by decide, by rfl, by rfl, by rfl⟩

theorem fatal_recovers_unless_open_of_refund :
    (refundState.apply refundCall).1 = .error (.balanceOutOfRange 2) ∧
      refundState.LeavesOpen refundCall ∧
      ¬refundState.Recovered (refundState.apply refundCall).2 := by
  have hfatal : (refundState.apply refundCall).1 = .error (.balanceOutOfRange 2) := by rfl
  have hsize : (refundState.apply refundCall).2.arena ≠ refundState.arena := by
    intro hsame
    have hlayers := congrArg (·.layers.size) hsame
    exact absurd hlayers (by decide)
  rcases fatal_recovers_unless_open (.new _ _ _ _ _) hfatal with
    ⟨-, hrecovered, -⟩ | ⟨hopen, -, hnot, -⟩
  · exact absurd hrecovered.arena_eq hsize
  · exact ⟨hfatal, hopen, hnot⟩

end ContractExec
