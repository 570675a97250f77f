import ContractExec.Proofs.Nonce

/-!
# What a success commits

A message that succeeds has closed the scope that it opened, and left behind what its code did in it:
what was read in the scope is read at the current layer now, the logs and transfers of the scope
stand behind those that were there, and the value of the message itself is recorded last.

* `State.Extends`, `extends_apply` — logs and transfers are only ever added, however a message ends;
* `Application.recorded`, `transfers_ending` — what code adds to the transfers is what the messages
  that it applies record, in their order;
* `Application.Commits`, `commits_settled`, `commits_left` — all that a success has done, for a transfer
  to an address without code, and for a scope that was merged;
* `success_commits` — **a success commits exactly the effects of its scope**.
-/

namespace ContractExec

variable {ν : Type}

namespace State

variable {s t u : State ν} {m : Message} {scope : Scope ν} {x : Active ν}

/-! ### Logs and transfers -/

/-- Logs and transfers of a state stand first among those of a later one. -/
def Extends (s t : State ν) : Prop := s.logs <+: t.logs ∧ s.transfers <+: t.transfers

theorem Extends.refl (s : State ν) : s.Extends s := ⟨List.prefix_rfl, List.prefix_rfl⟩

theorem Extends.trans (hst : s.Extends t) (htu : t.Extends u) : s.Extends u :=
  ⟨hst.1.trans htu.1, hst.2.trans htu.2⟩

theorem Extends.acted {y : Active ν} (h : s.Extends x.state) (hacted : x.Acted y) :
    s.Extends y.state := by
  obtain ⟨arena, logs, hstate⟩ := hacted.state_eq
  rw [hstate]
  exact ⟨h.1.trans (List.prefix_append _ _), h.2⟩

theorem Recovered.extends (h : s.Recovered t) : s.Extends t := by
  rw [h.2]
  exact Extends.refl s

theorem Opens.extends (h : s.Opens m scope t) : s.Extends t := by
  rw [Extends, h.logs_eq, h.transfers_eq]
  exact Extends.refl s

/-- However the scope is left, what was there when it was opened is still there. -/
theorem Opens.extends_left (h : s.Opens m scope t) (hs : s.Sound) (hx : x.Within t)
    (hend : s.Extends x.state) {outcome : Outcome} {r : Except Fatal Receipt × State ν}
    (hleft : scope.Left x.frame x.state outcome r) : s.Extends r.2 := by
  cases h.closed hs hx hleft with
  | recovered hrecovered hfailed => exact hrecovered.extends
  | stuck returned cause => exact hend
  | merged returned hcan hcommit hlinked hsize hbelow =>
    rw [Scope.merged_eq]
    exact ⟨hend.1, hend.2.trans (List.prefix_append _ _)⟩

theorem extends_apply (hs : s.Sound) (m : Message) : s.Extends (s.apply m).2 := by
  refine Application.induction (Q := fun a => a.state.Extends a.result.2) ?_ hs m
  intro s m hs ih
  have happlied := applied_apply hs m
  show s.Extends (s.apply m).2
  generalize s.apply m = r at happlied
  cases happlied with
  | settled henter hentered =>
    cases hentered with
    | failed gas failure hgas => exact Extends.refl s
    | fatal cause => exact Extends.refl s
    | paid target hbalance hpay => exact ⟨List.prefix_rfl, List.prefix_append _ _⟩
  | @left scope t outcome x r henter hopens hrun hx hleft =>
    refine hopens.extends_left hs hx ?_ hleft
    refine hopens.run_issued henter hrun (J := fun _ x => s.Extends x.state)
      (fun _ h hacted => h.acted hacted) (fun {l x n} hx h hissues => ?_) (fun _ h => h)
      hopens.extends
    rw [Active.state_follow]
    exact h.trans (ih hopens hx hissues)

end State

namespace Application

variable {a : Application ν} {s t : State ν} {m : Message} {scope : Scope ν} {x : Active ν}
  {outcome : Outcome}

/-! ### What code records -/

/-- The transfers that an application adds to the record. -/
def recorded (a : Application ν) : List Transfer :=
  a.result.2.transfers.drop a.state.transfers.length

theorem append_recorded (hs : a.state.Sound) :
    a.state.transfers ++ a.recorded = a.result.2.transfers :=
  List.prefix_iff_eq_append.mp (State.extends_apply hs a.message).2

/-- **Code records what the messages record that it applies**, and nothing else. -/
theorem transfers_ending (henter : s.enter m = (.opened scope, t)) (hopens : s.Opens m scope t)
    (hrun : scope.program.run (fun m s => s.apply m) ⟨scope.frame, t⟩ = (outcome, x)) :
    x.state.transfers = s.transfers ++ (issued ⟨m, s⟩).flatMap recorded := by
  refine hopens.run_issued henter hrun
    (J := fun l x => x.state.transfers = s.transfers ++ l.flatMap recorded)
    (fun {l x y} _ h hacted => ?_) (fun {l x n} hx h hissues => ?_) (fun _ h => h) ?_
  · obtain ⟨arena, logs, hstate⟩ := hacted.state_eq
    rw [hstate]
    exact h
  · have hadded := append_recorded (a := ⟨n, x.state⟩) hx.sound
    rw [Active.state_follow, List.flatMap_append, List.flatMap_singleton, ← List.append_assoc, ← h]
    exact hadded.symm
  · rw [List.flatMap_nil, List.append_nil]
    exact hopens.transfers_eq

/-! ### Successes -/

/-- All that an application has done that succeeded with a contract and a value. -/
structure Commits (a : Application ν) (contract : Address) (returned : Option Value) : Prop where
  current_eq : a.result.2.current = a.state.current
  depth_eq : a.result.2.arena.depth = a.state.arena.depth
  /-- No layer below the current one has changed. -/
  layer_eq : ∀ layer, layer < a.state.current →
    a.result.2.arena.layers[layer]? = a.state.arena.layers[layer]?
  /-- The contract is the target, and for a create the next new address. -/
  contract_eq : contract
    = a.message.target?.getD (Address.derive a.state.transaction a.state.nonce)
  /-- Where code ran, all accounts read now as they did in its scope when it had ended. -/
  world_eq : ∀ scope outcome x, a.state.ending a.message = some (scope, outcome, x) →
    outcome = .ok returned ∧ a.result.2.world = x.state.worldAt scope.frame.layer
  /-- Where none ran, value was sent to an address without code, and no account has changed. -/
  plain : a.state.ending a.message = none →
    a.message.action = .contractTransfer contract ∧ a.result.2.arena = a.state.arena
  logs_prefix : a.state.logs <+: a.result.2.logs
  /-- What is new in the record is what nested messages recorded, and then the value that an
  internal message moves. -/
  transfers_eq : a.result.2.transfers = a.state.transfers ++ a.issued.flatMap recorded
    ++ (if a.message.isInternal then [⟨a.message.sender, contract, a.message.amount⟩] else [])
  nested_transfers : ∀ b ∈ a.issued, b.state.transfers ++ b.recorded = b.result.2.transfers
  nonce_le : (∀ b ∈ a.tree, b.NonceFits) → a.state.nonce ≤ a.result.2.nonce

section

variable {gas : Gas} {contract : Address} {returned : Option Value}

/-- A success without code is a transfer of value to an address that has none. -/
theorem commits_settled (hs : s.Sound) {r : Except Fatal Receipt}
    (henter : s.enter m = (.settled r, t)) (hentered : s.Entered m (.settled r, t))
    (hsuccess : r = .ok (.succeeded gas contract returned)) :
    Commits ⟨m, s⟩ contract returned := by
  have hresult : result ⟨m, s⟩ = (r, t) := State.apply_settled hs henter
  have hnone : issued ⟨m, s⟩ = [] := issued_settled henter
  have hending : s.ending m = none := State.ending_settled henter
  have hnonce := nonce_le_apply hs m
  have hextends := State.extends_apply hs m
  cases hentered with
  | failed gas failure hgas => nomatch hsuccess
  | fatal cause => nomatch hsuccess
  | paid target hbalance hpay haction =>
    injection hsuccess with hsuccess
    injection hsuccess with _ hcontract _
    subst hcontract
    have htarget : m.target? = some target := congrArg Action.target? haction
    have hinternal : m.isInternal = true := congrArg Action.isInternal haction
    exact {
      current_eq := by rw [hresult]; rfl
      depth_eq := by rw [hresult]; rfl
      layer_eq := by rw [hresult]; exact fun _ _ => rfl
      contract_eq := by rw [htarget]; rfl
      world_eq := by
        intro scope outcome x hsome
        rw [hending] at hsome
        nomatch hsome
      plain := fun _ => ⟨haction, by rw [hresult]; rfl⟩
      logs_prefix := hextends.1
      transfers_eq := by
        rw [hresult, hnone, if_pos hinternal, List.flatMap_nil, List.append_nil]
        rfl
      nested_transfers := by rw [hnone]; exact nofun
      nonce_le := hnonce }

/-- The contract of a scope is the target of its message, or the next new address. -/
theorem contract_opened (hopens : s.Opens m scope t) :
    scope.contract = m.target?.getD (Address.derive s.transaction s.nonce) := by
  cases hopens.begins with
  | create htarget hconstructing hcontract hnonce hopen hwrite => rw [htarget, hcontract]; rfl
  | call htarget hconstructing hcode hnonce hopen => rw [htarget]; rfl

/-- A success with code is a merge: the layer of the scope has become part of the current one. -/
theorem commits_left (hs : s.Sound) (henter : s.enter m = (.opened scope, t))
    (hopens : s.Opens m scope t)
    (hrun : scope.program.run (fun m s => s.apply m) ⟨scope.frame, t⟩ = (outcome, x))
    (hx : x.Within t) (hleft : scope.Left x.frame x.state outcome (s.apply m))
    (hsuccess : (s.apply m).1 = .ok (.succeeded gas contract returned)) :
    Commits ⟨m, s⟩ contract returned := by
  have htransfers := transfers_ending henter hopens hrun
  have hnested : ∀ b ∈ issued ⟨m, s⟩, b.state.transfers ++ b.recorded = b.result.2.transfers :=
    fun b hb => append_recorded (of_mem_issued hs hb).1
  have hnonce := nonce_le_apply hs m
  have hlogs := (State.extends_apply hs m).1
  have hending : s.ending m = some (scope, outcome, x) := by
    rw [State.ending_opened henter, hrun]
  have hsound := (State.transition_apply hs m).sound
  have hresult : result ⟨m, s⟩ = s.apply m := rfl
  have hclosed := hopens.closed hs hx hleft
  generalize s.apply m = r at hclosed hsuccess hnonce hlogs hsound hresult
  cases hclosed with
  | recovered hrecovered hfailed => exact absurd hsuccess (hfailed _ _ _)
  | stuck value cause => nomatch hsuccess
  | merged value hcan hcommit hlinked hsize hbelow =>
    injection hsuccess with hsuccess
    injection hsuccess with _ hcontract hreturned
    subst hcontract hreturned
    rw [Scope.merged_eq] at hlogs hnonce hsound hresult
    exact {
      current_eq := by rw [hresult]; exact hs.current_eq.symm
      depth_eq := by rw [hresult]; exact congrArg (· - 1) hsize
      layer_eq := by rw [hresult, hs.current_eq]; exact hbelow.layer
      contract_eq := contract_opened hopens
      world_eq := by
        intro scope' outcome' x' hsome
        have hsame : (scope, Except.ok value, x) = (scope', outcome', x') :=
          Option.some.inj (hending.symm.trans hsome)
        injection hsame with hscope hsame
        injection hsame with houtcome hactive
        subst hscope houtcome hactive
        -- the layer of the scope was the top one, and the merge changes nothing of what is read there
        have hread : x.state.worldAt scope.frame.layer = x.state.arena.topWorld := by
          rw [Arena.top_of_commit hcommit, hx.sound.worldAt_top]
        refine ⟨rfl, ?_⟩
        rw [hresult, hsound.world_eq, hread]
        exact Arena.topWorld_commit hx.sound.linked hcommit
      plain := by
        intro hsettled
        rw [hending] at hsettled
        nomatch hsettled
      logs_prefix := by rw [hresult]; exact hlogs
      transfers_eq := by
        rw [hresult]
        show x.state.transfers ++ scope.transfer.toList = _
        rw [htransfers, hopens.transfer_eq, State.transferOf]
        cases m.isInternal <;> rfl
      nested_transfers := hnested
      nonce_le := by rw [hresult]; exact hnonce }

/-- A message that succeeds in a sound state commits what it has done. -/
theorem commits_apply (hs : s.Sound)
    (hsuccess : (s.apply m).1 = .ok (.succeeded gas contract returned)) :
    Commits ⟨m, s⟩ contract returned := by
  have happlied := State.applied_apply hs m
  generalize hr : s.apply m = r at happlied
  cases happlied with
  | settled henter hentered =>
    rw [hr] at hsuccess
    exact commits_settled hs henter hentered hsuccess
  | left henter hopens hrun hx hleft =>
    rw [← hr] at hleft
    exact commits_left hs henter hopens hrun hx hleft hsuccess

end

end Application

/-- **A success commits exactly the effects of its scope.** At any moment of a transaction, a message
that succeeds leaves the current layer and the depth as they were, and no layer below has changed;
what is read now was read in its scope at the end of its code; logs and transfers were only added,
the transfer of the message itself as the last one; and the nonce has not decreased as long as it could
be counted up, which with a base cost of three units or more is always so. -/
theorem success_commits {μ : Moment ν} (hμ : μ.Reached) {m : Message} {gas : Gas}
    {contract : Address} {returned : Option Value}
    (hsuccess : (μ.state.apply m).1 = .ok (.succeeded gas contract returned)) :
    Application.Commits ⟨m, μ.state⟩ contract returned ∧
      (3 ≤ μ.state.config.baseCost → ∀ b ∈ Application.tree ⟨m, μ.state⟩, b.NonceFits) := by
  have hcommits := Application.commits_apply hμ.sound.state hsuccess
  exact ⟨hcommits, fun hbase => hμ.nonceFits hbase m⟩

/-- A machine on which every method writes a value, logs, and sends five units to the plain
account. -/
def bookkeeping : Vm Empty where
  create _ _ _ := .done (.ok none)
  call _ _ _ :=
    .ask (.setStorage [0] [1]) fun _ => .ask (.log [] [2]) fun _ =>
      .ask (.transfer 2 5) fun _ => .done (.ok none)

/-- The plain account pays four units for a call. -/
def bookkeepingCall : Message := ⟨2, 4, 4000, .internalCall 1 ⟨"book", []⟩⟩

def bookkeepingState : State Empty := .new .standard bookkeeping (oneContract 7 4) 0 5000

theorem success_commits_of_bookkeeping :
    (bookkeepingState.apply bookkeepingCall).1 = .ok (.succeeded 1091 1 none) ∧
      Application.Commits ⟨bookkeepingCall, bookkeepingState⟩ 1 none ∧
      bookkeepingState.nonce ≤ (bookkeepingState.apply bookkeepingCall).2.nonce := by
  have hsuccess : (bookkeepingState.apply bookkeepingCall).1 = .ok (.succeeded 1091 1 none) := by
    decide +kernel
  have hreached : (Moment.idle bookkeepingState).Reached := .new _ _ _ _ _
  obtain ⟨hcommits, hfits⟩ := success_commits hreached hsuccess
  have hbase : 3 ≤ bookkeepingState.config.baseCost := by decide +kernel
  exact ⟨hsuccess, hcommits, hcommits.nonce_le (hfits hbase)⟩

end ContractExec
