import ContractExec.Proofs.Nonce

/-!
# Whose account a message can write

All writes of a frame go to the account of its own contract. Any frame may write storage. Code and
type are written by constructors alone, and a constructor runs for an account that was just created,
at the address that the next nonce gives. So each account is written by its own code alone, and code
that was deployed before stays as it is, whatever a message calls at any depth and whatever it ends
with.

* `Frame.MayWrite` — the writes that a frame can make to its account, with the creation of it;
* `Application.Spares`, `view_apply` — **what no frame of a tree may write reads after a message as
  it did before**;
* `Application.RunsAt`, `Application.ConstructsAt` — the applications that run the code of a contract,
  and those that construct it; `ConstructsAt.address_eq` — the address that one of the latter takes;
* `deployed_code_immutable` — **code and type change only where a contract is constructed, and storage
  only where a contract runs**.
-/

namespace ContractExec

variable {ν β : Type}

/-! ### What a frame may write -/

/-- The writes that a frame can make to the account of its contract. The account of a constructor is
created when its scope begins. -/
def Frame.MayWrite (frame : Frame) : Write → Prop
  | .setStorage .. => True
  | .create | .setCode _ | .setContractType _ => frame.constructing = true

/-- A frame in a scope, for the same contract as at its beginning, to which it may write the same. -/
def Active.Serves (scope : Scope ν) (x : Active ν) : Prop :=
  x.contract = scope.frame.message.contract ∧ x.frame.constructing = scope.frame.constructing

section

variable {scope : Scope ν} {x y : Active ν} {w : Write}

theorem Active.Serves.acted (h : x.Serves scope) (hacted : x.Acted y) : y.Serves scope := by
  obtain ⟨meter, hframe⟩ := hacted.frame_eq
  rw [Serves, contract, hframe]
  exact h

theorem Active.Serves.answered {nested : Applying ν} (h : x.Serves scope)
    (hanswered : x.Answered nested y) : y.Serves scope := by
  obtain ⟨meter, nestedGas, hframe⟩ := hanswered.frame_eq
  rw [Serves, contract, hframe]
  exact h

theorem Active.Serves.mayWrite (h : x.Serves scope) (hmay : x.MayWrite w) :
    scope.frame.MayWrite w := by
  cases w with
  | create => exact hmay.elim
  | setCode code => exact h.2.symm.trans hmay
  | setContractType typeName => exact h.2.symm.trans hmay
  | setStorage key value => trivial

end

/-! ### What is read of an account -/

namespace Application

/-- No scope that the application itself opens may write what is read of an account. -/
def Spares (view : Account → β) (address : Address) (a : Application ν) : Prop :=
  ∀ scope t, a.state.enter a.message = (.opened scope, t) →
    scope.frame.message.contract = address →
    ∀ w, scope.frame.MayWrite w → ∀ account : Account, view (account.write w) = view account

variable {s t : State ν} {m : Message} {scope : Scope ν} {x y : Active ν} {view : Account → β}
  {address : Address}

/-- A write of a scope that is spared. -/
theorem Spares.view_write (h : Spares view address ⟨m, s⟩)
    (henter : s.enter m = (.opened scope, t)) {w : Write} (hmay : scope.frame.MayWrite w)
    (world : World) :
    view (world.write scope.frame.message.contract w address) = view (world address) := by
  rw [World.write]
  split
  case isTrue hsame => exact h scope t henter hsame.symm w hmay _
  case isFalse => rfl

theorem Spares.view_opened (h : Spares view address ⟨m, s⟩) (hs : s.Sound)
    (henter : s.enter m = (.opened scope, t)) (hopens : s.Opens m scope t) :
    view (t.arena.topWorld address) = view (s.arena.topWorld address) := by
  cases hopens.begins with
  | create htarget hconstructing hcontract hnonce hopen hwrite =>
    have hlinked := (hs.linked.of_openLayer hopen).1
    rw [Arena.topWorld_write hlinked hwrite, Arena.topWorld_openLayer hs.linked hopen,
      ← hopens.contract_eq]
    exact h.view_write henter (w := .create) hconstructing _
  | call htarget hconstructing hcode hnonce hopen =>
    rw [Arena.topWorld_openLayer hs.linked hopen]

theorem Spares.view_acted (h : Spares view address ⟨m, s⟩)
    (henter : s.enter m = (.opened scope, t)) (hserves : x.Serves scope) (hx : x.state.Sound)
    (hacted : x.Acted y) :
    view (y.state.arena.topWorld address) = view (x.state.arena.topWorld address) := by
  cases hacted with
  | paid hpaid => rw [hpaid.state_eq]
  | logged log hpaid =>
    show view (Arena.topWorld (Active.state _).arena address) = _
    rw [hpaid.state_eq]
  | @written y arena w hpaid hmay hwrite =>
    have hown := hserves.acted (.paid hpaid)
    show view (arena.topWorld address) = _
    rw [hpaid.state_eq] at hwrite
    rw [Arena.topWorld_write hx.linked hwrite, hown.1]
    exact h.view_write henter (hown.mayWrite hmay) _

/-- **What no frame of a tree may write reads after a message as it did before**, whatever the
message ends with. -/
theorem view_apply (hs : s.Sound) (m : Message)
    (hspares : ∀ b ∈ tree ⟨m, s⟩, b.Spares view address) :
    view ((s.apply m).2.world address) = view (s.world address) := by
  rw [(State.transition_apply hs m).sound.world_eq, hs.world_eq]
  refine Application.induction (Q := fun a => (∀ b ∈ a.tree, b.Spares view address) →
    view (a.result.2.arena.topWorld address) = view (a.state.arena.topWorld address)) ?_ hs m hspares
  intro s m hs ih hspares
  have hspared := hspares _ List.mem_cons_self
  have happlied := State.applied_apply hs m
  show view ((s.apply m).2.arena.topWorld address) = view (s.arena.topWorld address)
  generalize s.apply m = r at happlied
  cases happlied with
  | settled henter hentered => cases hentered <;> rfl
  | @left scope t outcome x r henter hopens hrun hx hleft =>
    have hend : x.Serves scope ∧
        view (x.state.arena.topWorld address) = view (s.arena.topWorld address) := by
      refine (hopens.run_tree hs henter hrun hspares
        (J := fun x => x.Serves scope ∧
          view (x.state.arena.topWorld address) = view (s.arena.topWorld address))
        (fun {x y} hx h hacted => ?_) (fun {x n} hx h hissues hall => ?_) (fun _ h => h)
        ⟨⟨rfl, rfl⟩, hspared.view_opened hs henter hopens⟩).1
      · refine ⟨h.1.acted hacted, ?_⟩
        exact (hspared.view_acted henter h.1 hx.sound hacted).trans h.2
      · refine ⟨h.1.answered (Active.answered_issued hissues), ?_⟩
        rw [Active.state_follow]
        exact (ih hopens hx hissues hall).trans h.2
    cases hopens.closed hs hx hleft with
    | recovered hrecovered hfailed => rw [hrecovered.arena_eq]
    | stuck returned cause => exact hend.2
    | merged returned hcan hcommit hlinked hsize hbelow =>
      rw [Scope.merged_eq]
      show view (Arena.topWorld _ address) = _
      rw [Arena.topWorld_commit hx.sound.linked hcommit]
      exact hend.2

/-! ### Whose code runs -/

/-- The code of a contract runs for the message. -/
def RunsAt (address : Address) (a : Application ν) : Prop :=
  ∃ scope t, a.state.enter a.message = (.opened scope, t) ∧ scope.frame.message.contract = address

/-- The message constructs a contract at an address. -/
def ConstructsAt (address : Address) (a : Application ν) : Prop :=
  ∃ scope t, a.state.enter a.message = (.opened scope, t) ∧ scope.frame.constructing = true ∧
    scope.frame.message.contract = address

/-- Where none of its code runs, all storage is spared. -/
theorem spares_storage {a : Application ν} (h : ¬a.RunsAt address) (key : Bytes) :
    a.Spares (fun account => account.storage key) address := by
  intro scope t henter hcontract
  exact absurd ⟨scope, t, henter, hcontract⟩ h

/-- Where nothing is constructed, code and type are spared. -/
theorem spares_code {a : Application ν} (h : ¬a.ConstructsAt address) :
    a.Spares (fun account => (account.code, account.contractType)) address := by
  intro scope t henter hcontract w hmay account
  have hcalled : scope.frame.constructing ≠ true :=
    fun hconstructing => h ⟨scope, t, henter, hconstructing, hcontract⟩
  cases w with
  | setStorage key value => rfl
  | create | setCode | setContractType => exact absurd hmay hcalled

/-- A contract is constructed at the address that the next nonce gives. -/
theorem ConstructsAt.address_eq {a : Application ν} (h : a.ConstructsAt address)
    (hs : a.state.Sound) : address = Address.derive a.state.transaction a.state.nonce := by
  obtain ⟨scope, t, henter, hconstructing, rfl⟩ := h
  have hopens := State.opens_of_enter hs henter
  cases hopens.begins with
  | create htarget hyes hcontract hnonce hopen hwrite => exact hopens.contract_eq.trans hcontract
  | call htarget hno hcode hnonce hopen =>
    rw [hno] at hconstructing
    cases hconstructing

end Application

/-- **Deployed code is immutable, and storage stays with its owner.** Any message may be applied at any
moment of a transaction, and may succeed, fail or end in a fatal. If the code or the type of an account
does not read as before, its address derives from the current nonce or a later one. If its storage does
not, code of that account ran. -/
theorem deployed_code_immutable {μ : Moment ν} (hμ : μ.Reached) (m : Message) :
    ((∀ b ∈ Application.tree ⟨m, μ.state⟩, b.NonceFits) → ∀ address,
        (((μ.state.apply m).2.world address).code ≠ (μ.state.world address).code ∨
          ((μ.state.apply m).2.world address).contractType
            ≠ (μ.state.world address).contractType) →
        ∃ k, μ.state.nonce ≤ k ∧ address = Address.derive μ.state.transaction k) ∧
    ∀ address key,
      ((μ.state.apply m).2.world address).storage key ≠ (μ.state.world address).storage key →
      ∃ b ∈ Application.tree ⟨m, μ.state⟩, b.RunsAt address := by
  have hs := hμ.sound.state
  refine ⟨fun hfits address hchanged => ?_, fun address key hchanged => ?_⟩
  · have hsome : ∃ b ∈ Application.tree ⟨m, μ.state⟩, b.ConstructsAt address := by
      refine Classical.byContradiction fun hnone => ?_
      have hsame := Application.view_apply hs m fun b hb =>
        Application.spares_code fun h => hnone ⟨b, hb, h⟩
      obtain ⟨hcode, htype⟩ := Prod.mk.inj hsame
      exact hchanged.elim (absurd hcode) (absurd htype)
    obtain ⟨b, hb, hconstructs⟩ := hsome
    obtain ⟨htransaction, hnonce⟩ := Application.nonce_le_tree hs hfits b hb
    have haddress := hconstructs.address_eq (Application.sound_of_mem_tree hs b hb)
    rw [htransaction] at haddress
    exact ⟨b.state.nonce, hnonce, haddress⟩
  · refine Classical.byContradiction fun hnone => ?_
    have hsame := Application.view_apply hs m fun b hb =>
      Application.spares_storage (fun h => hnone ⟨b, hb, h⟩) key
    exact hchanged hsame

/-- Every constructor installs the code that it was given and writes a value. -/
def budding : Vm Empty where
  create code _ _ :=
    .ask (.setCode code) fun _ => .ask (.setStorage [0] [1]) fun _ => .done (.ok none)
  call _ _ _ := .done (.ok none)

def buddingState : State Empty := .new .standard budding noAccounts 0 10000

def deployment : Message := ⟨2, 0, 4000, .externalCreate [7] [] none⟩

-- read write by write, so that no digest has to be computed
theorem world_deployed :
    (buddingState.apply deployment).2.world (Address.derive 0 0)
      = (Account.fresh.write (.setCode [7])).write (.setStorage [0] [1]) := by
  have hs : buddingState.Sound := State.sound_new _ _ _ _ _
  have harena : (buddingState.apply deployment).2.arena = ⟨noAccounts, #[⟨none, Changes.absorb ∅
      ((((∅ : Changes).write (Address.derive 0 0) .create).write (Address.derive 0 0)
        (.setCode [7])).write (Address.derive 0 0) (.setStorage [0] [1]))⟩]⟩ := by
    rfl
  rw [(State.transition_apply hs deployment).sound.world_eq, harena]
  simp [Arena.topWorld, Arena.reading, Changes.overlay_absorb, Changes.overlay_write, World.write]
  rfl

theorem deployed_code_immutable_of_deployment :
    ((buddingState.apply deployment).2.world (Address.derive 0 0)).code = some [7] ∧
      (∃ k, buddingState.nonce ≤ k ∧
        Address.derive 0 0 = Address.derive buddingState.transaction k) ∧
      ∃ b ∈ Application.tree ⟨deployment, buddingState⟩, b.RunsAt (Address.derive 0 0) := by
  have hreached : (Moment.idle buddingState).Reached := .new _ _ _ _ _
  have hfits := hreached.nonceFits (by decide +kernel) deployment
  have hcode : ((buddingState.apply deployment).2.world (Address.derive 0 0)).code
      ≠ (buddingState.world (Address.derive 0 0)).code := by
    rw [world_deployed]
    nofun
  have hstorage : ((buddingState.apply deployment).2.world (Address.derive 0 0)).storage [0]
      ≠ (buddingState.world (Address.derive 0 0)).storage [0] := by
    rw [world_deployed]
    nofun
  obtain ⟨hderived, hran⟩ := deployed_code_immutable hreached deployment
  refine ⟨by rw [world_deployed]; rfl, hderived hfits _ (.inl hcode), hran _ [0] hstorage⟩

end ContractExec
