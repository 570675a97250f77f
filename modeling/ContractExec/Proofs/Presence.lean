import ContractExec.Proofs.Application
import ContractExec.Proofs.Arena.Presence

/-!
# Only accounts that are there are written

Contract code runs for an account that is there: a create has just made it, and a call has found its
code. Nothing that happens while the code runs takes the account away, so what the code writes is
written to an account that is there.

* `Active.Standing` — the invariant of a frame: its contract is there at its layer, and the layers of
  the state are grounded; `standing`, `Standing.acted`, `Standing.followed` — how a run keeps it;
* `Application.Stands`, `stands_apply` — **an application keeps the layers grounded, and no account
  vanishes from what they show**.
-/

namespace ContractExec

variable {ν : Type}

/-- While code runs, its contract is there at the layer of its scope, and every account that a layer
has changes for is there at that layer. -/
structure Active.Standing (t : State ν) (x : Active ν) : Prop where
  grounded : x.state.arena.Grounded
  present : (x.state.arena.reading t.arena.layers.size x.contract).isPresent = true

namespace Application

/-- The layers are grounded after an application, and every account that was there at one of the old
layers is still there at that layer. -/
structure Stands (a : Application ν) : Prop where
  grounded : a.result.2.arena.Grounded
  keeps : ∀ k, k ≤ a.state.arena.layers.size →
    (a.state.arena.reading k).Keeps (a.result.2.arena.reading k)

end Application

variable {s t : State ν} {m : Message} {scope : Scope ν} {x y : Active ν}

/-! ### While code runs -/

/-- Code begins to run for an account that is there. -/
theorem State.Opens.standing (h : s.Opens m scope t) (hs : s.Sound)
    (hcoded : s.arena.backend.accounts.Coded) (hgrounded : s.arena.Grounded) :
    Active.Standing t ⟨scope.frame, t⟩ := by
  have hpresent : t.arena.Grounded ∧ (t.arena.topWorld scope.contract).isPresent = true := by
    cases h.begins with
    | create htarget hconstructing hcontract hnonce hopen hwrite =>
      obtain ⟨hlinked, -⟩ := hs.linked.of_openLayer hopen
      have hopened := Arena.grounded_openLayer hgrounded hs.linked hopen
      refine ⟨Arena.grounded_write hopened hlinked hwrite (.inl rfl), ?_⟩
      rw [Arena.topWorld_write hlinked hwrite, World.write, if_pos rfl]
      rfl
    | call htarget hconstructing hcode hnonce hopen =>
      refine ⟨Arena.grounded_openLayer hgrounded hs.linked hopen, ?_⟩
      obtain ⟨hsome, -⟩ := Option.filter_eq_some_iff.mp hcode
      rw [hs.world_eq] at hsome
      rw [Arena.topWorld_openLayer hs.linked hopen]
      exact Arena.coded_reading hcoded _ _ (Option.isSome_of_eq_some hsome)
  refine ⟨hpresent.1, ?_⟩
  show (t.arena.topWorld scope.frame.message.contract).isPresent = true
  rw [h.contract_eq]
  exact hpresent.2

namespace Active.Standing

theorem paid (h : x.Standing t) (hpaid : x.Paid y) : y.Standing t := by
  obtain ⟨meter, hframe⟩ := hpaid.frame_eq
  have hcontract : y.contract = x.contract := by rw [contract, hframe]; rfl
  refine ⟨?_, ?_⟩
  · rw [hpaid.state_eq]
    exact h.grounded
  · rw [hpaid.state_eq, hcontract]
    exact h.present

/-- A frame writes to its own contract, and only while its layer is the top one. -/
theorem acted (h : x.Standing t) (hx : x.Within t) (ht : t.Sound) (hacted : x.Acted y) :
    y.Standing t := by
  cases hacted with
  | paid hpaid => exact h.paid hpaid
  | logged log hpaid =>
    have hy := h.paid hpaid
    exact ⟨hy.grounded, hy.present⟩
  | @written y arena w hpaid hmay hwrite =>
    have hy := h.paid hpaid
    have hwithin := hx.paid hpaid
    have hlinked := hwithin.sound.linked
    obtain ⟨hlayer, -, hwritten, -⟩ := hlinked.of_write hwrite
    have htop : y.state.arena.top = t.arena.top := by rw [← hlayer, hwithin.layer_eq]
    have hsize : t.arena.layers.size = y.state.arena.layers.size := by
      rw [hlinked.size_eq, ht.linked.size_eq, htop]
    have hthere := hy.present
    rw [hsize] at hthere
    refine ⟨Arena.grounded_write hy.grounded hlinked hwrite (.inr hthere), ?_⟩
    show (arena.reading t.arena.layers.size y.contract).isPresent = true
    rw [hsize, ← hwritten]
    show (arena.topWorld y.contract).isPresent = true
    rw [Arena.topWorld_write hlinked hwrite]
    exact World.keeps_write _ _ _ _ hthere

/-- What is applied deeper down takes nothing away. -/
theorem followed (h : x.Standing t) (hx : x.Within t) {n : Message} (hissues : x.Issues n)
    (hstands : Application.Stands ⟨n, x.state⟩) :
    Active.Standing t (x.follow (fun m s => s.apply m) (.issued n)).2 := by
  have hanswered : x.Answered (fun m s => s.apply m) _ := answered_issued hissues
  obtain ⟨meter, nestedGas, hframe⟩ := hanswered.frame_eq
  have hcontract : (x.follow (fun m s => s.apply m) (.issued n)).2.contract = x.contract := by
    rw [contract, hframe]
    rfl
  refine ⟨?_, ?_⟩
  · rw [state_follow]
    exact hstands.grounded
  · rw [state_follow, hcontract]
    exact hstands.keeps _ hx.later.size_le _ h.present

end Active.Standing

/-! ### Applications -/

namespace Application

theorem stands_of_arena_eq {a : Application ν} (hgrounded : a.state.arena.Grounded)
    (h : a.result.2.arena = a.state.arena) : a.Stands := by
  refine ⟨?_, fun k _ => ?_⟩
  · rw [h]
    exact hgrounded
  · rw [h]
    exact fun _ ha => ha

/-- However a scope is left. -/
theorem stands_left (hs : s.Sound) (hgrounded : s.arena.Grounded) (hopens : s.Opens m scope t)
    (hx : x.Within t) (hstanding : x.Standing t) {outcome : Outcome}
    (hleft : scope.Left x.frame x.state outcome (s.apply m)) : Stands ⟨m, s⟩ := by
  have hbelow := (hopens.continues_within hx).below
  have hresult : result ⟨m, s⟩ = s.apply m := rfl
  have hclosed := hopens.closed hs hx hleft
  generalize s.apply m = r at hclosed hresult
  cases hclosed with
  | recovered hrecovered hfailed =>
    exact stands_of_arena_eq hgrounded (by rw [hresult]; exact hrecovered.arena_eq)
  | stuck returned cause =>
    -- a scope that stays open leaves all layers that were there as they were
    refine ⟨by rw [hresult]; exact hstanding.grounded, fun k hk => ?_⟩
    rw [hresult]
    show (s.arena.reading k).Keeps (x.state.arena.reading k)
    rw [Arena.reading_congr hbelow k hk]
    exact fun _ ha => ha
  | @merged returned arena hcan hcommit hlinked hsize hkept =>
    rw [Scope.merged_eq] at hresult
    refine ⟨by rw [hresult]; exact Arena.grounded_commit hstanding.grounded hx.sound.linked hcommit,
      fun k hk => ?_⟩
    rw [hresult]
    show (s.arena.reading k).Keeps (arena.reading k)
    have hlive : k ≤ s.arena.layers.size := hk
    by_cases hlt : k ≤ s.arena.top
    · rw [Arena.reading_congr hkept k hlt]
      exact fun _ ha => ha
    · have hsize' := hs.linked.size_eq
      obtain rfl : k = s.arena.layers.size := by omega
      -- at the current layer everything is read that was read in the scope
      have hworld : arena.reading s.arena.layers.size = x.state.arena.topWorld := by
        rw [← Arena.topWorld_commit hx.sound.linked hcommit, Arena.topWorld, hsize]
      rw [hworld, ← Arena.reading_congr hbelow _ (Nat.le_refl _)]
      exact Arena.keeps_reading _ (hbelow.le_size (Nat.le_refl _))

/-- **An application keeps the layers grounded, and no account vanishes from what they show.** -/
theorem stands_apply (hs : s.Sound) (hcoded : s.arena.backend.accounts.Coded)
    (hgrounded : s.arena.Grounded) (m : Message) : Stands ⟨m, s⟩ := by
  refine Application.induction
    (Q := fun a => a.state.arena.backend.accounts.Coded → a.state.arena.Grounded → a.Stands)
    ?_ hs m hcoded hgrounded
  intro s m hs ih hcoded hgrounded
  have happlied := State.applied_apply hs m
  generalize hr : s.apply m = r at happlied
  cases happlied with
  | settled henter hentered =>
    have hresult : result ⟨m, s⟩ = _ := State.apply_settled hs henter
    refine stands_of_arena_eq hgrounded ?_
    rw [hresult]
    cases hentered <;> rfl
  | @left scope t outcome x r henter hopens hrun hx hleft =>
    have hstanding := hopens.run_issued henter hrun (J := fun _ x => x.Standing t)
      (fun hx h hacted => h.acted hx hopens.sound hacted)
      (fun hx h hissues => h.followed hx hissues (ih hopens hx hissues
        (by rw [(hopens.continues_within hx).below.backend]; exact hcoded) h.grounded))
      (fun _ h => ⟨h.grounded, h.present⟩) (hopens.standing hs hcoded hgrounded)
    rw [← hr] at hleft
    exact stands_left hs hgrounded hopens hx hstanding hleft

end Application

end ContractExec
