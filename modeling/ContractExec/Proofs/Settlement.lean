import ContractExec.Proofs.Backend.Accounts
import ContractExec.Proofs.Backend.Balances
import ContractExec.Proofs.Presence
import ContractExec.Proofs.Sequence
import ContractExec.Proofs.Spending
import ContractExec.Settlement

/-!
# What a settled transaction leaves in the store

Messages in turn that end with receipts leave a transaction that finishes, and the store takes what
it leaves behind as long as all balances can be told. What was last read in the transaction is what
the store then holds: each key of storage, each balance, the accounts themselves and the logs. An
account is in the store if it was there at the root or if value was sent to it or from it; no other
gets there, since only accounts that are there are ever written.

* `MemoryBackend.coded_world` — a store has code only where it has an account;
* `grounded_apply`, `grounded_applyAll` — the layers are grounded after every message;
* `MemoryBackend.Holds`, `holds_wrote` — what a store holds after a transaction was written to it;
* `settles_as_read` — **a transaction whose balances can be told is settled as it was read**.
-/

namespace ContractExec

variable {ν : Type}

/-- A store has code only where it has an account. -/
theorem MemoryBackend.coded_world (store : MemoryBackend) : store.world.Coded := by
  intro a hcode
  rw [world] at hcode ⊢
  split
  case h_1 => rfl
  case h_2 hnone =>
    rw [hnone] at hcode
    cases hcode

namespace State

variable {store : MemoryBackend} {s t : State ν} {m : Message}

/-- A message with a receipt leaves the layers grounded. -/
theorem grounded_apply (hs : s.Between store.toBackend) (hgrounded : s.arena.Grounded)
    {receipt : Receipt} (h : s.apply m = (.ok receipt, t)) : t.arena.Grounded := by
  have hcoded : s.arena.backend.accounts.Coded := by
    rw [hs.backend_eq]
    exact store.coded_world
  have hstands := Application.stands_apply hs.reached.sound hcoded hgrounded m
  have hresult : Application.result ⟨m, s⟩ = (.ok receipt, t) := h
  have hkept := hstands.grounded
  rw [hresult] at hkept
  exact hkept

theorem grounded_applyAll {config : Config} {vm : Vm ν} {transaction : Hash} {gasLimit : Gas}
    {messages : List Message}
    (h : (State.new config vm store.toBackend transaction gasLimit).applyAll messages = some s) :
    s.arena.Grounded := by
  have hkept := applyAll_keeps (P := fun s => s.Between store.toBackend ∧ s.arena.Grounded)
    (fun hs happly => ⟨hs.1.apply happly, grounded_apply hs.1 hs.2 happly⟩)
    ⟨between_new _ _ _ _ _, Arena.grounded_new _⟩ h
  exact hkept.2

end State

namespace MemoryBackend

/-- What a store holds after a transaction was written to it, by what was last read in the
transaction. -/
structure Holds (store : MemoryBackend) (s : State ν) (after : MemoryBackend) : Prop where
  storage_eq : ∀ a key, (after.world a).storage key = (s.world a).storage key
  balance_eq : ∀ a, s.balance a = .ok (after.balance a)
  mem_iff : ∀ a, a ∈ after.accounts
    ↔ (s.worldAt Arena.root a).isPresent = true ∨ ∃ t ∈ s.transfers, t.IsParty a
  logs_eq : after.logs = store.logs ++ s.logs

variable {store after : MemoryBackend} {s : State ν}

/-- An account is there under the changes of the root if it was there below, or has changes, all of
which are to accounts that are there. -/
theorem isPresent_overlay_iff {changes : Changes} (a : Address)
    (hgrounded : a ∈ changes → (changes.overlay store.world a).isPresent = true) :
    (changes.overlay store.world a).isPresent = true ↔ a ∈ store.accounts ∨ a ∈ changes := by
  constructor
  · intro hpresent
    rw [Changes.overlay] at hpresent
    rw [Std.ExtTreeMap.mem_iff_isSome_getElem? (t := changes)]
    cases hchange : changes[a]? with
    | some change => exact .inr rfl
    | none =>
      rw [hchange] at hpresent
      exact .inl ((store.isPresent_world a).mp hpresent)
  · rintro (hold | hchanged)
    · exact World.keeps_overlay _ _ a ((store.isPresent_world a).mpr hold)
    · exact hgrounded hchanged

/-- Writing what a transaction leaves behind, once its balances are worked out. -/
theorem holds_wrote {changes : Changes} {moved : Moved}
    (hwrote : store.Wrote ⟨changes, s.logs, s.transfers⟩ moved after) (hs : s.Between store.toBackend)
    (hgrounded : s.arena.Grounded) (hroot : s.arena.layers[Arena.root]? = some ⟨none, changes⟩)
    (hworld : s.world = changes.overlay store.world)
    (hbalances : ∀ a, s.balance a = .ok (store.balanceIn moved a))
    (hparties : ∀ a, a ∈ moved ↔ ∃ t ∈ s.transfers, t.IsParty a) : store.Holds s after := by
  have hsound : s.Sound := hs.reached.sound
  have htop : s.arena.top = Arena.root := hs.depth_eq
  have hread : s.worldAt Arena.root = changes.overlay store.world := by
    rw [← hworld, hsound.world_eq, ← htop, hsound.worldAt_top]
  have hthere : ∀ a, a ∈ changes → (changes.overlay store.world a).isPresent = true := by
    intro a ha
    have hpresent := hgrounded _ _ hroot a ha
    rw [← hread, ← htop, hsound.worldAt_top, Arena.topWorld, hsound.linked.size_eq, htop]
    exact hpresent
  refine ⟨fun a key => ?_, fun a => ?_, fun a => ?_, hwrote.logs_eq⟩
  · rw [hwrote.storage_wrote, hworld]
  · rw [hwrote.balance_wrote, hbalances]
  · rw [hwrote.mem_iff, hread, isPresent_overlay_iff a (hthere a), or_assoc, ← hparties]

end MemoryBackend

/-- **A transaction is settled as it was read.** After messages in turn that all ended with receipts,
if every balance can be told, the transaction finishes and the store takes what it leaves behind. The
store then holds the storage, the balances, the accounts and the logs that the transaction last
read. -/
theorem settles_as_read {store : MemoryBackend} {config : Config} {vm : Vm ν} {transaction : Hash}
    {gasLimit : Gas} {messages : List Message} {s : State ν}
    (happlied : (State.new config vm store.toBackend transaction gasLimit).applyAll messages = some s)
    (hreadable : ∀ a, ∃ balance, s.balance a = .ok balance) :
    ∃ changeSet after, s.finish = .ok changeSet ∧ store.apply changeSet = (.ok (), after) ∧
      store.settle s = (.persisted changeSet, after) ∧ store.Holds s after := by
  have hs := State.between_applyAll happlied
  obtain ⟨changes, hfinish, hroot, hworld⟩ := hs.exists_finish
  have hcommitted : s.arena.backend.balance = store.balance := by rw [hs.backend_eq]; rfl
  have hcovered : Affordable s.arena.backend.balance s.transfers := hs.reached.affordable
  rw [hcommitted] at hcovered
  have htold : ∀ a, s.balance a = effectiveBalance (store.balance a) s.transfers a := by
    intro a
    rw [State.balance, hcommitted]
  obtain ⟨moved, hmoved, hbalances, hparties⟩ :=
    MemoryBackend.exists_moved hcovered fun a => by
      rw [← htold]
      exact hreadable a
  have hwritten : ∃ after, store.apply ⟨changes, s.logs, s.transfers⟩ = (.ok (), after) ∧
      store.Wrote ⟨changes, s.logs, s.transfers⟩ moved after := MemoryBackend.exists_wrote hmoved
  obtain ⟨after, happly, hwrote⟩ := hwritten
  refine ⟨_, after, hfinish, happly, ?_, ?_⟩
  · rw [MemoryBackend.settle, hfinish]
    dsimp only
    rw [happly]
  · exact MemoryBackend.holds_wrote hwrote hs (State.grounded_applyAll happlied) hroot hworld
      (fun a => by rw [htold, hbalances]) hparties

/-- A store of one contract that holds seven units, and a plain account that holds four. -/
def fundedStore : MemoryBackend where
  accounts := ((∅ : Std.ExtTreeMap Address MemoryAccount).insert 1
    { balance := 7, code := [0] }).insert 2 { balance := 4 }

theorem settles_as_read_of_bookkeeping :
    ∃ s changeSet after,
      (State.new .standard bookkeeping fundedStore.toBackend 0 5000).applyAll [bookkeepingCall]
        = some s ∧
      s.transfers = [⟨1, 2, 5⟩, ⟨2, 1, 4⟩] ∧ s.finish = .ok changeSet ∧
      fundedStore.apply changeSet = (.ok (), after) ∧ fundedStore.Holds s after := by
  have htransfers : ((State.new .standard bookkeeping fundedStore.toBackend 0 5000).applyAll
      [bookkeepingCall]).map (·.transfers) = some [⟨1, 2, 5⟩, ⟨2, 1, 4⟩] := by
    decide +kernel
  obtain ⟨s, happlied, htransfers⟩ := Option.map_eq_some_iff.mp htransfers
  have hreadable : ∀ a, ∃ balance, s.balance a = .ok balance := by
    intro a
    rw [State.balance, (State.between_applyAll happlied).backend_eq, htransfers]
    by_cases hcontract : a = 1
    · rw [hcontract]
      exact ⟨6, by decide +kernel⟩
    · by_cases hplain : a = 2
      · rw [hplain]
        exact ⟨5, by decide +kernel⟩
      · -- neither transfer touches any other address
        have hfirst : Transfer.adjust ⟨1, 2, 5⟩ a (fundedStore.balance a)
            = some (fundedStore.balance a) :=
          Transfer.adjust_of_ne _ (Ne.symm hcontract) (Ne.symm hplain)
        have hsecond : Transfer.adjust ⟨2, 1, 4⟩ a (fundedStore.balance a)
            = some (fundedStore.balance a) :=
          Transfer.adjust_of_ne _ (Ne.symm hplain) (Ne.symm hcontract)
        refine ⟨fundedStore.balance a, effectiveBalance_eq_ok_iff.mpr ?_⟩
        exact Option.bind_eq_some_iff.mpr
          ⟨_, hfirst, Option.bind_eq_some_iff.mpr ⟨_, hsecond, rfl⟩⟩
  obtain ⟨changeSet, after, hfinish, happly, -, hholds⟩ := settles_as_read happlied hreadable
  exact ⟨s, changeSet, after, happlied, htransfers, hfinish, happly, hholds⟩

end ContractExec
