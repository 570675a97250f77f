import ContractExec.Proofs.Backend.Accounts
import ContractExec.Proofs.Sequence

/-!
# Code and types in the store

A transaction reads code and contract type of an account through its layers, and what it read last is
what the store should hold after it. The store does, but for one case. An account that was created
over one that the store holds, without new code or a new type, has neither while the transaction
runs. Written to the store, it has its old ones back.

* `MemoryBackend.Restores` — the old value of a field is back in the store;
* `MemoryBackend.HoldsCode` — what the store holds after a transaction, by what was read before;
* `code_held_unless_recreated` — **code and type are held as they were read, unless the account was
  created anew over an old one that had the field**;
* `recreated_code_restored` — an account for which they are not.
-/

namespace ContractExec

namespace MemoryBackend

/-- An account was created over one that the store held with some value in a field, and nothing was
written to that field since. -/
def Restores {α : Type} (store : MemoryBackend) (changes : Changes)
    (field : AccountChange → Option α) (read : Account → Option α) (address : Address) : Prop :=
  changes.leavesUnset field address = true ∧ read (store.world address) ≠ none

/-- What a store holds after the changes of a transaction, at whose end the root was read as a world:
the code that can run and the type that were read, or where an account was created anew over an old
one that had the field, the old value, which was not read any more. -/
structure HoldsCode (store : MemoryBackend) (changes : Changes) (root : World)
    (after : MemoryBackend) : Prop where
  code_iff : ∀ a, (after.world a).code = (root a).runnable
    ↔ ¬store.Restores changes (·.code) Account.code a
  code_restored : ∀ a, store.Restores changes (·.code) Account.code a →
    (after.world a).code = (store.world a).code ∧ (root a).code = none
  contractType_iff : ∀ a, (after.world a).contractType = (root a).contractType
    ↔ ¬store.Restores changes (·.contractType) Account.contractType a
  contractType_restored : ∀ a, store.Restores changes (·.contractType) Account.contractType a →
    (after.world a).contractType = (store.world a).contractType ∧ (root a).contractType = none

variable {store after : MemoryBackend}

/-- One field: it is held as it was read unless it is restored. -/
theorem held_iff {α : Type} {unset : Bool} {old seen held : Option α}
    (hheld : held = if unset = true then old else seen) (hhidden : unset = true → seen = none) :
    held = seen ↔ ¬(unset = true ∧ old ≠ none) := by
  cases unset with
  | false =>
    rw [hheld]
    simp
  | true =>
    rw [hheld, hhidden rfl]
    simp

/-- A field that changes leave unset is not read through them. -/
theorem overlay_of_leavesUnset (changes : Changes) (below : World) (address : Address) :
    (changes.leavesUnset (·.code) address = true →
        (changes.overlay below address).code = none) ∧
      (changes.leavesUnset (·.contractType) address = true →
        (changes.overlay below address).contractType = none) := by
  rw [Changes.leavesUnset, Changes.leavesUnset, Changes.overlay]
  cases changes[address]? with
  | none =>
    constructor
    · intro hunset
      cases hunset
    · intro hunset
      cases hunset
  | some change =>
    simp only [Option.any_some, AccountChange.leavesUnset, Bool.and_eq_true, Option.isNone_iff_eq_none]
    constructor
    · rintro ⟨hcreated, hcode⟩
      rw [AccountChange.overlay, hcreated, hcode]
      rfl
    · rintro ⟨hcreated, htype⟩
      rw [AccountChange.overlay, hcreated, htype]
      rfl

/-- Writing any change set whose account changes were read through as a world. -/
theorem holdsCode_apply {changeSet : ChangeSet} (h : store.apply changeSet = (.ok (), after)) :
    store.HoldsCode changeSet.accounts (changeSet.accounts.overlay store.world) after := by
  obtain ⟨moved, hwrote⟩ := wrote_of_apply h
  have hhidden := overlay_of_leavesUnset changeSet.accounts store.world
  refine ⟨fun a => ?_, fun a hrestored => ⟨?_, (hhidden a).1 hrestored.1⟩, fun a => ?_,
    fun a hrestored => ⟨?_, (hhidden a).2 hrestored.1⟩⟩
  · refine held_iff (hwrote.code_wrote a) fun hunset => ?_
    rw [Account.runnable, (hhidden a).1 hunset]
    rfl
  · rw [hwrote.code_wrote, if_pos hrestored.1]
  · exact held_iff (hwrote.contractType_wrote a) (hhidden a).2
  · rw [hwrote.contractType_wrote, if_pos hrestored.1]

end MemoryBackend

/-- **Code and type are held as they were read, unless the account was created anew over an old one
that had the field.** This is so for any layer operations over the store that leave only the root
open, and for any messages in turn that end with receipts. -/
theorem code_held_unless_recreated (store : MemoryBackend) :
    (∀ operations : List Arena.Operation,
      ((Arena.new store.toBackend).run operations).2.depth = 0 →
        ∃ root changes, ((Arena.new store.toBackend).run operations).2.worldAt? Arena.root = some root ∧
          ((Arena.new store.toBackend).run operations).2.finish = .ok changes ∧
          ∀ logs, ∃ after, store.apply ⟨changes, logs, []⟩ = (.ok (), after) ∧
            store.HoldsCode changes root after) ∧
    ∀ (ν : Type) (config : Config) (vm : Vm ν) (transaction : Hash) (gasLimit : Gas)
      (messages : List Message) (s : State ν),
      (State.new config vm store.toBackend transaction gasLimit).applyAll messages = some s →
        ∃ changeSet, s.finish = .ok changeSet ∧
          ∀ after, store.apply changeSet = (.ok (), after) →
            store.HoldsCode changeSet.accounts s.world after := by
  constructor
  · intro operations hdepth
    have hlinked := (Arena.shows_run (Arena.shows_new store.toBackend) operations).2.linked
    have hbackend := Arena.backend_run (Arena.new store.toBackend) operations
    generalize ((Arena.new store.toBackend).run operations).2 = arena at hdepth hlinked hbackend
    obtain ⟨changes, hfinish, -, hworld⟩ := Arena.finish_linked hlinked hdepth
    have hsize : arena.layers.size = 1 := by rw [hlinked.size_eq]; exact congrArg (· + 1) hdepth
    refine ⟨arena.topWorld, changes, ?_, hfinish, fun logs => ?_⟩
    · rw [Arena.worldAt?_eq hlinked, if_pos (show Arena.root < _ from hlinked.size_pos),
        Arena.topWorld, hsize]
      rfl
    · have hwrote : ∃ after, store.apply ⟨changes, logs, []⟩ = (.ok (), after) ∧
          store.Wrote ⟨changes, logs, []⟩ ∅ after := MemoryBackend.exists_wrote rfl
      obtain ⟨after, happly, -⟩ := hwrote
      refine ⟨after, happly, ?_⟩
      rw [hworld, hbackend]
      exact MemoryBackend.holdsCode_apply happly
  · intro ν config vm transaction gasLimit messages s happlied
    obtain ⟨changes, hfinish, -, hworld⟩ := (State.between_applyAll happlied).exists_finish
    refine ⟨_, hfinish, fun after happly => ?_⟩
    rw [hworld]
    exact MemoryBackend.holdsCode_apply happly

/-- A store that holds a contract at the first address. -/
def tokenStore : MemoryBackend where
  accounts := (∅ : Std.ExtTreeMap Address MemoryAccount).insert 1
    { code := [1], contractType := some "Token" }

/-- The account at the first address is created anew. -/
def recreation : List Arena.Operation := [.openLayer 0, .write 1 1 .create, .commit 1]

/-- The layers after that, of which only the root is left. -/
def recreatedArena : Arena := ((Arena.new tokenStore.toBackend).run recreation).2

/-- **Not all code is held as it was read.** The account at the first address was created anew and has
neither code nor type at the root. Written to the store, it has those of the old account. -/
theorem recreated_code_restored :
    recreatedArena.depth = 0 ∧
      ∃ root changes after, recreatedArena.worldAt? Arena.root = some root ∧
        recreatedArena.finish = .ok changes ∧ tokenStore.apply ⟨changes, [], []⟩ = (.ok (), after) ∧
        (root 1).code = none ∧ (root 1).contractType = none ∧
        (after.world 1).code = some [1] ∧ (after.world 1).contractType = some "Token" := by
  refine ⟨by decide +kernel, _, _, _, rfl, rfl, rfl, ?_, ?_, ?_, ?_⟩
  · decide +kernel
  · decide +kernel
  · decide +kernel
  · decide +kernel

/-- A call of the contract, which brings no value. -/
def tokenCall : Message := ⟨2, 0, 4000, .externalCall 1 ⟨"book", []⟩⟩

theorem code_held_unless_recreated_of_token :
    (∃ root changes after, recreatedArena.worldAt? Arena.root = some root ∧
      recreatedArena.finish = .ok changes ∧ tokenStore.apply ⟨changes, [], []⟩ = (.ok (), after) ∧
      tokenStore.HoldsCode changes root after) ∧
    ∃ s changeSet,
      (State.new .standard bookkeeping tokenStore.toBackend 0 5000).applyAll [tokenCall] = some s ∧
        s.finish = .ok changeSet ∧ ∀ after, tokenStore.apply changeSet = (.ok (), after) →
          tokenStore.HoldsCode changeSet.accounts s.world after := by
  have hdepth : recreatedArena.depth = 0 := by decide +kernel
  obtain ⟨root, changes, hroot, hfinish, hholds⟩ :=
    (code_held_unless_recreated tokenStore).1 recreation hdepth
  obtain ⟨after, happly, hafter⟩ := hholds []
  have hreceipt : ((State.new .standard bookkeeping tokenStore.toBackend 0 5000).applyAll
      [tokenCall]).isSome = true := by
    decide +kernel
  obtain ⟨s, hs⟩ := Option.isSome_iff_exists.mp hreceipt
  obtain ⟨changeSet, hend, hkept⟩ :=
    (code_held_unless_recreated tokenStore).2 _ _ _ _ _ _ _ hs
  exact ⟨⟨root, changes, after, hroot, hfinish, happly, hafter⟩, s, changeSet, hs, hend, hkept⟩

end ContractExec
