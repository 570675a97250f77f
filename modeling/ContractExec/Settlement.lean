import ContractExec.State

/-!
# Settling transactions

A finished transaction is written to the store that it ran over. One that leaves layers open is
dropped, and so is one whose transfers the store refuses; either way the store stays as it was.
-/

namespace ContractExec

inductive Settlement where
  | unfinished (fatal : Fatal)
  | refused (changes : ChangeSet) (fatal : Fatal)
  | persisted (changes : ChangeSet)

/-- Settles a transaction and answers with the store for the next one, which is the one that writing has
left. -/
def MemoryBackend.settle {ν : Type} (store : MemoryBackend) (s : State ν) :
    Settlement × MemoryBackend :=
  match s.finish with
  | .error fatal => (.unfinished fatal, store)
  | .ok changes =>
    match store.apply changes with
    | (.error fatal, store) => (.refused changes fatal, store)
    | (.ok (), store) => (.persisted changes, store)

end ContractExec
