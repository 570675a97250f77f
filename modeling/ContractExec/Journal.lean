import ContractExec.Message
import ContractExec.Transfer

/-!
# Journals

The journal of a transaction keeps what happened in the order in which it happened: events of the
executor, and notes of the virtual machine. A rollback takes nothing out of it.
-/

namespace ContractExec

inductive Event where
  | apply (message : Message) (depth : Nat) (gasRemaining : Gas)
  | commit (layer : Nat) (gasConsumed : Gas)
  /-- A layer was discarded; the nonce is the one after that. -/
  | rollback (layer : Nat) (nonce : UInt64) (gasConsumed : Gas)
  | transfer (transfer : Transfer)
  deriving DecidableEq

inductive Entry (ν : Type) where
  | event (event : Event)
  | note (note : ν)
  deriving DecidableEq

/-- The entries of a transaction, the latest one first. -/
abbrev Journal (ν : Type) := List (Entry ν)

namespace Journal

variable {ν : Type}

/-- The events alone, the first one first. -/
def events (journal : Journal ν) : List Event :=
  journal.reverse.filterMap fun
    | .event event => some event
    | .note _ => none

def notes (journal : Journal ν) : List ν :=
  journal.reverse.filterMap fun
    | .event _ => none
    | .note note => some note

@[simp] theorem events_event (journal : Journal ν) (event : Event) :
    events (.event event :: journal) = journal.events ++ [event] := by
  simp [events]

@[simp] theorem events_note (journal : Journal ν) (note : ν) :
    events (.note note :: journal) = journal.events := by
  simp [events]

@[simp] theorem notes_event (journal : Journal ν) (event : Event) :
    notes (.event event :: journal) = journal.notes := by
  simp [notes]

@[simp] theorem notes_note (journal : Journal ν) (note : ν) :
    notes (.note note :: journal) = journal.notes ++ [note] := by
  simp [notes]

end Journal

end ContractExec
