import ContractExec.Journal
import ContractExec.Script.Run

/-!
# Traces

A trace shows the journal of scripts with the depth of the frame that left each note, one for the
outermost. A frame is open from the note of its beginning to the note of its end.
-/

namespace ContractExec

inductive Traced where
  | event (event : Event)
  | note (depth : Nat) (note : Note)

/-- Entries in their order, while so many frames are open. -/
def traceFrom : (opened : Nat) → List (Entry Note) → List Traced
  | _, [] => []
  | opened, .event event :: rest => .event event :: traceFrom opened rest
  | opened, .note (.entered beginning consumed) :: rest =>
    .note (opened + 1) (.entered beginning consumed) :: traceFrom (opened + 1) rest
  | opened, .note (.exited outcome consumed) :: rest =>
    .note opened (.exited outcome consumed) :: traceFrom (opened - 1) rest
  | opened, .note (.found operation finding consumed) :: rest =>
    .note opened (.found operation finding consumed) :: traceFrom opened rest

/-- The trace of the entries that one journal has beyond an earlier one. -/
def Journal.traceSince (journal earlier : Journal Note) : List Traced :=
  traceFrom 0 (journal.take (journal.length - earlier.length)).reverse

end ContractExec
