import ContractExec.Wire.Receipt
import ContractExec.Wire.Store

/-!
# The types that have a serialized form

`Form.canonical?` reads a document as a value of one of these types and writes that value again.
-/

namespace ContractExec

/-- A type with a serialized form. -/
inductive Form where
  | config
  | value
  | method
  | message
  | receipt
  | fault
  | fatal
  | log
  | transfer
  | block
  | messageView
  | vicinity
  | account
  | changeSet
  deriving DecidableEq

/-- Reads a document as a value of a type and writes the value. -/
def Wire.canonical? (α : Type) [Wire α] (document : Json) : Option Json :=
  (Wire.read? document : Option α).map Wire.write

/-- Reads a document and writes what was read, in the form of the type. -/
def Form.canonical? : Form → Json → Option Json
  | config => Wire.canonical? Config
  | value => Wire.canonical? Value
  | method => Wire.canonical? MethodCall
  | message => Wire.canonical? Message
  | receipt => Wire.canonical? Receipt
  | fault => Wire.canonical? Fault
  | fatal => Wire.canonical? Fatal
  | log => Wire.canonical? Log
  | transfer => Wire.canonical? Transfer
  | block => Wire.canonical? Block
  | messageView => Wire.canonical? MessageView
  | vicinity => Wire.canonical? Vicinity
  | account => fun document => MemoryAccount.read? document >>= MemoryAccount.write?
  | changeSet => fun document => ChangeSet.read? document >>= ChangeSet.write?

end ContractExec
