import ContractExec.Proofs.Wire.Store
import ContractExec.Wire.Form

/-!
# Serialized values read back unchanged

Each form writes values of one type and reads values of that type. What a form can write and read is
told by the value alone: all values of most types, the accounts and change sets that hold no storage,
and the fatals whose layer has a machine number.

* `Form.Carrier` — the type of a form, with `Form.write?` and `Form.read?`;
* `Form.Fits` — the values that a form is for;
* `Form.faithful` — each form reads back the values it is for, and reads no others;
* `Form.canonical?_eq` — to rewrite a document is to read it and to write what was read;
* `serialized_reads_back` — **written values read back, rewritten documents read as before, and a
  schedule is read from any of its fields**.
-/

namespace ContractExec

namespace Form

/-! ### What a form writes and reads -/

/-- The type whose values a form writes. -/
abbrev Carrier : Form → Type
  | config => Config
  | value => Value
  | method => MethodCall
  | message => Message
  | receipt => Receipt
  | fault => Fault
  | fatal => Fatal
  | log => Log
  | transfer => Transfer
  | block => Block
  | messageView => MessageView
  | vicinity => Vicinity
  | account => MemoryAccount
  | changeSet => ChangeSet

def write? : (form : Form) → form.Carrier → Option Json
  | config => fun config => some (Wire.write config)
  | value => fun value => some (Wire.write value)
  | method => fun call => some (Wire.write call)
  | message => fun m => some (Wire.write m)
  | receipt => fun receipt => some (Wire.write receipt)
  | fault => fun fault => some (Wire.write fault)
  | fatal => fun fatal => some (Wire.write fatal)
  | log => fun log => some (Wire.write log)
  | transfer => fun transfer => some (Wire.write transfer)
  | block => fun block => some (Wire.write block)
  | messageView => fun view => some (Wire.write view)
  | vicinity => fun vicinity => some (Wire.write vicinity)
  | account => MemoryAccount.write?
  | changeSet => ChangeSet.write?

def read? : (form : Form) → Json → Option form.Carrier
  | config | value | method | message | receipt | fault | fatal | log | transfer | block
  | messageView | vicinity => Wire.read?
  | account => MemoryAccount.read?
  | changeSet => ChangeSet.read?

/-- The values that a form is for. No object can hold the keys of a storage, and the index of a layer
is a machine number. -/
def Fits : (form : Form) → form.Carrier → Prop
  | fatal => Fatal.InRange
  | account => fun account => account.storage = ∅
  | changeSet => fun changeSet => changeSet.accounts.WithoutStorage
  | _ => fun _ => True

/-! ### Faithful forms -/

theorem faithful (form : Form) : Wire.Faithful form.write? form.read? form.Fits := by
  cases form with
  | fatal => exact Fatal.faithful
  | account => exact MemoryAccount.faithful
  | changeSet => exact ChangeSet.faithful
  | _ => exact .of_lawful

theorem canonical?_eq (form : Form) (document : Json) :
    form.canonical? document = form.read? document >>= form.write? := by
  cases form with
  | account | changeSet => rfl
  | _ => exact Option.map_eq_bind

end Form

/-- **Serialized values read back unchanged.** A value reads back from its own form if it is one that
its form is for; a document that can be read can be rewritten, and reads as the same value then; and
an object with some of the fields of a schedule is read as the standard schedule with these values in
place of its own. -/
theorem serialized_reads_back :
    (∀ (form : Form) (value : form.Carrier),
      Wire.ReadsBack form.write? form.read? value ↔ form.Fits value) ∧
    (∀ (form : Form) (document : Json) (value : form.Carrier), form.read? document = some value →
      ∃ canonical, form.canonical? document = some canonical ∧
        form.read? canonical = some value) ∧
    ∀ (members : Record) (chosen : Config.Field → Option UInt64),
      (∀ field, List.lookup field.name members = (chosen field).map Wire.write) →
      ∃ config, Form.config.read? (.object members) = some config ∧
        ∀ field, config.get field = (chosen field).getD (Config.standard.get field) := by
  refine ⟨fun form value => form.faithful.readsBack_iff value, ?_, ?_⟩
  · intro form document value hread
    rw [Form.canonical?_eq]
    exact form.faithful.rewritten hread
  · intro members chosen h
    exact ⟨_, Config.read?_object h, Config.get_ofFields _⟩

/-- A schedule of which two fields are written out. -/
def sparseSchedule : Record := [("base_cost", .int 5), ("call_stack_limit", .int 8)]

def sparseFields : Config.Field → Option UInt64
  | .baseCost => some 5
  | .callStackLimit => some 8
  | _ => none

-- A fatal about layer 3, read and written again; an account that holds nothing but code; and
-- the two fields of a schedule over the standard ones.
theorem serialized_reads_back_of_sparse :
    (∃ canonical, Form.fatal.canonical? (.object [("LayerOutOfOrder", .int 3)]) = some canonical ∧
      Form.fatal.read? canonical = some (Fatal.layerOutOfOrder 3)) ∧
    Wire.ReadsBack Form.account.write? Form.account.read? { code := [96, 1] } ∧
    ∃ config, Form.config.read? (.object sparseSchedule) = some config ∧
      ∀ field, config.get field = (sparseFields field).getD (Config.standard.get field) := by
  obtain ⟨hback, hrewritten, hschedule⟩ := serialized_reads_back
  refine ⟨?_, ?_, ?_⟩
  · exact hrewritten .fatal (.object [("LayerOutOfOrder", .int 3)]) (Fatal.layerOutOfOrder 3) rfl
  · exact (hback .account { code := [96, 1] }).mpr rfl
  · exact hschedule sparseSchedule sparseFields fun field => by cases field <;> rfl

end ContractExec
