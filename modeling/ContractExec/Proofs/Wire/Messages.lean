import ContractExec.Proofs.Wire.Hex
import ContractExec.Proofs.Wire.Records
import ContractExec.Wire.Receipt

/-!
# Values, messages and receipts read back

Every choice is read by the name it was written under, and every record field by field, so each
type here is lawful as soon as the types below it are. The index of a layer is the one part that is
written from a wider range than it is read in.

* `LawfulWire` for values, methods, messages and blocks, for faults and failures, and for receipts;
* `Fatal.InRange` — the index of a layer that a fatal names is a machine number;
* `Fatal.faithful` — these fatals read back, and no others are read.
-/

namespace ContractExec

/-! ### Addresses, amounts and values -/

instance : LawfulWire Amount where
  read?_write a := by
    change (Json.text a.toHex).text? >>= Amount.ofHex? = some a
    rw [Json.text?, Option.bind_eq_bind, Option.bind_some, Amount.ofHex?_toHex]
  write_ne_null _ := nofun

instance : LawfulWire Address where
  read?_write a := by
    change (Json.text a.toText).text? >>= Address.ofHex? = some a
    rw [Json.text?, Option.bind_eq_bind, Option.bind_some, Address.ofHex?_toText]
  write_ne_null _ := nofun

instance : LawfulWire Value where
  read?_write value := by
    delta instWireValue
    cases value <;> simp
  write_ne_null value := by cases value <;> nofun

instance : LawfulWire MethodCall where
  read?_write call := by
    delta instWireMethodCall
    simp
  write_ne_null _ := nofun

/-! ### Messages -/

instance : LawfulWire Message where
  read?_write m := by
    obtain ⟨sender, amount, gasLimit, action⟩ := m
    delta instWireMessage
    -- One alternative for each action; all of them share the members around it.
    cases action <;> simp [Message.commonMembers, Message.targetedMembers, Message.ofRecord?]
  write_ne_null m := by
    obtain ⟨sender, amount, gasLimit, action⟩ := m
    cases action <;> nofun

instance : LawfulWire MessageView where
  read?_write view := by
    delta instWireMessageView
    simp
  write_ne_null _ := nofun

instance : LawfulWire Block where
  read?_write block := by
    delta instWireBlock
    simp
  write_ne_null _ := nofun

/-! ### Faults and receipts -/

instance : LawfulWire Fault where
  read?_write fault := by
    delta instWireFault
    cases fault <;> simp
  write_ne_null fault := by cases fault <;> nofun

instance : LawfulWire Failure where
  read?_write failure := by
    delta instWireFailure
    cases failure <;> simp
  write_ne_null failure := by cases failure <;> nofun

instance : LawfulWire Receipt where
  read?_write receipt := by
    delta instWireReceipt
    cases receipt <;> simp
  write_ne_null receipt := by cases receipt <;> nofun

/-! ### Fatals -/

namespace Fatal

/-- The index of a layer is a machine number. -/
def InRange : Fatal → Prop
  | layerOutOfOrder layer => layer < UInt64.size
  | _ => True

theorem read?_write {fatal : Fatal} (h : fatal.InRange) :
    Wire.read? (Wire.write fatal) = some fatal := by
  delta instWireFatal
  cases fatal with
  | unaffordableCreate sender amount balance => simp
  | layerOutOfOrder layer => simp [Wire.readNat?_writeNat h]
  | balanceOutOfRange account => simp
  | other text => simp

theorem inRange_of_read? {document : Json} {fatal : Fatal}
    (h : Wire.read? document = some fatal) : fatal.InRange := by
  delta instWireFatal at h
  obtain ⟨choice, -, hread⟩ := Option.bind_eq_some_iff.mp h
  -- By the name of the choice; only the second one reads an index.
  split at hread
  · simp only [Option.bind_eq_bind, Option.bind_eq_some_iff] at hread
    obtain ⟨record, -, sender, -, amount, -, balance, -, hfatal⟩ := hread
    cases hfatal
    trivial
  · simp only [Option.map_eq_map, Option.map_eq_some_iff, Option.bind_eq_bind,
      Option.bind_eq_some_iff] at hread
    obtain ⟨layer, ⟨body, -, hlayer⟩, rfl⟩ := hread
    exact Wire.lt_of_readNat? hlayer
  · obtain ⟨account, rfl⟩ := Choice.exists_of_carrying hread
    trivial
  · obtain ⟨text, rfl⟩ := Choice.exists_of_carrying hread
    trivial
  · cases hread

theorem faithful :
    Wire.Faithful (fun fatal : Fatal => some (Wire.write fatal)) Wire.read? InRange where
  readsBack fatal h := ⟨Wire.write fatal, rfl, read?_write h⟩
  fits_of_read? _ _ h := inRange_of_read? h

end Fatal

end ContractExec
