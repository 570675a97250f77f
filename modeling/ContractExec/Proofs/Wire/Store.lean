import ContractExec.Proofs.Wire.Messages
import ContractExec.Wire.Store

/-!
# Schedules, accounts and change sets read back

A schedule is read from any of its fields, and the fields that are left out have their standard
values; read from all of them, it is the schedule that was written. Accounts and changes read back
where their storage is empty, and none are read that hold storage.

* `Config.Field` — the fields of a schedule, with `Config.get`;
* `Config.read?_object` — the schedule that an object with some of the fields is read as;
* `MemoryAccount.faithful`, `AccountChange.faithful` — accounts and changes with empty storage;
* `Changes.ofEntries_toList` — changes are rebuilt from their entries;
* `ChangeSet.faithful` — change sets with no storage entry.
-/

namespace ContractExec

/-! ### Schedules -/

namespace Config

/-- The fields of a schedule. -/
inductive Field where
  | baseCost
  | storageRetrieveBase
  | storageRetrievePerByte
  | storageSaveBase
  | storageSavePerByte
  | logBase
  | logPerByte
  | hashPerByte
  | callStackLimit
  deriving DecidableEq

/-- The name of a field in a document. -/
def Field.name : Field → String
  | baseCost => "base_cost"
  | storageRetrieveBase => "storage_retrieve_base"
  | storageRetrievePerByte => "storage_retrieve_per_byte"
  | storageSaveBase => "storage_save_base"
  | storageSavePerByte => "storage_save_per_byte"
  | logBase => "log_base"
  | logPerByte => "log_per_byte"
  | hashPerByte => "hash_per_byte"
  | callStackLimit => "call_stack_limit"

def get (config : Config) : Field → UInt64
  | .baseCost => config.baseCost
  | .storageRetrieveBase => config.storageRetrieveBase
  | .storageRetrievePerByte => config.storageRetrievePerByte
  | .storageSaveBase => config.storageSaveBase
  | .storageSavePerByte => config.storageSavePerByte
  | .logBase => config.logBase
  | .logPerByte => config.logPerByte
  | .hashPerByte => config.hashPerByte
  | .callStackLimit => config.callStackLimit

/-- The schedule with these values. -/
def ofFields (value : Field → UInt64) : Config where
  baseCost := value .baseCost
  storageRetrieveBase := value .storageRetrieveBase
  storageRetrievePerByte := value .storageRetrievePerByte
  storageSaveBase := value .storageSaveBase
  storageSavePerByte := value .storageSavePerByte
  logBase := value .logBase
  logPerByte := value .logPerByte
  hashPerByte := value .hashPerByte
  callStackLimit := value .callStackLimit

theorem get_ofFields (value : Field → UInt64) (field : Field) :
    (ofFields value).get field = value field := by
  cases field <;> rfl

theorem ofFields_get (config : Config) : ofFields config.get = config := rfl

/-- The schedule with these values, if none of them is missing. -/
def ofFields? (value? : Field → Option UInt64) : Option Config := do
  return {
    baseCost := ← value? .baseCost
    storageRetrieveBase := ← value? .storageRetrieveBase
    storageRetrievePerByte := ← value? .storageRetrievePerByte
    storageSaveBase := ← value? .storageSaveBase
    storageSavePerByte := ← value? .storageSavePerByte
    logBase := ← value? .logBase
    logPerByte := ← value? .logPerByte
    hashPerByte := ← value? .hashPerByte
    callStackLimit := ← value? .callStackLimit }

theorem ofFields?_some (value : Field → UInt64) :
    ofFields? (fun field => some (value field)) = some (ofFields value) := rfl

end Config

theorem Record.withDefault_of_lookup {α : Type} [Wire α] [LawfulWire α] {record : Record}
    {name : String} {chosen : Option α} (h : List.lookup name record = chosen.map Wire.write)
    (value : α) : record.withDefault name value = some (chosen.getD value) := by
  rw [withDefault, h]
  cases chosen with
  | none => rfl
  | some other => exact LawfulWire.read?_write other

namespace Config

/-- A schedule is read from the fields that are there, and has standard values for the others. -/
theorem read?_object {members : Record} {chosen : Field → Option UInt64}
    (h : ∀ field, List.lookup field.name members = (chosen field).map Wire.write) :
    Wire.read? (.object members)
      = some (ofFields fun field => (chosen field).getD (standard.get field)) := by
  have hread : Wire.read? (.object members)
      = ofFields? fun field => members.withDefault field.name (standard.get field) := rfl
  have hfield : ∀ field, members.withDefault field.name (standard.get field)
      = some ((chosen field).getD (standard.get field)) :=
    fun field => Record.withDefault_of_lookup (h field) _
  rw [hread, funext hfield, ofFields?_some]

/-- A written schedule leaves out no field. -/
theorem exists_write_eq_object (config : Config) :
    ∃ members, Wire.write config = .object members ∧
      ∀ field : Field, List.lookup field.name members = some (Wire.write (config.get field)) :=
  ⟨_, rfl, fun field => by cases field <;> rfl⟩

instance : LawfulWire Config where
  read?_write config := by
    obtain ⟨members, hwrite, hlookup⟩ := exists_write_eq_object config
    have hall : ∀ field : Field,
        List.lookup field.name members = (some (config.get field)).map Wire.write := hlookup
    rw [hwrite, read?_object hall]
    exact congrArg some config.ofFields_get
  write_ne_null _ := nofun

end Config

/-! ### Records of a transaction -/

instance : LawfulWire Log where
  read?_write log := by
    delta instWireLog
    simp
  write_ne_null _ := nofun

instance : LawfulWire Transfer where
  read?_write transfer := by
    delta instWireTransfer
    simp
  write_ne_null _ := nofun

instance : LawfulWire Vicinity where
  read?_write vicinity := by
    delta instWireVicinity
    simp
  write_ne_null _ := nofun

/-! ### Accounts without storage -/

theorem Storage.faithful : Wire.Faithful Storage.write? Storage.read? (· = ∅) where
  readsBack := by
    rintro _ rfl
    exact ⟨.object [], rfl, rfl⟩
  fits_of_read? document storage h := by
    unfold Storage.read? at h
    split at h
    · cases h
      rfl
    · cases h

theorem Record.eq_empty_of_storage {record : Record} {storage : Storage}
    (h : record.storage = some storage) : storage = ∅ := by
  obtain ⟨document, -, hread⟩ := Option.bind_eq_some_iff.mp h
  exact Storage.faithful.fits_of_read? document storage hread

theorem MemoryAccount.faithful :
    Wire.Faithful MemoryAccount.write? MemoryAccount.read? (·.storage = ∅) where
  readsBack account h := by
    obtain ⟨document, hwrite, hread⟩ := Storage.faithful.readsBack account.storage h
    simp [Wire.ReadsBack, write?, read?, Record.storage, Record.lookup_cons, hwrite, hread]
  fits_of_read? document account h := by
    simp only [read?, Option.bind_eq_bind, Option.bind_eq_some_iff] at h
    obtain ⟨record, -, balance, -, code, -, contractType, -, storage, hstorage, haccount⟩ := h
    cases haccount
    exact Record.eq_empty_of_storage hstorage

theorem AccountChange.faithful :
    Wire.Faithful AccountChange.write? AccountChange.read? (·.storage = ∅) where
  readsBack change h := by
    obtain ⟨document, hwrite, hread⟩ := Storage.faithful.readsBack change.storage h
    simp [Wire.ReadsBack, write?, read?, Record.storage, Record.lookup_cons, hwrite, hread]
  fits_of_read? document change h := by
    simp only [read?, Option.bind_eq_bind, Option.bind_eq_some_iff] at h
    obtain ⟨record, -, created, -, code, -, contractType, -, storage, hstorage, hchange⟩ := h
    cases hchange
    exact Record.eq_empty_of_storage hstorage

/-! ### Changes without storage -/

namespace AccountChange

/-- An account's changes as a member of an object. -/
def writeMember? (entry : Address × AccountChange) : Option (String × Json) := do
  return (entry.1.toText, ← entry.2.write?)

def readMember? (member : String × Json) : Option (Address × AccountChange) := do
  return (← Address.ofHex? member.1, ← read? member.2)

theorem faithful_member : Wire.Faithful writeMember? readMember? (·.2.storage = ∅) where
  readsBack entry h := by
    obtain ⟨document, hwrite, hread⟩ := faithful.readsBack entry.2 h
    refine ⟨(entry.1.toText, document), ?_, ?_⟩
    · rw [writeMember?, hwrite]
      rfl
    · rw [readMember?, Address.ofHex?_toText, hread]
      rfl
  fits_of_read? member entry h := by
    simp only [readMember?, Option.bind_eq_bind, Option.bind_eq_some_iff] at h
    obtain ⟨address, -, change, hchange, hentry⟩ := h
    cases hentry
    exact faithful.fits_of_read? member.2 change hchange

end AccountChange

namespace Changes

/-- No account's changes hold storage. -/
def WithoutStorage (changes : Changes) : Prop :=
  ∀ (address : Address) (change : AccountChange),
    changes[address]? = some change → change.storage = ∅

/-- Changes by their entries; of two entries for one address, the later one stands. -/
def ofEntries (entries : List (Address × AccountChange)) : Changes :=
  entries.foldl (fun all entry => all.insert entry.1 entry.2) ∅

theorem ofEntries_toList (changes : Changes) : ofEntries changes.toList = changes := by
  have hofList : ofEntries changes.toList = Std.ExtTreeMap.ofList changes.toList := by
    rw [Std.ExtTreeMap.ofList_eq_insertMany_empty, Std.ExtTreeMap.insertMany_list_eq_foldl]
    rfl
  rw [hofList]
  apply Std.ExtTreeMap.ext_getElem?
  intro address
  cases hchange : changes[address]? with
  | some change =>
    exact Std.ExtTreeMap.getElem?_ofList_of_mem Std.ReflCmp.compare_self
      Std.ExtTreeMap.distinct_keys_toList
      (Std.ExtTreeMap.mem_toList_iff_getElem?_eq_some.mpr hchange)
  | none =>
    apply Std.ExtTreeMap.getElem?_ofList_of_contains_eq_false
    have hkey : address ∉ changes.keys := by
      rw [Std.ExtTreeMap.mem_keys, Std.ExtTreeMap.mem_iff_isSome_getElem?, hchange]
      exact Bool.false_ne_true
    rw [Std.ExtTreeMap.map_fst_toList_eq_keys]
    simpa using hkey

theorem withoutStorage_ofEntries {entries : List (Address × AccountChange)}
    (h : ∀ entry ∈ entries, entry.2.storage = ∅) : (ofEntries entries).WithoutStorage := by
  refine List.foldlRecOn entries _ (motive := WithoutStorage) ?_ ?_
  · intro address change hchange
    rw [Std.ExtTreeMap.getElem?_empty] at hchange
    cases hchange
  · intro all hall entry hmem address change hchange
    rw [Std.ExtTreeMap.getElem?_insert] at hchange
    split at hchange
    · cases hchange
      exact h entry hmem
    · exact hall address change hchange

theorem faithful : Wire.Faithful write? read? WithoutStorage where
  readsBack changes h := by
    have hentries : ∀ entry ∈ changes.toList,
        Wire.ReadsBack AccountChange.writeMember? AccountChange.readMember? entry :=
      fun entry hmem => AccountChange.faithful_member.readsBack entry
        (h _ _ (Std.ExtTreeMap.mem_toList_iff_getElem?_eq_some.mp hmem))
    obtain ⟨members, hwrite, hread⟩ := Wire.ReadsBack.mapM hentries
    refine ⟨.object members, ?_, ?_⟩
    · change (do return Json.object (← changes.toList.mapM AccountChange.writeMember?)) = _
      rw [hwrite]
      rfl
    · change (do return ofEntries (← members.mapM AccountChange.readMember?)) = _
      rw [hread]
      exact congrArg some changes.ofEntries_toList
  fits_of_read? document changes h := by
    unfold read? at h
    split at h
    · rename_i members
      obtain ⟨entries, hentries, hchanges⟩ := Option.bind_eq_some_iff.mp h
      cases hchanges
      apply withoutStorage_ofEntries
      intro entry hmem
      obtain ⟨member, -, hread⟩ := Wire.exists_of_mem_mapM hentries hmem
      exact AccountChange.faithful_member.fits_of_read? member entry hread
    · cases h

end Changes

theorem ChangeSet.faithful :
    Wire.Faithful ChangeSet.write? ChangeSet.read? (·.accounts.WithoutStorage) where
  readsBack changeSet h := by
    obtain ⟨document, hwrite, hread⟩ := Changes.faithful.readsBack changeSet.accounts h
    simp [Wire.ReadsBack, write?, read?, hwrite, hread]
  fits_of_read? document changeSet h := by
    simp only [read?, Option.bind_eq_bind, Option.bind_eq_some_iff] at h
    obtain ⟨record, -, accounts, ⟨member, -, haccounts⟩, logs, -, transfers, -, hchangeSet⟩ := h
    cases hchangeSet
    exact Changes.faithful.fits_of_read? member accounts haccounts

end ContractExec
