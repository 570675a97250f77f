import ContractExec.Wire

/-!
# Records and choices read back

A type is lawful if each of its values reads back from its own serialized form. A record is lawful
as soon as its fields are, and a choice as soon as what comes with its alternatives is: the lemmas
here take apart again, field by field, what was just written.

* `LawfulWire` — every value reads back, and no value is written as null;
* `Wire.ReadsBack` — a single value reads back, where writing may fail;
* `Wire.Faithful` — the values that read back are those that fit, and nothing else is ever read;
* `Wire.Faithful.rewritten` — what was read can be written, and reads as the same again;
* `Record.required_cons`, `Record.optional_cons` — a field is found at the first member of its name.
-/

namespace ContractExec

/-- A type whose values read back as they were written. -/
class LawfulWire (α : Type) [Wire α] : Prop where
  read?_write (value : α) : Wire.read? (Wire.write value) = some value
  /-- A null would read as a missing option. -/
  write_ne_null (value : α) : Wire.write value ≠ .null

attribute [simp] LawfulWire.read?_write LawfulWire.write_ne_null

namespace Wire

/-! ### One value, and many -/

/-- A value that can be written, and that reads back from what was written. -/
def ReadsBack {α β : Type} (write? : α → Option β) (read? : β → Option α) (value : α) : Prop :=
  ∃ document, write? value = some document ∧ read? document = some value

theorem ReadsBack.mapM {α β : Type} {write? : α → Option β} {read? : β → Option α}
    {values : List α} (h : ∀ value ∈ values, ReadsBack write? read? value) :
    ReadsBack (List.mapM write?) (List.mapM read?) values := by
  induction values with
  | nil => exact ⟨[], rfl, rfl⟩
  | cons value values ih =>
    rw [List.forall_mem_cons] at h
    obtain ⟨document, hwrite, hread⟩ := h.1
    obtain ⟨documents, hwrites, hreads⟩ := ih h.2
    refine ⟨document :: documents, ?_, ?_⟩
    · simp [hwrite, hwrites]
    · simp [hread, hreads]

/-- What is read from a list was read from one of its elements. -/
theorem exists_of_mem_mapM {α β : Type} {read? : β → Option α} {documents : List β}
    {values : List α} (h : documents.mapM read? = some values) {value : α} (hmem : value ∈ values) :
    ∃ document ∈ documents, read? document = some value := by
  induction documents generalizing values with
  | nil =>
    rw [List.mapM_nil, Option.pure_def, Option.some.injEq] at h
    rw [← h] at hmem
    exact absurd hmem List.not_mem_nil
  | cons document documents ih =>
    simp only [List.mapM_cons, Option.bind_eq_bind, Option.bind_eq_some_iff, Option.pure_def,
      Option.some.injEq] at h
    obtain ⟨first, hfirst, rest, hrest, rfl⟩ := h
    rcases List.mem_cons.mp hmem with rfl | hlater
    · exact ⟨document, List.mem_cons_self, hfirst⟩
    · obtain ⟨found, hfound, hread⟩ := ih hrest hlater
      exact ⟨found, List.mem_cons_of_mem _ hfound, hread⟩

/-- Every value that fits reads back, and every value that is read fits. -/
structure Faithful {α β : Type} (write? : α → Option β) (read? : β → Option α) (fits : α → Prop) :
    Prop where
  readsBack : ∀ value, fits value → ReadsBack write? read? value
  fits_of_read? : ∀ document value, read? document = some value → fits value

namespace Faithful

variable {α β : Type} {write? : α → Option β} {read? : β → Option α} {fits : α → Prop}

theorem of_lawful {α : Type} [Wire α] [LawfulWire α] :
    Faithful (fun value : α => some (write value)) Wire.read? fun _ => True where
  readsBack value _ := ⟨write value, rfl, LawfulWire.read?_write value⟩
  fits_of_read? _ _ _ := trivial

theorem readsBack_iff (h : Faithful write? read? fits) (value : α) :
    ReadsBack write? read? value ↔ fits value := by
  constructor
  · rintro ⟨document, -, hread⟩
    exact h.fits_of_read? document value hread
  · exact h.readsBack value

/-- A document that can be read has a form of its own kind, which reads as the same value. -/
theorem rewritten (h : Faithful write? read? fits) {document : β} {value : α}
    (hread : read? document = some value) :
    ∃ canonical, (read? document >>= write?) = some canonical ∧ read? canonical = some value := by
  obtain ⟨canonical, hwrite, hback⟩ := h.readsBack value (h.fits_of_read? document value hread)
  exact ⟨canonical, by rw [hread, Option.bind_eq_bind, Option.bind_some, hwrite], hback⟩

end Faithful

/-! ### Plain values -/

theorem readNat?_writeNat {bound n : Nat} (h : n < bound) :
    readNat? bound (writeNat n) = some n := by
  simp [readNat?, writeNat, Json.int?, h]

theorem lt_of_readNat? {bound n : Nat} {document : Json} (h : readNat? bound document = some n) :
    n < bound := by
  obtain ⟨m, -, hm⟩ := Option.bind_eq_some_iff.mp h
  rw [Option.ite_none_right_eq_some, Option.some.injEq] at hm
  obtain ⟨⟨-, hlt⟩, rfl⟩ := hm
  exact hlt

theorem readInt?_int {least greatest n : Int} (hleast : least ≤ n) (hgreatest : n ≤ greatest) :
    readInt? least greatest (.int n) = some n := by
  simp [readInt?, Json.int?, hleast, hgreatest]

end Wire

instance : LawfulWire Bool where
  read?_write _ := rfl
  write_ne_null _ := nofun

instance : LawfulWire String where
  read?_write _ := rfl
  write_ne_null _ := nofun

instance : LawfulWire UInt8 where
  read?_write n := by
    change UInt8.ofNat <$> Wire.readNat? UInt8.size (Wire.writeNat n.toNat) = some n
    rw [Wire.readNat?_writeNat n.toNat_lt]
    exact congrArg some UInt8.ofNat_toNat
  write_ne_null _ := nofun

instance : LawfulWire UInt32 where
  read?_write n := by
    change UInt32.ofNat <$> Wire.readNat? UInt32.size (Wire.writeNat n.toNat) = some n
    rw [Wire.readNat?_writeNat n.toNat_lt]
    exact congrArg some UInt32.ofNat_toNat
  write_ne_null _ := nofun

instance : LawfulWire UInt64 where
  read?_write n := by
    change UInt64.ofNat <$> Wire.readNat? UInt64.size (Wire.writeNat n.toNat) = some n
    rw [Wire.readNat?_writeNat n.toNat_lt]
    exact congrArg some UInt64.ofNat_toNat
  write_ne_null _ := nofun

instance : LawfulWire Int32 where
  read?_write n := by
    change Int32.ofInt <$> Wire.readInt? Int32.minValue.toInt Int32.maxValue.toInt (.int n.toInt) = _
    rw [Wire.readInt?_int n.minValue_le_toInt n.toInt_le]
    exact congrArg some n.ofInt_toInt
  write_ne_null _ := nofun

instance : LawfulWire Int64 where
  read?_write n := by
    change Int64.ofInt <$> Wire.readInt? Int64.minValue.toInt Int64.maxValue.toInt (.int n.toInt) = _
    rw [Wire.readInt?_int n.minValue_le_toInt n.toInt_le]
    exact congrArg some n.ofInt_toInt
  write_ne_null _ := nofun

instance {α : Type} [Wire α] [LawfulWire α] : LawfulWire (List α) where
  read?_write values := by
    change (values.map Wire.write).mapM Wire.read? = some values
    induction values with
    | nil => rfl
    | cons value values ih => simp [ih]
  write_ne_null _ := nofun

/-! ### Options -/

section

variable {α : Type} [Wire α]

/-- Only a null is read as a missing option; any other document is read as the value. -/
theorem Wire.read?_option {document : Json} (h : document ≠ .null) :
    (Wire.read? document : Option (Option α)) = some <$> Wire.read? document := by
  cases document with
  | null => exact absurd rfl h
  | _ => rfl

@[simp] theorem Wire.read?_write_option [LawfulWire α] (value : Option α) :
    Wire.read? (Wire.write value) = some value := by
  cases value with
  | none => rfl
  | some value =>
    change Wire.read? (Wire.write value) = some (some value)
    rw [Wire.read?_option (LawfulWire.write_ne_null value), LawfulWire.read?_write]
    rfl

/-! ### Records -/

@[simp] theorem Json.record?_object (fields : List String) (members : Record) :
    (Json.object members).record? fields = some members := rfl

namespace Record

theorem lookup_cons (key name : String) (document : Json) (rest : Record) :
    List.lookup name ((key, document) :: rest)
      = if name = key then some document else List.lookup name rest := by
  by_cases h : name = key
  · rw [if_pos h, h, List.lookup_cons_self]
  · rw [if_neg h, List.lookup_cons, beq_false_of_ne h]

@[simp] theorem required_cons (key name : String) (document : Json) (rest : Record) :
    required (α := α) ((key, document) :: rest) name
      = if name = key then Wire.read? document else required rest name := by
  rw [required, lookup_cons]
  split <;> rfl

@[simp] theorem optional_cons (key name : String) (document : Json) (rest : Record) :
    optional (α := α) ((key, document) :: rest) name
      = if name = key then Wire.read? document else optional rest name := by
  rw [optional, lookup_cons]
  by_cases h : name = key
  · rw [if_pos h, if_pos h]
  · rw [if_neg h, if_neg h, optional]

end Record

/-! ### Choices -/

@[simp] theorem Json.choice?_alternative (name : String) (body : Json) :
    (Json.alternative name body).choice? = some ⟨name, some body⟩ := rfl

@[simp] theorem Json.choice?_text (name : String) : (Json.text name).choice? = some ⟨name, none⟩ :=
  rfl

namespace Choice

@[simp] theorem bare_none {β : Type} (name : String) (value : β) :
    (Choice.mk name none).bare value = some value := rfl

@[simp] theorem carrying_write [LawfulWire α] {β : Type} (name : String) (value : α)
    (make : α → β) : (Choice.mk name (some (Wire.write value))).carrying make = some (make value) := by
  simp [carrying]

theorem exists_of_carrying {β : Type} {choice : Choice} {make : α → β} {result : β}
    (h : choice.carrying make = some result) : ∃ value, make value = result := by
  rw [carrying, Option.map_eq_map, Option.map_eq_some_iff] at h
  obtain ⟨value, -, hvalue⟩ := h
  exact ⟨value, hvalue⟩

@[simp] theorem record?_object (name : String) (fields : List String) (members : Record) :
    (Choice.mk name (some (.object members))).record? fields = some members := rfl

@[simp] theorem members?_object (name : String) (members : Record) :
    (Choice.mk name (some (.object members))).members? = some members := rfl

end Choice

end

end ContractExec
