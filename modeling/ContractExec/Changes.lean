import Std.Data.ExtTreeMap
import ContractExec.Account

/-!
# Changes to accounts

A record of writes that lies over a world and can be merged into the record below it.

* `AccountChange` — the writes to one account; `Changes` — those to any number of accounts;
* `readThrough` — what is read through records that lie one over the other, field by field;
* `overlay` — what is read through a record: its own writes first, then, unless the account was
  created in it, what lies below;
* `write` — adds one write, and `overlay_write`: it reads as the write itself;
* `absorb` — merges a record into the one below it, and `overlay_absorb`: the merged record reads as
  the two did, one over the other.
-/

namespace ContractExec

abbrev Storage := Std.ExtTreeMap Bytes Bytes

structure AccountChange where
  /-- The account was created, which hides all that lies below. -/
  created : Bool := false
  code : Option Bytes := none
  contractType : Option String := none
  /-- Written values; an empty one deletes its key. -/
  storage : Storage := ∅
  deriving DecidableEq

namespace AccountChange

/-! ### Writes to one account -/

/-- An account read through its changes. -/
def overlay (change : AccountChange) (below : Account) : Account :=
  let base := if change.created then .fresh else below
  { code := change.code.or base.code
    contractType := change.contractType.or base.contractType
    storage := fun key =>
      match change.storage[key]? with
      | some value => written value
      | none => base.storage key
    isPresent := change.code.isSome || base.isPresent }

/-- A field as the nearest record tells it that wrote the field. The search stops at a record in
which the account was created; where no record stops it, what lies below is read. -/
def nearest {α : Type} (field : AccountChange → Option (Option α)) (below : Option α) :
    List AccountChange → Option α
  | [] => below
  | change :: rest =>
    match field change with
    | some value => value
    | none => if change.created then none else nearest field below rest

def write (change : AccountChange) : Write → AccountChange
  | .create => { created := true }
  | .setCode code => { change with code := some code }
  | .setContractType typeName => { change with contractType := some typeName }
  | .setStorage key value => { change with storage := change.storage.insert key value }

/-- The changes of two records, `upper` over `lower`, in one record. -/
def absorb (lower upper : AccountChange) : AccountChange :=
  if upper.created then upper
  else
    { created := lower.created
      code := upper.code.or lower.code
      contractType := upper.contractType.or lower.contractType
      storage := lower.storage ∪ upper.storage }

@[simp] theorem overlay_default (below : Account) : ({} : AccountChange).overlay below = below := by
  apply Account.ext_fields <;> simp [overlay]

/-- A write to the record reads as a write to the account. -/
theorem overlay_write (change : AccountChange) (w : Write) (below : Account) :
    (change.write w).overlay below = (change.overlay below).write w := by
  cases w with
  | create => apply Account.ext_fields <;> simp [overlay, write, Account.write, Account.fresh]
  | setCode code => exact Account.ext_fields rfl rfl (fun _ => rfl) rfl
  | setContractType typeName => exact Account.ext_fields rfl rfl (fun _ => rfl) rfl
  | setStorage key value =>
    refine Account.ext_fields rfl rfl (fun k => ?_) rfl
    simp only [overlay, write, Account.write, Std.ExtTreeMap.getElem?_insert,
      Std.LawfulEqCmp.compare_eq_iff_eq]
    by_cases same : k = key
    · subst same
      simp
    · simp only [same, Ne.symm same, ↓reduceIte]
      rfl

/-- One record reads as the two records that it merges. -/
theorem overlay_absorb (lower upper : AccountChange) (below : Account) :
    (lower.absorb upper).overlay below = upper.overlay (lower.overlay below) := by
  by_cases created : upper.created = true
  · apply Account.ext_fields <;> simp [absorb, overlay, created]
  · refine Account.ext_fields ?_ ?_ (fun key => ?_) ?_
    · simp [absorb, overlay, created, Option.or_assoc]
    · simp [absorb, overlay, created, Option.or_assoc]
    · simp only [absorb, overlay, created, Bool.false_eq_true, ↓reduceIte,
        Std.ExtTreeMap.getElem?_union]
      cases upper.storage[key]? <;> simp
    · simp only [absorb, overlay, created, Bool.false_eq_true, ↓reduceIte]
      cases upper.code <;> simp

end AccountChange

/-! ### Writes to any number of accounts -/

abbrev Changes := Std.ExtTreeMap Address AccountChange

namespace Changes

def overlay (changes : Changes) (below : World) : World :=
  fun address =>
    match changes[address]? with
    | some change => change.overlay (below address)
    | none => below address

/-- The records of one account in a list of records, nearest first. -/
def known (chain : List Changes) (address : Address) : List AccountChange :=
  chain.filterMap fun changes => changes[address]?

/-- The world read through records that lie one over the other, nearest first, with a search for
each field. -/
def readThrough (chain : List Changes) (below : World) : World :=
  fun address =>
    { code := AccountChange.nearest (fun change => change.code.map some) (below address).code
        (known chain address)
      contractType := AccountChange.nearest (fun change => change.contractType.map some)
        (below address).contractType (known chain address)
      storage := fun key => AccountChange.nearest (fun change => change.storage[key]?.map written)
        ((below address).storage key) (known chain address)
      isPresent := (known chain address).any (fun change => change.created || change.code.isSome)
        || (below address).isPresent }

def write (changes : Changes) (address : Address) (w : Write) : Changes :=
  changes.insert address ((changes[address]?.getD {}).write w)

/-- The changes of two records, `upper` over `lower`, in one record. -/
def absorb (lower upper : Changes) : Changes :=
  lower ∪ upper.map fun address change =>
    match lower[address]? with
    | some old => old.absorb change
    | none => change

@[simp] theorem overlay_empty (below : World) : overlay ∅ below = below := by
  funext address
  simp [overlay]

/-- Searching field by field reads the records one over the other. -/
theorem readThrough_eq (chain : List Changes) (below : World) :
    readThrough chain below = chain.foldr overlay below := by
  induction chain with
  | nil => rfl
  | cons changes rest ih =>
    funext address
    rw [List.foldr_cons, ← ih, overlay]
    cases found : changes[address]? with
    | none => simp [readThrough, known, found]
    | some change =>
      have first : known (changes :: rest) address = change :: known rest address := by
        simp [known, found]
      -- where the account was created, no field is searched for any further
      cases created : change.created with
      | true =>
        apply Account.ext_fields
        · cases code : change.code <;>
            simp [readThrough, first, AccountChange.nearest, AccountChange.overlay, created, code,
              Account.fresh]
        · cases type : change.contractType <;>
            simp [readThrough, first, AccountChange.nearest, AccountChange.overlay, created, type,
              Account.fresh]
        · intro key
          cases value : change.storage[key]? <;>
            simp [readThrough, first, AccountChange.nearest, AccountChange.overlay, created, value,
              Account.fresh]
        · simp [readThrough, first, AccountChange.overlay, created, Account.fresh]
      | false =>
        apply Account.ext_fields
        · cases code : change.code <;>
            simp [readThrough, first, AccountChange.nearest, AccountChange.overlay, created, code]
        · cases type : change.contractType <;>
            simp [readThrough, first, AccountChange.nearest, AccountChange.overlay, created, type]
        · intro key
          cases value : change.storage[key]? <;>
            simp [readThrough, first, AccountChange.nearest, AccountChange.overlay, created, value]
        · simp [readThrough, first, AccountChange.overlay, created, Bool.or_assoc]

theorem getElem?_absorb (lower upper : Changes) (address : Address) :
    (lower.absorb upper)[address]? =
      match lower[address]?, upper[address]? with
      | some old, some new => some (old.absorb new)
      | some old, none => some old
      | none, new => new := by
  rw [absorb, Std.ExtTreeMap.getElem?_union, Std.ExtTreeMap.getElem?_map]
  cases lower[address]? <;> cases upper[address]? <;> rfl

/-- A write to the record reads as a write to the world. -/
theorem overlay_write (changes : Changes) (address : Address) (w : Write) (below : World) :
    (changes.write address w).overlay below = (changes.overlay below).write address w := by
  funext a
  by_cases same : a = address
  · subst same
    cases found : changes[a]? <;>
      simp [overlay, write, World.write, found, AccountChange.overlay_write]
  · have other : (compare address a = .eq) = False := by
      simp [Std.LawfulEqCmp.compare_eq_iff_eq, Ne.symm same]
    simp [overlay, write, World.write, same, Std.ExtTreeMap.getElem?_insert, other]

/-- One record reads as the two records that it merges. -/
theorem overlay_absorb (lower upper : Changes) (below : World) :
    (lower.absorb upper).overlay below = upper.overlay (lower.overlay below) := by
  funext address
  simp only [overlay, getElem?_absorb]
  cases lower[address]? <;> cases upper[address]? <;> simp [AccountChange.overlay_absorb]

end Changes

end ContractExec
