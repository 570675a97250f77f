import ContractExec.Proofs.Arena.Snapshots

/-!
# Accounts that layers have created

A layer marks the accounts that were created in it. The mark comes with the write that creates the
account, and goes with the layer when that is dropped. No other write removes it, and merging a layer
moves it down with all others.

* `Changes.creates` — whether an account is marked in a record, with `creates_write` and
  `creates_absorb`;
* `Arena.creates` — whether it is in one of the layers, with one lemma for each operation.
-/

namespace ContractExec

namespace Changes

/-- Whether a record has the account created. -/
def creates (changes : Changes) (address : Address) : Bool :=
  changes[address]?.any fun change => change.created

variable {changes lower upper : Changes} {address : Address}

@[simp] theorem creates_empty : creates ∅ address = false := by simp [creates]

theorem creates_iff :
    changes.creates address = true ↔
      ∃ change, changes[address]? = some change ∧ change.created = true := by
  rw [creates, Option.any_eq_true]

/-- Creating an account marks it, and no other write changes a mark. -/
theorem creates_write (changes : Changes) (address : Address) (w : Write) (a : Address) :
    (changes.write address w).creates a
      = (decide (w = .create ∧ a = address) || changes.creates a) := by
  rw [creates, creates, write, Std.ExtTreeMap.getElem?_insert]
  by_cases same : a = address
  · subst same
    have hfirst : compare a a = .eq := Std.LawfulEqCmp.compare_eq_iff_eq.mpr rfl
    rw [if_pos hfirst]
    cases w <;> cases changes[a]? <;> simp [AccountChange.write]
  · have hother : compare address a ≠ .eq := fun heq =>
      same (Std.LawfulEqCmp.compare_eq_iff_eq.mp heq).symm
    rw [if_neg hother]
    simp [same]

/-- A merged record marks what one of the two did. -/
theorem creates_absorb (lower upper : Changes) (address : Address) :
    (lower.absorb upper).creates address = (upper.creates address || lower.creates address) := by
  rw [creates, creates, creates, getElem?_absorb]
  cases lower[address]? with
  | none => cases upper[address]? <;> simp
  | some old =>
    cases upper[address]? with
    | none => rfl
    | some new => cases hnew : new.created <;> simp [AccountChange.absorb, hnew]

end Changes

namespace Arena

variable {x y : Arena} {a : Address}

/-- Whether one of the first layers has the account created. -/
def createsIn (arena : Arena) (address : Address) : Nat → Bool
  | 0 => false
  | n + 1 =>
    match arena.layers[n]? with
    | some layer => layer.changes.creates address || createsIn arena address n
    | none => createsIn arena address n

/-- Whether some layer has the account created. -/
def creates (arena : Arena) (address : Address) : Bool := arena.createsIn address arena.layers.size

theorem createsIn_succ {n : Nat} {layer : Layer} (h : x.layers[n]? = some layer) :
    x.createsIn a (n + 1) = (layer.changes.creates a || x.createsIn a n) := by
  rw [createsIn, h]

theorem createsIn_congr {n : Nat} (h : SameBelow n x y) :
    ∀ k, k ≤ n → y.createsIn a k = x.createsIn a k := by
  intro k
  induction k with
  | zero =>
    intro _
    rfl
  | succ k ih =>
    intro hk
    rw [createsIn, createsIn, h.layer k hk, ih (by omega)]

theorem creates_new (backend : Backend) (address : Address) :
    (new backend).creates address = false := by
  simp [creates, createsIn, new]

theorem creates_openLayer (h : x.Linked) {parent layer : Nat}
    (hopen : x.openLayer parent = .ok (layer, y)) : y.creates a = x.creates a := by
  obtain ⟨-, hsize, hbelow, hlayer⟩ := h.of_openLayer hopen
  rw [creates, hsize, createsIn_succ hlayer, Changes.creates_empty, Bool.false_or,
    createsIn_congr hbelow _ (Nat.le_refl _)]
  rfl

theorem creates_write (h : x.Linked) {layer : Nat} {address : Address} {w : Write}
    (hwrite : x.write layer address w = .ok y) :
    y.creates a = (decide (w = .create ∧ a = address) || x.creates a) := by
  obtain ⟨-, -, hsize, hbelow, hlayer⟩ := h.of_write hwrite
  obtain ⟨changes, hold⟩ := h.exists_top
  rw [hold] at hlayer
  rw [creates, creates, hsize, h.size_eq, createsIn_succ hold, createsIn_succ hlayer,
    Changes.creates_write, createsIn_congr hbelow _ (Nat.le_refl _), Bool.or_assoc]

theorem creates_commit (h : x.Linked) {child parent : Nat}
    (hcommit : x.commit child = .ok (parent, y)) : y.creates a = x.creates a := by
  obtain ⟨n, -, -, hsize, -, hsize', hbelow, lower, upper, hlower, hupper, hmerged⟩ :=
    h.of_commit hcommit
  rw [creates, creates, hsize, hsize', createsIn_succ hupper, createsIn_succ hlower,
    createsIn_succ hmerged, Changes.creates_absorb, createsIn_congr hbelow n (Nat.le_refl n),
    Bool.or_assoc]

/-- If only the root is left, the record of the root tells. -/
theorem creates_root (h : x.Linked) (hdepth : x.depth = 0) {changes : Changes}
    (hroot : x.layers[root]? = some ⟨none, changes⟩) : x.creates a = changes.creates a := by
  have hsize : x.layers.size = 1 := by rw [h.size_eq]; exact congrArg (· + 1) hdepth
  rw [creates, hsize]
  exact (createsIn_succ hroot).trans (Bool.or_false _)

end Arena

end ContractExec
