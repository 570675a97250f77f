import ContractExec.Proofs.Arena.Snapshots

/-!
# Accounts that are there

Layers record writes to accounts, and a record of writes is no account: storage can be written where
nothing was ever created. If it is not, every account that a layer has changes for is there where it
is read at that layer. Accounts never vanish again, neither by a write nor under another layer.

* `World.Keeps` — every account of one world is in another one; `keeps_overlay`, `keeps_write`;
* `World.Coded` — where there is code there is an account;
* `Arena.Grounded` — the invariant: changes are changes to accounts that are there;
* `grounded_openLayer`, `grounded_write`, `grounded_commit` — each operation keeps it, **a write if it
  creates its account or finds it there**.
-/

namespace ContractExec

namespace World

/-- Every account of one world is in the other one. -/
def Keeps (below above : World) : Prop :=
  ∀ a, (below a).isPresent = true → (above a).isPresent = true

/-- Where there is code there is an account. -/
def Coded (world : World) : Prop :=
  ∀ a, (world a).code.isSome = true → (world a).isPresent = true

theorem keeps_write (world : World) (address : Address) (w : Write) :
    world.Keeps (world.write address w) := by
  intro a ha
  rw [write]
  split
  case isTrue => cases w <;> simp [Account.write, Account.fresh, ha]
  case isFalse => exact ha

/-- Nothing vanishes under a record of changes. -/
theorem keeps_overlay (world : World) (changes : Changes) : world.Keeps (changes.overlay world) := by
  intro a ha
  rw [Changes.overlay]
  cases changes[a]? with
  | none => exact ha
  | some change =>
    cases hcreated : change.created <;> simp [AccountChange.overlay, hcreated, ha, Account.fresh]

theorem Coded.overlay {world : World} (h : world.Coded) (changes : Changes) :
    Coded (changes.overlay world) := by
  intro a hcode
  rw [Changes.overlay] at hcode ⊢
  cases hchange : changes[a]? with
  | none =>
    rw [hchange] at hcode
    exact h a hcode
  | some change =>
    rw [hchange] at hcode
    cases hnew : change.code with
    | some code => simp [AccountChange.overlay, hnew]
    | none =>
      -- what lies below is read, unless the account was created over it
      cases hcreated : change.created with
      | true => simp [AccountChange.overlay, hcreated, Account.fresh]
      | false =>
        simp only [AccountChange.overlay, hnew, hcreated, Option.none_or] at hcode ⊢
        exact h a hcode

end World

namespace Arena

/-- Every account that a layer has changes for is there where it is read at that layer. -/
def Grounded (arena : Arena) : Prop :=
  ∀ n layer, arena.layers[n]? = some layer → ∀ a, a ∈ layer.changes →
    (arena.reading (n + 1) a).isPresent = true

variable {x y : Arena}

theorem keeps_reading (arena : Arena) {k n : Nat} (h : k ≤ n) :
    (arena.reading k).Keeps (arena.reading n) := by
  induction h with
  | refl => exact fun _ ha => ha
  | @step n _ ih =>
    intro a ha
    cases hlayer : arena.layers[n]? with
    | some layer =>
      rw [reading_succ hlayer]
      exact World.keeps_overlay _ _ a (ih a ha)
    | none =>
      rw [reading, hlayer]
      exact ih a ha

theorem coded_reading (h : x.backend.accounts.Coded) (n : Nat) : (x.reading n).Coded := by
  induction n with
  | zero => exact h
  | succ n ih =>
    rw [reading]
    split
    case h_1 layer hlayer => exact ih.overlay layer.changes
    case h_2 => exact ih

/-- If the layers below the top one are those of a grounded arena, only the top layer matters. -/
theorem grounded_of_top {n : Nat} (h : x.Grounded) (hbelow : SameBelow n x y)
    (hsize : y.layers.size = n + 1)
    (htop : ∀ layer, y.layers[n]? = some layer → ∀ a, a ∈ layer.changes →
      (y.topWorld a).isPresent = true) : y.Grounded := by
  intro i layer hlayer a ha
  obtain ⟨hi, -⟩ := Array.getElem?_eq_some_iff.mp hlayer
  by_cases hlt : i < n
  · rw [reading_congr hbelow (i + 1) hlt]
    rw [hbelow.layer i hlt] at hlayer
    exact h i layer hlayer a ha
  · obtain rfl : i = n := by omega
    have hpresent := htop layer hlayer a ha
    rw [topWorld, hsize] at hpresent
    exact hpresent

theorem grounded_new (backend : Backend) : (new backend).Grounded := by
  intro i layer hlayer a ha
  obtain ⟨hi, hget⟩ := Array.getElem?_eq_some_iff.mp hlayer
  obtain rfl : i = 0 := Nat.lt_one_iff.mp hi
  rw [← hget] at ha
  exact absurd ha Std.ExtTreeMap.not_mem_empty

theorem grounded_openLayer (h : x.Grounded) (hlinked : x.Linked) {parent child : Nat}
    (hopen : x.openLayer parent = .ok (child, y)) : y.Grounded := by
  obtain ⟨-, hsize, hbelow, hlayer⟩ := hlinked.of_openLayer hopen
  refine grounded_of_top h hbelow hsize fun layer htop a ha => ?_
  rw [hlayer] at htop
  rw [← Option.some.inj htop] at ha
  exact absurd ha Std.ExtTreeMap.not_mem_empty

/-- **A write keeps an arena grounded if it creates its account or finds it there.** -/
theorem grounded_write (h : x.Grounded) (hlinked : x.Linked) {layer : Nat} {address : Address}
    {w : Write} (hwrite : x.write layer address w = .ok y)
    (hthere : w = .create ∨ (x.topWorld address).isPresent = true) : y.Grounded := by
  obtain ⟨-, -, hsize, hbelow, hlayer⟩ := hlinked.of_write hwrite
  obtain ⟨changes, hold⟩ := hlinked.exists_top
  refine grounded_of_top h hbelow (by rw [hsize, hlinked.size_eq]) fun layer htop a ha => ?_
  rw [hlayer, hold] at htop
  rw [← Option.some.inj htop] at ha
  rw [topWorld_write hlinked hwrite]
  by_cases hother : a = address
  · subst hother
    rcases hthere with rfl | hpresent
    · rw [World.write, if_pos rfl]
      rfl
    · exact World.keeps_write _ _ _ _ hpresent
  · have hbefore : a ∈ changes := by
      have hmem : a ∈ changes.insert address ((changes[address]?.getD {}).write w) := ha
      rw [Std.ExtTreeMap.mem_insert, Std.LawfulEqCmp.compare_eq_iff_eq] at hmem
      exact hmem.resolve_left (Ne.symm hother)
    refine World.keeps_write _ _ _ _ ?_
    rw [topWorld, hlinked.size_eq]
    exact h _ _ hold a hbefore

theorem grounded_commit (h : x.Grounded) (hlinked : x.Linked) {child parent : Nat}
    (hcommit : x.commit child = .ok (parent, y)) : y.Grounded := by
  obtain ⟨n, -, -, hsize, -, hsize', hbelow, lower, upper, hlower, hupper, hmerged⟩ :=
    hlinked.of_commit hcommit
  refine grounded_of_top h hbelow hsize' fun layer hlayer a ha => ?_
  rw [hmerged] at hlayer
  rw [← Option.some.inj hlayer] at ha
  have hmem : a ∈ lower.changes ∨ a ∈ upper.changes := by
    have hunion : a ∈ lower.changes.absorb upper.changes := ha
    rw [Changes.absorb, Std.ExtTreeMap.mem_union_iff, Std.ExtTreeMap.mem_map] at hunion
    exact hunion
  rw [topWorld_commit hlinked hcommit, topWorld, hsize]
  rcases hmem with hold | hnew
  · exact keeps_reading _ (Nat.le_succ _) a (h n lower hlower a hold)
  · exact h (n + 1) upper hupper a hnew

end Arena

end ContractExec
