import ContractExec.Arena

/-!
# The chain of layers

The layers of an arena form one chain: the root has no parent, and the parent of every other layer
is the one right below it. No operation breaks the chain, whatever index it is given, and this is
what makes the operations on the top layer succeed and the walk along the parents end at the root.

* `Linked` — the chain, with one lemma for each operation (`Linked.openLayer`, `Linked.commit`,
  `Linked.write`, `Linked.abandon`) that says all that the operation does to a linked arena;
* `Linked.of_openLayer`, `Linked.of_write`, `Linked.of_commit` — what an operation has done if it was
  accepted;
* `SameBelow` — two arenas over one backend that agree on all layers below an index;
* `abandon_eq` — **dropping layers brings an arena back**, if what lies below was left alone;
* `linked_perform` — no operation breaks the chain.
-/

namespace ContractExec

namespace Arena

/-! ### The chain -/

/-- The parent that the layer at an index has in a chain. -/
def parentOf : Nat → Option Nat
  | 0 => none
  | index + 1 => some index

/-- There is a root, and the parent of each layer is the one right below it. -/
structure Linked (arena : Arena) : Prop where
  size_pos : 0 < arena.layers.size
  parent_eq : ∀ (i : Nat) (layer : Layer), arena.layers[i]? = some layer → layer.parent = parentOf i

theorem linked_new (backend : Backend) : (new backend).Linked where
  size_pos := Nat.one_pos
  parent_eq := by
    intro i layer hlayer
    cases i with
    | zero =>
      injection hlayer with hlayer
      rw [← hlayer]
      rfl
    | succ i => simp [new] at hlayer

namespace Linked

variable {arena : Arena}

theorem size_eq (h : arena.Linked) : arena.layers.size = arena.top + 1 := by
  have hpos := h.size_pos
  rw [top]
  omega

theorem isLive_iff (h : arena.Linked) (layer : Nat) :
    arena.isLive layer = true ↔ layer ≤ arena.top := by
  rw [isLive, decide_eq_true_iff, h.size_eq]
  exact Nat.lt_succ_iff

/-- A live layer and its parent. -/
theorem exists_layer (h : arena.Linked) {i : Nat} (hi : i < arena.layers.size) :
    ∃ changes, arena.layers[i]? = some ⟨parentOf i, changes⟩ := by
  refine ⟨arena.layers[i].changes, ?_⟩
  have hget := Array.getElem?_eq_getElem hi
  rw [hget, ← h.parent_eq _ _ hget]

theorem exists_top (h : arena.Linked) :
    ∃ changes, arena.layers[arena.top]? = some ⟨parentOf arena.top, changes⟩ :=
  h.exists_layer (by rw [h.size_eq]; omega)

end Linked

/-! ### Arenas that agree below an index -/

/-- Two arenas over one backend that hold the same layers below an index. -/
structure SameBelow (n : Nat) (x y : Arena) : Prop where
  backend : y.backend = x.backend
  layer : ∀ i, i < n → y.layers[i]? = x.layers[i]?

namespace SameBelow

variable {n m : Nat} {x y z : Arena}

theorem refl (n : Nat) (x : Arena) : SameBelow n x x := ⟨rfl, fun _ _ => rfl⟩

theorem trans (hxy : SameBelow n x y) (hyz : SameBelow n y z) : SameBelow n x z :=
  ⟨hyz.backend.trans hxy.backend, fun i hi => (hyz.layer i hi).trans (hxy.layer i hi)⟩

theorem mono (h : SameBelow n x y) (hle : m ≤ n) : SameBelow m x y :=
  ⟨h.backend, fun i hi => h.layer i (Nat.lt_of_lt_of_le hi hle)⟩

/-- What holds the first `n` layers of an arena has at least `n` layers. -/
theorem le_size (h : SameBelow n x y) (hle : n ≤ x.layers.size) : n ≤ y.layers.size := by
  apply Nat.le_of_not_lt
  intro hlt
  have hsame := h.layer y.layers.size hlt
  rw [Array.getElem?_eq_none (Nat.le_refl _), Array.getElem?_eq_getElem (by omega)] at hsame
  nomatch hsame

end SameBelow

/-- **Dropping layers brings an arena back.** If all layers of `x` are still in `y`, dropping the
layers of `y` above the top of `x` leaves `x`. -/
theorem abandon_eq {x y : Arena} (hx : x.Linked) (h : SameBelow x.layers.size x y) :
    y.abandon x.top = x := by
  have hlayers : y.layers.take (x.top + 1) = x.layers := by
    rw [← hx.size_eq]
    apply Array.ext_getElem?
    intro i
    rw [Array.take_eq_extract, Array.getElem?_extract]
    by_cases hi : i < x.layers.size
    · have hsame := h.layer i hi
      have hlive := h.le_size (Nat.le_refl _)
      rw [if_pos (by omega), Nat.zero_add, hsame]
    · rw [if_neg (by omega)]
      exact (Array.getElem?_eq_none (Nat.le_of_not_lt hi)).symm
  obtain ⟨backend, layers⟩ := y
  show (⟨backend, layers.take (x.top + 1)⟩ : Arena) = x
  rw [show layers.take (x.top + 1) = x.layers from hlayers, show backend = x.backend from h.backend]

/-! ### What each operation does -/

/-- Only the top layer is opened on. -/
theorem openLayer_of_ne {arena : Arena} {parent : Nat} (h : parent ≠ arena.top) :
    arena.openLayer parent = .error (.layerOutOfOrder parent) := by
  rw [openLayer, if_neg h]

/-- Only the top layer is written. -/
theorem write_of_ne {arena : Arena} {layer : Nat} (h : layer ≠ arena.top) (address : Address)
    (w : Write) : arena.write layer address w = .error (.layerOutOfOrder layer) := by
  rw [write, if_neg h]

/-- Only the top layer is committed. -/
theorem commit_of_ne {arena : Arena} {child : Nat} (h : child ≠ arena.top) :
    arena.commit child = .error (.layerOutOfOrder child) := by
  rw [commit, if_neg h]

/-- What was written was the top layer. -/
theorem top_of_write {arena written : Arena} {layer : Nat} {address : Address} {w : Write}
    (h : arena.write layer address w = .ok written) : layer = arena.top := by
  rw [write] at h
  split at h
  case isTrue htop => exact htop
  case isFalse => nomatch h

theorem backend_of_write {arena written : Arena} {layer : Nat} {address : Address} {w : Write}
    (h : arena.write layer address w = .ok written) : written.backend = arena.backend := by
  rw [write] at h
  split at h
  case isTrue =>
    injection h with h
    rw [← h]
  case isFalse => nomatch h

/-- What was committed was the top layer. -/
theorem top_of_commit {arena merged : Arena} {child parent : Nat}
    (h : arena.commit child = .ok (parent, merged)) : child = arena.top := by
  rw [commit] at h
  split at h
  case isTrue htop => exact htop
  case isFalse => nomatch h

theorem backend_of_commit {arena merged : Arena} {child parent : Nat}
    (h : arena.commit child = .ok (parent, merged)) : merged.backend = arena.backend := by
  rw [commit] at h
  split at h
  case isTrue =>
    split at h
    · injection h with h
      injection h with _ h
      rw [← h]
    · nomatch h
  case isFalse => nomatch h

theorem backend_of_openLayer {arena opened : Arena} {parent child : Nat}
    (h : arena.openLayer parent = .ok (child, opened)) : opened.backend = arena.backend := by
  rw [openLayer] at h
  split at h
  case isTrue =>
    injection h with h
    injection h with _ h
    rw [← h]
  case isFalse => nomatch h

/-- No operation touches the backend. -/
theorem backend_perform (arena : Arena) (operation : Operation) :
    (arena.perform operation).2.backend = arena.backend := by
  cases operation with
  | openLayer parent =>
    rw [perform]
    split
    case h_1 hopen => exact backend_of_openLayer hopen
    case h_2 => rfl
  | commit child =>
    rw [perform]
    split
    case h_1 hcommit => exact backend_of_commit hcommit
    case h_2 => rfl
  | abandon keep => rfl
  | write layer address w =>
    rw [perform]
    split
    case h_1 hwrite => exact backend_of_write hwrite
    case h_2 => rfl

namespace Linked

variable {arena : Arena}

/-- Opening on the top layer puts an empty layer above all others. -/
theorem openLayer (h : arena.Linked) :
    ∃ opened, arena.openLayer arena.top = .ok (arena.layers.size, opened) ∧ opened.Linked ∧
      opened.layers.size = arena.layers.size + 1 ∧ SameBelow arena.layers.size arena opened ∧
      opened.layers[arena.layers.size]? = some ⟨some arena.top, ∅⟩ := by
  have hsize := h.size_eq
  refine ⟨{ arena with layers := arena.layers.push ⟨some arena.top, ∅⟩ }, ?_, ?_, ?_, ?_, ?_⟩
  · rw [Arena.openLayer, if_pos rfl]
    simp [top]
  · refine ⟨by simp, ?_⟩
    intro i layer hlayer
    rw [Array.getElem?_push] at hlayer
    split at hlayer
    case isTrue hi =>
      injection hlayer with hlayer
      rw [← hlayer, hi, hsize]
      rfl
    case isFalse => exact h.parent_eq i layer hlayer
  · exact Array.size_push _
  · refine ⟨rfl, ?_⟩
    intro i hi
    exact Array.getElem?_push_lt hi |>.trans (Array.getElem?_eq_getElem hi).symm
  · exact Array.getElem?_push_size

/-- Changing the changes of one layer keeps the chain. -/
theorem modify (h : arena.Linked) (n : Nat) (f : Changes → Changes) :
    Linked { arena with
      layers := arena.layers.modify n fun layer => { layer with changes := f layer.changes } } where
  size_pos := by simpa using h.size_pos
  parent_eq := by
    intro i layer hlayer
    rw [Array.getElem?_modify] at hlayer
    split at hlayer
    · obtain ⟨old, hold, rfl⟩ := Option.map_eq_some_iff.mp hlayer
      exact h.parent_eq i old hold
    · exact h.parent_eq i layer hlayer

/-- Taking the top layer away keeps the chain, if it was not the root. -/
theorem pop (h : arena.Linked) (hsize : 1 < arena.layers.size) :
    Linked { arena with layers := arena.layers.pop } where
  size_pos := by simp only [Array.size_pop]; omega
  parent_eq := by
    intro i layer hlayer
    rw [Array.getElem?_pop] at hlayer
    split at hlayer
    · exact h.parent_eq i layer hlayer
    · nomatch hlayer

/-- Writing to the top layer changes nothing but the changes of that layer. -/
theorem write (h : arena.Linked) (address : Address) (w : Write) :
    ∃ written, arena.write arena.top address w = .ok written ∧ written.Linked ∧
      written.layers.size = arena.layers.size ∧ SameBelow arena.top arena written ∧
      written.layers[arena.top]?
        = arena.layers[arena.top]?.map fun l =>
            { l with changes := l.changes.write address w } := by
  refine ⟨_, if_pos rfl, h.modify arena.top fun changes => changes.write address w, ?_,
    ⟨rfl, ?_⟩, ?_⟩
  · exact Array.size_modify
  · intro i hi
    exact Array.getElem?_modify.trans (if_neg (by omega))
  · exact Array.getElem?_modify.trans (if_pos rfl)

/-- Committing the top layer takes it away and merges its changes into the layer below it. -/
theorem commit {n : Nat} (h : arena.Linked) (hsize : arena.layers.size = n + 2) :
    ∃ merged, arena.commit (n + 1) = .ok (n, merged) ∧ merged.Linked ∧
      merged.layers.size = n + 1 ∧ SameBelow n arena merged ∧
      ∃ lower upper, arena.layers[n]? = some lower ∧ arena.layers[n + 1]? = some upper ∧
        merged.layers[n]? = some { lower with changes := lower.changes.absorb upper.changes } := by
  have htop : arena.top = n + 1 := by rw [top, hsize]; rfl
  obtain ⟨changes, hupper⟩ := h.exists_top
  rw [htop] at hupper
  obtain ⟨lower, hlower⟩ : ∃ lower, arena.layers[n]? = some lower :=
    ⟨_, Array.getElem?_eq_getElem (by omega)⟩
  -- the layers that are left, before the changes of the top one are merged into the last of them
  have hpop : ∀ i, i < n + 1 → arena.layers.pop[i]? = arena.layers[i]? := by
    intro i hi
    rw [Array.getElem?_pop, if_pos (by omega)]
  have hcommit : arena.commit (n + 1) = .ok (n, { arena with
      layers := arena.layers.pop.modify n fun layer =>
        { layer with changes := layer.changes.absorb changes } }) := by
    rw [Arena.commit, if_pos htop.symm, hupper]
    rfl
  refine ⟨_, hcommit, (h.pop (by omega)).modify n fun below => below.absorb changes, ?_, ⟨rfl, ?_⟩,
    lower, _, hlower, hupper, ?_⟩
  · simp [hsize]
  · intro i hi
    exact Array.getElem?_modify.trans ((if_neg (by omega)).trans (hpop i (by omega)))
  · refine Array.getElem?_modify.trans ((if_pos rfl).trans ?_)
    rw [hpop n (by omega), hlower]
    rfl

/-- The root is never committed. -/
theorem commit_root (h : arena.Linked) (hsize : arena.layers.size = 1) :
    arena.commit 0 = .error (.layerOutOfOrder 0) := by
  have htop : arena.top = 0 := by rw [top, hsize]
  obtain ⟨changes, hroot⟩ := h.exists_top
  rw [htop] at hroot
  rw [Arena.commit, if_pos htop.symm, hroot]
  rfl

/-! ### What an operation that was accepted has done -/

theorem of_openLayer (h : arena.Linked) {parent child : Nat} {opened : Arena}
    (hopen : arena.openLayer parent = .ok (child, opened)) :
    opened.Linked ∧ opened.layers.size = arena.layers.size + 1 ∧
      SameBelow arena.layers.size arena opened ∧
      opened.layers[arena.layers.size]? = some ⟨some arena.top, ∅⟩ := by
  by_cases hparent : parent = arena.top
  · obtain ⟨opened', hopen', hlinked, hsize, hbelow, hlayer⟩ := h.openLayer
    rw [hparent, hopen'] at hopen
    injection hopen with hopen
    injection hopen with _ hsame
    subst hsame
    exact ⟨hlinked, hsize, hbelow, hlayer⟩
  · rw [openLayer_of_ne hparent] at hopen
    nomatch hopen

theorem of_write (h : arena.Linked) {layer : Nat} {address : Address} {w : Write}
    {written : Arena} (hwrite : arena.write layer address w = .ok written) :
    layer = arena.top ∧ written.Linked ∧ written.layers.size = arena.layers.size ∧
      SameBelow arena.top arena written ∧
      written.layers[arena.top]?
        = arena.layers[arena.top]?.map fun l =>
            { l with changes := l.changes.write address w } := by
  have htop := top_of_write hwrite
  obtain ⟨written', hwrite', hlinked, hsize, hbelow, hlayer⟩ := h.write address w
  rw [htop, hwrite'] at hwrite
  injection hwrite with hsame
  subst hsame
  exact ⟨htop, hlinked, hsize, hbelow, hlayer⟩

theorem of_commit (h : arena.Linked) {child parent : Nat} {merged : Arena}
    (hcommit : arena.commit child = .ok (parent, merged)) :
    ∃ n, child = n + 1 ∧ parent = n ∧ arena.layers.size = n + 2 ∧ merged.Linked ∧
      merged.layers.size = n + 1 ∧ SameBelow n arena merged ∧
      ∃ lower upper, arena.layers[n]? = some lower ∧ arena.layers[n + 1]? = some upper ∧
        merged.layers[n]? = some { lower with changes := lower.changes.absorb upper.changes } := by
  have hchild := top_of_commit hcommit
  rcases htop : arena.top with _ | n
  · rw [hchild, htop, h.commit_root (by rw [h.size_eq, htop])] at hcommit
    nomatch hcommit
  · have hsize : arena.layers.size = n + 2 := by rw [h.size_eq, htop]
    obtain ⟨merged', hcommit', hlinked, hsize', hbelow, hlayers⟩ := h.commit hsize
    rw [hchild, htop, hcommit'] at hcommit
    injection hcommit with hcommit
    injection hcommit with hparent hsame
    subst hsame
    exact ⟨n, hchild.trans htop, hparent.symm, hsize, hlinked, hsize', hbelow, hlayers⟩

/-- Abandoning drops layers from the top, and never the root. -/
theorem abandon (h : arena.Linked) (keep : Nat) :
    (arena.abandon keep).Linked ∧
      (arena.abandon keep).layers.size = min (keep + 1) arena.layers.size ∧
      SameBelow (keep + 1) arena (arena.abandon keep) := by
  have hpos := h.size_pos
  have hsize : (arena.abandon keep).layers.size = min (keep + 1) arena.layers.size := by
    simp [Arena.abandon]
  have hlayers : ∀ i, (arena.abandon keep).layers[i]?
      = if i < keep + 1 then arena.layers[i]? else none := by
    intro i
    show (arena.layers.take (keep + 1))[i]? = _
    rw [Array.take_eq_extract, Array.getElem?_extract, Nat.zero_add]
    by_cases hi : i < keep + 1
    · rw [if_pos hi]
      split
      · rfl
      · exact (Array.getElem?_eq_none (by omega)).symm
    · rw [if_neg hi, if_neg (by omega)]
  refine ⟨⟨by rw [hsize]; omega, ?_⟩, hsize, rfl, ?_⟩
  · intro i layer hlayer
    rw [hlayers] at hlayer
    split at hlayer
    · exact h.parent_eq i layer hlayer
    · nomatch hlayer
  · intro i hi
    rw [hlayers, if_pos hi]

end Linked

/-- **No operation breaks the chain**, whatever index it is given. -/
theorem linked_perform {arena : Arena} (h : arena.Linked) (operation : Operation) :
    (arena.perform operation).2.Linked := by
  cases operation with
  | openLayer parent =>
    by_cases hparent : parent = arena.top
    · obtain ⟨opened, hopen, hlinked, -⟩ := h.openLayer
      rw [perform, hparent, hopen]
      exact hlinked
    · rw [perform, openLayer_of_ne hparent]
      exact h
  | commit child =>
    by_cases hchild : child = arena.top
    · subst hchild
      rcases hn : arena.top with _ | n
      · rw [perform, h.commit_root (by rw [h.size_eq, hn])]
        exact h
      · obtain ⟨merged, hcommit, hlinked, -⟩ := h.commit (n := n) (by rw [h.size_eq, hn])
        rw [perform, hcommit]
        exact hlinked
    · rw [perform, commit_of_ne hchild]
      exact h
  | abandon keep => exact (h.abandon keep).1
  | write layer address w =>
    by_cases hlayer : layer = arena.top
    · obtain ⟨written, hwrite, hlinked, -⟩ := h.write address w
      rw [perform, hlayer, hwrite]
      exact hlinked
    · rw [perform, write_of_ne hlayer]
      exact h

end Arena

end ContractExec
