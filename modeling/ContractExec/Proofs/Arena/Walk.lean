import ContractExec.Proofs.Arena.Snapshots

/-!
# Walking to the root

A read at a layer follows the links from that layer on. Nothing but the links tells it where to go and
when to stop, so it is the chain alone that brings it down layer by layer, past every layer below, to the
root. The chain is also why a commit leads to the layer right below, and why the root, which a commit
takes off before it looks for its parent, is put back.

* `Walk` — the layers that are visited on the way along the links;
* `lineage_of_walk` — a read meets the changes of the layers of its walk;
* `Linked.walk` — **in a linked arena the walk from a live layer visits it and all layers below it**;
* `commitPopped`, `perform_commit` — a commit that takes the layer off first does what a commit does;
* `Chained`, `run_chained` — **what the chain is good for, after any history of operations**.
-/

namespace ContractExec

namespace Arena

/-! ### Walks -/

/-- Following the links from a layer visits these layers, and ends at one that has no parent. Every
layer on the way is there. -/
inductive Walk (layers : Array Layer) : Nat → List Nat → Prop where
  | ends {i : Nat} {changes : Changes} :
      layers[i]? = some ⟨none, changes⟩ → Walk layers i [i]
  | follows {i parent : Nat} {changes : Changes} {visited : List Nat} :
      layers[i]? = some ⟨some parent, changes⟩ → Walk layers parent visited →
      Walk layers i (i :: visited)

/-- The changes of the layers at some indices. -/
def changesOf (layers : Array Layer) (indices : List Nat) : List Changes :=
  indices.filterMap fun i => layers[i]?.map Layer.changes

/-- A read that may follow as many links as its walk has meets the changes of that walk. -/
theorem lineage_of_walk {layers : Array Layer} {i : Nat} {visited : List Nat}
    (h : Walk layers i visited) {fuel : Nat} (hfuel : visited.length ≤ fuel) :
    lineage layers fuel i = some (changesOf layers visited) := by
  induction h generalizing fuel with
  | ends hlayer =>
    obtain ⟨fuel, rfl⟩ := Nat.exists_eq_add_one.mpr hfuel
    simp [lineage, changesOf, hlayer]
  | follows hlayer hrest ih =>
    obtain ⟨fuel, rfl⟩ := Nat.exists_eq_add_one.mpr (Nat.zero_lt_of_lt hfuel)
    rw [lineage, hlayer]
    dsimp only
    rw [ih (Nat.le_of_succ_le_succ hfuel)]
    simp [changesOf, hlayer]

/-- A layer and all layers below it, from the top down. -/
def downFrom (layer : Nat) : List Nat := (List.range (layer + 1)).reverse

@[simp] theorem length_downFrom (layer : Nat) : (downFrom layer).length = layer + 1 := by
  simp [downFrom]

theorem downFrom_succ (layer : Nat) : downFrom (layer + 1) = (layer + 1) :: downFrom layer := by
  rw [downFrom, List.range_succ, List.reverse_append]
  rfl

namespace Linked

variable {arena : Arena}

/-- **The walk from a live layer** of a linked arena visits the layer and all those below it, one after
the other down to the root. -/
theorem walk (h : arena.Linked) {i : Nat} (hi : i < arena.layers.size) :
    Walk arena.layers i (downFrom i) := by
  obtain ⟨changes, hlayer⟩ := h.exists_layer hi
  induction i generalizing changes with
  | zero => exact .ends hlayer
  | succ i ih =>
    have hbelow : i < arena.layers.size := Nat.lt_of_succ_lt hi
    obtain ⟨changes', hlayer'⟩ := h.exists_layer hbelow
    rw [downFrom_succ]
    exact .follows hlayer (ih hbelow changes' hlayer')

/-- What is read at a live layer is read through the layers of its walk. -/
theorem worldAt?_walk (h : arena.Linked) {i : Nat} (hi : i < arena.layers.size) :
    arena.worldAt? i = some (Changes.readThrough (changesOf arena.layers (downFrom i))
      arena.backend.accounts) := by
  rw [worldAt?, lineage_of_walk (h.walk hi) (by rw [length_downFrom]; exact hi)]
  rfl

end Linked

/-! ### Commits that take the layer off first -/

/-- A commit that takes the top layer off before it looks for the parent. A layer without a parent is
put back. -/
def commitPopped (arena : Arena) (child : Nat) : Except Fatal (Option Nat) × Arena :=
  if child = arena.top then
    match arena.layers.back? with
    | none => (.error (.layerOutOfOrder child), arena)
    | some exited =>
      let left := arena.layers.pop
      match exited.parent with
      | none => (.error (.layerOutOfOrder child), { arena with layers := left.push exited })
      | some parent =>
        (.ok (some parent), { arena with
          layers := left.modify parent fun layer =>
            { layer with changes := layer.changes.absorb exited.changes } })
  else (.error (.layerOutOfOrder child), arena)

/-- Taking the layer off first makes no difference to a commit: a layer that is put back stands where it
stood. -/
theorem perform_commit (arena : Arena) (child : Nat) :
    arena.perform (.commit child) = arena.commitPopped child := by
  rw [perform, commit, commitPopped]
  by_cases htop : child = arena.top
  · rw [if_pos htop, if_pos htop, htop, top, ← Array.back?_eq_getElem?]
    rcases hback : arena.layers.back? with _ | ⟨_ | parent, changes⟩
    · rfl
    · obtain ⟨left, hlayers⟩ := Array.back?_eq_some_iff.mp hback
      have hput : arena.layers.pop.push ⟨none, changes⟩ = arena.layers := by
        rw [hlayers, Array.pop_push]
      dsimp only
      rw [hput]
    · rfl
  · rw [if_neg htop, if_neg htop]

/-! ### After any history -/

theorem linked_run {arena : Arena} (h : arena.Linked) (operations : List Operation) :
    (arena.run operations).2.Linked := by
  induction operations generalizing arena with
  | nil => exact h
  | cons operation rest ih => exact ih (linked_perform h operation)

/-- What the chain of its layers is good for in an arena. -/
structure Chained (arena : Arena) : Prop where
  root : ∃ changes, arena.layers[Arena.root]? = some ⟨none, changes⟩
  parent : ∀ layer, layer < arena.top →
    ∃ changes, arena.layers[layer + 1]? = some ⟨some layer, changes⟩
  isLive_iff : ∀ layer, arena.isLive layer = true ↔ layer ≤ arena.top
  /-- A read visits the layer and all below it, and what it finds is what lies in those. -/
  walk : ∀ layer, layer ≤ arena.top →
    Walk arena.layers layer (downFrom layer) ∧
      arena.worldAt? layer = some (Changes.readThrough (changesOf arena.layers (downFrom layer))
        arena.backend.accounts)
  /-- The layer that a commit leads to is there, and it is the top one now. -/
  commit : ∀ layer, arena.top = layer + 1 →
    ∃ merged, arena.commitPopped (layer + 1) = (.ok (some layer), merged) ∧ merged.top = layer
  commit_root : arena.commitPopped Arena.root = (.error (.layerOutOfOrder Arena.root), arena)
  /-- The root stays whatever is kept, and so does all that is to be kept. -/
  abandon : ∀ keep layer, layer = Arena.root ∨ layer ≤ keep →
    (arena.abandon keep).layers[layer]? = arena.layers[layer]?

theorem Linked.chained {arena : Arena} (h : arena.Linked) : arena.Chained where
  root := h.exists_layer h.size_pos
  parent layer hlayer := h.exists_layer (by rw [h.size_eq]; omega)
  isLive_iff := h.isLive_iff
  walk layer hlayer := by
    have hlive : layer < arena.layers.size := by rw [h.size_eq]; omega
    exact ⟨h.walk hlive, h.worldAt?_walk hlive⟩
  commit layer htop := by
    obtain ⟨merged, hcommit, -, hsize, -⟩ := h.commit (n := layer) (by rw [h.size_eq, htop])
    refine ⟨merged, ?_, by rw [top, hsize]; rfl⟩
    rw [← perform_commit, perform, hcommit]
  commit_root := by
    rw [← perform_commit, perform]
    by_cases htop : Arena.root = arena.top
    · rw [show Arena.root = 0 from rfl, h.commit_root (by rw [h.size_eq, ← htop]; rfl)]
    · rw [commit_of_ne htop]
  abandon keep layer hkept := by
    obtain ⟨-, -, hbelow⟩ := h.abandon keep
    refine hbelow.layer layer ?_
    rcases hkept with rfl | hle
    · exact Nat.succ_pos keep
    · exact Nat.lt_succ_of_le hle

/-- **The links form a chain after any history of operations**, whatever indices it names. The root has no
parent and every other layer the one right below it; the live layers are those up to the top; a read at a
live layer visits it and all below it and ends at the root; a commit of the top layer leads to the one
below, and one of the root is refused and puts the root back; and dropping layers never drops the root,
nor one that is to be kept. -/
theorem run_chained (backend : Backend) (operations : List Operation) :
    0 < ((new backend).run operations).2.layers.size ∧
      ((new backend).run operations).2.Chained ∧
      ∀ child, ((new backend).run operations).2.perform (.commit child)
        = ((new backend).run operations).2.commitPopped child := by
  have hlinked := linked_run (linked_new backend) operations
  exact ⟨hlinked.size_pos, hlinked.chained, perform_commit _⟩

end Arena

end ContractExec
