import ContractExec.Proofs.Arena.Snapshots

/-!
# Bracketed operations

Operations on an arena that nest: writes go to the layer that is open innermost, and a block opens a
layer of its own and closes it again, either by a commit or by abandoning it. A layer keeps the net
effect of its writes only, yet merging it into the layer below comes to the same as making its
writes there, one after the other. So the layers leave no trace in what the arena finishes with.

* `absorb_write`, `absorb_writeAll` — **merging a record is replaying its writes**;
* `Arena.Bracketed`, `run`, `kept` — bracketed operations, what they do, and the writes among them
  that lie in no abandoned block;
* `run_eq` — bracketed operations on a layer come to the writes that they keep, made on that layer;
* `finish_bracketed` — **the changes are those of the kept writes, made on the root alone**.
-/

namespace ContractExec

/-! ### Merging replays writes -/

/-- Adding a write to a record and merging it is merging the record and adding the write. -/
theorem AccountChange.absorb_write (lower upper : AccountChange) (w : Write) :
    lower.absorb (upper.write w) = (lower.absorb upper).write w := by
  cases w with
  | create => rfl
  | setCode code
  | setContractType typeName =>
    by_cases hcreated : upper.created = true
    · simp [absorb, write, hcreated]
    · simp [absorb, write, hcreated]
  | setStorage key value =>
    by_cases hcreated : upper.created = true
    · simp [absorb, write, hcreated]
    · have hstorage : lower.storage ∪ upper.storage.insert key value
          = (lower.storage ∪ upper.storage).insert key value :=
        Std.ExtTreeMap.union_insert_right_eq_insert_union (p := ⟨key, value⟩)
      simp [absorb, write, hcreated, hstorage]

@[simp] theorem AccountChange.absorb_default (lower : AccountChange) : lower.absorb {} = lower := by
  have hstorage : lower.storage ∪ ∅ = lower.storage := by
    apply Std.ExtTreeMap.ext_getElem?
    intro key
    rw [Std.ExtTreeMap.getElem?_union, Std.ExtTreeMap.getElem?_empty]
    rfl
  simp [absorb, hstorage]

namespace Changes

/-- Adds writes to a record, one after the other. -/
def writeAll (changes : Changes) (writes : List (Address × Write)) : Changes :=
  writes.foldl (fun changes (address, w) => changes.write address w) changes

theorem getElem?_write (changes : Changes) (address : Address) (w : Write) (a : Address) :
    (changes.write address w)[a]?
      = if address = a then some ((changes[a]?.getD {}).write w) else changes[a]? := by
  rw [write, Std.ExtTreeMap.getElem?_insert]
  simp only [Std.LawfulEqCmp.compare_eq_iff_eq]
  split
  case isTrue hsame => rw [hsame]
  case isFalse => rfl

@[simp] theorem absorb_empty (lower : Changes) : lower.absorb ∅ = lower := by
  apply Std.ExtTreeMap.ext_getElem?
  intro a
  rw [getElem?_absorb, Std.ExtTreeMap.getElem?_empty]
  cases lower[a]? <;> rfl

/-- Adding a write to a record and merging it is merging the record and adding the write. -/
theorem absorb_write (lower upper : Changes) (address : Address) (w : Write) :
    lower.absorb (upper.write address w) = (lower.absorb upper).write address w := by
  apply Std.ExtTreeMap.ext_getElem?
  intro a
  rw [getElem?_absorb, getElem?_write, getElem?_write, getElem?_absorb]
  by_cases hsame : address = a
  · rw [if_pos hsame, if_pos hsame]
    cases lower[a]? <;> cases upper[a]? <;> simp [AccountChange.absorb_write]
  · rw [if_neg hsame, if_neg hsame]

/-- **Merging a record is replaying its writes**, over whatever it held before them. -/
theorem absorb_writeAll (lower upper : Changes) (writes : List (Address × Write)) :
    lower.absorb (upper.writeAll writes) = (lower.absorb upper).writeAll writes := by
  induction writes generalizing upper with
  | nil => rfl
  | cons first rest ih =>
    show lower.absorb ((upper.write first.1 first.2).writeAll rest) = _
    rw [ih, absorb_write]
    rfl

end Changes

namespace Arena

/-! ### Bracketed operations -/

/-- Writes to the layer that is open innermost, and blocks with a layer of their own, which is
committed or abandoned at the end of the block. -/
inductive Bracketed where
  | done
  | write (address : Address) (w : Write) (rest : Bracketed)
  | block (inner : Bracketed) (committed : Bool) (rest : Bracketed)

namespace Bracketed

/-- Performs bracketed operations, given the layer that is open innermost. -/
def run (arena : Arena) (layer : Nat) : Bracketed → Except Fatal Arena
  | done => .ok arena
  | write address w rest => do
    let arena ← arena.write layer address w
    rest.run arena layer
  | block inner committed rest => do
    let (child, arena) ← arena.openLayer layer
    let arena ← inner.run arena child
    if committed then
      let (parent, arena) ← arena.commit child
      rest.run arena parent
    else rest.run (arena.abandon layer) layer

/-- The writes that lie in no abandoned block, in their order. -/
def kept : Bracketed → List (Address × Write)
  | done => []
  | write address w rest => (address, w) :: rest.kept
  | block inner committed rest => (if committed then inner.kept else []) ++ rest.kept

/-- Writes alone, without any block. -/
def ofWrites : List (Address × Write) → Bracketed
  | [] => done
  | (address, w) :: rest => write address w (ofWrites rest)

/-- The changes that a new arena finishes with after bracketed operations on its root. -/
def changes (backend : Backend) (operations : Bracketed) : Except Fatal Changes := do
  (← operations.run (new backend) root).finish

@[simp] theorem kept_ofWrites (writes : List (Address × Write)) : (ofWrites writes).kept = writes := by
  induction writes with
  | nil => rfl
  | cons first rest ih => exact congrArg (first :: ·) ih

end Bracketed

/-! ### Writes to the top layer -/

/-- An arena after writes to its top layer. -/
def written (arena : Arena) (writes : List (Address × Write)) : Arena :=
  { arena with
    layers := arena.layers.modify arena.top fun l => { l with changes := l.changes.writeAll writes } }

section

variable {arena : Arena}

@[simp] theorem top_written (arena : Arena) (writes : List (Address × Write)) :
    (arena.written writes).top = arena.top := by
  simp [top, written]

theorem Linked.written (h : arena.Linked) (writes : List (Address × Write)) :
    (arena.written writes).Linked :=
  h.modify arena.top fun changes => changes.writeAll writes

theorem getElem?_written (arena : Arena) (writes : List (Address × Write)) (i : Nat) :
    (arena.written writes).layers[i]?
      = if arena.top = i then
          arena.layers[i]?.map fun l => { l with changes := l.changes.writeAll writes }
        else arena.layers[i]? :=
  Array.getElem?_modify

theorem written_nil (arena : Arena) : arena.written [] = arena := by
  have hlayers : (arena.written []).layers = arena.layers := by
    apply Array.ext_getElem?
    intro i
    rw [getElem?_written]
    split
    · cases arena.layers[i]? <;> rfl
    · rfl
  exact congrArg (Arena.mk arena.backend) hlayers

theorem written_append (arena : Arena) (first rest : List (Address × Write)) :
    arena.written (first ++ rest) = (arena.written first).written rest := by
  have hlayers : (arena.written (first ++ rest)).layers
      = ((arena.written first).written rest).layers := by
    apply Array.ext_getElem?
    intro i
    rw [getElem?_written, getElem?_written, getElem?_written, top_written]
    split
    · cases arena.layers[i]? with
      | none => rfl
      | some layer => simp [Changes.writeAll]
    · rfl
  exact congrArg (Arena.mk arena.backend) hlayers

theorem write_top (arena : Arena) (address : Address) (w : Write) :
    arena.write arena.top address w = .ok (arena.written [(address, w)]) := by
  rw [Arena.write, if_pos rfl]
  rfl

/-! ### One block -/

/-- An empty layer on the top one. -/
def pushed (arena : Arena) : Arena :=
  { arena with layers := arena.layers.push ⟨some arena.top, ∅⟩ }

@[simp] theorem top_pushed (arena : Arena) : arena.pushed.top = arena.layers.size := by
  simp [top, pushed]

theorem openLayer_top (arena : Arena) :
    arena.openLayer arena.top = .ok (arena.pushed.top, arena.pushed) := by
  rw [openLayer, if_pos rfl]
  rfl

theorem layers_written_pushed (arena : Arena) (writes : List (Address × Write)) :
    (arena.pushed.written writes).layers
      = arena.layers.push ⟨some arena.top, Changes.writeAll ∅ writes⟩ := by
  apply Array.ext_getElem?
  intro i
  rw [getElem?_written, top_pushed, pushed, Array.getElem?_push, Array.getElem?_push]
  by_cases hi : arena.layers.size = i
  · rw [if_pos hi, if_pos hi.symm, if_pos hi.symm]
    rfl
  · rw [if_neg hi, if_neg (Ne.symm hi), if_neg (Ne.symm hi)]

/-- A block that is committed comes to its writes, made on the layer below. -/
theorem commit_written_pushed (arena : Arena) (writes : List (Address × Write)) :
    (arena.pushed.written writes).commit arena.pushed.top = .ok (arena.top, arena.written writes) := by
  rw [commit, top_written, if_pos rfl, layers_written_pushed, top_pushed, Array.getElem?_push_size]
  dsimp only
  rw [Array.pop_push]
  simp only [Changes.absorb_writeAll, Changes.absorb_empty]
  rfl

/-- A block that is abandoned comes to nothing. -/
theorem abandon_written_pushed (h : arena.Linked) (writes : List (Address × Write)) :
    (arena.pushed.written writes).abandon arena.top = arena := by
  apply abandon_eq h
  refine ⟨rfl, fun i hi => ?_⟩
  rw [layers_written_pushed, Array.getElem?_push_lt hi, Array.getElem?_eq_getElem hi]

/-! ### Whole operations -/

/-- **Bracketed operations on a layer come to the writes that they keep**, made on that layer. -/
theorem run_eq (h : arena.Linked) (operations : Bracketed) :
    operations.run arena arena.top = .ok (arena.written operations.kept) := by
  induction operations generalizing arena with
  | done =>
    rw [Bracketed.kept, written_nil]
    rfl
  | write address w rest ih =>
    have hrest := ih (h.written [(address, w)])
    rw [top_written] at hrest
    rw [Bracketed.kept, ← List.singleton_append, written_append, Bracketed.run, write_top]
    exact hrest
  | block inner committed rest ihInner ihRest =>
    obtain ⟨opened, hopen, hlinked, -⟩ := h.openLayer
    rw [openLayer_top] at hopen
    injection hopen with hopen
    injection hopen with _ hopened
    subst hopened
    have hinner := ihInner hlinked
    rw [Bracketed.run, openLayer_top, Bracketed.kept]
    show (inner.run arena.pushed arena.pushed.top >>= _) = _
    rw [hinner]
    cases committed with
    | true =>
      have hrest := ihRest (h.written inner.kept)
      rw [top_written] at hrest
      show ((arena.pushed.written inner.kept).commit arena.pushed.top >>= _) = _
      rw [commit_written_pushed, if_pos rfl, written_append]
      exact hrest
    | false =>
      show rest.run ((arena.pushed.written inner.kept).abandon arena.top) arena.top = _
      rw [abandon_written_pushed h]
      exact ihRest h

end

/-- **Layers leave no trace.** Bracketed operations on the root of a new arena, with blocks nested to
any depth, are all accepted, and the arena finishes with the changes of the writes that lie in no
abandoned block, made one after the other on the root alone. -/
theorem finish_bracketed (backend : Backend) (operations : Bracketed) :
    ∃ changes, operations.changes backend = .ok changes ∧
      (Bracketed.ofWrites operations.kept).changes backend = .ok changes := by
  have hfinish : ∀ operations : Bracketed,
      operations.changes backend = ((new backend).written operations.kept).finish := by
    intro operations
    have hrun := run_eq (linked_new backend) operations
    rw [top_new] at hrun
    rw [Bracketed.changes, root, hrun]
    rfl
  obtain ⟨changes, hchanges, -⟩ :=
    finish_linked ((linked_new backend).written operations.kept) (top_written _ _)
  refine ⟨changes, ?_, ?_⟩
  · rw [hfinish, hchanges]
  · rw [hfinish, Bracketed.kept_ofWrites, hchanges]

end Arena

end ContractExec
