import ContractExec.Proofs.Arena.Chain

/-!
# Layers as a stack of snapshots

An arena keeps only what each layer writes. What is read through it is simpler: a stack of whole
worlds, one for each open layer. Opening a layer copies the snapshot on top, a commit lets the top
one replace the one below it, abandoning cuts the stack off, and a write goes to the top snapshot.

* `Snapshots`, `Snapshots.perform` — the stack, and its operations;
* `Arena.reading`, `worldAt?_eq` — in a linked arena the walk along the parents reads the layers one
  over the other;
* `Arena.topWorld` — what is read at the top layer, with one lemma for each operation;
* `shows_perform` — one operation takes an arena and a stack that it shows to such a pair again;
* `runs_as_snapshots` — **every history of operations reads, at every layer, as the stack does**.
-/

namespace ContractExec

/-- The layer that an operation names. -/
def Arena.Operation.layer : Arena.Operation → Nat
  | .openLayer parent => parent
  | .commit child => child
  | .abandon keep => keep
  | .write layer _ _ => layer

/-! ### Stacks of snapshots -/

/-- One world for each open layer, the root's first. -/
abbrev Snapshots := List World

namespace Snapshots

/-- Whether an operation names the layer that it has to: the top one, and for a commit not the
root. -/
def allows (stack : Snapshots) : Arena.Operation → Bool
  | .openLayer parent => parent + 1 = stack.length
  | .commit child => child + 1 = stack.length && child ≠ 0
  | .abandon _ => true
  | .write layer _ _ => layer + 1 = stack.length

/-- The layer that an allowed operation answers with. -/
def answer (stack : Snapshots) : Arena.Operation → Option Nat
  | .openLayer _ => some stack.length
  | .commit child => some (child - 1)
  | .abandon _ => none
  | .write .. => none

/-- The stack after an allowed operation. -/
def after (stack : Snapshots) : Arena.Operation → Snapshots
  | .openLayer _ => stack ++ stack.getLast?.toList
  -- without the snapshot below it, the top one stands in its place
  | .commit child => stack.eraseIdx (child - 1)
  | .abandon keep => stack.take (keep + 1)
  | .write layer address w => stack.modify layer fun world => world.write address w

/-- The answer to an operation and the stack after it. What is not allowed changes nothing. -/
def perform (stack : Snapshots) (operation : Arena.Operation) :
    Except Fatal (Option Nat) × Snapshots :=
  if stack.allows operation then (.ok (stack.answer operation), stack.after operation)
  else (.error (.layerOutOfOrder operation.layer), stack)

/-- The answers to operations in turn, and the stack after them. -/
def run (stack : Snapshots) : List Arena.Operation → List (Except Fatal (Option Nat)) × Snapshots
  | [] => ([], stack)
  | operation :: rest =>
    let (answer, stack) := stack.perform operation
    let (answers, stack) := run stack rest
    (answer :: answers, stack)

end Snapshots

namespace Arena

/-- The answers to operations in turn, and the arena after them. -/
def run (arena : Arena) : List Operation → List (Except Fatal (Option Nat)) × Arena
  | [] => ([], arena)
  | operation :: rest =>
    let (answer, arena) := arena.perform operation
    let (answers, arena) := run arena rest
    (answer :: answers, arena)

/-! ### Reading through the chain -/

/-- The world through the first layers of an arena, one over the other. -/
def reading (arena : Arena) : Nat → World
  | 0 => arena.backend.accounts
  | n + 1 =>
    match arena.layers[n]? with
    | some layer => layer.changes.overlay (reading arena n)
    | none => reading arena n

theorem reading_succ {arena : Arena} {n : Nat} {layer : Layer}
    (h : arena.layers[n]? = some layer) :
    arena.reading (n + 1) = layer.changes.overlay (arena.reading n) := by
  rw [reading, h]

/-- The first layers alone tell what is read through them. -/
theorem reading_congr {n : Nat} {x y : Arena} (h : SameBelow n x y) :
    ∀ k, k ≤ n → y.reading k = x.reading k := by
  intro k
  induction k with
  | zero =>
    intro _
    show y.backend.accounts = x.backend.accounts
    rw [h.backend]
  | succ k ih =>
    intro hk
    rw [reading, reading, h.layer k hk, ih (by omega)]

/-- The walk from a layer meets it and all layers below it, and ends at the root before its fuel is
spent. -/
theorem lineage_linked {arena : Arena} (h : arena.Linked) :
    ∀ i fuel, i < fuel → i < arena.layers.size →
      ∃ chain, lineage arena.layers fuel i = some chain ∧
        chain.foldr Changes.overlay arena.backend.accounts = arena.reading (i + 1) := by
  intro i
  induction i with
  | zero =>
    intro fuel hfuel hi
    obtain ⟨fuel, rfl⟩ := Nat.exists_eq_add_one.mpr hfuel
    obtain ⟨changes, hlayer⟩ := h.exists_layer hi
    refine ⟨[changes], ?_, (reading_succ hlayer).symm⟩
    rw [lineage, hlayer]
    rfl
  | succ i ih =>
    intro fuel hfuel hi
    obtain ⟨fuel, rfl⟩ := Nat.exists_eq_add_one.mpr (Nat.zero_lt_of_lt hfuel)
    obtain ⟨chain, hchain, hreading⟩ := ih fuel (by omega) (by omega)
    obtain ⟨changes, hlayer⟩ := h.exists_layer hi
    refine ⟨changes :: chain, ?_, ?_⟩
    · rw [lineage, hlayer]
      show (lineage arena.layers fuel i).map (changes :: ·) = some (changes :: chain)
      rw [hchain]
      rfl
    · rw [reading_succ hlayer, ← hreading]
      rfl

/-- In a linked arena every live layer reads as it lies over those below it, and no other reads. -/
theorem worldAt?_eq {arena : Arena} (h : arena.Linked) (i : Nat) :
    arena.worldAt? i = if i < arena.layers.size then some (arena.reading (i + 1)) else none := by
  by_cases hi : i < arena.layers.size
  · obtain ⟨chain, hchain, hreading⟩ := lineage_linked h i arena.layers.size hi hi
    rw [worldAt?, hchain, if_pos hi, ← hreading, ← Changes.readThrough_eq]
    rfl
  · obtain ⟨fuel, hfuel⟩ := Nat.exists_eq_add_one.mpr h.size_pos
    rw [worldAt?, if_neg hi, hfuel, lineage, Array.getElem?_eq_none (Nat.le_of_not_lt hi)]
    rfl

/-! ### The world at the top -/

/-- What is read at the top layer. -/
def topWorld (arena : Arena) : World := arena.reading arena.layers.size

/-- A new layer reads as the one that it was opened on. -/
theorem topWorld_openLayer {arena opened : Arena} {parent layer : Nat} (h : arena.Linked)
    (hopen : arena.openLayer parent = .ok (layer, opened)) : opened.topWorld = arena.topWorld := by
  obtain ⟨-, hsize, hbelow, hlayer⟩ := h.of_openLayer hopen
  rw [topWorld, hsize, reading_succ hlayer, Changes.overlay_empty,
    reading_congr hbelow _ (Nat.le_refl _)]
  rfl

/-- A write to the top layer reads as a write to the world at the top. -/
theorem topWorld_write {arena written : Arena} {layer : Nat} {address : Address} {w : Write}
    (h : arena.Linked) (hwrite : arena.write layer address w = .ok written) :
    written.topWorld = arena.topWorld.write address w := by
  obtain ⟨-, -, hsize, hbelow, hlayer⟩ := h.of_write hwrite
  obtain ⟨changes, hold⟩ := h.exists_top
  rw [hold] at hlayer
  rw [topWorld, topWorld, hsize, h.size_eq, reading_succ hold, reading_succ hlayer,
    Changes.overlay_write, reading_congr hbelow _ (Nat.le_refl _)]

/-- Merging the top layer into the one below it changes nothing of what is read at the top. -/
theorem topWorld_commit {arena merged : Arena} {child parent : Nat} (h : arena.Linked)
    (hcommit : arena.commit child = .ok (parent, merged)) : merged.topWorld = arena.topWorld := by
  obtain ⟨n, -, -, hsize, -, hsize', hbelow, lower, upper, hlower, hupper, hmerged⟩ :=
    h.of_commit hcommit
  rw [topWorld, topWorld, hsize, hsize', reading_succ hupper, reading_succ hlower,
    reading_succ hmerged, Changes.overlay_absorb, reading_congr hbelow n (Nat.le_refl n)]

/-- A linked arena with no layer above the root finishes with the changes of the root, and what is
read at the root is read through them. -/
theorem finish_linked {arena : Arena} (h : arena.Linked) (hdepth : arena.depth = 0) :
    ∃ changes, arena.finish = .ok changes ∧ arena.layers[root]? = some ⟨none, changes⟩ ∧
      arena.topWorld = changes.overlay arena.backend.accounts := by
  have htop : arena.top = root := hdepth
  obtain ⟨changes, hlayer⟩ := h.exists_top
  rw [htop] at hlayer
  refine ⟨changes, ?_, hlayer, ?_⟩
  · rw [finish, if_pos hdepth, hlayer]
    rfl
  · rw [topWorld, h.size_eq, htop]
    exact reading_succ hlayer

/-! ### The simulation -/

/-- A linked arena shows a stack: it has one layer for each snapshot, which reads as that. -/
structure Shows (arena : Arena) (stack : Snapshots) : Prop where
  linked : arena.Linked
  length_eq : stack.length = arena.layers.size
  snapshot : ∀ i, i < arena.layers.size → stack[i]? = some (arena.reading (i + 1))

theorem shows_new (backend : Backend) : (new backend).Shows [backend.accounts] where
  linked := linked_new backend
  length_eq := rfl
  snapshot := by
    intro i hi
    obtain rfl : i = 0 := Nat.lt_one_iff.mp hi
    have hroot : (new backend).layers[0]? = some ⟨none, ∅⟩ := rfl
    rw [reading_succ hroot, Changes.overlay_empty]
    rfl

namespace Shows

variable {arena : Arena} {stack : Snapshots}

theorem length_eq_top (h : arena.Shows stack) : stack.length = arena.top + 1 :=
  h.length_eq.trans h.linked.size_eq

/-- What is read at a layer is its snapshot. -/
theorem worldAt?_eq (h : arena.Shows stack) (i : Nat) : arena.worldAt? i = stack[i]? := by
  rw [Arena.worldAt?_eq h.linked]
  by_cases hi : i < arena.layers.size
  · rw [if_pos hi, h.snapshot i hi]
  · rw [if_neg hi, List.getElem?_eq_none (by rw [h.length_eq]; omega)]

/-- The snapshot on top is what is read at the top layer. -/
theorem getElem?_top (h : arena.Shows stack) : stack[arena.top]? = some arena.topWorld := by
  have hsize := h.linked.size_eq
  rw [h.snapshot _ (by omega), topWorld, hsize]

/-- An arena shows a stack if its lower layers are those of an arena that shows the lower snapshots,
and its top layer reads as the top snapshot. -/
theorem of_top {y : Arena} {after : Snapshots} {n : Nat} (h : arena.Shows stack)
    (hbelow : SameBelow n arena y) (hlinked : y.Linked) (hsize : y.layers.size = n + 1)
    (hlive : n ≤ arena.layers.size) (hlength : after.length = n + 1)
    (hlower : ∀ i, i < n → after[i]? = stack[i]?) (htop : after[n]? = some y.topWorld) :
    y.Shows after := by
  refine ⟨hlinked, by rw [hlength, hsize], ?_⟩
  intro i hi
  by_cases hlt : i < n
  · rw [hlower i hlt, h.snapshot i (by omega), reading_congr hbelow (i + 1) hlt]
  · obtain rfl : i = n := by omega
    rw [htop, topWorld, hsize]

/-- The copy that a new layer starts with. -/
theorem openLayer (h : arena.Shows stack) :
    ∃ opened, arena.openLayer arena.top = .ok (stack.length, opened) ∧
      opened.Shows (stack ++ stack.getLast?.toList) := by
  obtain ⟨opened, hopen, hlinked, hsize, hbelow, -⟩ := h.linked.openLayer
  have hlast : stack.getLast? = some arena.topWorld := by
    rw [List.getLast?_eq_getElem?, h.length_eq_top]
    exact h.getElem?_top
  refine ⟨opened, by rw [h.length_eq, hopen],
    h.of_top hbelow hlinked hsize (Nat.le_refl _) ?_ (fun i hi => ?_) ?_⟩
  · rw [hlast, List.length_append, h.length_eq]
    rfl
  · exact List.getElem?_append_left (by rw [h.length_eq]; exact hi)
  · rw [hlast, Option.toList_some, ← h.length_eq, List.getElem?_concat_length,
      topWorld_openLayer h.linked hopen]

/-- The top snapshot takes the place of the one below it. -/
theorem commit {n : Nat} (h : arena.Shows stack) (htop : arena.top = n + 1) :
    ∃ merged, arena.commit (n + 1) = .ok (n, merged) ∧ merged.Shows (stack.eraseIdx n) := by
  have harena : arena.layers.size = n + 2 := by rw [h.linked.size_eq, htop]
  obtain ⟨merged, hcommit, hlinked, hsize, hbelow, -⟩ := h.linked.commit harena
  refine ⟨merged, hcommit, h.of_top hbelow hlinked hsize (by omega) ?_ (fun i hi => ?_) ?_⟩
  · rw [List.length_eraseIdx, h.length_eq, harena, if_pos (by omega)]
    rfl
  · rw [List.getElem?_eraseIdx, if_pos hi]
  · rw [List.getElem?_eraseIdx, if_neg (Nat.lt_irrefl n), ← htop, h.getElem?_top,
      topWorld_commit h.linked hcommit]

/-- What is kept reads as it did. -/
theorem abandon (h : arena.Shows stack) (keep : Nat) :
    (arena.abandon keep).Shows (stack.take (keep + 1)) := by
  obtain ⟨hlinked, hsize, hbelow⟩ := h.linked.abandon keep
  refine ⟨hlinked, by rw [List.length_take, hsize, h.length_eq], ?_⟩
  intro i hi
  rw [List.getElem?_take_of_lt (by omega), h.snapshot i (by omega),
    reading_congr hbelow (i + 1) (by omega)]

/-- A write to the top layer reads as a write to the top snapshot, and to no other. -/
theorem write (h : arena.Shows stack) (address : Address) (w : Write) :
    ∃ written, arena.write arena.top address w = .ok written ∧
      written.Shows (stack.modify arena.top fun world => world.write address w) := by
  obtain ⟨written, hwrite, hlinked, hsize, hbelow, -⟩ := h.linked.write address w
  refine ⟨written, hwrite, h.of_top hbelow hlinked (by rw [hsize, h.linked.size_eq])
    (by rw [h.linked.size_eq]; omega) ?_ (fun i hi => ?_) ?_⟩
  · rw [List.length_modify, h.length_eq_top]
  · have hother : arena.top ≠ i := by omega
    simp [hother]
  · rw [List.getElem?_modify, h.getElem?_top, topWorld_write h.linked hwrite]
    simp

end Shows

/-- An operation that the stack does not allow is refused, and changes nothing. -/
theorem perform_of_not_allows {arena : Arena} {stack : Snapshots} (h : arena.Shows stack)
    {operation : Operation} (hrefused : stack.allows operation = false) :
    arena.perform operation = (.error (.layerOutOfOrder operation.layer), arena) := by
  cases operation with
  | openLayer parent =>
    have hne : parent ≠ arena.top := by simpa [Snapshots.allows, h.length_eq_top] using hrefused
    rw [perform, openLayer_of_ne hne]
    rfl
  | commit child =>
    by_cases hne : child = arena.top
    · have htop : arena.top = 0 := by simpa [Snapshots.allows, h.length_eq_top, hne] using hrefused
      rw [perform, hne, htop, h.linked.commit_root (by rw [h.linked.size_eq, htop])]
      rfl
    · rw [perform, commit_of_ne hne]
      rfl
  | abandon keep => exact absurd hrefused (by simp [Snapshots.allows])
  | write layer address w =>
    have hne : layer ≠ arena.top := by simpa [Snapshots.allows, h.length_eq_top] using hrefused
    rw [perform, write_of_ne hne]
    rfl

/-- **One operation keeps an arena and its stack together.** -/
theorem shows_perform {arena : Arena} {stack : Snapshots} (h : arena.Shows stack)
    (operation : Operation) :
    (arena.perform operation).1 = (stack.perform operation).1 ∧
      (arena.perform operation).2.Shows (stack.perform operation).2 := by
  rw [Snapshots.perform]
  cases hallows : stack.allows operation with
  | false =>
    rw [perform_of_not_allows h hallows, if_neg (by simp)]
    exact ⟨rfl, h⟩
  | true =>
    rw [if_pos rfl]
    cases operation with
    | openLayer parent =>
      obtain rfl : parent = arena.top := by simpa [Snapshots.allows, h.length_eq_top] using hallows
      obtain ⟨opened, hopen, hshows⟩ := h.openLayer
      rw [perform, hopen]
      exact ⟨rfl, hshows⟩
    | commit child =>
      obtain ⟨hchild, hroot⟩ : child = arena.top ∧ child ≠ 0 := by
        simpa [Snapshots.allows, h.length_eq_top] using hallows
      obtain ⟨n, rfl⟩ := Nat.exists_eq_succ_of_ne_zero hroot
      obtain ⟨merged, hcommit, hshows⟩ := h.commit hchild.symm
      rw [perform, hcommit]
      exact ⟨rfl, hshows⟩
    | abandon keep => exact ⟨rfl, h.abandon keep⟩
    | write layer address w =>
      obtain rfl : layer = arena.top := by simpa [Snapshots.allows, h.length_eq_top] using hallows
      obtain ⟨written, hwrite, hshows⟩ := h.write address w
      rw [perform, hwrite]
      exact ⟨rfl, hshows⟩

theorem backend_run (arena : Arena) (operations : List Operation) :
    (arena.run operations).2.backend = arena.backend := by
  induction operations generalizing arena with
  | nil => rfl
  | cons operation rest ih => exact (ih _).trans (arena.backend_perform operation)

/-- A history of operations keeps an arena and its stack together, and gives the same answers. -/
theorem shows_run {arena : Arena} {stack : Snapshots} (h : arena.Shows stack)
    (operations : List Operation) :
    (arena.run operations).1 = (stack.run operations).1 ∧
      (arena.run operations).2.Shows (stack.run operations).2 := by
  induction operations generalizing arena stack with
  | nil => exact ⟨rfl, h⟩
  | cons operation rest ih =>
    obtain ⟨hanswer, hshows⟩ := shows_perform h operation
    obtain ⟨hanswers, hend⟩ := ih hshows
    exact ⟨List.cons_eq_cons.mpr ⟨hanswer, hanswers⟩, hend⟩

/-- **The arena refines a stack of snapshots.** After any history of operations on a new arena, with
any layers named in it, all answers were those of the stack, a layer is live if and only if it has a
snapshot, what is read at it is that snapshot, and whatever the stack does not allow next is refused
with the layer it names and changes nothing. -/
theorem runs_as_snapshots (backend : Backend) (operations : List Operation) :
    let (answers, arena) := (new backend).run operations
    let (expected, stack) := Snapshots.run [backend.accounts] operations
    answers = expected ∧
      (∀ layer, arena.isLive layer = decide (layer < stack.length)) ∧
      (∀ layer, arena.worldAt? layer = stack[layer]?) ∧
      ∀ operation, stack.allows operation = false →
        arena.perform operation = (.error (.layerOutOfOrder operation.layer), arena) := by
  obtain ⟨hanswers, hshows⟩ := shows_run (shows_new backend) operations
  refine ⟨hanswers, ?_, hshows.worldAt?_eq, ?_⟩
  · intro layer
    rw [isLive, hshows.length_eq]
  · intro operation hrefused
    exact perform_of_not_allows hshows hrefused

end Arena

end ContractExec
