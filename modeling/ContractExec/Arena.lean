import ContractExec.Backend
import ContractExec.Changes
import ContractExec.Fault

/-!
# The arena of layers

Layers of changes over a backend, each with a link to its parent. Layers form a stack: only the top
layer is opened on, written or committed, and dropping all layers above one that is kept is the only
way to discard writes.

* `Arena.openLayer`, `Arena.commit`, `Arena.abandon`, `Arena.write` — the operations; what an
  operation refuses leaves the arena as it was;
* `Arena.worldAt?` — the world as it reads from a layer, through all its ancestors;
* `Arena.finish` — the changes of the root once all other layers are closed.
-/

namespace ContractExec

/-- A layer of changes and the index of its parent; the root has none. -/
structure Layer where
  parent : Option Nat
  changes : Changes

/-- Layers over a backend, the root first. -/
structure Arena where
  backend : Backend
  layers : Array Layer

namespace Arena

def new (backend : Backend) : Arena := ⟨backend, #[⟨none, ∅⟩]⟩

/-- The layer of everything committed so far. -/
def root : Nat := 0

def top (arena : Arena) : Nat := arena.layers.size - 1

def depth (arena : Arena) : Nat := arena.layers.size - 1

def isLive (arena : Arena) (layer : Nat) : Bool := decide (layer < arena.layers.size)

/-! ### Operations -/

/-- Opens a layer on the top one and answers with its index. -/
def openLayer (arena : Arena) (parent : Nat) : Except Fatal (Nat × Arena) :=
  if parent = arena.top then
    let opened := { arena with layers := arena.layers.push ⟨some parent, ∅⟩ }
    .ok (opened.top, opened)
  else .error (.layerOutOfOrder parent)

/-- Merges the top layer into its parent and answers with the index of the parent. -/
def commit (arena : Arena) (child : Nat) : Except Fatal (Nat × Arena) :=
  if child = arena.top then
    match arena.layers[child]? with
    | some ⟨some parent, changes⟩ =>
      let merged := arena.layers.pop.modify parent fun layer =>
        { layer with changes := layer.changes.absorb changes }
      .ok (parent, { arena with layers := merged })
    | _ => .error (.layerOutOfOrder child)
  else .error (.layerOutOfOrder child)

/-- Drops every layer above the one that is kept. -/
def abandon (arena : Arena) (keep : Nat) : Arena :=
  { arena with layers := arena.layers.take (keep + 1) }

def write (arena : Arena) (layer : Nat) (address : Address) (w : Write) : Except Fatal Arena :=
  if layer = arena.top then
    .ok { arena with layers := arena.layers.modify layer fun l =>
            { l with changes := l.changes.write address w } }
  else .error (.layerOutOfOrder layer)

/-! ### Reading -/

/-- The changes of a layer and of its ancestors, nearest first, following at most `fuel` links. -/
def lineage (layers : Array Layer) : (fuel : Nat) → Nat → Option (List Changes)
  | 0, _ => none
  | fuel + 1, index =>
    match layers[index]? with
    | none => none
    | some ⟨none, changes⟩ => some [changes]
    | some ⟨some parent, changes⟩ => (lineage layers fuel parent).map (changes :: ·)

/-- The world as it reads from a layer; none where the index names no layer. A layer has no more
ancestors than there are layers. -/
def worldAt? (arena : Arena) (layer : Nat) : Option World :=
  (lineage arena.layers arena.layers.size layer).map fun chain =>
    Changes.readThrough chain arena.backend.accounts

/-- The changes of the root, if no other layer is left. -/
def finish (arena : Arena) : Except Fatal Changes :=
  if arena.depth = 0 then .ok ((arena.layers[root]?.map Layer.changes).getD ∅)
  else .error (.layerOutOfOrder arena.top)

@[simp] theorem top_new (backend : Backend) : (new backend).top = 0 := rfl

/-! ### Operations as data -/

inductive Operation where
  | openLayer (parent : Nat)
  | commit (child : Nat)
  | abandon (keep : Nat)
  | write (layer : Nat) (address : Address) (write : Write)
  deriving DecidableEq

/-- The answer to an operation, with the index of a layer where it names one, and the arena after
it. What is refused leaves the arena as it was. -/
def perform (arena : Arena) : Operation → Except Fatal (Option Nat) × Arena
  | .openLayer parent =>
    match arena.openLayer parent with
    | .ok (child, arena) => (.ok (some child), arena)
    | .error fatal => (.error fatal, arena)
  | .commit child =>
    match arena.commit child with
    | .ok (parent, arena) => (.ok (some parent), arena)
    | .error fatal => (.error fatal, arena)
  | .abandon keep => (.ok none, arena.abandon keep)
  | .write layer address w =>
    match arena.write layer address w with
    | .ok arena => (.ok none, arena)
    | .error fatal => (.error fatal, arena)

end Arena

end ContractExec
