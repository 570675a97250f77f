import ContractExec.Proofs.FirstFatal

/-!
# The layers of active frames

The current layer is moved where a scope is opened, where it is merged and where it is rolled back, and
layers come and go at other places. Some ways to leave a scope move neither: a fatal may leave layers
open above that of the frame which goes on. So the layer of a frame need not be the top one while its code
runs. But it lies below all layers that were opened after it, and nothing that happens above a layer
takes it away.

* `Moment.frames` — the active frames, the innermost one first;
* `Reached.descending` — **each active frame lies above all that wait for it**;
* `Moment.OnTop`, `current_on_top` — **the current layer is the top one whenever anyone has control**, and
  all layers that are read are live.
-/

namespace ContractExec

variable {ν : Type}

namespace Moment

variable {μ : Moment ν} {s t : State ν} {m : Message} {scope : Scope ν} {x y : Active ν}
  {waiting : List Frame} {p p' : Program ν Outcome}

/-- The active frames at a moment, the innermost one first. -/
def frames : Moment ν → List Frame
  | idle _ => []
  | running waiting _ x => x.frame :: waiting

/-! ### Layers descend -/

/-- The layer of the frame whose code runs is live. -/
theorem Sound.layer_le_top (h : (running waiting p x).Sound) : x.frame.layer ≤ x.state.arena.top := by
  obtain ⟨t, hx⟩ := h
  rw [hx.layer_eq]
  exact hx.later.top_le

/-- The layers of active frames descend from the innermost frame outwards. -/
def Descending (μ : Moment ν) : Prop := (μ.frames.map Frame.layer).Pairwise (· > ·)

/-- A frame keeps its layer while it runs. -/
theorem layers_answered {nested : Applying ν} (h : x.Answered nested y) :
    (running waiting p' y).frames.map Frame.layer = (running waiting p x).frames.map Frame.layer := by
  obtain ⟨meter, nestedGas, hframe⟩ := h.frame_eq
  rw [frames, frames, hframe]
  rfl

/-- A frame that begins has a layer above that of the frame that asked for it. -/
theorem Descending.nested (h : (running waiting p x).Descending) (hsound : (running waiting p x).Sound)
    (hopens : x.state.Opens m scope t) :
    (running (x.frame :: waiting) scope.program ⟨scope.frame, t⟩).Descending := by
  have hasking : x.frame.layer < scope.frame.layer := by
    rw [hopens.layer_eq_succ hsound.state]
    exact Nat.lt_succ_of_le hsound.layer_le_top
  have hwaiting := (List.pairwise_cons.mp h).1
  refine List.pairwise_cons.mpr ⟨?_, h⟩
  intro layer hlayer
  rcases List.mem_cons.mp hlayer with rfl | hmem
  · exact hasking
  · exact Nat.lt_trans (hwaiting layer hmem) hasking

namespace Reached

/-- **Each active frame lies above all that wait for it**, at every moment. -/
theorem descending (h : μ.Reached) : μ.Descending := by
  induction h with
  | new config vm backend transaction gasLimit => exact .nil
  | applied m hs ih => exact .nil
  | entered hs henter ih => exact List.pairwise_singleton _ _
  | nested hx hissue henter ih =>
    exact ih.nested hx.sound (State.opens_of_enter hx.sound.state henter)
  | @asked waiting q next x hx ih =>
    rw [Descending, layers_answered (x.answered_answer _ q)]
    exact ih
  | noted hx ih => exact ih
  | recalled hx ih => exact ih

/-- The layer of every active frame is live, since that of the innermost one is. -/
theorem layer_le_top (h : μ.Reached) : ∀ frame ∈ μ.frames, frame.layer ≤ μ.state.arena.top := by
  cases μ with
  | idle s => nofun
  | running waiting p x =>
    have hinner := h.sound.layer_le_top
    have hbelow := (List.pairwise_cons.mp h.descending).1
    intro frame hframe
    rcases List.mem_cons.mp hframe with rfl | hwaiting
    · exact hinner
    · have hlayer := hbelow frame.layer (List.mem_map_of_mem hwaiting)
      exact Nat.le_trans (Nat.le_of_lt hlayer) hinner

end Reached

end Moment

/-! ### What a sound state offers -/

namespace State

variable {s t : State ν} {m : Message}

/-- A read at a live layer is a read at that layer and nothing that stands in for it. -/
theorem Sound.worldAt?_eq (hs : s.Sound) {layer : Nat} (hlayer : layer ≤ s.arena.top) :
    s.arena.worldAt? layer = some (s.worldAt layer) := by
  have hlive : layer < s.arena.layers.size := by rw [hs.linked.size_eq]; omega
  rw [worldAt, Arena.worldAt?_eq hs.linked, if_pos hlive]
  rfl

/-- No message is turned away for a layer. -/
theorem Sound.enter_ne (hs : s.Sound) (m : Message) (layer : Nat) (t : State ν) :
    s.enter m ≠ (.settled (.error (.layerOutOfOrder layer)), t) := by
  intro henter
  cases verdict_enter hs henter with
  | unreadable hinternal hbalance => cases effectiveBalance_eq_error hbalance

end State

/-! ### The current layer -/

/-- How a moment stands to the layers. -/
structure Moment.OnTop (μ : Moment ν) : Prop where
  current_eq : μ.state.current = μ.state.arena.top
  live : ∀ frame ∈ μ.frames,
    μ.state.arena.isLive frame.layer = true ∧ frame.layer ≤ μ.state.arena.top
  /-- A layer can be opened and written as the scope of the next message needs it. -/
  opens : ∃ opened, μ.state.arena.openLayer μ.state.current = .ok (μ.state.arena.layers.size, opened) ∧
    ∀ address, ∃ written,
      opened.write μ.state.arena.layers.size address .create = .ok written
  enters : ∀ m layer t, μ.state.enter m ≠ (.settled (.error (.layerOutOfOrder layer)), t)
  /-- What is read at the current layer is there to be read, and so is what active frames read. -/
  reads : μ.state.arena.worldAt? μ.state.current = some μ.state.world
  reads_frame : ∀ frame ∈ μ.frames,
    μ.state.arena.worldAt? frame.layer = some (μ.state.worldAt frame.layer)

/-- **The current layer is always the top one.** At every moment of a transaction, while code runs at any
depth and in between, with any machine, one that drops fatals too, and after messages that ended in
fatals: the current layer is the top one, and the layer of every active frame is live and not above it. So
a message can always open its layer and create its account there, and no read meets a layer that is not
live. -/
theorem current_on_top {μ : Moment ν} (hμ : μ.Reached) : μ.OnTop := by
  have hs : μ.state.Sound := hμ.sound.state
  exact {
    current_eq := hs.current_eq
    live := fun frame hframe =>
      ⟨(hs.linked.isLive_iff _).mpr (hμ.layer_le_top frame hframe), hμ.layer_le_top frame hframe⟩
    opens := by
      obtain ⟨opened, hopen, -, hwritable⟩ := hs.exists_opened
      refine ⟨opened, hopen, fun address => ?_⟩
      obtain ⟨written, hwrite, -⟩ := hwritable address .create
      exact ⟨written, hwrite⟩
    enters := hs.enter_ne
    reads := hs.worldAt?_eq (Nat.le_of_eq hs.current_eq)
    reads_frame := fun frame hframe => hs.worldAt?_eq (hμ.layer_le_top frame hframe) }

/-- Methods named `outer` have the first contract pay the second one, and go on whatever comes of it. -/
def heedless : Vm Empty where
  create _ _ _ := .done (.ok none)
  call method _ _ :=
    if method.name = "outer" then
      .ask (.call 1 0 ⟨"pay", []⟩ none) fun _ => .done (.ok none)
    else if method.name = "pay" then .ask (.transfer 2 1) fun _ => .done (.ok none)
    else .done (.ok none)

def heedlessState : State Empty := .new .standard heedless twoContracts 0 10000

/-- A call of the second contract, which holds the greatest amount and cannot be paid. -/
def heedlessCall : Message := ⟨3, 0, 8000, .externalCall 2 ⟨"outer", []⟩⟩

-- `outer` has dropped the fatal of its call, which has left a layer open above that of `outer`; the call
-- of `outer` then ends in a fatal itself, and leaves both
theorem current_on_top_of_outer :
    (∃ (program : Program Empty Outcome) (x : Active Empty),
      (Moment.running [] program x).Reached ∧ x.frame.layer = 1 ∧ x.state.current = 2 ∧
        (Moment.running [] program x).OnTop) ∧
    ∃ s : State Empty, (Moment.idle s).Reached ∧
      s = (heedlessState.apply heedlessCall).2 ∧
      (heedlessState.apply heedlessCall).1 = .error (.layerOutOfOrder 1) ∧ s.current = 2 ∧
      (Moment.idle s).OnTop := by
  have hstart : (Moment.idle heedlessState).Reached := .new _ _ _ _ _
  have hdropped := (hstart.entered (rfl : heedlessState.enter heedlessCall = _)).asked
  have hended := hstart.applied heedlessCall
  refine ⟨⟨_, _, hdropped, ?_, ?_, current_on_top hdropped⟩, _, hended, rfl, ?_, ?_,
    current_on_top hended⟩
  · decide +kernel
  · decide +kernel
  · decide +kernel
  · decide +kernel

end ContractExec
