import ContractExec.Proofs.Application

/-!
# The events of messages

All events of a transaction are known from its applications. Each tells of itself when it begins, then
come the events of those that its code makes, and at the end the closing of its scope and the value
that it moved. A scope that is left in a fatal closes without an event.

* `Application.closed?`, `Application.moved?`, `Application.told` — what an application tells of;
* `events_apply` — **the events of a message are those of its tree**;
* `layer_of_mem_told`, `filter_layer_told` — only an application itself tells of the layer that it opened.
-/

namespace ContractExec

variable {ν : Type}

/-- The layer of which an event tells that it was merged or discarded. -/
def Event.layer? : Event → Option Nat
  | .commit layer _ => some layer
  | .rollback layer .. => some layer
  | _ => none

/-! ### What an application tells of -/

namespace Application

/-- What is told when the scope of an application closes, if it had one. The layer of the scope lay
right above those of the state. -/
def closed? (a : Application ν) : Option Event :=
  (a.state.ending a.message).bind fun _ =>
    match a.result.1 with
    | .ok (.succeeded gas ..) => some (.commit (a.state.arena.depth + 1) gas)
    | .ok (.failed gas _) => some (.rollback (a.state.arena.depth + 1) a.state.nonce gas)
    | .error _ => none

/-- The value that an application has moved itself. -/
def moved? (a : Application ν) : Option Transfer :=
  match a.result.1 with
  | .ok (.succeeded _ contract _) => State.transferOf a.message contract
  | _ => none

/-- What is told at the end of an application. -/
def closing (a : Application ν) : List Event := a.closed?.toList ++ a.moved?.toList.map .transfer

/-- What an application tells of, given what those do that its code makes. -/
def toldWith (below : Application ν → List Event) (a : Application ν) : List Event :=
  .apply a.message a.state.arena.depth a.state.gasRemaining ::
    (a.issued.flatMap below ++ a.closing)

/-- What an application tells of, with all below it. -/
def told (a : Application ν) : List Event := collect toldWith a

variable {a : Application ν}

theorem toldWith_congr {below below' : Application ν → List Event}
    (h : ∀ b ∈ a.issued, below b = below' b) : a.toldWith below = a.toldWith below' := by
  rw [toldWith, toldWith, List.flatMap_def, List.flatMap_def, List.map_congr_left h]

theorem told_eq (hs : a.state.Sound) : a.told
    = .apply a.message a.state.arena.depth a.state.gasRemaining ::
      (a.issued.flatMap told ++ a.closing) :=
  collect_eq toldWith_congr hs

end Application

/-! ### Messages -/

namespace State

variable {s t : State ν} {m : Message} {scope : Scope ν} {x : Active ν}

theorem events_record (s : State ν) (transfer : Transfer) :
    (s.record transfer).journal.events = s.journal.events ++ [.transfer transfer] :=
  Journal.events_event _ _

theorem events_announce (s : State ν) (m : Message) : (s.announce m).journal.events
    = s.journal.events ++ [.apply m s.arena.depth s.gasRemaining] :=
  Journal.events_event _ _

/-- A message that is settled at once tells of itself and of the value that it moved. -/
theorem events_settled (hs : s.Sound) {result : Except Fatal Receipt}
    (henter : s.enter m = (.settled result, t)) (hentered : s.Entered m (.settled result, t)) :
    t.journal.events = (s.announce m).journal.events ++ Application.closing ⟨m, s⟩ := by
  have hresult : Application.result ⟨m, s⟩ = (result, t) := apply_settled hs henter
  have hclosed : Application.closed? ⟨m, s⟩ = none := by
    rw [Application.closed?, ending_settled henter]
    rfl
  rw [Application.closing, hclosed, Application.moved?, hresult]
  cases hentered with
  | failed gas failure hgas => exact (List.append_nil _).symm
  | fatal cause => exact (List.append_nil _).symm
  | paid target hbalance hpay haction =>
    have hinternal : m.isInternal = true := congrArg Action.isInternal haction
    have hmoved : transferOf m target = some ⟨m.sender, target, m.amount⟩ := if_pos hinternal
    dsimp only
    rw [events_record, hmoved]
    rfl

/-- What is told when a scope is left. -/
theorem events_left (hs : s.Sound) (hopens : s.Opens m scope t) {outcome : Outcome}
    (hending : s.ending m = some (scope, outcome, x))
    (hleft : scope.Left x.frame x.state outcome (s.apply m)) :
    (s.apply m).2.journal.events = x.state.journal.events ++ Application.closing ⟨m, s⟩ := by
  have hlayer := hopens.layer_eq_succ hs
  have hnonce : scope.saved.nonce = s.nonce := congrArg Snapshot.nonce hopens.saved_eq
  rw [Application.closing, Application.closed?, hending, Application.moved?, Application.result]
  rw [← hlayer, ← hnonce]
  generalize s.apply m = r at hleft
  cases hleft with
  | faulted fault => exact Journal.events_event _ _
  | unaffordable returned hcan => exact Journal.events_event _ _
  | stopped cause => exact (List.append_nil _).symm
  | unreadable returned hcan => exact (List.append_nil _).symm
  | buried returned hcan hcommit => exact (List.append_nil _).symm
  | @merged returned parent arena hcan hcommit =>
    have hcommitted : (({ x.state.debit x.frame.owed with arena, current := parent } :
        State ν).emit (.commit scope.frame.layer x.frame.meter.consumed)).journal.events
        = x.state.journal.events ++ [.commit scope.frame.layer x.frame.meter.consumed] :=
      Journal.events_event _ _
    dsimp only [Option.bind_some]
    rw [← hopens.transfer_eq, Scope.merged]
    cases scope.transfer with
    | none => exact hcommitted
    | some transfer =>
      dsimp only
      rw [events_record, hcommitted, List.append_assoc]
      rfl

/-- **The events of a message are those of its tree**, in their order. -/
theorem events_apply (hs : s.Sound) (m : Message) :
    (s.apply m).2.journal.events = s.journal.events ++ Application.told ⟨m, s⟩ := by
  refine Application.induction
    (Q := fun a => a.result.2.journal.events = a.state.journal.events ++ a.told) ?_ hs m
  intro s m hs ih
  have happlied := applied_apply hs m
  show (s.apply m).2.journal.events = s.journal.events ++ Application.told ⟨m, s⟩
  rw [Application.told_eq hs, List.append_cons]
  generalize hr : s.apply m = r at happlied
  cases happlied with
  | settled henter hentered =>
    rw [events_settled hs henter hentered, Application.issued_settled henter, events_announce]
    rfl
  | @left scope t outcome x _ henter hopens hrun hx hleft =>
    have hending : s.ending m = some (scope, outcome, x) := by
      rw [ending_opened henter, hrun]
    have hcode : x.state.journal.events = (s.announce m).journal.events
        ++ (Application.issued ⟨m, s⟩).flatMap Application.told := by
      refine hopens.run_issued henter hrun
        (J := fun l x => x.state.journal.events
          = (s.announce m).journal.events ++ l.flatMap Application.told)
        (fun {l x y} _ h hacted => ?_) (fun {l x n} hx h hissues => ?_) (fun n h => ?_) ?_
      · obtain ⟨arena, logs, hstate⟩ := hacted.state_eq
        rw [hstate]
        exact h
      · rw [Active.state_follow, List.flatMap_append, List.flatMap_singleton, ← List.append_assoc,
          ← h]
        exact ih hopens hx hissues
      · exact (Journal.events_note _ n).trans h
      · rw [List.flatMap_nil, List.append_nil, hopens.journal_eq]
    rw [← hr] at hleft
    rw [← hr, events_left hs hopens hending hleft, hcode, events_announce, List.append_assoc]

end State

/-! ### Layers -/

namespace Application

variable {a b : Application ν}

/-- An application closes the layer right above those of its state. -/
theorem layer_of_closed {e : Event} (h : a.closed? = some e) :
    e.layer? = some (a.state.arena.depth + 1) := by
  obtain ⟨-, -, h⟩ := Option.bind_eq_some_iff.mp h
  split at h
  case h_1 =>
    rw [← Option.some.inj h]
    rfl
  case h_2 =>
    rw [← Option.some.inj h]
    rfl
  case h_3 => cases h

/-- What is told while an application goes on is of layers above those of its state. -/
theorem layer_of_mem_told (hs : a.state.Sound) : ∀ e ∈ a.told, ∀ layer, e.layer? = some layer →
    a.state.arena.depth < layer := by
  refine tree_induction (Q := fun a => ∀ e ∈ a.told, ∀ layer, e.layer? = some layer →
    a.state.arena.depth < layer) ?_ hs
  intro a hs ih e he layer hlayer
  rw [told_eq hs, List.mem_cons, List.mem_append, List.mem_flatMap] at he
  rcases he with rfl | ⟨b, hb, hbelow⟩ | hclosing
  · cases hlayer
  · obtain ⟨-, -, hdeeper, -⟩ := of_mem_issued hs hb
    exact Nat.lt_trans hdeeper (ih b hb e hbelow layer hlayer)
  · rw [closing, List.mem_append, Option.mem_toList, List.mem_map] at hclosing
    rcases hclosing with hclosed | ⟨t, -, rfl⟩
    · rw [layer_of_closed hclosed] at hlayer
      rw [← Option.some.inj hlayer]
      exact Nat.lt_succ_self _
    · cases hlayer

/-- **Only an application itself tells of the layer that it opened.** -/
theorem filter_layer_told (hs : a.state.Sound) :
    a.told.filter (fun e => e.layer? = some (a.state.arena.depth + 1)) = a.closed?.toList := by
  have hnested : (a.issued.flatMap told).filter
      (fun e => e.layer? = some (a.state.arena.depth + 1)) = [] := by
    refine List.filter_eq_nil_iff.mpr fun e he hlayer => ?_
    obtain ⟨b, hb, hbelow⟩ := List.mem_flatMap.mp he
    obtain ⟨hsound, -, hdeeper, -⟩ := of_mem_issued hs hb
    have habove := layer_of_mem_told hsound e hbelow _ (of_decide_eq_true hlayer)
    omega
  have hvalue : (a.moved?.toList.map Event.transfer).filter
      (fun e => e.layer? = some (a.state.arena.depth + 1)) = [] := by
    cases a.moved? <;> rfl
  have hown : a.closed?.toList.filter
      (fun e => e.layer? = some (a.state.arena.depth + 1)) = a.closed?.toList := by
    cases hclosed : a.closed? with
    | none => rfl
    | some e => exact List.filter_cons_of_pos (decide_eq_true (layer_of_closed hclosed))
  rw [told_eq hs, List.filter_cons_of_neg (by exact Bool.false_ne_true), List.filter_append, hnested,
    closing, List.filter_append, hvalue, hown, List.nil_append, List.append_nil]

end Application

end ContractExec
