import ContractExec.Proofs.Course
import ContractExec.Proofs.Events

/-!
# Replaying events

The events of a transaction are told at other moments than those of the changes that they tell of,
and a rollback takes back transfers without naming one of them. They are enough nevertheless to
rebuild the list of transfers: each message that is applied marks the length of the list at its depth,
and a rollback cuts the list back to the mark of the depth that its layer was opened from. A mark is
still there when it is needed, since all that a scope applies is applied deeper down.

* `Replay`, `replay` — transfers rebuilt from events, with the marks;
* `State.Marks`, `marks_apply` — what a message leaves of the replay, if nothing below it ends in a
  fatal;
* `Application.rollback?`, `rollbacks_apply` — the rollbacks that are told are those of the messages
  that failed after their code had run;
* `replay_rebuilds` — **the events rebuild the transfers, and tell of each rollback the nonce that its
  scope was entered with**.
-/

namespace ContractExec

variable {ν α : Type}

/-! ### Events over an empty list -/

/-- Transfers that are being rebuilt, and the lengths that were marked at each depth. -/
structure Replay where
  transfers : List Transfer := []
  marks : Nat → Nat := fun _ => 0

/-- Replays one event. -/
def Replay.step (r : Replay) : Event → Replay
  | .apply _ depth _ =>
    { r with marks := fun d => if d = depth then r.transfers.length else r.marks d }
  | .commit .. => r
  | .rollback layer .. => { r with transfers := r.transfers.take (r.marks (layer - 1)) }
  | .transfer t => { r with transfers := r.transfers ++ [t] }

def replay (events : List Event) : Replay := events.foldl Replay.step {}

def Event.isRollback : Event → Bool
  | .rollback .. => true
  | _ => false

namespace State

variable {s t u v : State ν} {m : Message} {scope : Scope ν} {x y : Active ν}

def replayed (s : State ν) : Replay := replay s.journal.events

/-- The rollbacks that were told. -/
def rollbacks (s : State ν) : List Event := s.journal.events.filter Event.isRollback

@[simp] theorem replayed_emit (s : State ν) (event : Event) :
    (s.emit event).replayed = s.replayed.step event := by
  rw [replayed, emit, Journal.events_event, replay, List.foldl_append]
  rfl

@[simp] theorem replayed_keep (s : State ν) (n : ν) : (s.keep n).replayed = s.replayed := by
  rw [replayed, keep, Journal.events_note]
  rfl

@[simp] theorem rollbacks_emit (s : State ν) (event : Event) :
    (s.emit event).rollbacks = s.rollbacks ++ [event].filter Event.isRollback := by
  rw [rollbacks, emit, Journal.events_event, List.filter_append]
  rfl

theorem rollbacks_emit_of_not {event : Event} (h : event.isRollback = false) (s : State ν) :
    (s.emit event).rollbacks = s.rollbacks := by
  rw [rollbacks_emit, List.filter_cons_of_neg (by rw [h]; exact Bool.false_ne_true)]
  exact List.append_nil _

@[simp] theorem rollbacks_keep (s : State ν) (n : ν) : (s.keep n).rollbacks = s.rollbacks := by
  rw [rollbacks, keep, Journal.events_note]
  rfl

theorem replayed_congr (h : u.journal = t.journal) : u.replayed = t.replayed := by
  rw [replayed, replayed, h]

theorem rollbacks_congr (h : u.journal = t.journal) : u.rollbacks = t.rollbacks := by
  rw [rollbacks, rollbacks, h]

/-! ### Marks -/

/-- The events so far rebuild the transfers. -/
def Replayed (s : State ν) : Prop := s.replayed.transfers = s.transfers

/-- The events so far rebuild the transfers, and since a message was applied its mark is the length of
the list that it was applied to. The marks of lesser depths have not changed. -/
structure Marks (s u : State ν) : Prop where
  replayed : u.Replayed
  transfers_prefix : s.transfers <+: u.transfers
  mark_eq : u.replayed.marks s.arena.depth = s.transfers.length
  below_eq : ∀ d, d < s.arena.depth → u.replayed.marks d = s.replayed.marks d

theorem marks_announce (hs : s.Replayed) (m : Message) : s.Marks (s.announce m) where
  replayed := by
    rw [Replayed, announce, replayed_emit]
    exact hs
  transfers_prefix := List.prefix_rfl
  mark_eq := by
    rw [announce, replayed_emit]
    exact (if_pos rfl).trans (congrArg List.length hs)
  below_eq := by
    intro d hd
    rw [announce, replayed_emit]
    exact if_neg (Nat.ne_of_lt hd)

namespace Marks

/-- A change that marks nothing. -/
theorem of_marks_eq (h : s.Marks u) (hmarks : v.replayed.marks = u.replayed.marks)
    (hreplayed : v.Replayed) (htransfers : s.transfers <+: v.transfers) : s.Marks v where
  replayed := hreplayed
  transfers_prefix := htransfers
  mark_eq := by
    rw [hmarks]
    exact h.mark_eq
  below_eq := by
    rw [hmarks]
    exact h.below_eq

theorem congr (h : s.Marks u) (hreplayed : v.replayed = u.replayed)
    (htransfers : v.transfers = u.transfers) : s.Marks v := by
  refine h.of_marks_eq (congrArg Replay.marks hreplayed) ?_ ?_
  · rw [Replayed, hreplayed, htransfers]
    exact h.replayed
  · rw [htransfers]
    exact h.transfers_prefix

theorem keep (h : s.Marks u) (n : ν) : s.Marks (u.keep n) := h.congr (replayed_keep u n) rfl

theorem acted (h : s.Marks x.state) (hacted : x.Acted y) : s.Marks y.state := by
  obtain ⟨arena, logs, hstate⟩ := hacted.state_eq
  rw [hstate]
  exact h.congr rfl rfl

theorem record (h : s.Marks u) (transfer : Transfer) : s.Marks (u.record transfer) := by
  have hstep : (u.record transfer).replayed = u.replayed.step (.transfer transfer) :=
    replayed_emit u _
  refine h.of_marks_eq ?_ ?_ (h.transfers_prefix.trans (List.prefix_append _ _))
  · rw [hstep]
    rfl
  · rw [Replayed, hstep]
    exact congrArg (· ++ [transfer]) h.replayed

/-- A message that is applied deeper down leaves the mark as it is. -/
theorem nested (h : s.Marks u) (hdeeper : s.arena.depth < u.arena.depth) (hbelow : u.Marks v) :
    s.Marks v where
  replayed := hbelow.replayed
  transfers_prefix := h.transfers_prefix.trans hbelow.transfers_prefix
  mark_eq := (hbelow.below_eq _ hdeeper).trans h.mark_eq
  below_eq d hd := (hbelow.below_eq d (Nat.lt_trans hd hdeeper)).trans (h.below_eq d hd)

theorem opens (h : s.Replayed) (hopens : s.Opens m scope t) : s.Marks t :=
  (marks_announce h m).congr (replayed_congr hopens.journal_eq) hopens.transfers_eq

/-- A rollback cuts the list back to what it was when the scope was opened. -/
theorem discard (h : s.Marks x.state) (hopens : s.Opens m scope t) (consumed gas : Gas) :
    s.Marks (scope.discard consumed (x.state.debit gas)) := by
  have hstep : (scope.discard consumed (x.state.debit gas)).replayed
      = x.state.replayed.step (.rollback scope.frame.layer scope.saved.nonce consumed) :=
    replayed_emit _ _
  have hlayer : scope.frame.layer - 1 = s.arena.depth := by
    rw [hopens.layer_eq, hopens.top_eq]
    rfl
  have hcut : x.state.transfers.take s.transfers.length = s.transfers :=
    (List.prefix_iff_eq_take.mp h.transfers_prefix).symm
  have htransfers : (scope.discard consumed (x.state.debit gas)).transfers = s.transfers :=
    congrArg Snapshot.transfers hopens.saved_eq
  refine h.of_marks_eq ?_ ?_ ?_
  · rw [hstep]
    rfl
  · rw [Replayed, hstep, htransfers, Replay.step, hlayer, h.mark_eq, h.replayed, hcut]
  · exact ⟨[], (List.append_nil _).trans htransfers.symm⟩

theorem merged (h : s.Marks u) (consumed : Gas) (parent : Nat) (arena : Arena) :
    s.Marks (scope.merged consumed parent arena u) := by
  have hcommitted : s.Marks
      (({ u with arena, current := parent } : State ν).emit (.commit scope.frame.layer consumed)) :=
    h.congr (replayed_emit _ _) rfl
  rw [Scope.merged]
  cases scope.transfer with
  | none => exact hcommitted
  | some transfer => exact hcommitted.record transfer

end Marks

/-! ### Messages -/

/-- A message that is settled at once may record a transfer, and tells of it. -/
theorem marks_settled {result : Except Fatal Receipt} (hs : s.Replayed)
    (hentered : s.Entered m (.settled result, t)) : s.Marks t := by
  have hannounced := marks_announce hs m
  cases hentered with
  | failed gas failure hgas => exact hannounced.congr rfl rfl
  | fatal cause => exact hannounced
  | paid target hbalance hpay haction => exact hannounced.record _

/-- However the code of a scope ends but in a fatal, leaving the scope is told as it happens. -/
theorem marks_left (h : s.Marks x.state) (hopens : s.Opens m scope t) {outcome : Outcome}
    {r : Except Fatal Receipt × State ν} (hleft : scope.Left x.frame x.state outcome r)
    (hreceipt : ∃ receipt, r.1 = .ok receipt) : s.Marks r.2 := by
  obtain ⟨receipt, hreceipt⟩ := hreceipt
  cases hleft with
  | faulted fault => exact h.discard hopens _ _
  | unaffordable returned hcan => exact h.discard hopens _ _
  | stopped cause => nomatch hreceipt
  | unreadable returned hcan => nomatch hreceipt
  | buried returned hcan hcommit => nomatch hreceipt
  | merged returned hcan hcommit =>
    have hdebited : s.Marks (x.state.debit x.frame.owed) := h.congr rfl rfl
    exact hdebited.merged _ _ _

/-- **One message.** If no message of its tree ends in a fatal, the events rebuild the transfers
afterwards if they did before. -/
theorem marks_apply (hs : s.Sound) (m : Message)
    (hreceipts : ∀ b ∈ Application.tree ⟨m, s⟩, ∃ receipt, b.result.1 = .ok receipt)
    (hreplayed : s.Replayed) : s.Marks (s.apply m).2 := by
  refine Application.induction (Q := fun a => (∀ b ∈ a.tree, ∃ receipt, b.result.1 = .ok receipt) →
    a.state.Replayed → a.state.Marks a.result.2) ?_ hs m hreceipts hreplayed
  intro s m hs ih hreceipts hreplayed
  have hreceipt := hreceipts ⟨m, s⟩ List.mem_cons_self
  have happlied := applied_apply hs m
  show s.Marks (s.apply m).2
  change ∃ receipt, (s.apply m).1 = .ok receipt at hreceipt
  generalize s.apply m = r at happlied hreceipt
  cases happlied with
  | settled henter hentered => exact marks_settled hreplayed hentered
  | @left scope t outcome x r henter hopens hrun hx hleft =>
    obtain ⟨hend, -⟩ := hopens.run_tree hs henter hrun hreceipts (J := fun x => s.Marks x.state)
      (fun _ h hacted => h.acted hacted)
      (fun {x n} hx h hissues hbelow => by
        obtain ⟨-, hdeeper, -⟩ := hopens.issued_deeper hs hx hissues
        rw [Active.state_follow]
        exact h.nested hdeeper (ih hopens hx hissues hbelow h.replayed))
      (fun n h => h.keep n) (Marks.opens hreplayed hopens)
    exact marks_left hend hopens hleft hreceipt

end State

/-! ### Rollbacks -/

/-- The rollback that is told when the scope of an application closes: its code ran, and it failed. -/
def Application.rollback? (a : Application ν) : Option Event := a.closed?.filter Event.isRollback

def Return.rollback? : Return ν → Option Event
  | .answered .. => none
  | .applied a => a.rollback?

/-- The rollbacks that are told while a message is applied. -/
def Application.rollbacks (a : Application ν) : List Event :=
  a.returns.filterMap Return.rollback?

theorem Application.rollback?_toList (a : Application ν) :
    [Return.applied a].filterMap Return.rollback? = a.rollback?.toList := rfl

/-- What answers a request tells of no rollback, but a message may that it leads to. -/
theorem Active.rollbacks_returns (x : Active ν) (q : Request) :
    (x.returns Application.returns q).filterMap Return.rollback?
      = (x.issuedBy q).toList.flatMap Application.rollbacks := by
  have hanswered : [Return.answered x q].filterMap Return.rollback? = [] := rfl
  rw [Active.returns, List.filterMap_append, hanswered, List.append_nil, List.filterMap_flatMap]
  rfl

theorem Program.rollbacks_returns (p : Program ν α) (x : Active ν) :
    (p.returns Application.returns x).filterMap Return.rollback?
      = (p.issued (fun m s => s.apply m) x).flatMap Application.rollbacks := by
  induction p generalizing x with
  | done value => rfl
  | ask q next ih =>
    rw [returns, issued, List.filterMap_append, List.flatMap_append, x.rollbacks_returns, ih]
  | note n next ih => exact ih _
  | recollect next ih => exact ih _ x

namespace Application

variable {a : Application ν}

/-- The rollback of an application is told at its end. -/
theorem filter_rollback_closing (a : Application ν) :
    a.closing.filter Event.isRollback = a.rollback?.toList := by
  have hvalue : (a.moved?.toList.map Event.transfer).filter Event.isRollback = [] := by
    cases a.moved? <;> rfl
  rw [closing, List.filter_append, hvalue, List.append_nil, rollback?, Option.toList_filter]

/-- What an application tells of tells of the rollbacks that come back with it. -/
theorem filter_rollback_told (hs : a.state.Sound) :
    a.told.filter Event.isRollback = a.rollbacks := by
  refine tree_induction (Q := fun a => a.told.filter Event.isRollback = a.rollbacks) ?_ hs
  intro a hs ih
  have hnested : (a.issued.flatMap told).filter Event.isRollback = a.issued.flatMap rollbacks := by
    rw [List.filter_flatMap, List.flatMap_def, List.flatMap_def, List.map_congr_left ih]
  rw [told_eq hs, List.filter_cons_of_neg (by exact Bool.false_ne_true), List.filter_append, hnested,
    filter_rollback_closing]
  rcases henter : a.state.enter a.message with ⟨result | scope, t⟩
  · rw [issued_settled henter, rollbacks, returns_settled hs henter, rollback?_toList]
    rfl
  · rw [rollbacks, returns_opened hs henter, List.filterMap_append, Program.rollbacks_returns,
      rollback?_toList, issued, henter]

end Application

namespace State

variable {s t : State ν} {m : Message} {scope : Scope ν} {x : Active ν}

theorem rollbacks_announce (s : State ν) (m : Message) : (s.announce m).rollbacks = s.rollbacks :=
  rollbacks_emit_of_not rfl s

/-- **One message** tells of the rollbacks of its tree, in their order. -/
theorem rollbacks_apply (hs : s.Sound) (m : Message) :
    (s.apply m).2.rollbacks = s.rollbacks ++ Application.rollbacks ⟨m, s⟩ := by
  rw [rollbacks, events_apply hs, List.filter_append]
  exact congrArg _ (Application.filter_rollback_told hs)

end State

/-! ### Whole transactions -/

namespace Moment.Course

variable {admits : Message → Prop} {start μ : Moment ν} {returns : List (Return ν)}

theorem replayed (hstart : start.Reached) (hreplayed : start.state.Replayed)
    (h : Course admits start returns μ) :
    (∀ a, .applied a ∈ returns → ∃ receipt, a.result.1 = .ok receipt) → μ.state.Replayed := by
  induction h with
  | start => exact fun _ => hreplayed
  | @applied returns s m h hadmits ih =>
    intro hreceipts
    have hs : s.Sound := (h.reached hstart).sound
    have hbefore := ih fun a ha => hreceipts a (List.mem_append_left _ ha)
    refine (State.marks_apply hs m (fun b hb => hreceipts b ?_) hbefore).replayed
    exact List.mem_append_right _ ((Application.applied_mem_returns_iff (a := ⟨m, s⟩) hs).mpr hb)
  | entered h hadmits henter ih =>
    intro hreceipts
    have hopens := State.opens_of_enter (h.reached hstart).sound.state henter
    exact (State.Marks.opens (ih hreceipts) hopens).replayed
  | nested h hissue henter ih =>
    intro hreceipts
    have hopens := State.opens_of_enter (h.reached hstart).sound.state henter
    exact (State.Marks.opens (ih hreceipts) hopens).replayed
  | @asked returns waiting q next x h ih =>
    intro hreceipts
    have hs : x.state.Sound := (h.reached hstart).sound.state
    have hbefore : x.state.Replayed := ih fun a ha => hreceipts a (List.mem_append_left _ ha)
    show (x.answer (fun m s => s.apply m) q).2.state.Replayed
    rcases x.acted_or_issued (fun m s => s.apply m) q with ⟨-, hacted⟩ | ⟨m, hmade, -, hfollow⟩
    · obtain ⟨arena, logs, hstate⟩ := hacted.state_eq
      rw [hstate]
      exact hbefore
    · rw [hfollow, Active.state_follow]
      refine (State.marks_apply hs m (fun b hb => hreceipts b ?_) hbefore).replayed
      exact List.mem_append_right _ (Active.applied_mem_returns hmade hs hb)
  | @noted returns waiting n next x h ih =>
    intro hreceipts
    show (x.state.keep n).Replayed
    rw [State.Replayed, State.replayed_keep]
    exact ih hreceipts
  | recalled h ih => exact ih

theorem rollbacks_eq (hstart : start.Reached) (h : Course admits start returns μ) :
    μ.state.rollbacks = start.state.rollbacks ++ returns.filterMap Return.rollback? := by
  induction h with
  | start => exact (List.append_nil _).symm
  | @applied returns s m h hadmits ih =>
    rw [List.filterMap_append, ← List.append_assoc, ← ih]
    exact State.rollbacks_apply (h.reached hstart).sound m
  | @entered returns s t m scope h hadmits henter ih =>
    have hopens := State.opens_of_enter (h.reached hstart).sound.state henter
    rw [← ih]
    exact (State.rollbacks_congr hopens.journal_eq).trans (State.rollbacks_announce s m)
  | @nested returns waiting q next x t m scope h hissue henter ih =>
    have hopens := State.opens_of_enter (h.reached hstart).sound.state henter
    rw [← ih]
    exact (State.rollbacks_congr hopens.journal_eq).trans (State.rollbacks_announce x.state m)
  | @asked returns waiting q next x h ih =>
    rw [List.filterMap_append, x.rollbacks_returns, ← List.append_assoc, ← ih]
    show (x.answer (fun m s => s.apply m) q).2.state.rollbacks = x.state.rollbacks ++ _
    rcases x.acted_or_issued (fun m s => s.apply m) q with ⟨hnone, hacted⟩ | ⟨m, hmade, -, hfollow⟩
    · obtain ⟨arena, logs, hstate⟩ := hacted.state_eq
      rw [hnone, hstate]
      exact (List.append_nil _).symm
    · have hs : x.state.Sound := (h.reached hstart).sound.state
      rw [hmade, hfollow, Active.state_follow, State.rollbacks_apply hs m]
      exact congrArg _ (List.append_nil _).symm
  | noted h ih => exact (State.rollbacks_keep _ _).trans ih
  | recalled h ih => exact ih

end Moment.Course

/-- **The events rebuild the transfers.** Whatever messages a new transaction applies, with any
virtual machine, as long as no message at any depth ends in a fatal: at every moment the replay of
the events over an empty list has led to the transfers of the state. And at every moment, with fatals
or without, the rollbacks that were told are those of the messages that failed after their code had
run, in their order, each with the layer of its scope and the nonce that the scope was entered with. -/
theorem replay_rebuilds {config : Config} {vm : Vm ν} {backend : Backend} {transaction : Hash}
    {gasLimit : Gas} {returns : List (Return ν)} {μ : Moment ν}
    (hcourse : Moment.Course (fun _ => True)
      (.idle (State.new config vm backend transaction gasLimit)) returns μ) :
    ((∀ a, .applied a ∈ returns → ∃ receipt, a.result.1 = .ok receipt) →
      (replay μ.state.journal.events).transfers = μ.state.transfers) ∧
    μ.state.journal.events.filter Event.isRollback = returns.filterMap Return.rollback? :=
  ⟨hcourse.replayed (.new _ _ _ _ _) rfl, hcourse.rollbacks_eq (.new _ _ _ _ _)⟩

/-- Methods named `try` send one unit to the plain account and revert. All others call the contract's
own `try`, and send five units to the plain account whatever came of it. -/
def detour : Vm Empty where
  create _ _ _ := .done (.ok none)
  call method _ _ :=
    if method.name = "try" then .ask (.transfer 2 1) fun _ => .done (.error (.fault .reverted))
    else
      .ask (.call 1 0 ⟨"try", []⟩ none) fun _ =>
        .ask (.transfer 2 5) fun _ => .done (.ok none)

def detourState : State Empty := .new .standard detour (oneContract 7 4) 0 5000

def detourCall : Message := ⟨2, 0, 4000, .externalCall 1 ⟨"go", []⟩⟩

-- both transfers are told, and the first one is taken back by the rollback of the second layer
theorem replay_rebuilds_of_detour :
    (replay (detourState.apply detourCall).2.journal.events).transfers = [⟨1, 2, 5⟩] ∧
      (detourState.apply detourCall).2.journal.events.filter Event.isRollback
        = [.rollback 2 0 1000] := by
  have hcourse : Moment.Course (fun _ => True) (.idle detourState)
      ([] ++ Application.returns ⟨detourCall, detourState⟩)
      (.idle (detourState.apply detourCall).2) := .applied .start trivial
  have hnone : fatals ([] ++ Application.returns ⟨detourCall, detourState⟩) = [] := by
    decide +kernel
  have hrebuilt := (replay_rebuilds hcourse).1 fun a ha => exists_receipt_of_mem hnone ha
  rw [Moment.state] at hrebuilt
  rw [hrebuilt]
  constructor <;> decide +kernel

end ContractExec
