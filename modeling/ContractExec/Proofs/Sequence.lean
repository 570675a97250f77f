import ContractExec.Proofs.Commit

/-!
# Messages in turn

A transaction applies one message after the other, and goes on while each ends with a receipt. In
between no scope is open, so it can finish then, with what is read at the root.

* `State.applyAll` — messages in turn, from one receipt to the next; `State.applications` — the
  applications in turn;
* `applyAll_keeps` — **what every message with a receipt keeps, they keep together**;
* `State.Between`, `between_applyAll` — what is true of the state after each message;
* `Between.exists_finish` — **such a transaction finishes**.
-/

namespace ContractExec

variable {ν : Type}

namespace State

/-- Applies messages in turn, while each of them ends with a receipt. -/
def applyAll (s : State ν) : List Message → Option (State ν)
  | [] => some s
  | m :: rest =>
    match s.apply m with
    | (.ok _, t) => t.applyAll rest
    | (.error _, _) => none

/-- The applications of messages in turn, each in the state that the one before it has left. -/
def applications (s : State ν) : List Message → List (Application ν)
  | [] => []
  | m :: rest => ⟨m, s⟩ :: applications (s.apply m).2 rest

/-- **What every message with a receipt keeps, they keep together.** -/
theorem applyAll_keeps {P : State ν → Prop}
    (hstep : ∀ {s t : State ν} {m : Message} {receipt : Receipt},
      P s → s.apply m = (.ok receipt, t) → P t)
    {s t : State ν} {messages : List Message} (hs : P s) (h : s.applyAll messages = some t) :
    P t := by
  induction messages generalizing s with
  | nil =>
    injection h with hsame
    rw [← hsame]
    exact hs
  | cons m rest ih =>
    rw [applyAll] at h
    split at h
    case h_1 happly => exact ih (hstep hs happly) h
    case h_2 => nomatch h

/-- What is true before and after each message: the moment is reached, and only the root of the
layers over the backend is open. -/
structure Between (backend : Backend) (s : State ν) : Prop where
  reached : (Moment.idle s).Reached
  depth_eq : s.arena.depth = 0
  backend_eq : s.arena.backend = backend

variable {backend : Backend} {s t : State ν} {m : Message}

/-- A message that ends with a receipt leaves as many layers open as there were. -/
theorem depth_apply (hs : s.Sound) {receipt : Receipt}
    (h : (s.apply m).1 = .ok receipt) : (s.apply m).2.arena.depth = s.arena.depth := by
  cases receipt with
  | succeeded gas contract returned => exact (Application.commits_apply hs h).depth_eq
  | failed gas failure => rw [((transition_apply hs m).recovered h).arena_eq]

namespace Between

theorem apply (hs : s.Between backend) {receipt : Receipt}
    (h : s.apply m = (.ok receipt, t)) : t.Between backend := by
  have htransition := transition_apply hs.reached.sound m
  have hdepth := depth_apply (m := m) hs.reached.sound (congrArg Prod.fst h)
  have hreached := Moment.Reached.applied m hs.reached
  rw [h] at htransition hdepth hreached
  exact ⟨hreached, hdepth.trans hs.depth_eq,
    htransition.later.below.backend.trans hs.backend_eq⟩

/-- **Between messages a transaction can finish**, with what is read at the root. -/
theorem exists_finish (hs : s.Between backend) :
    ∃ changes, s.finish = .ok ⟨changes, s.logs, s.transfers⟩ ∧
      s.arena.layers[Arena.root]? = some ⟨none, changes⟩ ∧
      s.world = changes.overlay backend.accounts := by
  have hsound : s.Sound := hs.reached.sound
  obtain ⟨changes, hfinish, hroot, hworld⟩ := Arena.finish_linked hsound.linked hs.depth_eq
  refine ⟨changes, ?_, hroot, ?_⟩
  · rw [finish, hfinish]
  · rw [hsound.world_eq, hworld, hs.backend_eq]

end Between

theorem between_new (config : Config) (vm : Vm ν) (backend : Backend) (transaction : Hash)
    (gasLimit : Gas) : (State.new config vm backend transaction gasLimit).Between backend :=
  ⟨.new config vm backend transaction gasLimit, rfl, rfl⟩

theorem between_applyAll {config : Config} {vm : Vm ν} {transaction : Hash} {gasLimit : Gas}
    {messages : List Message}
    (h : (State.new config vm backend transaction gasLimit).applyAll messages = some s) :
    s.Between backend :=
  applyAll_keeps (P := Between backend) (fun hs happly => hs.apply happly)
    (between_new config vm backend transaction gasLimit) h

end State

end ContractExec
