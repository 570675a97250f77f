import ContractExec.Proofs.Nesting

/-!
# The moments of a transaction

Messages are applied between the runs of contract code and in the middle of them, at any depth. A
moment is either: it holds the state of the transaction and, while code runs, what is left of the
program, its frame, and the frames that wait for the answer to a nested message.

* `Moment.Reached` — the moments that a transaction can come to from its beginning, with any virtual
  machine and any messages, after failures and fatals too;
* `Moment.Reached.sound` — **at every reached moment the current layer is the top of a chain**.
-/

namespace ContractExec

variable {ν : Type}

/-- A moment of a transaction. -/
inductive Moment (ν : Type) where
  /-- No code runs. -/
  | idle (state : State ν)
  /-- A program runs in a frame while other frames wait, the innermost one first. -/
  | running (waiting : List Frame) (program : Program ν Outcome) (active : Active ν)

namespace Moment

/-- The state of the transaction at a moment. -/
def state : Moment ν → State ν
  | idle s => s
  | running _ _ x => x.state

/-- The moments that a transaction can come to. Messages are applied by `State.apply` at every depth,
which is how it applies them itself (`State.apply_eq`). -/
inductive Reached : Moment ν → Prop where
  | new (config : Config) (vm : Vm ν) (backend : Backend) (transaction : Hash) (gasLimit : Gas) :
      Reached (.idle (State.new config vm backend transaction gasLimit))
  | applied {s : State ν} (m : Message) : Reached (.idle s) → Reached (.idle (s.apply m).2)
  /-- The code of an outermost scope begins. -/
  | entered {s t : State ν} {m : Message} {scope : Scope ν} :
      Reached (.idle s) → s.enter m = (.opened scope, t) →
      Reached (.running [] scope.program ⟨scope.frame, t⟩)
  /-- The code of a scope begins that other code has asked for. -/
  | nested {waiting : List Frame} {q : Request} {next : q.Answer → Program ν Outcome}
      {x : Active ν} {t : State ν} {m : Message} {scope : Scope ν} :
      Reached (.running waiting (.ask q next) x) → x.issueOf q = some (.issued m) →
      x.state.enter m = (.opened scope, t) →
      Reached (.running (x.frame :: waiting) scope.program ⟨scope.frame, t⟩)
  | asked {waiting : List Frame} {q : Request} {next : q.Answer → Program ν Outcome}
      {x : Active ν} :
      Reached (.running waiting (.ask q next) x) →
      Reached (.running waiting (next (x.answer (fun m s => s.apply m) q).1)
        (x.answer (fun m s => s.apply m) q).2)
  | noted {waiting : List Frame} {n : ν} {next : Program ν Outcome} {x : Active ν} :
      Reached (.running waiting (.note n next) x) →
      Reached (.running waiting next { x with state := x.state.keep n })
  | recalled {waiting : List Frame} {next : List ν → Program ν Outcome} {x : Active ν} :
      Reached (.running waiting (.recollect next) x) →
      Reached (.running waiting (next x.state.journal.notes) x)

/-- What is sound about a moment: its state, and the frame in it while code runs. -/
def Sound : Moment ν → Prop
  | idle s => s.Sound
  | running _ _ x => ∃ t, x.Within t

theorem Sound.state {μ : Moment ν} (h : μ.Sound) : μ.state.Sound := by
  cases μ with
  | idle s => exact h
  | running waiting program x =>
    obtain ⟨t, hx⟩ := h
    exact hx.sound

namespace Reached

variable {μ : Moment ν}

/-- **Every reached moment is sound.** -/
theorem sound (h : μ.Reached) : μ.Sound := by
  induction h with
  | new config vm backend transaction gasLimit => exact State.sound_new _ _ _ _ _
  | applied m hs ih => exact (State.transition_apply ih m).sound
  | entered hs henter ih => exact ⟨_, (State.opens_of_enter ih henter).within⟩
  | nested hx hissue henter ih => exact ⟨_, (State.opens_of_enter ih.state henter).within⟩
  | @asked waiting q next x hx ih =>
    obtain ⟨t, hx⟩ := ih
    exact ⟨t, hx.answered State.transitions_apply (x.answered_answer _ q)⟩
  | @noted waiting n next x hx ih =>
    obtain ⟨t, hx⟩ := ih
    exact ⟨t, hx.keep n⟩
  | recalled hx ih => exact ih

end Reached

end Moment

/-! ### Small worlds -/

/-- A backend that holds nothing. -/
def noAccounts : Backend where
  block := ⟨0, 0⟩
  balance _ := 0
  accounts _ := .absent

/-- A backend of one contract at the first address, and a plain account at the second one. -/
def oneContract (contract plain : Amount) : Backend where
  block := ⟨0, 0⟩
  balance address := if address = 1 then contract else if address = 2 then plain else 0
  accounts address := if address = 1 then ⟨some [0], none, fun _ => none, true⟩ else .absent

end ContractExec
