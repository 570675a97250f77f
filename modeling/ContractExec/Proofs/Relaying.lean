import ContractExec.Proofs.Course

/-!
# Machines that make up no fatals

A fatal is for the whole transaction, but it comes to contract code as an answer, and the code may
drop it, or end in it and so hand it on. What it must not do is to make one up. A machine can carry
what it has received from one frame to another, so this is said of all that its code does in a
transaction.

* `Moment.External` — courses of transactions whose messages all come from outside;
* `Vm.Relays` — whenever code ends in a fatal, some operation has come back with that before;
* `Program.Relays`, `Vm.relays_of_programs` — **it is enough that each program by itself ends in a
  fatal only if it has received it**.
-/

namespace ContractExec

variable {ν : Type}

/-! ### Machines that make up no fatals -/

namespace Moment

/-- A course of a transaction from a state on, with external messages only. -/
abbrev External (start : State ν) (returns : List (Return ν)) (μ : Moment ν) : Prop :=
  Course (fun m => m.isInternal = false) (.idle start) returns μ

end Moment

/-- Whenever code ends in a fatal after a state, an operation has come back with that before. -/
def State.Relays (start : State ν) : Prop :=
  ∀ returns waiting cause x,
    Moment.External start returns (.running waiting (.done (.error (.fatal cause))) x) →
    cause ∈ fatals returns

/-- A machine that makes up no fatal in any transaction of external messages. -/
def Vm.Relays (vm : Vm ν) : Prop :=
  ∀ config backend transaction gasLimit, (State.new config vm backend transaction gasLimit).Relays

/-! ### Programs that make up no fatals -/

/-- A program ends in a fatal only if that is known, or if the program has received it. -/
def Program.Relays (known : List Fatal) : Program ν Outcome → Prop
  | done (.error (.fatal cause)) => cause ∈ known
  | done _ => True
  | ask q next => ∀ answer, (next answer).Relays ((q.fatal? answer).toList ++ known)
  | note _ next => next.Relays known
  | recollect next => ∀ notes, (next notes).Relays known

/-- The program is one that the machine makes. -/
def Vm.Makes (vm : Vm ν) (program : Program ν Outcome) : Prop :=
  (∃ code parameters typeName, program = vm.create code parameters typeName) ∨
    ∃ method code typeName, program = vm.call method code typeName

namespace State

variable {s t : State ν} {m : Message} {scope : Scope ν}

theorem makes_openCreate {code : Bytes} {parameters : List Value} {typeName : Option String}
    (h : (s.openCreate m code parameters typeName).1 = .opened scope) :
    s.vm.Makes scope.program := by
  rw [openCreate] at h
  split at h
  case isFalse => cases h
  case isTrue =>
    dsimp only at h
    split at h
    case h_1 => cases h
    case h_2 =>
      split at h
      case h_1 => cases h
      case h_2 =>
        injection h with h
        rw [← h]
        exact .inl ⟨_, _, _, rfl⟩

theorem makes_openCall {target : Address} {method : MethodCall} {code : Bytes}
    (h : (s.openCall m target method code).1 = .opened scope) : s.vm.Makes scope.program := by
  rw [openCall] at h
  split at h
  case isFalse => cases h
  case isTrue =>
    split at h
    case isFalse => cases h
    case isTrue =>
      dsimp only at h
      split at h
      case h_1 => cases h
      case h_2 =>
        injection h with h
        rw [← h]
        exact .inr ⟨_, _, _, rfl⟩

theorem makes_callCode {target : Address} {method : MethodCall}
    (h : (s.callCode m target method).1 = .opened scope) : s.vm.Makes scope.program := by
  rw [callCode] at h
  split at h
  case h_1 => cases h
  case h_2 => exact makes_openCall h

theorem makes_ifAffordable {act : State ν → Entrance ν × State ν}
    (h : (s.ifAffordable m act).1 = .opened scope)
    (hact : (act s).1 = .opened scope → s.vm.Makes scope.program) : s.vm.Makes scope.program := by
  rw [ifAffordable] at h
  split at h
  case h_1 => cases h
  case h_2 =>
    split at h
    case isTrue => cases h
    case isFalse => exact hact h

/-- The code of a scope is a program of the machine. -/
theorem makes_of_enter (henter : s.enter m = (.opened scope, t)) : s.vm.Makes scope.program := by
  have h : (s.enter m).1 = .opened scope := congrArg Prod.fst henter
  rw [enter] at h
  cases haction : m.action with
  | externalCreate code parameters typeName =>
    rw [haction] at h
    exact makes_openCreate (s := s.announce m) h
  | internalCreate parameters typeName =>
    rw [haction] at h
    dsimp only at h
    split at h
    case h_1 => cases h
    case h_2 =>
      split at h
      case isTrue => cases h
      case isFalse => exact makes_openCreate (s := s.announce m) h
  | externalCall target method =>
    rw [haction] at h
    exact makes_callCode (s := s.announce m) h
  | internalCall target method =>
    rw [haction] at h
    exact makes_ifAffordable (s := s.announce m) h makes_callCode
  | contractTransfer target =>
    rw [haction] at h
    refine makes_ifAffordable (s := s.announce m) h fun hact => ?_
    split at hact
    case h_1 => cases hact
    case h_2 => exact makes_openCall hact

end State

/-- What a course keeps of a machine of such programs: the program that runs knows only fatals that
have come back. -/
def Moment.Relaying (vm : Vm ν) (returns : List (Return ν)) : Moment ν → Prop
  | idle s => s.vm = vm
  | running _ program x => x.state.vm = vm ∧ ∃ known ⊆ fatals returns, program.Relays known

/-- **A machine makes up no fatals if its programs do not**, each by itself. -/
theorem Vm.relays_of_programs {vm : Vm ν} (h : ∀ program, vm.Makes program → program.Relays []) :
    vm.Relays := by
  intro config backend transaction gasLimit returns waiting cause x hcourse
  have hnew : (Moment.idle (State.new config vm backend transaction gasLimit)).Reached :=
    .new _ _ _ _ _
  suffices hall : ∀ returns μ,
      Moment.External (State.new config vm backend transaction gasLimit) returns μ →
      μ.Relaying vm returns by
    obtain ⟨-, known, hsub, hmem⟩ := hall _ _ hcourse
    exact hsub hmem
  intro returns μ hcourse
  induction hcourse with
  | start => rfl
  | @applied returns s m hbefore hadmits ih =>
    have hlater := (State.transition_apply (hbefore.reached hnew).sound m).later
    exact hlater.vm_eq.trans ih
  | entered hbefore hadmits henter ih =>
    have hopens := State.opens_of_enter (hbefore.reached hnew).sound henter
    have hmakes := State.makes_of_enter henter
    rw [show _ = vm from ih] at hmakes
    exact ⟨hopens.continues.vm_eq.trans ih, [], List.nil_subset _, h _ hmakes⟩
  | nested hbefore hissue henter ih =>
    have hopens := State.opens_of_enter (hbefore.reached hnew).sound.state henter
    have hmakes := State.makes_of_enter henter
    rw [ih.1] at hmakes
    exact ⟨hopens.continues.vm_eq.trans ih.1, [], List.nil_subset _, h _ hmakes⟩
  | @asked returns waiting q next x hbefore ih =>
    obtain ⟨hvm, known, hsub, hrelays⟩ := ih
    obtain ⟨t, hx⟩ := (hbefore.reached hnew).sound
    have hanswered := hx.answered State.transitions_apply (x.answered_answer _ q)
    refine ⟨(hanswered.later.vm_eq.trans hx.later.vm_eq.symm).trans hvm, _, ?_, hrelays _⟩
    intro cause hcause
    rw [fatals_append, List.mem_append]
    rcases List.mem_append.mp hcause with hreceived | hknown
    · have hanswer : .answered x q ∈ x.returns Application.returns q :=
        List.mem_append_right _ (List.mem_singleton_self _)
      exact .inr (List.mem_filterMap.mpr ⟨_, hanswer, Option.mem_toList.mp hreceived⟩)
    · exact .inl (hsub hknown)
  | noted hbefore ih => exact ih
  | recalled hbefore ih => exact ⟨ih.1, ih.2.imp fun known hknown => ⟨hknown.1, hknown.2 _⟩⟩

end ContractExec
