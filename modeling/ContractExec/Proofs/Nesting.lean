import ContractExec.Proofs.Run
import ContractExec.Proofs.Scope

/-!
# Messages within messages

Code that runs in a scope applies further messages, whose code applies further ones. What one level
of this keeps is proved once for any way to apply the messages below it, and then holds at every
level by induction on the number of levels.

* `Active.Within` — the invariant of a frame while its code runs;
* `State.Closed`, `Opens.closed` — what leaving a scope makes of the state that it was opened in;
* `State.Transition`, `transition_applyWith` — **one level keeps states sound, changes nothing below
  the top layer, and recovers the state it began in when it fails**;
* `applyWithin_induction` — from one level to all of them;
* `apply_eq` — **the call stack limit never cuts a run short**: applying a message is entering it,
  running its code with every nested message applied in the same way, and leaving.
-/

namespace ContractExec

variable {ν : Type}

/-- While the code of a scope runs, its frame has the layer that the scope began with, and the state
has only gone on from there. -/
structure Active.Within (t : State ν) (x : Active ν) : Prop where
  sound : x.state.Sound
  later : t.Later x.state
  layer_eq : x.frame.layer = t.arena.top
  depth_eq : x.frame.depth = t.arena.depth

namespace State

/-- What every application of a message keeps. -/
structure Transition (s : State ν) (r : Except Fatal Receipt × State ν) : Prop where
  sound : r.2.Sound
  later : s.Later r.2
  recovered : ∀ {gas failure}, r.1 = .ok (.failed gas failure) → s.Recovered r.2

theorem Recovered.transition {s : State ν} {r : Except Fatal Receipt × State ν}
    (h : s.Recovered r.2) (hs : s.Sound) : s.Transition r :=
  ⟨h.sound hs, h.later, fun _ => h⟩

end State

/-- A way to apply messages of which every application is a transition. -/
def Applying.Transitions (nested : Applying ν) : Prop :=
  ∀ (m : Message) (s : State ν), s.Sound → s.Transition (nested m s)

open State

variable {nested : Applying ν} {s t : State ν} {x y : Active ν} {m : Message} {scope : Scope ν}

/-! ### While code runs -/

namespace Active

theorem Within.keep (h : x.Within t) (n : ν) : Within t { x with state := x.state.keep n } :=
  ⟨⟨h.sound.linked, h.sound.current_eq⟩, { h.later with }, h.layer_eq, h.depth_eq⟩

/-- Paying leaves the state alone, and the layer of the frame. -/
theorem Within.paid (h : x.Within t) (hpaid : x.Paid y) : y.Within t := by
  obtain ⟨meter, hframe⟩ := hpaid.frame_eq
  refine ⟨?_, ?_, ?_, ?_⟩
  · rw [hpaid.state_eq]
    exact h.sound
  · rw [hpaid.state_eq]
    exact h.later
  · rw [hframe]
    exact h.layer_eq
  · rw [hframe]
    exact h.depth_eq

/-- Nothing that code asks for leads out of its scope. -/
theorem Within.answered (hnested : nested.Transitions) (h : x.Within t)
    (hanswered : x.Answered nested y) : y.Within t := by
  cases hanswered with
  | paid hpaid => exact h.paid hpaid
  | @written y arena w hpaid hwrite =>
    have hy := h.paid hpaid
    -- a write that was accepted went to the top layer
    obtain ⟨-, hlinked, hsize, hbelow, -⟩ := hy.sound.linked.of_write hwrite
    have hlater : Later y.state { y.state with arena } :=
      ⟨⟨rfl, rfl, rfl, rfl, UInt64.le_refl _, hbelow⟩, Nat.le_of_eq hsize.symm⟩
    refine ⟨⟨hlinked, ?_⟩, hy.later.trans hlater, hy.layer_eq, hy.depth_eq⟩
    show y.state.current = arena.top
    rw [hy.sound.current_eq, Arena.top, Arena.top, hsize]
  | logged log hpaid =>
    have hy := h.paid hpaid
    exact ⟨⟨hy.sound.linked, hy.sound.current_eq⟩, { hy.later with }, hy.layer_eq, hy.depth_eq⟩
  | @fatal m cause u hissues happlied
  | @applied m receipt u hissues happlied =>
    have htransition := hnested m x.state h.sound
    rw [happlied] at htransition
    exact ⟨htransition.sound, h.later.trans htransition.later, h.layer_eq, h.depth_eq⟩

/-- Acting opens and closes no layer. -/
theorem Acted.size_eq (hx : x.state.Sound) (hacted : x.Acted y) :
    y.state.arena.layers.size = x.state.arena.layers.size := by
  cases hacted with
  | paid hpaid => rw [hpaid.state_eq]
  | @logged z log hpaid =>
    show z.state.arena.layers.size = _
    rw [hpaid.state_eq]
  | written hpaid hmay hwrite =>
    rw [hpaid.state_eq] at hwrite
    obtain ⟨-, -, hsize, -⟩ := hx.linked.of_write hwrite
    exact hsize

end Active

namespace State

namespace Opens

theorem top_eq (h : s.Opens m scope t) : t.arena.top = s.arena.layers.size := by
  rw [Arena.top, h.size_eq]
  rfl

/-- A frame begins within its own scope. -/
theorem within (h : s.Opens m scope t) : Active.Within t ⟨scope.frame, t⟩ :=
  ⟨h.sound, .refl t, h.layer_eq, h.depth_eq⟩

/-- The code of a scope ends within it. -/
theorem within_run (h : s.Opens m scope t) (hnested : nested.Transitions) :
    (scope.program.run nested ⟨scope.frame, t⟩).2.Within t :=
  Program.run_keeps (fun hx => hx.answered hnested) (fun n hx => hx.keep n) _ h.within

/-- All layers of the state that a scope was opened in are there while its code runs. -/
theorem continues_within (h : s.Opens m scope t) (hx : x.Within t) :
    Continues s.arena.layers.size s x.state :=
  h.continues.trans (hx.later.toContinues.mono (Nat.le_of_eq h.top_eq.symm))

theorem depth_eq_succ (h : s.Opens m scope t) (hs : s.Sound) :
    t.arena.depth = s.arena.depth + 1 := by
  rw [Arena.depth, h.size_eq, Arena.depth, hs.linked.size_eq]
  rfl

/-- The layer of a scope lies right above those that were there. -/
theorem layer_eq_succ (h : s.Opens m scope t) (hs : s.Sound) :
    scope.frame.layer = s.arena.depth + 1 := by
  rw [h.layer_eq, h.top_eq, hs.linked.size_eq]
  rfl

/-- What the code of a scope issues is applied deeper down, and there is a level left for it. -/
theorem issued_deeper (h : s.Opens m scope t) (hs : s.Sound) (hx : x.Within t) {n : Message}
    (hissues : x.Issues n) :
    x.state.config = s.config ∧ s.arena.depth < x.state.arena.depth ∧
      s.arena.depth + 1 < s.config.callStackLimit.toNat := by
  have hconfig : x.state.config = s.config := hx.later.config_eq.trans h.continues.config_eq
  have hopened := h.depth_eq_succ hs
  have hdepth : t.arena.depth ≤ x.state.arena.depth := hx.later.top_le
  have hlimit := hissues.tooDeep_eq_false
  rw [Active.tooDeep, decide_eq_false_iff_not, hconfig, hx.depth_eq, hopened] at hlimit
  exact ⟨hconfig, by omega, by omega⟩

/-! ### When code has ended -/

/-- Rolling back recovers the state that the scope was opened in, whatever was done in it. -/
theorem recovered_rollback (h : s.Opens m scope t) (hs : s.Sound) (hx : x.Within t) (gas : Gas) :
    s.Recovered ((x.state.debit gas).rollback scope.saved) := by
  have hdebit : Continues s.arena.layers.size x.state (x.state.debit gas) :=
    ⟨rfl, rfl, rfl, rfl, gasRemaining_debit_le _ _, .refl _ _⟩
  rw [h.saved_eq]
  exact State.recovered_rollback hs ((h.continues_within hx).trans hdebit)

theorem recovered_discard (h : s.Opens m scope t) (hs : s.Sound) (hx : x.Within t)
    (consumed gas : Gas) : s.Recovered (scope.discard consumed (x.state.debit gas)) := by
  obtain ⟨hgas, heq⟩ := h.recovered_rollback hs hx gas
  refine ⟨hgas, ?_⟩
  rw [Scope.discard, heq]
  rfl

/-- The layer of a scope can be committed once it is the top one again. -/
theorem exists_commit (h : s.Opens m scope t) (hs : s.Sound) (hx : x.Within t)
    (htop : scope.frame.layer = x.state.arena.top) :
    ∃ arena, x.state.arena.commit scope.frame.layer = .ok (s.arena.top, arena) ∧ arena.Linked ∧
      arena.layers.size = s.arena.layers.size ∧ Arena.SameBelow s.arena.top s.arena arena := by
  have hlayer : scope.frame.layer = s.arena.top + 1 := by
    rw [h.layer_eq, h.top_eq, hs.linked.size_eq]
  have hsize : x.state.arena.layers.size = s.arena.top + 2 := by
    rw [hx.sound.linked.size_eq, ← htop, hlayer]
  obtain ⟨arena, hcommit, hlinked, hmerged, hbelow, -⟩ := hx.sound.linked.commit hsize
  have hkept := (h.continues_within hx).below.mono (Nat.sub_le _ 1)
  exact ⟨arena, by rw [hlayer, hcommit], hlinked, by rw [hmerged, hs.linked.size_eq],
    hkept.trans hbelow⟩

end Opens

/-- What leaving a scope makes of a state: the one that the scope was opened in is recovered, or the
scope stays open in a fatal, or its layer is merged into the one below it. -/
inductive Closed (s : State ν) (scope : Scope ν) (frame : Frame) (u : State ν) :
    Outcome → Except Fatal Receipt × State ν → Prop where
  | recovered {outcome : Outcome} {r : Except Fatal Receipt × State ν} :
      s.Recovered r.2 → (∀ gas contract returned, r.1 ≠ .ok (.succeeded gas contract returned)) →
      Closed s scope frame u outcome r
  | stuck (returned : Option Value) (cause : Fatal) :
      Closed s scope frame u (.ok returned) (.error cause, u.debit frame.owed)
  | merged (returned : Option Value) {arena : Arena} :
      scope.canPay u = .ok true → u.arena.commit scope.frame.layer = .ok (s.arena.top, arena) →
      arena.Linked → arena.layers.size = s.arena.layers.size →
      Arena.SameBelow s.arena.top s.arena arena →
      Closed s scope frame u (.ok returned)
        (.ok (.succeeded frame.meter.consumed scope.contract returned),
          scope.merged frame.meter.consumed s.arena.top arena (u.debit frame.owed))

/-- The nonce is restored, or it stays where the code has brought it. -/
theorem Closed.nonce_cases {u : State ν} {frame : Frame} {outcome : Outcome}
    {r : Except Fatal Receipt × State ν} (h : Closed s scope frame u outcome r) :
    r.2.nonce = s.nonce ∨ r.2.nonce = u.nonce := by
  cases h with
  | recovered hrecovered hfailed =>
    rw [hrecovered.2]
    exact .inl rfl
  | stuck returned cause => exact .inr rfl
  | merged returned hcan hcommit hlinked hsize hbelow =>
    rw [Scope.merged_eq]
    exact .inr rfl

/-- However the code of a scope ends, the scope is rolled back, stays open or is merged. -/
theorem Opens.closed (h : s.Opens m scope t) (hs : s.Sound) (hx : x.Within t) {outcome : Outcome}
    {frame : Frame} {r : Except Fatal Receipt × State ν}
    (hleft : scope.Left frame x.state outcome r) : Closed s scope frame x.state outcome r := by
  cases hleft with
  | faulted fault => exact .recovered (h.recovered_discard hs hx _ _) nofun
  | unaffordable returned hcan => exact .recovered (h.recovered_discard hs hx _ _) nofun
  | stopped cause => exact .recovered (h.recovered_rollback hs hx _) nofun
  | unreadable returned hcan => exact .stuck returned _
  | buried returned hcan hcommit => exact .stuck returned _
  | merged returned hcan hcommit =>
    have htop := Arena.top_of_commit hcommit
    obtain ⟨merged, hmerge, hlinked, hsize, hbelow⟩ := h.exists_commit hs hx htop
    have hsame := hmerge
    rw [hcommit] at hsame
    injection hsame with hsame
    injection hsame with hparent harena
    subst hparent harena
    exact .merged returned hcan hmerge hlinked hsize hbelow

/-- However the code of a scope ends, leaving it is a transition. -/
theorem Opens.transition (h : s.Opens m scope t) (hs : s.Sound) (hx : x.Within t)
    {outcome : Outcome} {frame : Frame} {r : Except Fatal Receipt × State ν}
    (hleft : scope.Left frame x.state outcome r) : s.Transition r := by
  have hdebit : Later x.state (x.state.debit frame.owed) :=
    ⟨⟨rfl, rfl, rfl, rfl, gasRemaining_debit_le _ _, .refl _ _⟩, Nat.le_refl _⟩
  have hkept := h.continues_within hx
  have hlater : Later s x.state :=
    ⟨hkept.mono (Nat.sub_le _ 1), hkept.below.le_size (Nat.le_refl _)⟩
  cases h.closed hs hx hleft with
  | recovered hrecovered hfailed => exact hrecovered.transition hs
  | stuck returned cause =>
    exact ⟨⟨hx.sound.linked, hx.sound.current_eq⟩, hlater.trans hdebit, nofun⟩
  | merged returned hcan hcommit hlinked hsize hbelow =>
    rw [Scope.merged_eq]
    refine ⟨⟨hlinked, ?_⟩, ⟨⟨?_, ?_, ?_, ?_, ?_, hbelow⟩, Nat.le_of_eq hsize.symm⟩, nofun⟩
    · exact congrArg (· - 1) hsize.symm
    · exact hlater.config_eq
    · exact hlater.vm_eq
    · exact hlater.block_eq
    · exact hlater.transaction_eq
    · exact (hlater.trans hdebit).gas_le

/-! ### One level -/

/-- A message that opens no scope. -/
theorem transition_settled (hs : s.Sound) {result : Except Fatal Receipt}
    (h : s.Entered m (.settled result, t)) : s.Transition (result, t) := by
  cases h with
  | failed gas failure =>
    have hrecovered : s.Recovered ((s.announce m).debit gas) :=
      ⟨gasRemaining_debit_le _ _, rfl⟩
    exact hrecovered.transition hs
  | fatal cause =>
    have hrecovered : s.Recovered (s.announce m) := ⟨UInt64.le_refl _, rfl⟩
    exact hrecovered.transition hs
  | paid target hbalance hpay =>
    exact ⟨⟨hs.linked, hs.current_eq⟩, { Later.refl s with }, nofun⟩

theorem applyWith_settled {result : Except Fatal Receipt} (h : s.enter m = (.settled result, t)) :
    applyWith nested m s = (result, t) := by
  rw [applyWith, h]

theorem applyWith_opened (h : s.enter m = (.opened scope, t)) :
    applyWith nested m s
      = scope.leave (scope.program.run nested ⟨scope.frame, t⟩).1
          (scope.program.run nested ⟨scope.frame, t⟩).2.frame
          (scope.program.run nested ⟨scope.frame, t⟩).2.state := by
  rw [applyWith, h]

theorem opens_of_enter (hs : s.Sound) (h : s.enter m = (.opened scope, t)) : s.Opens m scope t := by
  have hentered := entered_enter hs m
  rw [h] at hentered
  cases hentered with
  | opened hopens => exact hopens

/-- **One level of messages.** If the messages below are applied by transitions, so is this one. -/
theorem transition_applyWith (hnested : nested.Transitions) (hs : s.Sound)
    (m : Message) : s.Transition (applyWith nested m s) := by
  rcases henter : s.enter m with ⟨result | scope, t⟩
  · have hentered := entered_enter hs m
    rw [henter] at hentered
    rw [applyWith_settled henter]
    exact transition_settled hs hentered
  · have hopens := opens_of_enter hs henter
    rw [applyWith_opened henter]
    exact hopens.transition hs (hopens.within_run hnested) (scope.left_leave _ _ _)

/-- One level depends on how the messages below it are applied to later states of its scope, by
frames that are not as deep as frames may be. -/
theorem applyWith_congr {nested' : Applying ν} (hnested : nested.Transitions) (hs : s.Sound)
    (hsame : ∀ (m : Message) (u : State ν), u.Sound → u.config = s.config →
      s.arena.depth < u.arena.depth → s.arena.depth + 1 < s.config.callStackLimit.toNat →
      nested m u = nested' m u) (m : Message) :
    applyWith nested m s = applyWith nested' m s := by
  rcases henter : s.enter m with ⟨result | scope, t⟩
  · rw [applyWith_settled henter, applyWith_settled henter]
  · have hopens := opens_of_enter hs henter
    have hagree : ∀ {x : Active ν} (m : Message), x.Within t → x.Issues m →
        nested m x.state = nested' m x.state := by
      intro x m hx hissues
      obtain ⟨hconfig, hdepth, hlimit⟩ := hopens.issued_deeper hs hx hissues
      exact hsame m x.state hx.sound hconfig hdepth hlimit
    have hrun := Program.run_congr (fun hx => hx.answered hnested) (fun n hx => hx.keep n) hagree
      scope.program hopens.within
    rw [applyWith_opened henter, applyWith_opened henter, hrun]

/-! ### All levels -/

/-- **From one level to all of them.** What holds of the refusal below the last level, and of one
level if it holds of the messages below, holds at every level. -/
theorem applyWithin_induction {P : Message → State ν → Except Fatal Receipt × State ν → Prop}
    (hdeep : ∀ m s, s.Sound → P m s (.ok (.failed 0 .callTooDeep), s))
    (hlevel : ∀ nested : Applying ν, nested.Transitions →
      (∀ m s, s.Sound → P m s (nested m s)) → ∀ m s, s.Sound → P m s (applyWith nested m s))
    (levels : Nat) :
    Applying.Transitions (applyWithin levels : Applying ν) ∧
      ∀ m s, s.Sound → P m s (applyWithin levels m s) := by
  induction levels with
  | zero =>
    have hrefusal : Applying.Transitions fun _ (s : State ν) => (.ok (.failed 0 .callTooDeep), s) :=
      fun _ s hs => (Recovered.refl s).transition hs
    exact ⟨fun m s hs => transition_applyWith hrefusal hs m, hlevel _ hrefusal hdeep⟩
  | succ levels ih =>
    exact ⟨fun m s hs => transition_applyWith ih.1 hs m, hlevel _ ih.1 ih.2⟩

theorem transitions_applyWithin (levels : Nat) :
    Applying.Transitions (applyWithin levels : Applying ν) :=
  (applyWithin_induction (P := fun _ _ _ => True) (fun _ _ _ => trivial)
    (fun _ _ _ _ _ _ => trivial) levels).1

theorem transition_apply (hs : s.Sound) (m : Message) : s.Transition (s.apply m) :=
  transitions_applyWithin _ m s hs

theorem transitions_apply : Applying.Transitions fun m (s : State ν) => s.apply m :=
  fun m _ hs => transition_apply hs m

/-- With enough levels for the depth that a state has left, one more makes no difference. -/
theorem applyWithin_succ (levels : Nat) (hs : s.Sound)
    (hlevels : s.config.callStackLimit.toNat ≤ levels + s.arena.depth) (m : Message) :
    applyWithin (levels + 1) m s = applyWithin levels m s := by
  induction levels generalizing s m with
  | zero =>
    refine applyWith_congr (transitions_applyWithin 0) hs ?_ m
    intro m u hu hconfig hdepth hlimit
    omega
  | succ levels ih =>
    refine applyWith_congr (transitions_applyWithin (levels + 1)) hs ?_ m
    intro m u hu hconfig hdepth hlimit
    exact ih hu (by rw [hconfig]; omega) m

/-- **The call stack limit never cuts a run short.** A message is entered, its code runs with every
nested message applied in the same way, and its scope is left. -/
theorem apply_eq (hs : s.Sound) (m : Message) :
    s.apply m = applyWith (fun m s => s.apply m) m s := by
  have hmore := applyWithin_succ _ hs (Nat.le_add_right _ s.arena.depth) m
  rw [apply, ← hmore]
  refine applyWith_congr (transitions_applyWithin _) hs ?_ m
  intro m u hu hconfig hdepth hlimit
  rw [apply, hconfig]

end State

end ContractExec
