import ContractExec.Proofs.Alike
import ContractExec.Proofs.Budget
import ContractExec.Proofs.Metering
import ContractExec.Proofs.Relaying

/-!
# What the budget decides

Every nested message is checked against the budget that is left for the whole transaction, so it
could seem that contract code runs differently under another budget. It does not, if the machine hands
on the fatals that it receives. The limit of a message covers all that it and the messages below it can
take: what a frame passes on it has available, and what a fatal costs is not charged to anyone, but
then no more is issued. So a budget that covers the limit of the outermost message covers every check
below it, and no debit is cut short.

* `Program.HandsOn`, `Vm.HandsOn` — machines that return each fatal at once; `handsOn_of_programs`;
* `Active.Abreast` — two runs of one program that keep the same distance from their budgets;
  `Abreast.answer`, `Program.run_abreast` keep it;
* `Application.Gated`, `gated` — **one message with all below it goes alike under both budgets**;
* `budget_only_gates_entry` — the budget decides on nothing but entry.
-/

namespace ContractExec

variable {ν : Type}

/-! ### Machines that hand fatals on -/

namespace Program

/-- A program that asks for nothing more and ends in a fatal. It may leave notes on its way. -/
def EndsIn (cause : Fatal) : Program ν Outcome → Prop
  | done outcome => outcome = .error (.fatal cause)
  | ask .. => False
  | note _ next => next.EndsIn cause
  | recollect next => ∀ notes, (next notes).EndsIn cause

/-- Whatever fatal the program receives, it ends in that. -/
def HandsOn : Program ν Outcome → Prop
  | done _ => True
  | ask q next => ∀ answer,
    (next answer).HandsOn ∧ ∀ cause, q.fatal? answer = some cause → (next answer).EndsIn cause
  | note _ next => next.HandsOn
  | recollect next => ∀ notes, (next notes).HandsOn

end Program

/-- A machine whose code returns at once any fatal that it receives, at every moment of every
transaction. -/
def Vm.HandsOn (vm : Vm ν) : Prop :=
  ∀ waiting q next (x : Active ν) cause,
    (Moment.running waiting (.ask q next) x).Reached → x.state.vm = vm →
    q.fatal? (x.answer (fun m s => s.apply m) q).1 = some cause →
    (next (x.answer (fun m s => s.apply m) q).1).EndsIn cause

/-- **A machine hands fatals on if its programs do**, each by itself. -/
theorem Vm.handsOn_of_programs {vm : Vm ν} (h : ∀ program, vm.Makes program → program.HandsOn) :
    vm.HandsOn := by
  have hall : ∀ μ : Moment ν, μ.Reached →
      ∀ waiting p x, μ = .running waiting p x → x.state.vm = vm → p.HandsOn := by
    intro μ hμ
    induction hμ with
    | new config vm backend transaction gasLimit => rintro _ _ _ ⟨⟩
    | applied m hs ih => rintro _ _ _ ⟨⟩
    | entered hs henter ih =>
      rintro _ _ _ ⟨⟩ hvm
      have hopens := State.opens_of_enter hs.sound henter
      have hmakes := State.makes_of_enter henter
      rw [← hopens.continues.vm_eq, hvm] at hmakes
      exact h _ hmakes
    | @nested waiting q next x t m scope hx hissue henter ih =>
      rintro _ _ _ ⟨⟩ hvm
      have hopens : x.state.Opens m scope t := State.opens_of_enter hx.sound.state henter
      have hmakes := State.makes_of_enter henter
      rw [← hopens.continues.vm_eq, hvm] at hmakes
      exact h _ hmakes
    | @asked waiting q next x hx ih =>
      rintro _ _ _ ⟨⟩ hvm
      obtain ⟨t, hwithin⟩ := hx.sound
      have hanswered := hwithin.answered State.transitions_apply (x.answered_answer _ q)
      have hsame := hanswered.later.vm_eq.trans hwithin.later.vm_eq.symm
      exact (ih _ _ _ rfl (hsame.symm.trans hvm) _).1
    | @noted waiting n next x hx ih =>
      rintro _ _ _ ⟨⟩ hvm
      exact ih waiting (.note n next) x rfl hvm
    | recalled hx ih =>
      rintro _ _ _ ⟨⟩ hvm
      exact ih _ _ _ rfl hvm _
  intro waiting q next x cause hreached hvm hfatal
  exact (hall _ hreached _ _ _ rfl hvm _).2 cause hfatal

/-! ### Two runs abreast -/

/-- Two runs of one program, which began with different budgets, both at least the limit of the frame.
They differ in their budgets alone, and of both budgets the same is gone: what nested messages have
reported to the frame, and what was lost to a fatal. All that is on the meter or lost lies within the
limit. -/
structure Active.Abreast (base limit budget budget' : Gas) (lost : Nat) (x y : Active ν) :
    Prop where
  alike : x.Alike y
  metered : x.frame.Metered base limit
  fits : x.frame.meter.consumed.toNat + lost ≤ limit.toNat
  gas_eq : x.state.gasRemaining.toNat + x.frame.nestedGas.toNat + lost = budget.toNat
  gas_eq' : y.state.gasRemaining.toNat + x.frame.nestedGas.toNat + lost = budget'.toNat

/-- A message under a limit comes to the same end in two states that differ in their budgets alone,
and takes the same from both, no more than the limit and what its receipt reports. -/
structure State.Gated (limit : Gas) (s t : State ν) (r r' : Except Fatal Receipt × State ν) :
    Prop where
  alikeIn : State.AlikeIn r r'
  paid : ∃ paid : Nat, paid ≤ limit.toNat ∧
    r.2.gasRemaining.toNat + paid = s.gasRemaining.toNat ∧
    r'.2.gasRemaining.toNat + paid = t.gasRemaining.toNat ∧
    ∀ receipt, r.1 = .ok receipt → paid = receipt.gasConsumed.toNat

section

variable {base limit budget budget' : Gas} {lost : Nat} {x y : Active ν} {s t : State ν}
  {m : Message}

namespace Active

namespace Abreast

theorem keep (h : Abreast base limit budget budget' lost x y) (n : ν) :
    Abreast base limit budget budget' lost { x with state := x.state.keep n }
      { y with state := y.state.keep n } :=
  ⟨⟨h.alike.frame_eq, h.alike.alike.keep n⟩, h.metered, h.fits, h.gas_eq, h.gas_eq'⟩

/-- What a frame does by itself costs neither budget anything. -/
theorem acted {x' y' : Active ν} (h : Abreast base limit budget budget' 0 x y) (hx : x.Acted x')
    (hy : y.Acted y') (halike : x'.Alike y') : Abreast base limit budget budget' 0 x' y' := by
  have hmetered := hx.metered h.metered
  obtain ⟨meter, hframe⟩ := hx.frame_eq
  have hnested : x'.frame.nestedGas = x.frame.nestedGas := by rw [hframe]
  obtain ⟨arena, logs, hstate⟩ := hx.state_eq
  obtain ⟨arena', logs', hstate'⟩ := hy.state_eq
  refine ⟨halike, hmetered, ?_, ?_, ?_⟩
  · exact UInt64.le_iff_toNat_le.mp hmetered.consumed_le
  · rw [hstate, hnested]
    exact h.gas_eq
  · rw [hstate', hnested]
    exact h.gas_eq'

/-- Both budgets cover all that the frame can pass on. -/
theorem available_le (h : Abreast base limit budget budget' 0 x y) (hs : limit ≤ budget)
    (ht : limit ≤ budget') :
    x.frame.meter.available ≤ x.state.gasRemaining ∧
      x.frame.meter.available ≤ y.state.gasRemaining := by
  obtain ⟨-, hmetered, -, hgas, hgas'⟩ := h
  have hnested := hmetered.nested_le
  have havailable := x.frame.meter.toNat_available
  rw [hmetered.limit_eq] at havailable
  simp only [UInt64.le_iff_toNat_le] at hs ht ⊢
  omega

/-- **A nested message goes alike under both budgets.** If it ends in a fatal, what it took is lost. -/
theorem followed (h : Abreast base limit budget budget' 0 x y) {n : Message} (hissues : x.Issues n)
    (hgated : State.Gated n.gasLimit x.state y.state (x.state.apply n) (y.state.apply n)) :
    (y.follow (fun m s => s.apply m) (.issued n)).1
        = (x.follow (fun m s => s.apply m) (.issued n)).1 ∧
      ∃ lost, Abreast base limit budget budget' lost
          (x.follow (fun m s => s.apply m) (.issued n)).2
          (y.follow (fun m s => s.apply m) (.issued n)).2 ∧
        (lost = 0 ∨ ∃ cause, (x.follow (fun m s => s.apply m) (.issued n)).1 = .error cause) := by
  obtain ⟨⟨hresult, halike⟩, paid, hlimit, hgas, hgas', hreport⟩ := hgated
  have hissued := UInt64.le_iff_toNat_le.mp hissues.gasLimit_le
  have havailable := x.frame.meter.toNat_available
  rw [h.metered.limit_eq] at havailable
  have hbefore := h.gas_eq
  have hbefore' := h.gas_eq'
  rw [follow, follow]
  generalize x.state.apply n = r at hresult halike hgas hreport
  generalize y.state.apply n = r' at hresult halike hgas'
  obtain ⟨result, u⟩ := r
  obtain ⟨result', u'⟩ := r'
  have hsame : result' = result := hresult
  subst hsame
  dsimp only at hgas hgas' halike hreport
  cases result' with
  | error cause =>
    refine ⟨rfl, paid, ⟨⟨h.alike.frame_eq, halike⟩, h.metered, ?_, ?_, ?_⟩, .inr ⟨cause, rfl⟩⟩
    · have hconsumed := UInt64.le_iff_toNat_le.mp h.metered.consumed_le
      show x.frame.meter.consumed.toNat + paid ≤ _
      omega
    · show u.gasRemaining.toNat + x.frame.nestedGas.toNat + paid = _
      omega
    · show u'.gasRemaining.toNat + x.frame.nestedGas.toNat + paid = _
      omega
  | ok receipt =>
    have hpaid := hreport receipt rfl
    have hfits : receipt.gasConsumed ≤ x.frame.meter.available := by
      rw [UInt64.le_iff_toNat_le]
      omega
    obtain ⟨hmetered, hnested⟩ := h.metered.chargeNested hfits
    refine ⟨rfl, 0, ⟨⟨?_, halike⟩, hmetered, ?_, ?_, ?_⟩, .inl rfl⟩
    · show y.frame.chargeNested receipt = x.frame.chargeNested receipt
      rw [h.alike.frame_eq]
    · exact UInt64.le_iff_toNat_le.mp hmetered.consumed_le
    · show u.gasRemaining.toNat + (x.frame.chargeNested receipt).nestedGas.toNat + 0 = _
      omega
    · show u'.gasRemaining.toNat + (x.frame.chargeNested receipt).nestedGas.toNat + 0 = _
      omega

/-- What a request leads to is followed alike. -/
theorem follow (h : Abreast base limit budget budget' 0 x y) (issue : Issue)
    (hissued : ∀ n, issue = .issued n → x.Issues n ∧
      State.Gated n.gasLimit x.state y.state (x.state.apply n) (y.state.apply n)) :
    (y.follow (fun m s => s.apply m) issue).1 = (x.follow (fun m s => s.apply m) issue).1 ∧
      ∃ lost, Abreast base limit budget budget' lost
          (x.follow (fun m s => s.apply m) issue).2 (y.follow (fun m s => s.apply m) issue).2 ∧
        (lost = 0 ∨ ∃ cause, fatalOf? (x.follow (fun m s => s.apply m) issue).1 = some cause) := by
  cases issue with
  | settled result => exact ⟨rfl, 0, h, .inl rfl⟩
  | issued n =>
    obtain ⟨hissues, hgated⟩ := hissued n rfl
    obtain ⟨hsame, lost, hafter, hlost⟩ := h.followed hissues hgated
    refine ⟨hsame, lost, hafter, hlost.imp_right ?_⟩
    rintro ⟨cause, hfatal⟩
    exact ⟨cause, fatalOf?_eq_some_iff.mpr hfatal⟩

/-- **One request is answered alike under both budgets.** Something is lost only with a fatal. -/
theorem answer (h : Abreast base limit budget budget' 0 x y) (q : Request)
    (hissued : ∀ n, x.issueOf q = some (.issued n) →
      State.Gated n.gasLimit x.state y.state (x.state.apply n) (y.state.apply n)) :
    (y.answer (fun m s => s.apply m) q).1 = (x.answer (fun m s => s.apply m) q).1 ∧
      ∃ lost, Abreast base limit budget budget' lost
          (x.answer (fun m s => s.apply m) q).2 (y.answer (fun m s => s.apply m) q).2 ∧
        (lost = 0 ∨ ∃ cause, q.fatal? (x.answer (fun m s => s.apply m) q).1 = some cause) := by
  have hsame := h.alike.issueOf_eq q
  cases hissue : x.issueOf q with
  | none =>
    have hissue' : y.issueOf q = none := hsame.trans hissue
    obtain ⟨hanswer, halike⟩ :=
      h.alike.answer hissue (fun m s => s.apply m) (fun m s => s.apply m)
    exact ⟨hanswer, 0, h.acted (acted_answer _ hissue) (acted_answer _ hissue') halike, .inl rfl⟩
  | some issue =>
    have hfollow := h.follow issue fun n hn =>
      ⟨⟨q, hissue.trans (congrArg some hn)⟩, hissued n (hissue.trans (congrArg some hn))⟩
    rw [hissue] at hsame
    cases q with
    | create amount typeName parameters gas
    | call target amount method gas
    | transfer target amount =>
      injection hissue with hissue
      injection hsame with hsame
      rw [Active.answer, Active.answer, hissue, hsame]
      exact hfollow
    | _ => cases hissue

end Abreast

end Active

/-! ### Whole runs -/

namespace Program

/-- A program that only hands a fatal on does so under both budgets. -/
theorem EndsIn.run_abreast (nested : Applying ν) {cause : Fatal} {p : Program ν Outcome}
    (hends : p.EndsIn cause) (h : Active.Abreast base limit budget budget' lost x y) :
    (p.run nested x).1 = .error (.fatal cause) ∧ (p.run nested y).1 = .error (.fatal cause) ∧
      Active.Abreast base limit budget budget' lost (p.run nested x).2 (p.run nested y).2 := by
  induction p generalizing x y with
  | done outcome => exact ⟨hends, hends, h⟩
  | ask q next ih => exact hends.elim
  | note n next ih => exact ih hends (h.keep n)
  | recollect next ih =>
    have hnotes : y.state.journal.notes = x.state.journal.notes := h.alike.alike.notes_eq
    rw [run, run, hnotes]
    exact ih _ (hends _) h

end Program

/-- What is claimed of an application: in a state with another budget, and both budgets at least its
limit, it goes alike, if its code begins at a reached moment and the machine hands fatals on. -/
def Application.Gated (a : Application ν) : Prop :=
  (∀ scope u, a.state.enter a.message = (.opened scope, u) →
    ∃ waiting, (Moment.running waiting scope.program ⟨scope.frame, u⟩).Reached) →
  a.state.vm.HandsOn → ∀ t, a.state.Alike t →
  a.message.gasLimit ≤ a.state.gasRemaining → a.message.gasLimit ≤ t.gasRemaining →
  State.Gated a.message.gasLimit a.state t a.result (t.apply a.message)

/-- **One program runs alike under both budgets.** Something is lost only if it ends in a fatal. -/
theorem Program.run_abreast {u : State ν} (hvm : u.vm.HandsOn) (hs : limit ≤ budget)
    (ht : limit ≤ budget')
    (hnested : ∀ {x : Active ν} {n : Message}, x.Within u → x.Issues n →
      Application.Gated ⟨n, x.state⟩)
    (p : Program ν Outcome) {waiting : List Frame}
    (hreached : (Moment.running waiting p x).Reached) (hx : x.Within u)
    (h : Active.Abreast base limit budget budget' 0 x y) :
    (p.run (fun m s => s.apply m) y).1 = (p.run (fun m s => s.apply m) x).1 ∧
      ∃ lost, Active.Abreast base limit budget budget' lost
          (p.run (fun m s => s.apply m) x).2 (p.run (fun m s => s.apply m) y).2 ∧
        (lost = 0 ∨ ∃ cause, (p.run (fun m s => s.apply m) x).1 = .error (.fatal cause)) := by
  induction p generalizing x y with
  | done outcome => exact ⟨rfl, 0, h, .inl rfl⟩
  | ask q next ih =>
    have hsame : x.state.vm = u.vm := hx.later.vm_eq
    obtain ⟨havailable, havailable'⟩ := h.available_le hs ht
    obtain ⟨hanswer, lost, hafter, hlost⟩ := h.answer q fun n hissue => by
      have hfits : n.gasLimit ≤ x.frame.meter.available := Active.Issues.gasLimit_le ⟨q, hissue⟩
      refine hnested hx ⟨q, hissue⟩ (fun scope v henter => ⟨_, hreached.nested hissue henter⟩) ?_
        y.state h.alike.alike (UInt64.le_trans hfits havailable) (UInt64.le_trans hfits havailable')
      rw [hsame]
      exact hvm
    have hreached' := hreached.asked
    rw [run, run]
    dsimp only
    rw [hanswer]
    rcases hlost with rfl | ⟨cause, hfatal⟩
    · exact ih _ hreached' (hx.answered State.transitions_apply (x.answered_answer _ q)) hafter
    · -- from here on the program asks for nothing
      have hends := hvm waiting q next x cause hreached hsame hfatal
      obtain ⟨hx, hy, hend⟩ := hends.run_abreast (fun m s => s.apply m) hafter
      exact ⟨hy.trans hx.symm, lost, hend, .inr ⟨cause, hx⟩⟩
  | note n next ih => exact ih hreached.noted (hx.keep n) (h.keep n)
  | recollect next ih =>
    have hnotes : y.state.journal.notes = x.state.journal.notes := h.alike.alike.notes_eq
    rw [run, run, hnotes]
    exact ih _ hreached.recalled hx h

/-! ### One level -/

namespace State

/-- A message that ends in a fatal before a scope is opened costs nothing. -/
theorem gas_settled_error (hs : s.Sound) {cause : Fatal}
    (henter : s.enter m = (.settled (.error cause), t)) : t.gasRemaining = s.gasRemaining := by
  have hentered := entered_enter hs m
  rw [henter] at hentered
  cases hentered with
  | fatal cause => rfl

/-- A message that opens no scope goes alike. -/
theorem gated_settled (hs : s.Sound) (ht : t.Sound) {result : Except Fatal Receipt} {u u' : State ν}
    (henter : s.enter m = (.settled result, u)) (henter' : t.enter m = (.settled result, u'))
    (hsame : u.Alike u') : State.Gated m.gasLimit s t (s.apply m) (t.apply m) := by
  rw [apply_settled hs henter, apply_settled ht henter']
  refine ⟨⟨rfl, hsame⟩, ?_⟩
  cases result with
  | error cause =>
    refine ⟨0, Nat.zero_le _, ?_, ?_, nofun⟩
    · exact congrArg UInt64.toNat (gas_settled_error hs henter)
    · exact congrArg UInt64.toNat (gas_settled_error ht henter')
  | ok receipt =>
    have hentered := entered_enter hs m
    rw [henter] at hentered
    refine ⟨receipt.gasConsumed.toNat, UInt64.le_iff_toNat_le.mp hentered.gas_le.1, ?_, ?_, ?_⟩
    · exact gas_settled hs henter
    · exact gas_settled ht henter'
    · rintro _ ⟨⟩
      rfl

/-- **A scope is left alike**, and what it took from the budgets is what was on the meter, with what
was lost. -/
theorem gated_left {scope : Scope ν} {outcome : Outcome} (hs : limit ≤ s.gasRemaining)
    (ht : limit ≤ t.gasRemaining)
    (h : Active.Abreast base limit s.gasRemaining t.gasRemaining lost x y)
    (hlost : lost = 0 ∨ ∃ cause, outcome = .error (.fatal cause)) :
    State.Gated limit s t (scope.leave outcome x.frame x.state)
      (scope.leave outcome y.frame y.state) := by
  have howed := h.metered.owed_add_nestedGas
  have hfits := h.fits
  -- either budget has paid all but what is owed, and covers that
  have hdebit : ∀ (u : State ν) (budget : Gas), limit ≤ budget →
      u.gasRemaining.toNat + x.frame.nestedGas.toNat + lost = budget.toNat →
      (scope.leave outcome x.frame u).2.gasRemaining.toNat + (x.frame.meter.consumed.toNat + lost)
        = budget.toNat := by
    intro u budget hlimit hgas
    rw [UInt64.le_iff_toNat_le] at hlimit
    rw [(scope.left_leave outcome x.frame u).gas_eq.1, Gas.toNat_sub]
    omega
  rw [h.alike.frame_eq]
  refine ⟨scope.alike_leave h.alike.alike outcome x.frame,
    x.frame.meter.consumed.toNat + lost, h.fits, ?_, ?_, ?_⟩
  · exact hdebit x.state s.gasRemaining hs h.gas_eq
  · exact hdebit y.state t.gasRemaining ht h.gas_eq'
  · intro receipt hreceipt
    have hreported := (scope.left_leave outcome x.frame x.state).gas_eq.2 receipt hreceipt
    rw [hreported]
    rcases hlost with rfl | ⟨cause, rfl⟩
    · exact Nat.add_zero _
    · cases hreceipt

end State

/-- The frame of a message begins abreast in two states alike. -/
theorem State.Opens.abreast {scope : Scope ν} {u u' : State ν} (hopens : s.Opens m scope u)
    (hopens' : t.Opens m scope u') (hsame : u.Alike u') :
    Active.Abreast s.config.baseCost m.gasLimit s.gasRemaining t.gasRemaining 0 ⟨scope.frame, u⟩
      ⟨scope.frame, u'⟩ := by
  obtain ⟨hmetered, hnested⟩ := hopens.metered
  refine ⟨⟨rfl, hsame⟩, hmetered, UInt64.le_iff_toNat_le.mp hmetered.consumed_le, ?_, ?_⟩
  · show u.gasRemaining.toNat + scope.frame.nestedGas.toNat + 0 = _
    rw [hopens.gas_eq, hnested]
    rfl
  · show u'.gasRemaining.toNat + scope.frame.nestedGas.toNat + 0 = _
    rw [hopens'.gas_eq, hnested]
    rfl

/-! ### All levels -/

/-- **One message with all below it goes alike under both budgets.** -/
theorem Application.gated (hs : s.Sound) (m : Message) : Application.Gated ⟨m, s⟩ := by
  refine Application.induction (Q := Application.Gated) ?_ hs m
  intro s m hs ih hopened hvm t halike hbudget hbudget'
  have ht := halike.sound hs
  have hentrance : State.AlikeIn (s.enter m) (t.enter m) :=
    State.alike_enter halike hbudget hbudget'
  show State.Gated m.gasLimit s t (s.apply m) (t.apply m)
  rcases henter : s.enter m with ⟨result | scope, u⟩
  · rcases henter' : t.enter m with ⟨entrance, u'⟩
    rw [henter, henter'] at hentrance
    obtain ⟨hsame, hafter⟩ := hentrance
    rw [show entrance = .settled result from hsame] at henter'
    exact State.gated_settled hs ht henter henter' hafter
  · rcases henter' : t.enter m with ⟨entrance, u'⟩
    rw [henter, henter'] at hentrance
    obtain ⟨hsame, hafter⟩ := hentrance
    rw [show entrance = .opened scope from hsame] at henter'
    have hopens := State.opens_of_enter hs henter
    have hopens' := State.opens_of_enter ht henter'
    obtain ⟨waiting, hreached⟩ := hopened scope u henter
    have hcode : u.vm.HandsOn := by
      rw [hopens.continues.vm_eq]
      exact hvm
    obtain ⟨houtcome, lost, hend, hlost⟩ := Program.run_abreast hcode hbudget hbudget' (ih hopens)
      scope.program hreached hopens.within (hopens.abreast hopens' hafter)
    rw [State.apply_eq hs, State.apply_eq ht, State.applyWith_opened henter,
      State.applyWith_opened henter', houtcome]
    exact State.gated_left hbudget hbudget' hend hlost

end

/-- The messages that can be applied at a moment: any while no code runs, and the one that the code
asks for while it does. -/
def Moment.Offers (m : Message) : Moment ν → Prop
  | idle _ => True
  | running _ (.ask q _) x => x.issueOf q = some (.issued m)
  | running .. => False

/-- The code of a message begins at a reached moment if the message can be applied at one. -/
theorem Moment.Reached.opened {μ : Moment ν} (hμ : μ.Reached) {m : Message} (hoffers : μ.Offers m)
    {scope : Scope ν} {u : State ν} (henter : μ.state.enter m = (.opened scope, u)) :
    ∃ waiting, (Moment.running waiting scope.program ⟨scope.frame, u⟩).Reached := by
  cases μ with
  | idle s => exact ⟨_, hμ.entered henter⟩
  | running waiting p x =>
    cases p with
    | ask q next => exact ⟨_, hμ.nested hoffers henter⟩
    | done outcome => exact hoffers.elim
    | note n next => exact hoffers.elim
    | recollect next => exact hoffers.elim

/-- **The budget only gates entry.** A message that can be applied at a moment of a transaction, under
a machine that hands on the fatals that it receives, comes to the same result in any other state that
differs from the state of the moment in its budget alone, if both budgets are at least the gas limit of
the message. The states that it leaves differ in their budgets alone again, down to the notes that code
may leave of what it has seen, and the same is gone from both, no more than the limit. What fatals the
transaction has seen before makes no difference. -/
theorem budget_only_gates_entry {μ : Moment ν} (hμ : μ.Reached) {m : Message} (hoffers : μ.Offers m)
    (hvm : μ.state.vm.HandsOn) {t : State ν} (halike : μ.state.Alike t)
    (hbudget : m.gasLimit ≤ μ.state.gasRemaining) (hbudget' : m.gasLimit ≤ t.gasRemaining) :
    (t.apply m).1 = (μ.state.apply m).1 ∧ (μ.state.apply m).2.Alike (t.apply m).2 ∧
      ∃ paid : Nat, paid ≤ m.gasLimit.toNat ∧
        (μ.state.apply m).2.gasRemaining.toNat + paid = μ.state.gasRemaining.toNat ∧
        (t.apply m).2.gasRemaining.toNat + paid = t.gasRemaining.toNat := by
  obtain ⟨⟨hresult, hafter⟩, paid, hlimit, hgas, hgas', -⟩ :=
    Application.gated hμ.sound.state m (fun _ _ => hμ.opened hoffers) hvm t halike hbudget hbudget'
  exact ⟨hresult, hafter, paid, hlimit, hgas, hgas'⟩

/-- A call without value to the contract at the first address. A fatal is handed on. -/
def callOrHandOn (name : String) (next : Program Empty Outcome) : Program Empty Outcome :=
  .ask (.call 1 0 ⟨name, []⟩ none) fun
    | .ok _ => next
    | .error cause => .done (.error (.fatal cause))

theorem handsOn_callOrHandOn (name : String) {next : Program Empty Outcome} (h : next.HandsOn) :
    (callOrHandOn name next).HandsOn := by
  intro answer
  cases answer with
  | ok receipt => exact ⟨h, nofun⟩
  | error fatal =>
    refine ⟨trivial, fun cause hcause => ?_⟩
    have hsame : some fatal = some cause := hcause
    rw [Option.some.inj hsame]
    rfl

/-- Methods named `outer` call one method that ends well and one that ends the transaction. -/
def handing : Vm Empty where
  create _ _ _ := .done (.ok none)
  call method _ _ :=
    if method.name = "outer" then
      callOrHandOn "inner" (callOrHandOn "stop" (.done (.ok none)))
    else if method.name = "stop" then .done (.error (.fatal (.other "stop")))
    else .done (.ok none)

theorem handsOn_handing : handing.HandsOn := by
  refine Vm.handsOn_of_programs ?_
  rintro program (⟨code, parameters, typeName, rfl⟩ | ⟨method, code, typeName, rfl⟩)
  · trivial
  · simp only [handing]
    split
    case isTrue =>
      exact handsOn_callOrHandOn "inner" (handsOn_callOrHandOn "stop" trivial)
    case isFalse =>
      split
      case isTrue => trivial
      case isFalse => trivial

def handingState (budget : Gas) : State Empty :=
  .new .standard handing (oneContract 0 0) 0 budget

def handingCall : Message := ⟨2, 0, 4000, .externalCall 1 ⟨"outer", []⟩⟩

-- `outer` has spent its base cost and that of `inner` when `stop` costs its own and ends it all
theorem budget_only_gates_entry_of_outer :
    ((handingState 9000).apply handingCall).1 = ((handingState 4000).apply handingCall).1 ∧
      ((handingState 4000).apply handingCall).1 = .error (.other "stop") ∧
      ((handingState 4000).apply handingCall).2.Alike ((handingState 9000).apply handingCall).2 ∧
      ((handingState 4000).apply handingCall).2.gasRemaining = 1000 ∧
      ((handingState 9000).apply handingCall).2.gasRemaining.toNat = 6000 := by
  have hreached : (Moment.idle (handingState 4000)).Reached := .new _ _ _ _ _
  have halike : (handingState 4000).Alike (handingState 9000) := ⟨rfl, rfl⟩
  have hgas : ((handingState 4000).apply handingCall).2.gasRemaining = 1000 := by decide +kernel
  obtain ⟨hresult, hafter, paid, -, hpaid, hpaid'⟩ :=
    budget_only_gates_entry (m := handingCall) hreached trivial handsOn_handing halike
      (by decide) (by decide)
  dsimp only [Moment.state] at hresult hafter hpaid hpaid'
  refine ⟨hresult, by decide +kernel, hafter, hgas, ?_⟩
  have hbefore : (handingState 4000).gasRemaining.toNat = 4000 := by decide
  have hbefore' : (handingState 9000).gasRemaining.toNat = 9000 := by decide
  rw [hgas, hbefore] at hpaid
  rw [hbefore'] at hpaid'
  have hthousand : (1000 : Gas).toNat = 1000 := by decide
  omega

end ContractExec
