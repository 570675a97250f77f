import ContractExec.Proofs.Relaying
import ContractExec.Proofs.Rollback
import ContractExec.Proofs.Verdict

/-!
# The first fatal

A machine need not make up fatals, but it may drop those that it receives, and go on. Then layers can
be left open above that of its frame, and all kinds of fatals can follow. The first one is another
matter. Until it comes back, the layer of the frame that runs is the top one whenever code runs, so no
operation on layers is refused; and what a frame issues was found affordable by the frame itself, so
no create is found unaffordable later. What is left is a balance that cannot be told.

* `FirstUnreadable` — the first fatal among what has come back, if any, is for a balance;
* `Active.InStep` — the layer of the frame is the top one; then no write is refused;
* `Application.Solvent`, `solvent_issued` — what a frame issues is not refused as a create that its
  sender cannot pay;
* `InStep.calm_answer`, `InStep.calm_run`, `Application.calm_apply` — one request, a whole run, and
  one message with all below it;
* `first_fatal_unreadable` — **the first fatal of a transaction is a balance out of range**.
-/

namespace ContractExec

variable {ν : Type}

/-! ### Lists of what came back -/

/-- The first fatal with which an operation came back, if there is one, is for a balance that is out
of range. -/
def FirstUnreadable (returns : List (Return ν)) : Prop :=
  ∀ cause, (fatals returns).head? = some cause → ∃ address, cause = .balanceOutOfRange address

theorem firstUnreadable_of_nil {l : List (Return ν)} (h : fatals l = []) : FirstUnreadable l := by
  rw [FirstUnreadable, h]
  nofun

theorem FirstUnreadable.append {l k : List (Return ν)} (hl : FirstUnreadable l)
    (hk : fatals l = [] → FirstUnreadable k) : FirstUnreadable (l ++ k) := by
  rw [FirstUnreadable, fatals_append]
  cases hfirst : fatals l with
  | nil => exact hk hfirst
  | cons cause rest =>
    rw [FirstUnreadable, hfirst] at hl
    exact hl

theorem firstUnreadable_singleton {r : Return ν}
    (h : ∀ cause, r.fatal? = some cause → ∃ address, cause = .balanceOutOfRange address) :
    FirstUnreadable [r] := by
  intro cause hcause
  refine h cause ?_
  rw [fatals, List.filterMap_cons] at hcause
  split at hcause
  case h_1 => cases hcause
  case h_2 hfatal =>
    rw [hfatal]
    exact hcause

/-! ### Layers in step -/

namespace Active

/-- The layer of the frame is the top one, so no layer was left open above it. -/
def InStep (x : Active ν) : Prop := x.frame.layer = x.state.arena.top

variable {x y : Active ν} {nested : Applying ν} {q : Request} {cause : Fatal} {n : Message}

theorem InStep.paid (h : x.InStep) (hpaid : x.Paid y) : y.InStep := by
  obtain ⟨meter, hframe⟩ := hpaid.frame_eq
  rw [InStep, hframe, hpaid.state_eq]
  exact h

theorem InStep.acted (h : x.InStep) (hx : x.state.Sound) (hacted : x.Acted y) : y.InStep := by
  obtain ⟨meter, hframe⟩ := hacted.frame_eq
  have htop : y.state.arena.top = x.state.arena.top := by
    rw [Arena.top, Arena.top, hacted.size_eq hx]
  rw [InStep, hframe, htop]
  exact h

theorem InStep.followed (h : x.InStep) (hissues : x.Issues n)
    (htop : (x.state.apply n).2.arena.top = x.state.arena.top) :
    (x.follow (fun m s => s.apply m) (.issued n)).2.InStep := by
  have hanswered : x.Answered (fun m s => s.apply m) _ := answered_issued hissues
  obtain ⟨meter, nestedGas, hframe⟩ := hanswered.frame_eq
  rw [InStep, hframe, state_follow, htop]
  exact h

/-- While the layers are in step, no write is refused. -/
theorem InStep.write_eq (h : x.InStep) (w : Write) : (x.write w).1 = .ok () := by
  rw [write, Arena.write, if_pos (show x.frame.layer = x.state.arena.top from h)]

theorem InStep.construct_ne (h : x.InStep) (w : Write) :
    (x.construct w).1 ≠ .error (.fatal cause) := by
  rw [construct]
  split
  · rw [h.write_eq]
    intro hfatal
    cases hfatal
  · intro hfatal
    cases hfatal

theorem InStep.setStorage_ne (h : x.InStep) (key value : Bytes) :
    (x.setStorage key value).1 ≠ .error (.fatal cause) := by
  have hpaid := Paid.charged (x := x) (x.state.config.storageSaveCost key value)
  rw [setStorage]
  split
  case h_1 =>
    intro hfatal
    cases hfatal
  case h_2 hcharge =>
    rw [hcharge] at hpaid
    rw [(h.paid hpaid).write_eq]
    intro hfatal
    cases hfatal

end Active

/-! ### Answers -/

section

variable {x : Active ν} {q : Request} {cause : Fatal} {n : Message}

/-- While the layers are in step, a request that leads to no other frame fails with a fatal only if
the balance of its contract cannot be told. -/
theorem Active.InStep.fatal_of_acted (h : x.InStep) (nested : Applying ν) (hissue : x.issueOf q = none)
    (hfatal : q.fatal? (x.answer nested q).1 = some cause) :
    cause = .balanceOutOfRange x.contract := by
  cases q with
  | balance => exact effectiveBalance_eq_error (fatalOf?_eq_some_iff.mp hfatal)
  | setStorage key value =>
    exact absurd (fatalOfStop?_eq_some_iff.mp hfatal) (h.setStorage_ne key value)
  | setCode code => exact absurd (fatalOfStop?_eq_some_iff.mp hfatal) (h.construct_ne _)
  | setContractType typeName => exact absurd (fatalOfStop?_eq_some_iff.mp hfatal) (h.construct_ne _)
  | create amount typeName parameters gas => cases hissue
  | call target amount method gas => cases hissue
  | transfer target amount => cases hissue
  | _ => cases hfatal

/-- The fatal of a request that leads to another frame is the one of what comes of that. -/
theorem Active.fatal_of_issue (nested : Applying ν) {issue : Issue}
    (hissue : x.issueOf q = some issue) :
    q.fatal? (x.answer nested q).1 = fatalOf? (x.follow nested issue).1 := by
  cases q with
  | create amount typeName parameters gas
  | call target amount method gas
  | transfer target amount =>
    injection hissue with hissue
    rw [← hissue]
    rfl
  | _ => cases hissue

theorem Active.fatal_of_issued (hissue : x.issueOf q = some (.issued n)) :
    q.fatal? (x.answer (fun m s => s.apply m) q).1 = Application.fatal? ⟨n, x.state⟩ := by
  rw [fatal_of_issue _ hissue, follow, Application.fatal?, Application.result]
  split
  case h_1 happly => rw [happly]
  case h_2 happly => rw [happly]

/-- What is settled without a message ends in a fatal only if the balance of the contract cannot be
told. -/
theorem Active.fatal_of_settled (nested : Applying ν) {result : Except Fatal Receipt}
    (hissue : x.issueOf q = some (.settled result))
    (hfatal : q.fatal? (x.answer nested q).1 = some cause) :
    cause = .balanceOutOfRange x.contract := by
  rw [fatal_of_issue nested hissue] at hfatal
  have hresult : result = .error cause := fatalOf?_eq_some_iff.mp hfatal
  rw [hresult] at hissue
  cases q with
  | create amount typeName parameters gas =>
    have hsettled := Option.some.inj hissue
    rw [issueCreate] at hsettled
    split at hsettled
    case isTrue => cases hsettled
    case isFalse =>
      split at hsettled
      case h_1 hbalance =>
        injection hsettled with hsame
        injection hsame with hsame
        rw [hsame] at hbalance
        exact effectiveBalance_eq_error hbalance
      case h_2 => split at hsettled <;> cases hsettled
  | call target amount method gas =>
    have hsettled := Option.some.inj hissue
    rw [issue] at hsettled
    split at hsettled <;> cases hsettled
  | transfer target amount =>
    have hsettled := Option.some.inj hissue
    rw [issue] at hsettled
    split at hsettled <;> cases hsettled
  | _ => cases hissue

end

/-! ### Creates are affordable -/

namespace Application

/-- The message is not refused as a create that its sender cannot pay. -/
def Solvent (a : Application ν) : Prop :=
  ∀ sender amount balance t,
    a.state.enter a.message ≠ (.settled (.error (.unaffordableCreate sender amount balance)), t)

variable {s t : State ν} {m n : Message} {x : Active ν}

theorem solvent_external (hs : s.Sound) (hexternal : m.isInternal = false) : Solvent ⟨m, s⟩ := by
  intro sender amount balance t henter
  cases State.verdict_enter hs henter with
  | unreadable hinternal hbalance =>
    rw [hexternal] at hinternal
    cases hinternal
  | unaffordable hinternal htarget hbalance hpoor =>
    rw [hexternal] at hinternal
    cases hinternal

/-- A create that a frame issues was found affordable by the frame itself. -/
theorem affordable_of_issueCreate {amount : Amount} {gas : Option Gas} {action : Action}
    (hissue : x.issueCreate amount gas action = .issued n) :
    ∃ balance, x.state.balance n.sender = .ok balance ∧ ¬balance < n.amount := by
  have hout := Active.eq_outgoing_of_issueCreate hissue
  rw [Active.issueCreate] at hissue
  split at hissue
  case isTrue => cases hissue
  case isFalse =>
    split at hissue
    case h_1 => cases hissue
    case h_2 balance hbalance =>
      split at hissue
      case isTrue => cases hissue
      case isFalse hpay =>
        rw [hout]
        exact ⟨balance, hbalance, hpay⟩

/-- What a frame issues is never refused as a create that its sender cannot pay: the balance that the
frame has looked at is that of the sender, in the state that the message is applied to. -/
theorem solvent_issued (hx : x.state.Sound) (hissues : x.Issues n) : Solvent ⟨n, x.state⟩ := by
  intro sender amount balance t henter
  obtain ⟨q, hissue⟩ := hissues
  cases State.verdict_enter hx henter with
  | unreadable hinternal hbalance => cases effectiveBalance_eq_error hbalance
  | unaffordable hinternal htarget hbalance hpoor =>
    cases q with
    | create amount typeName parameters gas =>
      obtain ⟨held, hheld, hpay⟩ := affordable_of_issueCreate (Option.some.inj hissue)
      rw [hbalance] at hheld
      injection hheld with hsame
      rw [← hsame] at hpay
      exact hpay hpoor
    | call target amount method gas =>
      rw [Active.eq_outgoing_of_issue (Option.some.inj hissue)] at htarget
      cases htarget
    | transfer target amount =>
      rw [Active.eq_outgoing_of_issue (Option.some.inj hissue)] at htarget
      cases htarget
    | _ => cases hissue

end Application

/-! ### Calm applications -/

/-- The first fatal that comes back while a message is applied is for a balance. If none does, no
scope stays open. -/
structure Application.Calm (a : Application ν) : Prop where
  first : FirstUnreadable a.returns
  top_eq : fatals a.returns = [] → a.result.2.arena.top = a.state.arena.top

section

variable {s start t : State ν} {m n : Message} {scope : Scope ν} {x : Active ν} {q : Request}
  {returns : List (Return ν)} {waiting : List Frame}

/-- **One request.** While the layers are in step, the first fatal that comes back with its answer is
for a balance. If none does, the layers are in step after it. -/
theorem Active.InStep.calm_answer (h : x.InStep) (hx : x.state.Sound)
    (hissued : ∀ n, x.issueOf q = some (.issued n) → Application.Calm ⟨n, x.state⟩) :
    FirstUnreadable (x.returns Application.returns q) ∧
      (fatals (x.returns Application.returns q) = [] →
        (x.answer (fun m s => s.apply m) q).2.InStep) := by
  cases hissue : x.issueOf q with
  | none =>
    rw [returns, issuedBy, hissue]
    refine ⟨firstUnreadable_singleton fun cause hfatal => ?_, fun _ => ?_⟩
    · exact ⟨_, h.fatal_of_acted _ hissue hfatal⟩
    · exact h.acted hx (acted_answer _ hissue)
  | some issue =>
    rw [returns, issuedBy, hissue, answer_of_issue _ hissue]
    cases issue with
    | settled result =>
      refine ⟨firstUnreadable_singleton fun cause hfatal => ?_, fun _ => h⟩
      exact ⟨_, fatal_of_settled _ hissue hfatal⟩
    | issued n =>
      obtain ⟨hfirst, htop⟩ := hissued n hissue
      dsimp only [Option.toList_some]
      rw [List.flatMap_singleton]
      refine ⟨hfirst.append fun hnone => ?_, fun hnone => ?_⟩
      · -- a message that came back with a receipt is answered with it
        have hself := (Application.applied_mem_returns_iff (a := ⟨n, x.state⟩) hx).mpr
          List.mem_cons_self
        have hcalm := fatalOf?_eq_none_iff.mpr (exists_receipt_of_mem hnone hself)
        refine firstUnreadable_singleton fun cause hfatal => ?_
        rw [Return.fatal?, fatal_of_issued hissue, Application.fatal?, hcalm] at hfatal
        cases hfatal
      · rw [fatals_append, List.append_eq_nil_iff] at hnone
        exact h.followed ⟨q, hissue⟩ (htop hnone.1)

/-- **A whole run.** What holds of each request holds of the code up to its end. -/
theorem Active.InStep.calm_run {p : Program ν Outcome} (h : x.InStep) (hx : x.Within t)
    (hcourse : Moment.External start returns (.running waiting p x)) (hcalm : fatals returns = [])
    (hissued : ∀ {returns q next y n}, y.Within t → fatals returns = [] →
      Moment.External start returns (.running waiting (.ask q next) y) →
      y.issueOf q = some (.issued n) → Application.Calm ⟨n, y.state⟩) :
    FirstUnreadable (p.returns Application.returns x) ∧
      (fatals (p.returns Application.returns x) = [] →
        (p.run (fun m s => s.apply m) x).2.InStep) := by
  induction p generalizing x returns with
  | done outcome => exact ⟨firstUnreadable_of_nil rfl, fun _ => h⟩
  | ask q next ih =>
    obtain ⟨hfirst, hstep⟩ :=
      h.calm_answer hx.sound fun n hissue => hissued hx hcalm hcourse hissue
    have hanswered := hx.answered State.transitions_apply (x.answered_answer _ q)
    have hrest := fun hnone => ih _ (hstep hnone) hanswered hcourse.asked
      (by rw [fatals_append, hcalm, hnone]; rfl)
    rw [Program.returns, Program.run]
    refine ⟨hfirst.append fun hnone => (hrest hnone).1, fun hnone => ?_⟩
    rw [fatals_append, List.append_eq_nil_iff] at hnone
    exact (hrest hnone.1).2 hnone.2
  | note n next ih => exact ih h (hx.keep n) hcourse.noted hcalm
  | recollect next ih => exact ih _ h hx hcourse.recalled hcalm

/-- If the code of a scope ends with its layers in step, and not in a fatal, the scope is closed unless
the balance of the sender cannot be told. -/
theorem State.Opens.calm_left {outcome : Outcome} {r : Except Fatal Receipt × State ν}
    (hopens : s.Opens m scope t) (hs : s.Sound) (hx : x.Within t) (h : x.InStep)
    (hours : ∀ cause, outcome ≠ .error (.fatal cause)) (hleft : scope.Left x.frame x.state outcome r) :
    (∀ cause, r.1 = .error cause → cause = .balanceOutOfRange m.sender) ∧
      (fatalOf? r.1 = none → r.2.arena.top = s.arena.top) := by
  refine ⟨fun cause hcause => ?_, fun hnone => ?_⟩
  · have htop : scope.frame.layer = x.state.arena.top := by
      rw [hopens.layer_eq, ← hx.layer_eq]
      exact h
    obtain ⟨merged, hmerge, -⟩ := hopens.exists_commit hs hx htop
    cases hleft with
    | stopped cause => exact absurd rfl (hours cause)
    | buried returned hcan hcommit =>
      rw [hmerge] at hcommit
      cases hcommit
    | unreadable returned hcan =>
      rw [← Except.error.inj hcause]
      exact hopens.canPay_eq_error hcan
    | faulted fault
    | unaffordable returned hcan
    | merged returned hcan hcommit => cases hcause
  · cases hopens.closed hs hx hleft with
    | recovered hrecovered hfailed => rw [hrecovered.arena_eq]
    | stuck returned cause => cases hnone
    | merged returned hcan hcommit hlinked hsize hbelow =>
      rw [Scope.merged_eq]
      exact congrArg (· - 1) hsize

namespace Application

/-- A message that is settled at once. -/
theorem calm_settled (hs : s.Sound) (hsolvent : Solvent ⟨m, s⟩) {result : Except Fatal Receipt}
    (henter : s.enter m = (.settled result, t)) : Calm ⟨m, s⟩ := by
  have happly := State.apply_settled hs henter
  have hentered := State.entered_enter hs m
  rw [henter] at hentered
  refine ⟨?_, fun _ => ?_⟩
  · rw [returns_settled hs henter]
    refine firstUnreadable_singleton fun cause hfatal => ?_
    rw [Return.fatal?, fatal?, Application.result, happly] at hfatal
    obtain rfl := fatalOf?_eq_some_iff.mp hfatal
    cases State.verdict_enter hs henter with
    | unreadable hinternal hbalance => exact ⟨_, effectiveBalance_eq_error hbalance⟩
    | unaffordable hinternal htarget hbalance hpoor => exact absurd henter (hsolvent _ _ _ _)
  · show (s.apply m).2.arena.top = s.arena.top
    rw [happly]
    cases hentered <;> rfl

/-- **One message, with all below it**, as long as code makes up no fatals. -/
theorem calm_apply (hrelays : start.Relays) (hs : s.Sound) (m : Message)
    (hsolvent : Solvent ⟨m, s⟩) (hcalm : fatals returns = [])
    (hcourse : ∀ scope t, s.enter m = (.opened scope, t) → ∃ waiting,
      Moment.External start returns (.running waiting scope.program ⟨scope.frame, t⟩)) :
    Calm ⟨m, s⟩ := by
  refine Application.induction (Q := fun a => ∀ {returns}, a.Solvent → fatals returns = [] →
    (∀ scope t, a.state.enter a.message = (.opened scope, t) → ∃ waiting,
      Moment.External start returns (.running waiting scope.program ⟨scope.frame, t⟩)) →
    a.Calm) ?_ hs m hsolvent hcalm hcourse
  intro s m hs ih returns hsolvent hcalm hcourse
  have happlied := State.applied_apply hs m
  have hresult : result ⟨m, s⟩ = s.apply m := rfl
  generalize s.apply m = r at happlied hresult
  cases happlied with
  | settled henter hentered => exact calm_settled hs hsolvent henter
  | @left scope t outcome x r henter hopens hrun hx hleft =>
    obtain ⟨waiting, hbegins⟩ := hcourse scope t henter
    have hstart : Active.InStep ⟨scope.frame, t⟩ := hopens.layer_eq
    have hends := hbegins.run
    obtain ⟨hfirst, hstep⟩ := hstart.calm_run hopens.within hbegins hcalm
      fun {returns q next y n} hy hnone hy' hissue =>
        ih hopens hy ⟨q, hissue⟩ (solvent_issued hy.sound ⟨q, hissue⟩) hnone
          fun inner u hinner => ⟨_, hy'.nested hissue hinner⟩
    rw [hrun] at hends hstep
    have hleaves := fun hnone => hopens.calm_left hs hx (hstep hnone) (fun cause hfatal => by
      -- no fatal has come back yet that the code could end in
      dsimp only at hends
      rw [hfatal] at hends
      have hmem := hrelays _ _ _ _ hends
      rw [fatals_append, hcalm, hnone] at hmem
      cases hmem) hleft
    refine ⟨?_, fun hnone => ?_⟩
    · rw [returns_opened hs henter]
      refine hfirst.append fun hnone => firstUnreadable_singleton fun cause hfatal => ?_
      rw [Return.fatal?, fatal?, hresult] at hfatal
      exact ⟨_, (hleaves hnone).1 cause (fatalOf?_eq_some_iff.mp hfatal)⟩
    · rw [returns_opened hs henter, fatals_append, List.append_eq_nil_iff] at hnone
      have hcalm' : fatalOf? r.1 = none := by
        rw [← hresult]
        exact List.filterMap_eq_nil_iff.mp hnone.2 _ List.mem_cons_self
      show (result ⟨m, s⟩).2.arena.top = s.arena.top
      rw [hresult]
      exact (hleaves hnone.1).2 hcalm'

end Application

end

/-! ### Whole transactions -/

namespace Moment

/-- Between messages only the root is open. While code runs, its layer, the current one and the top
one are the same. -/
def InStep : Moment ν → Prop
  | idle s => s.arena.depth = 0
  | running _ _ x => x.frame.layer = x.state.current ∧ x.state.current = x.state.arena.top

/-- **The layers are in step until the first fatal**, and that one is for a balance. -/
theorem inStep_course {config : Config} {vm : Vm ν} {backend : Backend} {transaction : Hash}
    {gasLimit : Gas} (hrelays : (State.new config vm backend transaction gasLimit).Relays)
    {returns : List (Return ν)} {μ : Moment ν}
    (hcourse : External (State.new config vm backend transaction gasLimit) returns μ) :
    FirstUnreadable returns ∧ (fatals returns = [] → μ.InStep) := by
  have hnew : (idle (State.new config vm backend transaction gasLimit)).Reached := .new _ _ _ _ _
  induction hcourse with
  | start => exact ⟨firstUnreadable_of_nil rfl, fun _ => rfl⟩
  | @applied returns s m h hadmits ih =>
    have hs : s.Sound := (h.reached hnew).sound
    have hcalm := fun hnone => Application.calm_apply hrelays hs m
      (Application.solvent_external hs hadmits) hnone
      fun scope t henter => ⟨_, h.entered hadmits henter⟩
    refine ⟨ih.1.append fun hnone => (hcalm hnone).first, fun hnone => ?_⟩
    rw [fatals_append, List.append_eq_nil_iff] at hnone
    exact ((hcalm hnone.1).top_eq hnone.2).trans (ih.2 hnone.1)
  | @entered returns s t m scope h hadmits henter ih =>
    have hopens := State.opens_of_enter (h.reached hnew).sound henter
    have hcurrent := hopens.sound.current_eq
    exact ⟨ih.1, fun _ => ⟨hopens.layer_eq.trans hcurrent.symm, hcurrent⟩⟩
  | nested h hissue henter ih =>
    have hopens := State.opens_of_enter (h.reached hnew).sound.state henter
    have hcurrent := hopens.sound.current_eq
    exact ⟨ih.1, fun _ => ⟨hopens.layer_eq.trans hcurrent.symm, hcurrent⟩⟩
  | @asked returns waiting q next x h ih =>
    have hx : x.state.Sound := (h.reached hnew).sound.state
    have hanswered := (h.reached hnew).asked.sound.state
    have hcalm := fun hnone : fatals returns = [] =>
      Active.InStep.calm_answer ((ih.2 hnone).1.trans (ih.2 hnone).2) hx fun n hissue =>
        Application.calm_apply hrelays hx n (Application.solvent_issued hx ⟨q, hissue⟩) hnone
          fun scope t henter => ⟨_, h.nested hissue henter⟩
    refine ⟨ih.1.append fun hnone => (hcalm hnone).1, fun hnone => ?_⟩
    rw [fatals_append, List.append_eq_nil_iff] at hnone
    have htop := (hcalm hnone.1).2 hnone.2
    have hcurrent := hanswered.current_eq
    exact ⟨htop.trans hcurrent.symm, hcurrent⟩
  | noted h ih => exact ih
  | recalled h ih => exact ih

end Moment

/-- **The first fatal of a transaction is a balance out of range.** Take any machine that makes up no
fatals, and any transaction of external messages. At every moment, while code runs at any depth and in
between, the first fatal with which an operation has come back so far, if there is one, is that. Until
then the layer of the frame, the current one and the top one are the same whenever code runs, and the
transaction can finish whenever none does. A balance that is read fails with no other fatal at all, and
no message that a frame issues is ever refused as a create that its sender cannot pay. -/
theorem first_fatal_unreadable {vm : Vm ν} (hvm : vm.Relays) {config : Config} {backend : Backend}
    {transaction : Hash} {gasLimit : Gas} {returns : List (Return ν)} {μ : Moment ν}
    (hcourse : Moment.External (State.new config vm backend transaction gasLimit) returns μ) :
    (∀ cause, (fatals returns).head? = some cause → ∃ address, cause = .balanceOutOfRange address) ∧
    (∀ address cause, μ.state.balance address = .error cause → cause = .balanceOutOfRange address) ∧
    (∀ waiting program x, μ = .running waiting program x →
      (fatals returns = [] →
        x.frame.layer = x.state.current ∧ x.state.current = x.state.arena.top) ∧
      ∀ q n sender amount balance t, x.issueOf q = some (.issued n) →
        x.state.enter n ≠ (.settled (.error (.unaffordableCreate sender amount balance)), t)) ∧
    ∀ s, μ = .idle s → fatals returns = [] → ∃ changeSet, s.finish = .ok changeSet := by
  obtain ⟨hfirst, hstep⟩ := Moment.inStep_course (hvm _ _ _ _) hcourse
  have hreached := hcourse.reached (.new _ _ _ _ _)
  refine ⟨hfirst, fun address cause hbalance => effectiveBalance_eq_error hbalance, ?_, ?_⟩
  · rintro waiting program x rfl
    refine ⟨hstep, fun q n sender amount balance t hissue => ?_⟩
    exact Application.solvent_issued hreached.sound.state ⟨q, hissue⟩ sender amount balance t
  · rintro s rfl hnone
    have hs : s.Sound := hreached.sound
    obtain ⟨changes, hfinish, -⟩ := Arena.finish_linked hs.linked (hstep hnone)
    exact ⟨⟨changes, s.logs, s.transfers⟩, by rw [State.finish, hfinish]⟩

/-! ### An unreadable balance -/

/-- Two contracts, of which the second one holds the greatest amount. -/
def twoContracts : Backend where
  block := ⟨0, 0⟩
  balance address := if address = 1 then 1 else if address = 2 then -1 else 0
  accounts address :=
    if address = 1 ∨ address = 2 then ⟨some [0], none, fun _ => none, true⟩ else .absent

/-- Methods named `pay` send one unit to the second contract. Methods named `look` read the balance of
their contract, and end in the fatal that they receive. -/
def frank : Vm Empty where
  create _ _ _ := .done (.ok none)
  call method _ _ :=
    if method.name = "pay" then .ask (.transfer 2 1) fun _ => .done (.ok none)
    else if method.name = "look" then
      .ask .balance fun
        | .error fatal => .done (.error (.fatal fatal))
        | .ok _ => .done (.ok none)
    else .done (.ok none)

theorem relays_frank : frank.Relays := by
  refine Vm.relays_of_programs ?_
  rintro program (⟨code, parameters, typeName, rfl⟩ | ⟨method, code, typeName, rfl⟩)
  · exact trivial
  · rw [frank]
    dsimp only
    split
    · exact fun _ => trivial
    · split
      · rintro (fatal | balance)
        · exact List.mem_cons_self
        · exact trivial
      · exact trivial

def frankState : State Empty := .new .standard frank twoContracts 0 10000

def payCall : Message := ⟨3, 0, 4000, .externalCall 1 ⟨"pay", []⟩⟩

def lookCall : Message := ⟨3, 0, 4000, .externalCall 2 ⟨"look", []⟩⟩

def paidState : State Empty := (frankState.apply payCall).2

-- the layers are in step while `look` runs, and then it receives the first fatal
theorem first_fatal_unreadable_of_look :
    (∃ returns program x, Moment.External frankState returns (.running [] program x) ∧
      x.frame.layer = x.state.current ∧ x.state.current = x.state.arena.top) ∧
    ∃ returns, Moment.External frankState returns (.idle (paidState.apply lookCall).2) ∧
      fatals returns = [.balanceOutOfRange 2, .balanceOutOfRange 2] ∧
      ∃ address, Fatal.balanceOutOfRange 2 = .balanceOutOfRange address := by
  have hpaid : Moment.External frankState ([] ++ Application.returns ⟨payCall, frankState⟩)
      (.idle paidState) := .applied .start rfl
  have hnone : fatals ([] ++ Application.returns ⟨payCall, frankState⟩) = [] := by decide +kernel
  have hlooked := hpaid.applied (m := lookCall) rfl
  have hfatals : fatals ([] ++ Application.returns ⟨payCall, frankState⟩
      ++ Application.returns ⟨lookCall, paidState⟩)
        = [.balanceOutOfRange 2, .balanceOutOfRange 2] := by
    decide +kernel
  obtain ⟨hfirst, -⟩ := first_fatal_unreadable relays_frank hlooked
  refine ⟨⟨_, _, _, hpaid.entered (m := lookCall) rfl rfl, ?_⟩, _, hlooked, hfatals,
    hfirst _ (congrArg List.head? hfatals)⟩
  obtain ⟨-, -, hstep, -⟩ :=
    first_fatal_unreadable relays_frank (hpaid.entered (m := lookCall) rfl rfl)
  exact (hstep _ _ _ rfl).1 hnone

end ContractExec
