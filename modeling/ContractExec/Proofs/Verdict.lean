import ContractExec.Proofs.Application

/-!
# Messages that open no scope

A message that is settled at once never runs code. What settles it is the first thing that is found
wanting: the sender's balance, the code at the target, the gas, the name of the method. Only a
transfer to an address without code is settled with a success.

* `State.Eligible` — the sender can pay, and there is code to run: the message comes to the gas check;
* `State.Verdict`, `verdict_enter` — **why a message is settled with what it is settled with**;
* `apply_eq_insufficientGas_iff` — an eligible message fails for gas if and only if its scope is not
  covered.
-/

namespace ContractExec

variable {ν : Type}

namespace State

/-- The sender of an internal message can pay its amount, and what is called has code. -/
structure Eligible (s : State ν) (m : Message) : Prop where
  affordable : m.isInternal = true →
    ∃ balance, s.balance m.sender = .ok balance ∧ m.amount ≤ balance
  coded : ∀ target, m.target? = some target → ∃ code, s.contractCode? target = some code

/-- What a message can be settled with, and why. -/
inductive Verdict (s : State ν) (m : Message) : Except Fatal Receipt → Prop where
  | insufficientGas :
      s.Eligible m → s.covers m.gasLimit = false → Verdict s m (.ok (.failed 0 .insufficientGas))
  | noMethodName :
      s.Eligible m → s.covers m.gasLimit = true →
      Verdict s m (.ok (.failed s.config.baseCost .noMethodName))
  | insufficientBalance {balance : Amount} :
      m.isInternal = true → s.balance m.sender = .ok balance → balance < m.amount →
      Verdict s m (.ok (.failed 0 .insufficientBalance))
  | noCode {target : Address} :
      m.target? = some target → s.contractCode? target = none →
      Verdict s m (.ok (.failed 0 .noCode))
  | paid {target : Address} :
      m.action = .contractTransfer target → s.contractCode? target = none →
      Verdict s m (.ok (.succeeded 0 target none))
  | unreadable {cause : Fatal} :
      m.isInternal = true → s.balance m.sender = .error cause → Verdict s m (.error cause)
  | unaffordable {balance : Amount} :
      m.isInternal = true → m.target? = none → s.balance m.sender = .ok balance →
      balance < m.amount → Verdict s m (.error (.unaffordableCreate m.sender m.amount balance))

/-- If a message is settled, it is for some reason. -/
def Judged (s : State ν) (m : Message) (e : Entrance ν) : Prop :=
  ∀ result, e = .settled result → s.Verdict m result

variable {s t : State ν} {m : Message}

theorem Eligible.of_create (htarget : m.target? = none)
    (haffordable : m.isInternal = true →
      ∃ balance, s.balance m.sender = .ok balance ∧ m.amount ≤ balance) : s.Eligible m where
  affordable := haffordable
  coded target hsome := by
    rw [htarget] at hsome
    cases hsome

theorem Eligible.of_code {target : Address} {code : Bytes} (htarget : m.target? = some target)
    (hcode : s.contractCode? target = some code)
    (haffordable : m.isInternal = true →
      ∃ balance, s.balance m.sender = .ok balance ∧ m.amount ≤ balance) : s.Eligible m where
  affordable := haffordable
  coded other hother := by
    rw [htarget] at hother
    rw [← Option.some.inj hother]
    exact ⟨code, hcode⟩

theorem Eligible.not_lt (h : s.Eligible m) (hinternal : m.isInternal = true) {balance : Amount}
    (hbalance : s.balance m.sender = .ok balance) : ¬balance < m.amount := by
  obtain ⟨other, hother, hpay⟩ := h.affordable hinternal
  rw [hbalance] at hother
  rw [Except.ok.inj hother]
  exact BitVec.not_lt.mpr hpay

theorem Eligible.contractCode?_ne_none (h : s.Eligible m) {target : Address}
    (htarget : m.target? = some target) : s.contractCode? target ≠ none := by
  obtain ⟨code, hcode⟩ := h.coded target htarget
  rw [hcode]
  nofun

theorem Verdict.judged {result : Except Fatal Receipt} (h : s.Verdict m result) :
    s.Judged m (.settled result) := by
  intro other hsettled
  injection hsettled with hsame
  rw [← hsame]
  exact h

theorem judged_opened (scope : Scope ν) : s.Judged m (.opened scope) := nofun

theorem judged_openCreate (hs : s.Sound) (h : s.Eligible m) (code : Bytes)
    (parameters : List Value) (typeName : Option String) :
    s.Judged m ((s.announce m).openCreate m code parameters typeName).1 := by
  rw [openCreate]
  split
  case isFalse hcovers =>
    exact Verdict.judged (.insufficientGas h (Bool.eq_false_iff.mpr hcovers))
  case isTrue =>
    -- the current layer is the top one, so it is opened on and the new one is written
    obtain ⟨opened, hopen, -, hwritable⟩ := hs.exists_opened
    obtain ⟨written, hwrite, -⟩ := hwritable (Address.derive s.transaction s.nonce) .create
    dsimp only [announce, emit]
    rw [hopen]
    dsimp only
    rw [hwrite]
    exact judged_opened _

theorem judged_openCall (hs : s.Sound) (h : s.Eligible m) (target : Address) (method : MethodCall)
    (code : Bytes) : s.Judged m ((s.announce m).openCall m target method code).1 := by
  rw [openCall]
  split
  case isFalse hcovers =>
    exact Verdict.judged (.insufficientGas h (Bool.eq_false_iff.mpr hcovers))
  case isTrue hcovers =>
    split
    case isFalse =>
      exact Verdict.judged (.noMethodName h hcovers)
    case isTrue =>
      obtain ⟨opened, hopen, -⟩ := hs.exists_opened
      dsimp only [announce, emit]
      rw [hopen]
      exact judged_opened _

theorem judged_callCode (hs : s.Sound) {target : Address} (htarget : m.target? = some target)
    (haffordable : m.isInternal = true →
      ∃ balance, s.balance m.sender = .ok balance ∧ m.amount ≤ balance) (method : MethodCall) :
    s.Judged m ((s.announce m).callCode m target method).1 := by
  rw [callCode]
  split
  case h_1 hnone =>
    exact Verdict.judged (.noCode htarget hnone)
  case h_2 code hcode =>
    exact judged_openCall hs (.of_code htarget hcode haffordable) target method code

theorem judged_ifAffordable (hinternal : m.isInternal = true)
    {act : State ν → Entrance ν × State ν}
    (hact : (∃ balance, s.balance m.sender = .ok balance ∧ m.amount ≤ balance) →
      s.Judged m (act (s.announce m)).1) :
    s.Judged m ((s.announce m).ifAffordable m act).1 := by
  rw [ifAffordable]
  split
  case h_1 hbalance =>
    exact Verdict.judged (.unreadable hinternal hbalance)
  case h_2 balance hbalance =>
    split
    case isTrue hpoor =>
      exact Verdict.judged (.insufficientBalance hinternal hbalance hpoor)
    case isFalse hpay => exact hact ⟨balance, hbalance, BitVec.not_lt.mp hpay⟩

/-- **What is settled at once is settled for one of these reasons.** -/
theorem verdict_enter (hs : s.Sound) {result : Except Fatal Receipt}
    (h : s.enter m = (.settled result, t)) : s.Verdict m result := by
  have hinternal : m.isInternal = m.action.isInternal := rfl
  have htarget : m.target? = m.action.target? := rfl
  have hjudged : s.Judged m (s.enter m).1 := by
    rw [enter]
    cases haction : m.action with
    | externalCreate code parameters typeName =>
      rw [haction] at hinternal htarget
      refine judged_openCreate hs (.of_create htarget fun hyes => ?_) code parameters typeName
      rw [hinternal] at hyes
      cases hyes
    | internalCreate parameters typeName =>
      rw [haction] at hinternal htarget
      dsimp only
      split
      case h_1 hbalance =>
        exact Verdict.judged (.unreadable hinternal hbalance)
      case h_2 balance hbalance =>
        split
        case isTrue hpoor =>
          exact Verdict.judged (.unaffordable hinternal htarget hbalance hpoor)
        case isFalse hpay =>
          have heligible : s.Eligible m :=
            .of_create htarget fun _ => ⟨balance, hbalance, BitVec.not_lt.mp hpay⟩
          exact judged_openCreate hs heligible _ _ _
    | externalCall target method =>
      rw [haction] at hinternal htarget
      refine judged_callCode hs htarget (fun hyes => ?_) method
      rw [hinternal] at hyes
      cases hyes
    | internalCall target method =>
      rw [haction] at hinternal htarget
      exact judged_ifAffordable hinternal fun haffordable =>
        judged_callCode hs htarget (fun _ => haffordable) method
    | contractTransfer target =>
      rw [haction] at hinternal htarget
      refine judged_ifAffordable hinternal fun haffordable => ?_
      split
      case h_1 hnone =>
        exact Verdict.judged (.paid haction hnone)
      case h_2 code hcode =>
        exact judged_openCall hs (.of_code htarget hcode fun _ => haffordable) _ _ _
  exact hjudged result (congrArg Prod.fst h)

/-- **The gas check.** An eligible message fails for gas if and only if its scope is not covered, and
pays nothing then. -/
theorem apply_eq_insufficientGas_iff (hs : s.Sound) (h : s.Eligible m) (gas : Gas) :
    (s.apply m).1 = .ok (.failed gas .insufficientGas) ↔ gas = 0 ∧ s.covers m.gasLimit = false := by
  have happlied := applied_apply hs m
  generalize s.apply m = r at happlied
  cases happlied with
  | @settled result t henter hentered =>
    cases verdict_enter hs henter with
    | insufficientGas heligible hcovers => simp [hcovers, eq_comm]
    | noMethodName heligible hcovers => simp [hcovers]
    | insufficientBalance hinternal hbalance hpoor
    | unaffordable hinternal htarget hbalance hpoor => exact absurd hpoor (h.not_lt hinternal hbalance)
    | unreadable hinternal hbalance =>
      obtain ⟨balance, hreadable, -⟩ := h.affordable hinternal
      rw [hbalance] at hreadable
      cases hreadable
    | noCode htarget hnone => exact absurd hnone (h.contractCode?_ne_none htarget)
    | paid haction hnone =>
      exact absurd hnone (h.contractCode?_ne_none (congrArg Action.target? haction))
  | left henter hopens hrun hx hleft =>
    have hcovers := hopens.covers_eq
    cases hleft <;> simp [hcovers]

end State

end ContractExec
