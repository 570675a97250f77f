import ContractExec.Proofs.Consumption

/-!
# Nonces and gas

A create takes a nonce, and pays the base cost at least when its scope is left. Only a rollback gives
nonces back, and nothing gives gas back. So the worth of a state, its gas and the base cost of every
nonce that was taken, does not grow from message to message while any gas is left, and once none is
left no scope is opened any more. Unless the base cost is tiny, the budget is gone long before the
nonces are.

* `State.worth` — the gas that is left, and the base cost of every nonce that was taken;
* `Active.Funded`, `Application.Frugal`, `frugal_apply` — **an application that leaves gas leaves no
  more worth than it found**;
* `Application.constructs`, `nonce_opened` — a constructor takes one nonce, and other code none;
* `Application.NonceFits`, `nonce_le_apply` — the nonce does not decrease while it can be counted up;
* `Application.Affords`, `affords_tree` — bounds on the worth that hold for an application hold for all
  below it;
* `Moment.Funded`, `Reached.nonceFits` — **with a base cost of three units or more it can always be
  counted up**.
-/

namespace ContractExec

variable {ν : Type} {s t u : State ν} {m : Message} {scope : Scope ν} {x y : Active ν}

/-! ### Worth -/

/-- The gas that is left, and the base cost of every nonce that was taken. -/
def State.worth (s : State ν) : Nat :=
  s.config.baseCost.toNat * s.nonce.toNat + s.gasRemaining.toNat

/-- Opening a scope takes one nonce at most. -/
theorem State.Opens.worth_le (h : s.Opens m scope t) :
    t.worth ≤ s.worth + s.config.baseCost.toNat := by
  have hnonce : t.nonce.toNat ≤ s.nonce.toNat + 1 := by
    cases h.begins with
    | create htarget hconstructing hcontract hnonce hopen hwrite =>
      rw [hnonce, UInt64.toNat_add]
      exact Nat.mod_le _ _
    | call htarget hconstructing hcode hnonce hopen =>
      rw [hnonce]
      exact Nat.le_succ _
  have htaken := Nat.mul_le_mul_left s.config.baseCost.toNat hnonce
  rw [Nat.mul_succ] at htaken
  rw [worth, worth, h.gas_eq, h.continues.config_eq]
  omega

/-- Leaving a scope pays the base cost at least, as long as there is gas to pay with. -/
theorem State.worth_left {base limit : Gas} (hmetered : x.frame.Metered base limit)
    (hbase : x.state.config.baseCost = base) (hconfig : u.config = x.state.config)
    (hnonce : u.nonce = x.state.nonce)
    (hgas : u.gasRemaining = x.state.gasRemaining.sub x.frame.owed) (hleft : u.gasRemaining ≠ 0) :
    x.state.gasRemaining ≠ 0 ∧ u.worth + base.toNat ≤ x.state.worth := by
  have howed := hmetered.owed_add_nestedGas
  have hnested := hmetered.nested_le
  have hpaid : u.gasRemaining.toNat = x.state.gasRemaining.toNat - x.frame.owed.toNat := by
    rw [hgas, Gas.toNat_sub]
  have hsome : u.gasRemaining.toNat ≠ 0 := fun hnone => hleft (UInt64.toNat_inj.mp hnone)
  refine ⟨?_, ?_⟩
  · intro hnone
    rw [hnone] at hpaid
    exact hsome (hpaid.trans (Nat.zero_sub _))
  · rw [worth, worth, hconfig, hnonce, hbase]
    omega

/-! ### While code runs -/

namespace Application

/-- The worth of the state and the gas of the message are within bounds together. -/
def Affords (room : Nat) (a : Application ν) : Prop :=
  a.state.gasRemaining ≠ 0 → a.state.worth + a.message.gasLimit.toNat ≤ room

/-- An application that leaves gas leaves no more worth than it found. -/
def Frugal (a : Application ν) : Prop :=
  a.result.2.gasRemaining ≠ 0 → a.result.2.worth ≤ a.state.worth

end Application

/-- A frame with a sound meter, in a state whose worth is within bounds with the gas of the frame. The
base cost is on the meter already, and makes up for the nonce that the scope may have taken. -/
structure Active.Funded (base limit : Gas) (room : Nat) (x : Active ν) : Prop where
  metered : x.frame.Metered base limit
  worth_le : x.state.gasRemaining ≠ 0 → x.state.worth + limit.toNat ≤ room + base.toNat

/-- The scope of a message that is within bounds begins within them. -/
theorem State.Opens.funded {room : Nat} (h : s.Opens m scope t)
    (haffords : Application.Affords room ⟨m, s⟩) :
    Active.Funded s.config.baseCost m.gasLimit room ⟨scope.frame, t⟩ := by
  refine ⟨h.metered.1, fun hgas => ?_⟩
  have hroom : s.worth + m.gasLimit.toNat ≤ room := haffords (h.continues.gas_ne_zero hgas)
  have hworth := h.worth_le
  show t.worth + _ ≤ _
  omega

namespace Active.Funded

variable {base limit : Gas} {room : Nat}

theorem acted (h : x.Funded base limit room) (hacted : x.Acted y) : y.Funded base limit room := by
  obtain ⟨arena, logs, hstate⟩ := hacted.state_eq
  refine ⟨hacted.metered h.metered, ?_⟩
  rw [hstate]
  exact h.worth_le

theorem followed (h : x.Funded base limit room) (hx : x.state.Sound) {n : Message}
    (hissues : x.Issues n) (hfrugal : Application.Frugal ⟨n, x.state⟩) :
    Active.Funded base limit room (x.follow (fun m s => s.apply m) (.issued n)).2 := by
  refine ⟨(Application.metered_followed h.metered hissues (Application.billed hx n)).1, ?_⟩
  rw [state_follow]
  intro hgas
  have hbefore := (State.transition_apply hx n).later.gas_ne_zero hgas
  exact Nat.le_trans (Nat.add_le_add_right (hfrugal hgas) _) (h.worth_le hbefore)

/-- What a frame issues is within the bounds of the frame: it is for less gas, by the base cost at
least. -/
theorem affords (h : x.Funded base limit room) {n : Message} (hissues : x.Issues n) :
    Application.Affords room ⟨n, x.state⟩ := by
  intro hgas
  have hworth := h.worth_le hgas
  have hlimit := UInt64.le_iff_toNat_le.mp hissues.gasLimit_le
  have hnested := h.metered.nested_le
  have hconsumed := UInt64.le_iff_toNat_le.mp h.metered.consumed_le
  rw [Meter.toNat_available, h.metered.limit_eq] at hlimit
  show x.state.worth + n.gasLimit.toNat ≤ room
  omega

end Active.Funded

/-! ### Applications -/

namespace Application

/-- **An application that leaves gas leaves no more worth than it found.** -/
theorem frugal_apply (hs : s.Sound) (m : Message) : Frugal ⟨m, s⟩ := by
  refine Application.induction (Q := Frugal) ?_ hs m
  intro s m hs ih
  have happlied := State.applied_apply hs m
  show (s.apply m).2.gasRemaining ≠ 0 → (s.apply m).2.worth ≤ s.worth
  generalize s.apply m = r at happlied
  intro hleft
  cases happlied with
  | settled henter hentered =>
    cases hentered with
    | failed gas failure hgas =>
      exact Nat.add_le_add_left (UInt64.le_iff_toNat_le.mp (State.gasRemaining_debit_le _ gas)) _
    | fatal cause => exact Nat.le_refl _
    | paid target hbalance hpay => exact Nat.le_refl _
  | @left scope t outcome x r henter hopens hrun hx hleave =>
    have hend := hopens.run_issued henter hrun
      (J := fun _ x => x.Funded s.config.baseCost m.gasLimit (s.worth + m.gasLimit.toNat))
      (fun _ h hacted => h.acted hacted)
      (fun hx h hissues => h.followed hx.sound hissues (ih hopens hx hissues))
      (fun _ h => ⟨h.metered, h.worth_le⟩) (hopens.funded fun _ => Nat.le_refl _)
    have hconfig : x.state.config = s.config := (hopens.continues_within hx).config_eq
    have hgas := hleave.gas_eq.1
    cases hopens.closed hs hx hleave with
    | recovered hrecovered hfailed =>
      have hspent := UInt64.le_iff_toNat_le.mp hrecovered.1
      rw [hrecovered.2]
      exact Nat.add_le_add_left hspent _
    | stuck returned cause =>
      obtain ⟨hbefore, hpaid⟩ := State.worth_left (u := x.state.debit x.frame.owed) hend.metered
        (by rw [hconfig]) rfl rfl hgas hleft
      have hbound := hend.worth_le hbefore
      show (x.state.debit x.frame.owed).worth ≤ s.worth
      omega
    | merged returned hcan hcommit hlinked hsize hbelow =>
      obtain ⟨hbefore, hpaid⟩ := State.worth_left hend.metered (by rw [hconfig])
        (by rw [Scope.merged_eq]; rfl) (by rw [Scope.merged_eq]; rfl) hgas hleft
      have hbound := hend.worth_le hbefore
      omega

/-! ### Taking nonces -/

/-- An application that takes a nonce takes one that has a successor. -/
def NonceFits (a : Application ν) : Prop :=
  ∀ scope t, a.state.enter a.message = (.opened scope, t) → scope.frame.constructing = true →
    a.state.nonce.toNat + 1 < UInt64.size

/-- Whether a constructor runs for the message. -/
def constructs (a : Application ν) : Bool :=
  match a.state.enter a.message with
  | (.settled _, _) => false
  | (.opened scope, _) => scope.frame.constructing

theorem constructs_settled {result : Except Fatal Receipt}
    (henter : s.enter m = (.settled result, t)) : constructs ⟨m, s⟩ = false := by
  rw [constructs, henter]

theorem constructs_opened (henter : s.enter m = (.opened scope, t)) :
    constructs ⟨m, s⟩ = scope.frame.constructing := by
  rw [constructs, henter]

/-- Entering takes a nonce if a constructor runs then, and counts on from it while it can. -/
theorem nonce_opened (henter : s.enter m = (.opened scope, t)) (hopens : s.Opens m scope t)
    (hfits : NonceFits ⟨m, s⟩) :
    t.nonce.toNat = s.nonce.toNat + (constructs ⟨m, s⟩).toNat := by
  rw [constructs_opened henter]
  cases hopens.begins with
  | create htarget hconstructing hcontract hnonce hopen hwrite =>
    have hsmall : s.nonce.toNat + 1 < 2 ^ 64 := hfits scope t henter hconstructing
    rw [hconstructing, hnonce, UInt64.toNat_add]
    exact Nat.mod_eq_of_lt hsmall
  | call htarget hconstructing hcode hnonce hopen =>
    rw [hconstructing, hnonce]
    rfl

theorem nonce_le_opened (henter : s.enter m = (.opened scope, t)) (hopens : s.Opens m scope t)
    (hfits : NonceFits ⟨m, s⟩) : s.nonce ≤ t.nonce := by
  rw [UInt64.le_iff_toNat_le, nonce_opened henter hopens hfits]
  exact Nat.le_add_right _ _

/-- **The nonce does not decrease**, however a message ends, while there are nonces left. -/
theorem nonce_le_apply (hs : s.Sound) (m : Message)
    (hfits : ∀ b ∈ tree ⟨m, s⟩, b.NonceFits) : s.nonce ≤ (s.apply m).2.nonce := by
  refine Application.induction
    (Q := fun a => (∀ b ∈ a.tree, b.NonceFits) → a.state.nonce ≤ a.result.2.nonce) ?_ hs m hfits
  intro s m hs ih hfits
  have happlied := State.applied_apply hs m
  show s.nonce ≤ (s.apply m).2.nonce
  generalize s.apply m = r at happlied
  cases happlied with
  | settled henter hentered => cases hentered <;> exact UInt64.le_refl _
  | @left scope t outcome x r henter hopens hrun hx hleft =>
    have hstart := nonce_le_opened henter hopens (hfits _ List.mem_cons_self)
    have hend : s.nonce ≤ x.state.nonce := by
      refine (hopens.run_tree hs henter hrun hfits (J := fun x => s.nonce ≤ x.state.nonce)
        (fun {x y} _ h hacted => ?_) (fun {x n} hx h hissues hall => ?_) (fun _ h => h) hstart).1
      · obtain ⟨arena, logs, hstate⟩ := hacted.state_eq
        rw [hstate]
        exact h
      · rw [Active.state_follow]
        exact UInt64.le_trans h (ih hopens hx hissues hall)
    rcases (hopens.closed hs hx hleft).nonce_cases with hrestored | hkept
    · rw [hrestored]
      exact UInt64.le_refl _
    · rw [hkept]
      exact hend

/-! ### Messages within messages -/

/-- All applications of a tree belong to one transaction, and none is made at a lower nonce than the
first. -/
theorem nonce_le_tree (hs : s.Sound) (hfits : ∀ b ∈ tree ⟨m, s⟩, b.NonceFits) :
    ∀ b ∈ tree ⟨m, s⟩, b.state.transaction = s.transaction ∧ s.nonce ≤ b.state.nonce := by
  have hall := forall_mem_tree (a := ⟨m, s⟩)
    (P := fun a => (∀ b ∈ a.tree, b.NonceFits) ∧
      a.state.transaction = s.transaction ∧ s.nonce ≤ a.state.nonce) ?_ hs
    ⟨hfits, rfl, UInt64.le_refl _⟩
  · exact fun b hb => (hall b hb).2
  rintro ⟨n, u⟩ hu ⟨hfits, htransaction, hnonce⟩ b hb
  refine ⟨fun c hc => hfits c ((mem_tree_iff hu).mpr (.inr ⟨b, hb, hc⟩)), ?_⟩
  rcases henter : u.enter n with ⟨result | scope, t⟩
  · rw [issued_settled henter] at hb
    nomatch hb
  have hopens := State.opens_of_enter hu henter
  have hopened := nonce_le_opened henter hopens (hfits _ List.mem_cons_self)
  have hstart : t.transaction = s.transaction ∧ s.nonce ≤ t.nonce :=
    ⟨hopens.continues.transaction_eq.trans htransaction, UInt64.le_trans hnonce hopened⟩
  have hmade := hopens.run_tree hu henter rfl hfits
    (J := fun x => x.state.transaction = s.transaction ∧ s.nonce ≤ x.state.nonce)
    (fun {x y} _ h hacted => by
      obtain ⟨arena, logs, hstate⟩ := hacted.state_eq
      rw [hstate]
      exact h)
    (fun {x n} hx h hissues hall => by
      have hlater := (State.transition_apply hx.sound n).later
      rw [Active.state_follow]
      exact ⟨hlater.transaction_eq.trans h.1, UInt64.le_trans h.2 (nonce_le_apply hx.sound n hall)⟩)
    (fun _ h => h) hstart
  obtain ⟨x, -, hkept, -, hstate⟩ := hmade.2 b hb
  rw [hstate]
  exact hkept

/-- Bounds that hold for an application hold for all below it. -/
theorem affords_tree {room : Nat} (hs : s.Sound) (haffords : Affords room ⟨m, s⟩) :
    ∀ b ∈ tree ⟨m, s⟩, b.state.Sound ∧ b.state.config = s.config ∧ b.Affords room := by
  refine forall_mem_tree (a := ⟨m, s⟩)
    (P := fun a => a.state.Sound ∧ a.state.config = s.config ∧ a.Affords room) ?_ hs
    ⟨hs, rfl, haffords⟩
  rintro ⟨n, u⟩ hu ⟨-, hconfig, haffords⟩ b hb
  rcases henter : u.enter n with ⟨result | scope, t⟩
  · rw [issued_settled henter] at hb
    nomatch hb
  have hopens := State.opens_of_enter hu henter
  obtain ⟨-, hmade⟩ := hopens.run_tree hu henter rfl (F := fun _ => True) (fun _ _ => trivial)
    (J := fun x => x.Funded u.config.baseCost n.gasLimit room)
    (fun _ h hacted => h.acted hacted)
    (fun {x n} hx h hissues _ => h.followed hx.sound hissues (frugal_apply hx.sound n))
    (fun _ h => ⟨h.metered, h.worth_le⟩) (hopens.funded haffords)
  obtain ⟨x, hx, hfunded, hissues, hstate⟩ := hmade b hb
  obtain ⟨message, state⟩ := b
  subst hstate
  exact ⟨hx.sound, (hopens.continues_within hx).config_eq.trans hconfig, hfunded.affords hissues⟩

/-- Where the base cost is three units or more, a create that is within three budgets takes a nonce
that has a successor. -/
theorem Affords.nonceFits {a : Application ν} (h : a.Affords (3 * Gas.greatest))
    (hs : a.state.Sound) (hbase : 3 ≤ a.state.config.baseCost.toNat) : a.NonceFits := by
  intro scope t henter hconstructing
  have hcovers := (State.opens_of_enter hs henter).covers_eq
  simp only [State.covers, Bool.and_eq_true, decide_eq_true_iff] at hcovers
  obtain ⟨⟨hbudget, hpaid⟩, hlimit⟩ := hcovers
  rw [UInt64.le_iff_toNat_le] at hpaid hlimit
  have hgas : a.state.gasRemaining ≠ 0 := by
    intro hnone
    rw [hnone, UInt64.toNat_zero] at hpaid
    omega
  have hworth := h hgas
  rw [State.worth] at hworth
  -- the nonces taken, this one and a further one are paid for by three budgets
  have htaken : a.state.config.baseCost.toNat * (a.state.nonce.toNat + 2)
      ≤ a.state.config.baseCost.toNat * Gas.greatest := by
    have hbudgets := Nat.mul_le_mul_right Gas.greatest hbase
    rw [Nat.mul_add]
    omega
  have hfits := Nat.le_of_mul_le_mul_left htaken (by omega)
  show a.state.nonce.toNat + 1 < Gas.greatest + 1
  omega

end Application

/-! ### Moments -/

namespace Moment

/-- Between messages the worth is within the greatest budget. While code runs it is so with the gas of
the frame, which is another one at most. -/
def Funded : Moment ν → Prop
  | idle s => s.gasRemaining ≠ 0 → s.worth ≤ Gas.greatest
  | running _ _ x => ∃ limit, x.Funded x.state.config.baseCost limit (2 * Gas.greatest)

namespace Reached

variable {μ : Moment ν}

/-- **Every reached moment is funded.** -/
theorem funded (h : μ.Reached) : μ.Funded := by
  induction h with
  | new config vm backend transaction gasLimit =>
    intro hgas
    have hsmall := gasLimit.toNat_lt
    show config.baseCost.toNat * 0 + gasLimit.toNat ≤ 2 ^ 64 - 1
    omega
  | @applied s m hs ih =>
    intro hgas
    have hbefore := (State.transition_apply hs.sound m).later.gas_ne_zero hgas
    exact Nat.le_trans (Application.frugal_apply hs.sound m hgas) (ih hbefore)
  | @entered s t m scope hs henter ih =>
    have hopens := State.opens_of_enter hs.sound henter
    have hsmall := m.gasLimit.toNat_lt
    have haffords : Application.Affords (2 * Gas.greatest) ⟨m, s⟩ := by
      intro hgas
      have hworth : s.worth ≤ 2 ^ 64 - 1 := ih hgas
      show s.worth + m.gasLimit.toNat ≤ 2 * (2 ^ 64 - 1)
      omega
    have hfunded := hopens.funded haffords
    rw [← hopens.continues.config_eq] at hfunded
    exact ⟨_, hfunded⟩
  | @nested waiting q next x t m scope hx hissue henter ih =>
    obtain ⟨limit, hfunded⟩ := ih
    have hopens := State.opens_of_enter hx.sound.state henter
    have hnested := hopens.funded (hfunded.affords ⟨q, hissue⟩)
    rw [← hopens.continues.config_eq] at hnested
    exact ⟨_, hnested⟩
  | @asked waiting q next x hx ih =>
    obtain ⟨limit, hfunded⟩ := ih
    show ∃ limit, Active.Funded _ limit _ (x.answer (fun m s => s.apply m) q).2
    rcases x.acted_or_issued (fun m s => s.apply m) q with ⟨-, hacted⟩ | ⟨m, -, hissues, hfollow⟩
    · obtain ⟨arena, logs, hstate⟩ := hacted.state_eq
      refine ⟨limit, ?_⟩
      rw [hstate]
      exact hfunded.acted hacted
    · have hs : x.state.Sound := hx.sound.state
      refine ⟨limit, ?_⟩
      rw [hfollow, Active.state_follow, (State.transition_apply hs m).later.config_eq]
      exact hfunded.followed hs hissues (Application.frugal_apply hs m)
  | noted hx ih =>
    obtain ⟨limit, hfunded⟩ := ih
    exact ⟨limit, hfunded.metered, hfunded.worth_le⟩
  | recalled hx ih => exact ih

/-- **With a base cost of three units or more, nonces can always be counted up**, at every moment and
for all applications below. -/
theorem nonceFits (h : μ.Reached) (hbase : 3 ≤ μ.state.config.baseCost) (m : Message) :
    ∀ b ∈ Application.tree ⟨m, μ.state⟩, b.NonceFits := by
  have hlimit := m.gasLimit.toNat_lt
  have haffords : Application.Affords (3 * Gas.greatest) ⟨m, μ.state⟩ := by
    intro hgas
    have hworth : μ.state.worth ≤ 2 * Gas.greatest := by
      have hfunded := h.funded
      cases μ with
      | idle s =>
        have hworth : s.worth ≤ Gas.greatest := hfunded hgas
        exact Nat.le_trans hworth (Nat.le_mul_of_pos_left _ (by decide))
      | running waiting program x =>
        obtain ⟨limit, hmetered, hworth⟩ := hfunded
        have hnested := hmetered.nested_le
        have hconsumed := UInt64.le_iff_toNat_le.mp hmetered.consumed_le
        have hwithin := hworth hgas
        show x.state.worth ≤ _
        omega
    show μ.state.worth + m.gasLimit.toNat ≤ 3 * (2 ^ 64 - 1)
    have hbudgets : 2 * Gas.greatest = 2 * (2 ^ 64 - 1) := rfl
    omega
  intro b hb
  obtain ⟨hsound, hconfig, hwithin⟩ := Application.affords_tree h.sound.state haffords b hb
  refine hwithin.nonceFits hsound ?_
  rw [hconfig]
  exact UInt64.le_iff_toNat_le.mp hbase

end Reached

end Moment

end ContractExec
