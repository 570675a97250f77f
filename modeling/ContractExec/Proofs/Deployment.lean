import ContractExec.Proofs.Arena.Creation
import ContractExec.Proofs.Confinement
import ContractExec.Proofs.Sequence

/-!
# Nonces and created accounts

A create takes a nonce in the state and creates an account in a layer. When it fails, the nonce comes
back from a snapshot, and the account goes with the layer. The two stay in step nonetheless: at every
moment the accounts that the layers have created are those at the addresses of the nonces below the
current one, whatever constructors call and whichever of the messages fail.

* `Application.constructors`, `sparing_run`, `sparing_apply` — a tree of messages takes **one nonce at
  most for each constructor that runs in it**;
* `State.Numbered`, `numbered_apply` — **the layers have created what the nonces below give**;
* `Application.taken`, `consecutive_apply` — the nonces of the creates that survive **follow one
  another without a gap**;
* `created_at_nonces` — what a transaction has created when it finishes.
-/

namespace ContractExec

variable {ν : Type}

/-! ### How many nonces are taken -/

namespace Application

variable {s t : State ν} {m : Message} {scope : Scope ν} {x y : Active ν}

/-- The number of constructors that run in a list of trees. -/
def constructors (l : List (Application ν)) : Nat := (l.flatMap tree).countP constructs

theorem constructors_append (l k : List (Application ν)) :
    constructors (l ++ k) = constructors l + constructors k := by
  rw [constructors, List.flatMap_append, List.countP_append]
  rfl

theorem constructors_singleton {a : Application ν} (hs : a.state.Sound) :
    constructors [a] = a.constructs.toNat + constructors a.issued := by
  rw [constructors, List.flatMap_singleton, tree, below_eq hs, List.countP_cons, constructors]
  cases a.constructs <;> simp [Nat.add_comm]

/-- Nothing below has a nonce too great, and none has taken more nonces than constructors have run. -/
def Sparing (a : Application ν) : Prop :=
  a.state.nonce.toNat + constructors [a] < UInt64.size →
    (∀ b ∈ a.tree, b.NonceFits) ∧ a.result.2.nonce.toNat ≤ a.state.nonce.toNat + constructors [a]

/-- If each message takes one nonce at most for each constructor in its tree, so do all together that
the code of a scope issues. -/
theorem sparing_run (henter : s.enter m = (.opened scope, t)) (hopens : s.Opens m scope t)
    {outcome : Outcome}
    (hrun : scope.program.run (fun m s => s.apply m) ⟨scope.frame, t⟩ = (outcome, x))
    (hsparing : ∀ {x : Active ν} {n : Message}, x.Within t → x.Issues n → Sparing ⟨n, x.state⟩)
    (hfew : t.nonce.toNat + constructors (issued ⟨m, s⟩) < UInt64.size) :
    (∀ b ∈ (issued ⟨m, s⟩).flatMap tree, b.NonceFits) ∧
      x.state.nonce.toNat ≤ t.nonce.toNat + constructors (issued ⟨m, s⟩) := by
  refine hopens.run_issued henter hrun
    (J := fun l x => t.nonce.toNat + constructors l < UInt64.size →
      (∀ b ∈ l.flatMap tree, b.NonceFits) ∧ x.state.nonce.toNat ≤ t.nonce.toNat + constructors l)
    (fun {l x y} _ h hacted => ?_) (fun {l x n} hx h hissues hfew => ?_) (fun _ h => h)
    (fun _ => ⟨List.forall_mem_nil _, Nat.le_add_right _ _⟩) hfew
  · obtain ⟨arena, logs, hstate⟩ := hacted.state_eq
    rw [hstate]
    exact h
  · rw [constructors_append] at hfew ⊢
    obtain ⟨hbefore, hnonce⟩ := h (by omega)
    obtain ⟨hmade, hadded⟩ := hsparing hx hissues (by dsimp only; omega)
    rw [List.flatMap_append, List.flatMap_singleton, List.forall_mem_append, Active.state_follow]
    dsimp only [result] at hadded
    exact ⟨⟨hbefore, hmade⟩, by omega⟩

/-- **A tree of messages takes one nonce at most for each constructor that runs in it.** As long as
they are not too many, no nonce is too great to be counted on from. -/
theorem sparing_apply (hs : s.Sound) (m : Message) : Sparing ⟨m, s⟩ := by
  refine Application.induction (Q := Sparing) ?_ hs m
  intro s m hs ih hfew
  rw [constructors_singleton hs] at hfew ⊢
  have hfits : NonceFits ⟨m, s⟩ := by
    intro scope t henter hconstructing
    rw [constructs_opened henter, hconstructing] at hfew
    show s.nonce.toNat + 1 < UInt64.size
    exact Nat.lt_of_le_of_lt (Nat.add_le_add_left (Nat.le_add_right 1 _) _) hfew
  have happlied := State.applied_apply hs m
  show (∀ b ∈ tree ⟨m, s⟩, b.NonceFits) ∧ (s.apply m).2.nonce.toNat ≤ s.nonce.toNat + _
  generalize s.apply m = r at happlied
  cases happlied with
  | settled henter hentered =>
    refine ⟨fun b hb => ?_, ?_⟩
    · rw [tree, below_eq hs, issued_settled henter] at hb
      rw [List.mem_singleton.mp hb]
      exact hfits
    · cases hentered <;> exact Nat.le_add_right _ _
  | @left scope t outcome x r henter hopens hrun hx hleft =>
    have hstart := nonce_opened henter hopens hfits
    obtain ⟨hbelow, hnonce⟩ := sparing_run henter hopens hrun (ih hopens)
      (by rw [hstart, Nat.add_assoc]; exact hfew)
    rw [hstart, Nat.add_assoc] at hnonce
    refine ⟨fun b hb => ?_, ?_⟩
    · rw [tree, below_eq hs] at hb
      rcases List.mem_cons.mp hb with rfl | hb
      · exact hfits
      · exact hbelow b hb
    · rcases (hopens.closed hs hx hleft).nonce_cases with hrestored | hkept
      · rw [hrestored]
        exact Nat.le_add_right _ _
      · rw [hkept]
        exact hnonce

end Application

/-! ### What was created -/

variable {s t : State ν} {m : Message} {scope : Scope ν} {x y : Active ν}

/-- The layers have created the accounts at the addresses that the nonces below the current one give,
and no others. -/
def State.Numbered (s : State ν) : Prop :=
  ∀ address, s.arena.creates address = true ↔
    ∃ k < s.nonce, address = Address.derive s.transaction k

theorem State.numbered_new (config : Config) (vm : Vm ν) (backend : Backend) (transaction : Hash)
    (gasLimit : Gas) : (State.new config vm backend transaction gasLimit).Numbered := by
  intro address
  have hnone : (State.new config vm backend transaction gasLimit).arena.creates address = false :=
    Arena.creates_new backend address
  rw [hnone]
  refine ⟨nofun, ?_⟩
  rintro ⟨k, hk, -⟩
  exact absurd hk UInt64.not_lt_zero

/-- A constructor's account is created at the nonce that is counted up for it. -/
theorem State.Numbered.opened (h : s.Numbered) (hs : s.Sound)
    (henter : s.enter m = (.opened scope, t)) (hopens : s.Opens m scope t)
    (hfits : Application.NonceFits ⟨m, s⟩) : t.Numbered := by
  intro address
  have htransaction := hopens.continues.transaction_eq
  cases hopens.begins with
  | create htarget hconstructing hcontract hnonce hopen hwrite =>
    have hlinked := (hs.linked.of_openLayer hopen).1
    have hsmall : s.nonce.toNat + 1 < 2 ^ 64 := hfits scope t henter hconstructing
    have hnext : ∀ k : UInt64, k < t.nonce ↔ k < s.nonce ∨ k = s.nonce := by
      intro k
      rw [hnonce, UInt64.lt_iff_toNat_lt, UInt64.lt_iff_toNat_lt, ← UInt64.toNat_inj,
        UInt64.toNat_add]
      show k.toNat < (s.nonce.toNat + 1) % 2 ^ 64 ↔ _
      omega
    rw [Arena.creates_write hlinked hwrite, Arena.creates_openLayer hs.linked hopen, Bool.or_eq_true,
      h address, decide_eq_true_iff, htransaction]
    simp only [hnext, or_and_right, exists_or, exists_eq_left, hcontract, true_and]
    exact or_comm
  | call htarget hconstructing hcode hnonce hopen =>
    rw [Arena.creates_openLayer hs.linked hopen, hnonce, htransaction]
    exact h address

/-- Code creates no account by itself. -/
theorem State.Numbered.acted (h : x.state.Numbered) (hx : x.state.Sound) (hacted : x.Acted y) :
    y.state.Numbered := by
  cases hacted with
  | paid hpaid =>
    rw [hpaid.state_eq]
    exact h
  | logged log hpaid =>
    rw [← hpaid.state_eq] at h
    exact h
  | @written y arena w hpaid hmay hwrite =>
    rw [← hpaid.state_eq] at h hx
    intro address
    have hother : ¬(w = .create ∧ address = y.contract) := by
      rintro ⟨rfl, -⟩
      exact hmay
    show arena.creates address = true ↔ _
    rw [Arena.creates_write hx.linked hwrite, decide_eq_false hother, Bool.false_or]
    exact h address

/-- **The layers have created what the nonces below give**, after every message, however it ends. -/
theorem State.numbered_apply (hs : s.Sound) (h : s.Numbered) (m : Message)
    (hfits : ∀ b ∈ Application.tree ⟨m, s⟩, b.NonceFits) : (s.apply m).2.Numbered := by
  refine Application.induction (Q := fun a => a.state.Numbered → (∀ b ∈ a.tree, b.NonceFits) →
    a.result.2.Numbered) ?_ hs m h hfits
  intro s m hs ih h hfits
  have happlied := State.applied_apply hs m
  show (s.apply m).2.Numbered
  generalize s.apply m = r at happlied
  cases happlied with
  | settled henter hentered => cases hentered <;> exact h
  | @left scope t outcome x r henter hopens hrun hx hleft =>
    have hend : x.state.Numbered := by
      refine (hopens.run_tree hs henter hrun hfits (J := fun x => x.state.Numbered)
        (fun hx h hacted => h.acted hx.sound hacted) (fun {x n} hx h hissues hall => ?_)
        (fun _ h => h) (h.opened hs henter hopens (hfits _ List.mem_cons_self))).1
      rw [Active.state_follow]
      exact ih hopens hx hissues h hall
    cases hopens.closed hs hx hleft with
    | recovered hrecovered hfailed =>
      rw [hrecovered.2]
      exact h
    | stuck returned cause => exact hend
    | @merged returned arena hcan hcommit hlinked hsize hbelow =>
      intro address
      have hsame := Arena.creates_commit (a := address) hx.sound.linked hcommit
      rw [Scope.merged_eq]
      show arena.creates address = true ↔ _
      rw [hsame]
      exact hend address

/-! ### Which nonces are taken -/

namespace Application

/-- The nonces that an application and those below it have taken, if it succeeded. If it did not, all
of them were given back. -/
def takenWith (below : Application ν → List UInt64) (a : Application ν) : List UInt64 :=
  match a.result.1 with
  | .ok (.succeeded ..) => (if a.constructs then [a.state.nonce] else []) ++ a.issued.flatMap below
  | _ => []

/-- The nonces of the creates that survive an application, the first one first. -/
def taken : Application ν → List UInt64 := collect takenWith

theorem taken_eq (hs : s.Sound) (m : Message) : taken ⟨m, s⟩ = takenWith taken ⟨m, s⟩ := by
  refine collect_eq (fun {below below' a} h => ?_) hs
  rw [takenWith, takenWith]
  split
  case h_1 => rw [List.flatMap_def, List.flatMap_def, List.map_congr_left h]
  case h_2 => rfl

/-- The nonces that were taken are those that the nonce was counted over, if no scope stays open. -/
def Consecutive (a : Application ν) : Prop :=
  (∀ b ∈ a.tree, b.NonceFits) →
    a.result.2.arena.layers.size = a.state.arena.layers.size →
    a.taken.map UInt64.toNat
      = List.range' a.state.nonce.toNat (a.result.2.nonce.toNat - a.state.nonce.toNat)

/-- Two runs of nonces, of which the second one begins where the first one ends. -/
theorem map_append_range' {l k : List UInt64} {first middle last : Nat}
    (hl : l.map UInt64.toNat = List.range' first (middle - first))
    (hk : k.map UInt64.toNat = List.range' middle (last - middle)) (hle : first ≤ middle)
    (hle' : middle ≤ last) : (l ++ k).map UInt64.toNat = List.range' first (last - first) := by
  rw [List.map_append, hl, hk]
  have hmiddle : middle = first + (middle - first) := by omega
  have hsum : last - first = (middle - first) + (last - middle) := by omega
  rw [hsum, ← List.range'_append_1, ← hmiddle]

/-- The code of a scope takes consecutive nonces, until a layer stays open above that of the scope. -/
theorem consecutive_run (hs : s.Sound) (henter : s.enter m = (.opened scope, t))
    (hopens : s.Opens m scope t) {outcome : Outcome}
    (hrun : scope.program.run (fun m s => s.apply m) ⟨scope.frame, t⟩ = (outcome, x))
    (ih : ∀ {y : Active ν} {n : Message}, y.Within t → y.Issues n → Consecutive ⟨n, y.state⟩)
    (hfits : ∀ b ∈ tree ⟨m, s⟩, b.NonceFits) :
    t.nonce.toNat ≤ x.state.nonce.toNat ∧
      (x.state.arena.layers.size = t.arena.layers.size →
        ((issued ⟨m, s⟩).flatMap taken).map UInt64.toNat
          = List.range' t.nonce.toNat (x.state.nonce.toNat - t.nonce.toNat)) := by
  refine hopens.run_issued henter hrun
    (J := fun l x => (∀ b ∈ l.flatMap tree, b.NonceFits) →
      t.nonce.toNat ≤ x.state.nonce.toNat ∧
        (x.state.arena.layers.size = t.arena.layers.size →
          (l.flatMap taken).map UInt64.toNat
            = List.range' t.nonce.toNat (x.state.nonce.toNat - t.nonce.toNat)))
    (fun {l x y} hx h hacted hall => ?_) (fun {l x n} hx h hissues hall => ?_) (fun _ h => h)
    (fun _ => ⟨Nat.le_refl _, fun _ => by simp⟩) fun b hb => hfits b ?_
  · have hnonce : y.state.nonce = x.state.nonce := by
      obtain ⟨arena, logs, hstate⟩ := hacted.state_eq
      rw [hstate]
    rw [hnonce, hacted.size_eq hx.sound]
    exact h hall
  · rw [List.flatMap_append, List.flatMap_singleton, List.forall_mem_append] at hall
    obtain ⟨hle, hbefore⟩ := h hall.1
    have hcounted := UInt64.le_iff_toNat_le.mp (nonce_le_apply hx.sound n hall.2)
    have hgrows := (State.transition_apply hx.sound n).later.size_le
    have hgrown := hx.later.size_le
    rw [Active.state_follow]
    refine ⟨Nat.le_trans hle hcounted, fun hsize => ?_⟩
    -- where no layer is left open in the end, none was left open on the way
    rw [List.flatMap_append, List.flatMap_singleton]
    refine map_append_range' (hbefore ?_) (ih hx hissues hall.2 ?_) hle hcounted
    · omega
    · show (x.state.apply n).2.arena.layers.size = x.state.arena.layers.size
      omega
  · rw [tree, below_eq hs]
    exact List.mem_cons_of_mem _ hb

/-- **The nonces of the creates that survive follow one another without a gap.** -/
theorem consecutive_apply (hs : s.Sound) (m : Message) : Consecutive ⟨m, s⟩ := by
  refine Application.induction (Q := Consecutive) ?_ hs m
  intro s m hs ih hfits hsize
  have happlied := State.applied_apply hs m
  rw [taken_eq hs, takenWith]
  dsimp only [result] at hsize ⊢
  generalize s.apply m = r at happlied hsize ⊢
  cases happlied with
  | settled henter hentered =>
    rw [constructs_settled henter, issued_settled henter]
    cases hentered <;> simp [State.debit, State.record, State.announce, State.emit]
  | @left scope t outcome x r henter hopens hrun hx hleft =>
    obtain ⟨hle, htaken⟩ := consecutive_run hs henter hopens hrun (ih hopens) hfits
    have hgrown := hx.later.size_le
    have hopened := hopens.size_eq
    cases hopens.closed hs hx hleft with
    | recovered hrecovered hfailed =>
      rw [hrecovered.2]
      split
      case h_1 gas contract returned hsuccess => exact absurd hsuccess (hfailed gas contract returned)
      case h_2 => simp
    | stuck returned cause =>
      have hopen : x.state.arena.layers.size = s.arena.layers.size := hsize
      omega
    | @merged returned arena hcan hcommit hlinked hmerged hbelow =>
      have htop : x.state.arena.layers.size = t.arena.layers.size := by
        rw [hx.sound.linked.size_eq, hopens.sound.linked.size_eq, ← Arena.top_of_commit hcommit,
          hopens.layer_eq]
      have hfirst := nonce_opened henter hopens (hfits _ List.mem_cons_self)
      rw [Scope.merged_eq]
      refine map_append_range' ?_ (htaken htop) (by omega) hle
      rw [hfirst, Nat.add_sub_cancel_left]
      cases constructs ⟨m, s⟩ <;> rfl

end Application

/-! ### Messages in turn -/

/-- What messages in turn make of a numbered state, if few enough constructors run for them. -/
theorem State.numbered_applyAll {backend : Backend} {messages : List Message}
    (hs : s.Between backend) (h : s.Numbered)
    (hfew : s.nonce.toNat + Application.constructors (s.applications messages) < UInt64.size)
    (happlied : s.applyAll messages = some t) :
    t.Numbered ∧ t.transaction = s.transaction ∧ s.nonce.toNat ≤ t.nonce.toNat ∧
      ((s.applications messages).flatMap Application.taken).map UInt64.toNat
        = List.range' s.nonce.toNat (t.nonce.toNat - s.nonce.toNat) := by
  induction messages generalizing s with
  | nil =>
    injection happlied with hsame
    subst hsame
    exact ⟨h, rfl, Nat.le_refl _, by simp [applications]⟩
  | cons m rest ih =>
    have hsound : s.Sound := hs.reached.sound
    have hsplit := Application.constructors_append [⟨m, s⟩] ((s.apply m).2.applications rest)
    rw [applications] at hfew ⊢
    rw [← List.singleton_append, hsplit] at hfew
    rw [applyAll] at happlied
    split at happlied
    case h_2 => cases happlied
    case h_1 receipt u happly =>
      have htransaction := (transition_apply hsound m).later.transaction_eq
      have hdepth := depth_apply hsound (congrArg Prod.fst happly)
      obtain ⟨hfits, hcounted⟩ := Application.sparing_apply hsound m (by dsimp only; omega)
      have hnonce := UInt64.le_iff_toNat_le.mp (Application.nonce_le_apply hsound m hfits)
      have hnumbered := numbered_apply hsound h m hfits
      have hnext := hs.apply happly
      have htaken := Application.consecutive_apply hsound m hfits (by
        dsimp only [Application.result]
        rw [(transition_apply hsound m).sound.linked.size_eq, hsound.linked.size_eq]
        exact congrArg (· + 1) hdepth)
      dsimp only [Application.result] at hcounted htaken
      rw [happly] at htransaction hcounted hnonce hnumbered htaken hfew ⊢
      dsimp only at hcounted hnonce hfew
      obtain ⟨hrest, hsame, hle, hconsecutive⟩ := ih hnext hnumbered (by omega) happlied
      refine ⟨hrest, hsame.trans htransaction, Nat.le_trans hnonce hle, ?_⟩
      rw [List.flatMap_cons]
      exact Application.map_append_range' htaken hconsecutive hnonce hle

/-- **What a transaction has created when it finishes.** Messages were applied in turn, each with a
receipt, and fewer constructors ran for them than there are nonces. Then the transaction finishes, the
creates that survive have taken the nonces from zero to the current one without a gap, and the
accounts that its change set tells to be created are those at their addresses. -/
theorem created_at_nonces {config : Config} {vm : Vm ν} {backend : Backend} {transaction : Hash}
    {gasLimit : Gas} {messages : List Message}
    (happlied : (State.new config vm backend transaction gasLimit).applyAll messages = some s)
    (hfew : Application.constructors
      ((State.new config vm backend transaction gasLimit).applications messages) < UInt64.size) :
    ∃ changeSet, s.finish = .ok changeSet ∧
      (∀ address,
        (∃ change, changeSet.accounts[address]? = some change ∧ change.created = true) ↔
          ∃ k < s.nonce, address = Address.derive transaction k) ∧
      (((State.new config vm backend transaction gasLimit).applications messages).flatMap
          Application.taken).map UInt64.toNat = List.range s.nonce.toNat := by
  have hstart := State.between_new config vm backend transaction gasLimit
  have hzero : (State.new config vm backend transaction gasLimit).nonce.toNat = 0 := rfl
  have hbetween := State.between_applyAll happlied
  obtain ⟨changes, hfinish, hroot, -⟩ := hbetween.exists_finish
  obtain ⟨hnumbered, htransaction, -, htaken⟩ := State.numbered_applyAll hstart
    (State.numbered_new _ _ _ _ _) (by rw [hzero, Nat.zero_add]; exact hfew) happlied
  refine ⟨_, hfinish, fun address => ?_, ?_⟩
  · have hsound : s.Sound := hbetween.reached.sound
    rw [← Changes.creates_iff, ← Arena.creates_root hsound.linked hbetween.depth_eq hroot,
      hnumbered address, htransaction]
    rfl
  · rw [List.range_eq_range']
    exact htaken

/-- The state after two deployments. -/
def buddedState : State Empty := ((buddingState.apply deployment).2.apply deployment).2

theorem created_at_nonces_of_two :
    ∃ changeSet, buddedState.finish = .ok changeSet ∧
      (∀ address,
        (∃ change, changeSet.accounts[address]? = some change ∧ change.created = true) ↔
          ∃ k < (2 : UInt64), address = Address.derive 0 k) ∧
      ((buddingState.applications [deployment, deployment]).flatMap Application.taken).map
        UInt64.toNat = [0, 1] := by
  have happlied : buddingState.applyAll [deployment, deployment] = some buddedState := by rfl
  have hcount : Application.constructors (buddingState.applications [deployment, deployment]) = 2 := by
    decide +kernel
  have hnonce : buddedState.nonce = 2 := by decide +kernel
  obtain ⟨changeSet, hfinish, hcreated, htaken⟩ :=
    created_at_nonces happlied (by
      show Application.constructors (buddingState.applications [deployment, deployment]) < UInt64.size
      rw [hcount]
      decide)
  rw [hnonce] at hcreated htaken
  exact ⟨changeSet, hfinish, hcreated, htaken⟩

end ContractExec
