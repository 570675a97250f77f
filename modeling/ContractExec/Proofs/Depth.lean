import ContractExec.Proofs.Course
import ContractExec.Proofs.Sequence

/-!
# How deep frames nest

Nothing counts the frames that are active. A frame takes its depth from the layers that are open when
it begins, and a frame at the call stack limit applies no messages. Layers that a fatal has left open
only add to the depth, so frames that wait for one another lie at ever greater depths below the limit,
and there are no more of them than that leaves room for. This holds for every virtual machine, and
whatever gas costs.

* `Active.Refuses`, `refuses_of_tooDeep` — what a frame at the limit answers to its code;
* `State.apply_unique` — the recursion of messages has one solution;
* `Moment.depths` — the depths of all active frames, the innermost one first;
* `Moment.Nested`, `nested_course` — depths descend, and all but the innermost are below the limit;
* `Moment.Counted`, `counted_course` — while no message ends in a fatal, depths count the frames;
* `nesting_bounded` — **the call stack limit bounds the frames that are active at once**.
-/

namespace ContractExec

variable {ν α : Type}

/-! ### Frames at the limit -/

/-- A frame that is refused whatever would lead to another frame. The answer is a failure that consumed
no gas, and neither the frame nor the state has changed. -/
structure Active.Refuses (x : Active ν) : Prop where
  create : ∀ amount typeName parameters gas,
    x.answer (fun m s => s.apply m) (.create amount typeName parameters gas)
      = (.ok (.failed 0 .callTooDeep), x)
  call : ∀ target amount method gas,
    x.answer (fun m s => s.apply m) (.call target amount method gas)
      = (.ok (.failed 0 .callTooDeep), x)
  transfer : ∀ target amount,
    x.answer (fun m s => s.apply m) (.transfer target amount) = (.ok (.failed 0 .callTooDeep), x)

theorem Active.refuses_of_tooDeep {x : Active ν} (h : x.tooDeep = true) : x.Refuses where
  create amount typeName parameters gas := by
    rw [answer, issueCreate, if_pos h]
    rfl
  call target amount method gas := by
    rw [answer, issue, if_pos h]
    rfl
  transfer target amount := by
    rw [answer, issue, if_pos h]
    rfl

/-! ### The recursion of messages -/

namespace State

variable {s : State ν}

/-- **The recursion of messages has one solution.** Whatever applies messages by entering them,
running their code with nested messages applied in the same way, and leaving, does what `apply`
does. -/
theorem apply_unique {f : Applying ν} (hf : ∀ m s, s.Sound → f m s = applyWith f m s)
    (hs : s.Sound) (m : Message) : f m s = s.apply m := by
  -- on the depth that is left below a state
  generalize hlevels : s.config.callStackLimit.toNat - s.arena.depth = levels
  induction levels using Nat.strongRecOn generalizing s m with
  | ind levels ih =>
    rw [hf m s hs, apply_eq hs m]
    refine (applyWith_congr transitions_apply hs ?_ m).symm
    intro n u hu hconfig hdepth hlimit
    exact (ih _ (by rw [hconfig]; omega) hu n rfl).symm

end State

/-- Chains of messages that code applies, each within the one before, come to an end. -/
theorem Application.acc_issued {a : Application ν} (hs : a.state.Sound) :
    Acc (fun b a : Application ν => b ∈ a.issued) a :=
  tree_induction (fun a _ ih => Acc.intro a ih) hs

/-! ### Depths of active frames -/

/-- Depths that descend, the last one being one at least, are no more than the first one says. -/
theorem length_le_of_descending {depth : Nat} {outer : List Nat}
    (hdescending : (depth :: outer).Pairwise (· > ·)) (hpos : ∀ d ∈ depth :: outer, 0 < d) :
    (depth :: outer).length ≤ depth := by
  induction outer generalizing depth with
  | nil => exact hpos depth List.mem_cons_self
  | cons next outer ih =>
    obtain ⟨hfirst, hrest⟩ := List.pairwise_cons.mp hdescending
    have hless := hfirst next List.mem_cons_self
    have hlength := ih hrest fun d hd => hpos d (List.mem_cons_of_mem _ hd)
    rw [List.length_cons]
    omega

namespace Moment

/-- The depths of all active frames, the innermost one first. -/
def depths : Moment ν → List Nat
  | idle _ => []
  | running waiting _ x => (x.frame :: waiting).map Frame.depth

/-- The depths of active frames descend from the innermost one, and all but that one are below the
limit. -/
structure Nested (config : Config) (μ : Moment ν) : Prop where
  config_eq : μ.state.config = config
  descending : μ.depths.Pairwise (· > ·)
  pos : ∀ depth ∈ μ.depths, 0 < depth
  below_limit : ∀ depth ∈ μ.depths.tail, depth < config.callStackLimit.toNat

/-- Each active frame's depth is the number of active frames up to it, and all open layers are theirs. -/
structure Counted (μ : Moment ν) : Prop where
  depth_eq : μ.state.arena.depth = μ.depths.length
  depths_eq : ∀ inner depth outer, μ.depths = inner ++ depth :: outer → depth = outer.length + 1

theorem Nested.length_le {config : Config} {μ : Moment ν} (h : μ.Nested config) :
    μ.depths.length ≤ max 1 config.callStackLimit.toNat := by
  obtain ⟨-, hdescending, hpos, hbelow⟩ := h
  generalize μ.depths = depths at hdescending hpos hbelow
  match depths with
  | [] => exact Nat.zero_le _
  | [_] => exact Nat.le_max_left _ _
  | depth :: next :: outer =>
    have hlimit := hbelow next List.mem_cons_self
    have hlength := length_le_of_descending (List.pairwise_cons.mp hdescending).2
      fun d hd => hpos d (List.mem_cons_of_mem _ hd)
    rw [List.length_cons]
    omega

variable {admits : Message → Prop} {start μ μ' : Moment ν} {returns : List (Return ν)}
  {config : Config} {t : State ν} {m : Message} {scope : Scope ν} {x y : Active ν}
  {waiting : List Frame} {p p' : Program ν Outcome}

theorem Nested.congr (h : μ.Nested config) (hconfig : μ'.state.config = μ.state.config)
    (hdepths : μ'.depths = μ.depths) : μ'.Nested config := by
  refine ⟨hconfig.trans h.config_eq, ?_, ?_, ?_⟩
  · rw [hdepths]
    exact h.descending
  · rw [hdepths]
    exact h.pos
  · rw [hdepths]
    exact h.below_limit

theorem Counted.congr (h : μ.Counted) (hdepth : μ'.state.arena.depth = μ.state.arena.depth)
    (hdepths : μ'.depths = μ.depths) : μ'.Counted := by
  refine ⟨?_, ?_⟩
  · rw [hdepth, hdepths]
    exact h.depth_eq
  · rw [hdepths]
    exact h.depths_eq

/-- A frame keeps its depth while it runs. -/
theorem depths_answered {nested : Applying ν} (h : x.Answered nested y) :
    (running waiting p' y).depths = (running waiting p x).depths := by
  obtain ⟨meter, nestedGas, hframe⟩ := h.frame_eq
  rw [depths, depths, hframe]
  rfl

/-- A frame of its own depth is added to those that are active. -/
theorem Nested.opens (h : μ.Nested config) (hs : μ.state.Sound) (hopens : μ.state.Opens m scope t)
    (hbelow : ∀ depth ∈ μ.depths,
      depth ≤ μ.state.arena.depth ∧ depth < config.callStackLimit.toNat)
    (hstate : μ'.state = t) (hdepths : μ'.depths = scope.frame.depth :: μ.depths) :
    μ'.Nested config := by
  have hdepth : scope.frame.depth = μ.state.arena.depth + 1 :=
    hopens.depth_eq.trans (hopens.depth_eq_succ hs)
  refine ⟨?_, ?_, ?_, ?_⟩
  · rw [hstate, hopens.continues.config_eq, h.config_eq]
  · rw [hdepths, hdepth]
    exact List.pairwise_cons.mpr ⟨fun d hd => Nat.lt_succ_of_le (hbelow d hd).1, h.descending⟩
  · rw [hdepths, hdepth]
    exact List.forall_mem_cons.mpr ⟨Nat.succ_pos _, h.pos⟩
  · rw [hdepths]
    exact fun d hd => (hbelow d hd).2

theorem Counted.opens (h : μ.Counted) (hs : μ.state.Sound) (hopens : μ.state.Opens m scope t)
    (hstate : μ'.state = t) (hdepths : μ'.depths = scope.frame.depth :: μ.depths) : μ'.Counted := by
  have hopened : t.arena.depth = μ.depths.length + 1 := by
    rw [hopens.depth_eq_succ hs, h.depth_eq]
  refine ⟨?_, fun inner depth outer hsplit => ?_⟩
  · rw [hstate, hdepths, hopened]
    rfl
  · rw [hdepths, hopens.depth_eq, hopened] at hsplit
    cases inner with
    | nil =>
      injection hsplit with hdepth houter
      rw [← hdepth, houter]
    | cons first inner =>
      injection hsplit with hfirst hsplit
      exact h.depths_eq inner depth outer hsplit

/-! ### Along a course -/

/-- A frame that issues a message is below the limit, and so are the frames that wait for it. -/
theorem Nested.below_of_issues (h : (running waiting p x).Nested config)
    (hsound : (running waiting p x).Sound) (hissues : x.Issues m) :
    ∀ depth ∈ (running waiting p x).depths,
      depth ≤ x.state.arena.depth ∧ depth < config.callStackLimit.toNat := by
  obtain ⟨u, hx⟩ := hsound
  have hframe : x.frame.depth ≤ x.state.arena.depth := by
    rw [hx.depth_eq]
    exact hx.later.top_le
  have hconfig : x.state.config = config := h.config_eq
  have hlimit := hissues.tooDeep_eq_false
  rw [Active.tooDeep, decide_eq_false_iff_not, Nat.not_le, hconfig] at hlimit
  refine List.forall_mem_cons.mpr ⟨⟨hframe, hlimit⟩, fun d hd => ?_⟩
  have hless : d < x.frame.depth := (List.pairwise_cons.mp h.descending).1 d hd
  omega

/-- **The depths of active frames descend at every moment**, whatever ends in a fatal. -/
theorem nested_course (hstart : start.Reached) (hnested : start.Nested config)
    (h : Course admits start returns μ) : μ.Nested config := by
  induction h with
  | start => exact hnested
  | @applied returns s m h hadmits ih =>
    exact ih.congr (State.transition_apply (h.reached hstart).sound m).later.config_eq rfl
  | entered h hadmits henter ih =>
    have hs := (h.reached hstart).sound.state
    exact ih.opens hs (State.opens_of_enter hs henter) nofun rfl rfl
  | nested h hissue henter ih =>
    have hsound := (h.reached hstart).sound
    exact ih.opens hsound.state (State.opens_of_enter hsound.state henter)
      (ih.below_of_issues hsound ⟨_, hissue⟩) rfl rfl
  | @asked returns waiting q next x h ih =>
    obtain ⟨u, hx⟩ := (h.reached hstart).sound
    have hanswered := x.answered_answer (fun m s => s.apply m) q
    have hy := hx.answered State.transitions_apply hanswered
    exact ih.congr (hy.later.config_eq.trans hx.later.config_eq.symm) (depths_answered hanswered)
  | noted h ih => exact ih.congr rfl rfl
  | recalled h ih => exact ih.congr rfl rfl

/-- **While no message ends in a fatal, depths count the active frames.** -/
theorem counted_course (hstart : start.Reached) (hcounted : start.Counted)
    (h : Course admits start returns μ) :
    (∀ a, .applied a ∈ returns → ∃ receipt, a.result.1 = .ok receipt) → μ.Counted := by
  induction h with
  | start => exact fun _ => hcounted
  | @applied returns s m h hadmits ih =>
    intro hreceipts
    have hs : s.Sound := (h.reached hstart).sound
    have hself := (Application.applied_mem_returns_iff (a := ⟨m, s⟩) hs).mpr List.mem_cons_self
    obtain ⟨receipt, hreceipt⟩ := hreceipts _ (List.mem_append_right _ hself)
    exact (ih fun a ha => hreceipts a (List.mem_append_left _ ha)).congr
      (State.depth_apply hs hreceipt) rfl
  | entered h hadmits henter ih =>
    intro hreceipts
    have hs := (h.reached hstart).sound.state
    exact (ih hreceipts).opens hs (State.opens_of_enter hs henter) rfl rfl
  | nested h hissue henter ih =>
    intro hreceipts
    have hs := (h.reached hstart).sound.state
    exact (ih hreceipts).opens hs (State.opens_of_enter hs henter) rfl rfl
  | @asked returns waiting q next x h ih =>
    intro hreceipts
    have hs : x.state.Sound := (h.reached hstart).sound.state
    have hbefore := ih fun a ha => hreceipts a (List.mem_append_left _ ha)
    refine hbefore.congr ?_ (depths_answered (x.answered_answer (fun m s => s.apply m) q))
    show (x.answer (fun m s => s.apply m) q).2.state.arena.depth = x.state.arena.depth
    rcases x.acted_or_issued (fun m s => s.apply m) q with ⟨-, hacted⟩ | ⟨m, hmade, -, hfollow⟩
    · exact congrArg (· - 1) (hacted.size_eq hs)
    · obtain ⟨receipt, hreceipt⟩ := hreceipts ⟨m, x.state⟩ (List.mem_append_right _
        (Active.applied_mem_returns hmade hs List.mem_cons_self))
      rw [hfollow, Active.state_follow]
      exact State.depth_apply hs hreceipt
  | noted h ih => exact fun hreceipts => (ih hreceipts).congr rfl rfl
  | recalled h ih => exact fun hreceipts => (ih hreceipts).congr rfl rfl

/-- How far messages and frames nest at a moment of a transaction, after what has come back so far. -/
structure Bounded (config : Config) (returns : List (Return ν)) (μ : Moment ν) : Prop where
  /-- Messages within messages come to an end, below any message that is applied. -/
  ends : ∀ m, Acc (fun b a : Application ν => b ∈ a.issued) ⟨m, μ.state⟩
  apply_eq : ∀ m, μ.state.apply m = State.applyWith (fun m s => s.apply m) m μ.state
  unique : ∀ f : Applying ν, (∀ m s, s.Sound → f m s = State.applyWith f m s) →
    ∀ m, f m μ.state = μ.state.apply m
  descending : μ.depths.Pairwise (· > ·)
  length_le : μ.depths.length ≤ max 1 config.callStackLimit.toNat
  refuses : ∀ waiting program x, μ = .running waiting program x →
    config.callStackLimit.toNat ≤ x.frame.depth → x.Refuses
  /-- While no message has ended in a fatal, a depth is the number of frames that it stands for. -/
  counted : (∀ a, .applied a ∈ returns → ∃ receipt, a.result.1 = .ok receipt) →
    ∀ inner depth outer, μ.depths = inner ++ depth :: outer → depth = outer.length + 1

end Moment

/-- **The call stack limit bounds the frames that are active at once.** At any moment of a transaction,
with any virtual machine, one that drops fatals too, and after any messages: messages within messages
come to an end, and applying one is the only solution of its recursion; the depths of the active
frames descend from the innermost one outwards, so there are no more of them than the limit says, or
one; a frame whose depth has reached the limit is refused every create, call and transfer; and as long
as no message has ended in a fatal, a frame's depth is the number of frames that are active up to
it. -/
theorem nesting_bounded {config : Config} {vm : Vm ν} {backend : Backend} {transaction : Hash}
    {gasLimit : Gas} {returns : List (Return ν)} {μ : Moment ν}
    (hcourse : Moment.Course (fun _ => True)
      (.idle (State.new config vm backend transaction gasLimit)) returns μ) :
    μ.Bounded config returns := by
  have hstart : (Moment.idle (State.new config vm backend transaction gasLimit)).Reached :=
    .new _ _ _ _ _
  have hs : μ.state.Sound := (hcourse.reached hstart).sound.state
  have hnested := Moment.nested_course hstart ⟨rfl, .nil, nofun, nofun⟩ hcourse
  have hcounted := Moment.counted_course hstart
    ⟨rfl, fun inner depth outer hsplit => absurd hsplit (by simp [Moment.depths])⟩ hcourse
  exact {
    ends := fun m => Application.acc_issued hs
    apply_eq := State.apply_eq hs
    unique := fun f hf m => State.apply_unique hf hs m
    descending := hnested.descending
    length_le := hnested.length_le
    refuses := by
      rintro waiting program x rfl hlimit
      have hconfig : x.state.config = config := hnested.config_eq
      refine Active.refuses_of_tooDeep (decide_eq_true_iff.mpr ?_)
      rw [hconfig]
      exact hlimit
    counted := fun hreceipts => (hcounted hreceipts).depths_eq }

/-- Every method calls the contract's own method again, without any charge and whatever comes of it. -/
def again : Vm Empty where
  create _ _ _ := .done (.ok none)
  call _ _ _ := .ask (.call 1 0 ⟨"again", []⟩ none) fun _ => .done (.ok none)

def againState : State Empty :=
  .new { baseCost := 0, callStackLimit := 2 } again (oneContract 0 0) 0 5000

def againCall : Message := ⟨2, 0, 4000, .externalCall 1 ⟨"again", []⟩⟩

theorem nesting_bounded_of_again :
    ∃ waiting program x, Moment.Course (fun _ => True) (.idle againState) []
        (.running waiting program x) ∧
      (Moment.running waiting program x).depths = [2, 1] ∧ x.Refuses := by
  have hstart : Moment.Course (fun _ => True) (.idle againState) [] (.idle againState) := .start
  have houter := hstart.entered (m := againCall) trivial rfl
  have hinner := houter.nested (q := .call 1 0 ⟨"again", []⟩ none) rfl rfl
  exact ⟨_, _, _, hinner, rfl, (nesting_bounded hinner).refuses _ _ _ rfl (by decide +kernel)⟩

end ContractExec
