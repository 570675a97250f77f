import ContractExec.Proofs.Commit
import ContractExec.Proofs.Replay
import ContractExec.Proofs.Rollback

/-!
# What is told of scopes that close

A scope that closes tells of its layer: of a commit if the layer was merged, of a rollback if it was
discarded. A scope whose code ends in a fatal is rolled back like any other, but nothing tells of that. If
the code around it drops the fatal, transfers that were told have gone without a rollback.

* `Application.Accounts`, `accounts_told` — **each transfer that was told is in the record at the end, or
  some scope around it was left without a success**;
* `State.Closing`, `closing_apply` — what became of a scope, and what was told of its layer;
* `closing_told_unless_fatal` — **scopes that close say so unless their code ended in a fatal**;
* `abandoned_untold` — code that drops a fatal, and a transfer with it.
-/

namespace ContractExec

variable {ν : Type}

/-! ### Transfers -/

/-- An element of a list that is put together of lists, with what stands before and behind it. -/
theorem exists_of_flatMap_eq {α β : Type} {f : α → List β} {l : List α} {before after : List β} {e : β}
    (h : l.flatMap f = before ++ e :: after) : ∃ earlier b later first last,
      l = earlier ++ b :: later ∧ f b = first ++ e :: last ∧
      before = earlier.flatMap f ++ first ∧ after = last ++ later.flatMap f := by
  induction l generalizing before with
  | nil => simp at h
  | cons b l ih =>
    rw [List.flatMap_cons, List.append_eq_append_iff] at h
    rcases h with ⟨rest, rfl, hrest⟩ | ⟨rest, hfirst, hrest⟩
    · obtain ⟨earlier, c, later, first, last, rfl, hc, rfl, rfl⟩ := ih hrest
      exact ⟨b :: earlier, c, later, first, last, rfl, hc, by simp, rfl⟩
    · cases rest with
      | nil =>
        have hlist : l.flatMap f = [] ++ e :: after := hrest.symm
        obtain ⟨earlier, c, later, first, last, rfl, hc, hbefore, rfl⟩ := ih hlist
        refine ⟨b :: earlier, c, later, first, last, rfl, hc, ?_, rfl⟩
        rw [List.flatMap_cons, List.append_assoc, ← hbefore, hfirst, List.append_nil, List.append_nil]
      | cons e' rest =>
        injection hrest with he hrest
        subst he
        exact ⟨[], b, l, before, rest, rfl, hfirst, rfl, hrest⟩

namespace Application

variable {a : Application ν}

/-- A transfer that is told at the end of an application is told last. -/
theorem moved_of_closing {before after : List Event} {t : Transfer}
    (h : a.closing = before ++ .transfer t :: after) : a.moved? = some t ∧ after = [] := by
  have hvalue : ∀ rest, a.moved?.toList.map Event.transfer = rest ++ .transfer t :: after →
      a.moved? = some t ∧ after = [] := by
    intro rest hrest
    cases hmoved : a.moved? with
    | none => simp [hmoved] at hrest
    | some t' =>
      rw [hmoved] at hrest
      cases rest with
      | nil =>
        injection hrest with hsame hafter
        injection hsame with hsame
        exact ⟨congrArg some hsame, hafter.symm⟩
      | cons e rest => simp at hrest
  rw [closing, List.append_eq_append_iff] at h
  rcases h with ⟨rest, -, hrest⟩ | ⟨rest, hfirst, hrest⟩
  · exact hvalue rest hrest
  · cases rest with
    | nil => exact hvalue [] hrest.symm
    | cons e rest =>
      -- what is told of a layer is no transfer
      injection hrest with he
      have hmem : e ∈ a.closed?.toList := by
        rw [hfirst]
        exact List.mem_append_right _ List.mem_cons_self
      have hlayer := layer_of_closed (Option.mem_toList.mp hmem)
      rw [← he] at hlayer
      cases hlayer

/-- The record ends with the value that an application has moved itself. -/
theorem transfers_of_moved (hs : a.state.Sound) {t : Transfer} (h : a.moved? = some t) :
    ∃ earlier, a.result.2.transfers = earlier ++ [t] := by
  rw [moved?] at h
  split at h
  case h_1 gas contract returned hsuccess =>
    have hcommits : a.Commits contract returned := commits_apply hs hsuccess
    have htransfers := hcommits.transfers_eq
    rw [State.transferOf] at h
    split at h
    case isTrue hinternal =>
      rw [if_pos hinternal, Option.some.inj h] at htransfers
      exact ⟨_, htransfers⟩
    case isFalse => cases h
  case h_2 => cases h

section

variable {s t : State ν} {m : Message} {scope : Scope ν} {outcome : Outcome} {x : Active ν}

/-- Each application that code makes begins after all that those before it told of, and what it leaves
in the record is there when the code ends. -/
theorem issued_in_order (henter : s.enter m = (.opened scope, t))
    (hopens : s.Opens m scope t)
    (hrun : scope.program.run (fun m s => s.apply m) ⟨scope.frame, t⟩ = (outcome, x)) :
    (∀ earlier b later, issued ⟨m, s⟩ = earlier ++ b :: later →
      b.state.journal.events = (s.announce m).journal.events ++ earlier.flatMap told) ∧
    ∀ b ∈ issued ⟨m, s⟩, b.result.2.transfers <+: x.state.transfers := by
  have hend := hopens.run_issued henter hrun
    (J := fun l x => x.state.journal.events = (s.announce m).journal.events ++ l.flatMap told ∧
      (∀ earlier b later, l = earlier ++ b :: later →
        b.state.journal.events = (s.announce m).journal.events ++ earlier.flatMap told) ∧
      ∀ b ∈ l, b.result.2.transfers <+: x.state.transfers)
    (fun {l x y} _ h hacted => ?_) (fun {l x n} hx h hissues => ?_) (fun n h => ?_) ?_
  · exact hend.2
  · obtain ⟨arena, logs, hstate⟩ := hacted.state_eq
    rw [hstate]
    exact h
  · obtain ⟨hevents, hbegin, hrecord⟩ := h
    rw [Active.state_follow]
    refine ⟨?_, ?_, ?_⟩
    · rw [State.events_apply hx.sound, hevents, List.flatMap_append, List.flatMap_singleton,
        List.append_assoc]
    · intro earlier b later hsplit
      rcases List.eq_nil_or_concat later with rfl | ⟨before, c, hlater⟩
      · obtain ⟨hearlier, hlast⟩ := List.append_inj' hsplit rfl
        injection hlast with hlast
        rw [← hearlier, ← hlast]
        exact hevents
      · rw [hlater, List.concat_eq_append, ← List.cons_append, ← List.append_assoc] at hsplit
        exact hbegin earlier b before (List.append_inj' hsplit rfl).1
    · have hextends := (State.extends_apply hx.sound n).2
      intro b hb
      rcases List.mem_append.mp hb with hb | hb
      · exact (hrecord b hb).trans hextends
      · rw [List.mem_singleton.mp hb]
        exact List.prefix_rfl
  · exact ⟨(Journal.events_note _ n).trans h.1, h.2⟩
  · refine ⟨?_, fun earlier b later hsplit => ?_, nofun⟩
    · rw [List.flatMap_nil, List.append_nil, hopens.journal_eq]
    · simp at hsplit

/-- When a scope is left, what its code recorded stays, or the message has failed or ended in a
fatal. -/
theorem kept_or_lost (hleft : scope.Left x.frame x.state outcome (s.apply m)) :
    x.state.transfers <+: (s.apply m).2.transfers ∨
      (∃ gas failure, (s.apply m).1 = .ok (.failed gas failure)) ∨
      ∃ cause, (s.apply m).1 = .error cause := by
  generalize s.apply m = r at hleft
  cases hleft with
  | faulted fault => exact .inr (.inl ⟨_, _, rfl⟩)
  | unaffordable returned hcan => exact .inr (.inl ⟨_, _, rfl⟩)
  | stopped cause => exact .inr (.inr ⟨_, rfl⟩)
  | unreadable returned hcan => exact .inr (.inr ⟨_, rfl⟩)
  | buried returned hcan hcommit => exact .inr (.inr ⟨_, rfl⟩)
  | merged returned hcan hcommit =>
    rw [Scope.merged_eq]
    exact .inl (List.prefix_append _ _)

end

/-- What has become of a transfer when an application ends that told of it, after some events and before
others. An application of the tree ended just then, with the transfer as the last one of the record. That
record is there still, or the scope of some application around it was left without a success: by a
rollback that is told behind the transfer, or in a fatal. -/
def Accounts (a : Application ν) (before : List Event) (t : Transfer) (after : List Event) : Prop :=
  ∃ b ∈ a.tree,
    b.result.2.journal.events = a.state.journal.events ++ before ++ [.transfer t] ∧
    (∃ earlier, b.result.2.transfers = earlier ++ [t]) ∧
    (b.result.2.transfers <+: a.result.2.transfers ∨
      ∃ c ∈ a.tree, b ∈ c.below ∧
        ((∃ gas failure, c.result.1 = .ok (.failed gas failure) ∧
          .rollback (c.state.arena.depth + 1) c.state.nonce gas ∈ after) ∨
        ∃ cause, c.result.1 = .error cause))

/-- A transfer that an application told of at its end is the last one of the record. -/
theorem accounts_closing (hs : a.state.Sound) {before after first : List Event} {t : Transfer}
    (htold : a.told = before ++ .transfer t :: after)
    (hclosing : a.closing = first ++ .transfer t :: after) : a.Accounts before t after := by
  obtain ⟨hmoved, rfl⟩ := moved_of_closing hclosing
  have hevents : a.result.2.journal.events = a.state.journal.events ++ a.told :=
    State.events_apply hs a.message
  refine ⟨a, List.mem_cons_self, ?_, transfers_of_moved hs hmoved, .inl List.prefix_rfl⟩
  rw [hevents, htold, List.append_assoc]

/-- A failure with a scope tells of its rollback at its end. -/
theorem rollback_mem_closing {ended : Scope ν × Outcome × Active ν}
    (hending : a.state.ending a.message = some ended) {gas : Gas} {failure : Failure}
    (hfailed : a.result.1 = .ok (.failed gas failure)) :
    .rollback (a.state.arena.depth + 1) a.state.nonce gas ∈ a.closing := by
  rw [closing, closed?, hending, hfailed]
  exact List.mem_append_left _ List.mem_cons_self

/-- A transfer that is told while the code of an application runs. -/
theorem accounts_issued (hs : a.state.Sound)
    (ih : ∀ b ∈ a.issued, ∀ before t after,
      b.told = before ++ .transfer t :: after → b.Accounts before t after)
    {before rest : List Event} {t : Transfer}
    (hissued : a.issued.flatMap told = before ++ .transfer t :: rest) :
    a.Accounts (.apply a.message a.state.arena.depth a.state.gasRemaining :: before) t
      (rest ++ a.closing) := by
  obtain ⟨earlier, c, later, first, last, hlist, htold, hbefore, hrest⟩ :=
    exists_of_flatMap_eq hissued
  have hmem : c ∈ a.issued := by
    rw [hlist]
    exact List.mem_append_right _ List.mem_cons_self
  obtain ⟨b, hb, hevents, hrecorded, hfate⟩ := ih c hmem first t last htold
  have htree : ∀ d ∈ c.tree, d ∈ a.below := fun d hd => by
    rw [below_eq hs]
    exact List.mem_flatMap.mpr ⟨c, hmem, hd⟩
  rcases henter : a.state.enter a.message with ⟨result | scope, u⟩
  · rw [issued, henter] at hmem
    cases hmem
  · rcases hrun : scope.program.run (fun m s => s.apply m) ⟨scope.frame, u⟩ with ⟨outcome, x⟩
    have hending : a.state.ending a.message = some (scope, outcome, x) := by
      rw [State.ending_opened henter, hrun]
    obtain ⟨hbegin, hrecord⟩ :=
      issued_in_order henter (State.opens_of_enter hs henter) hrun
    refine ⟨b, List.mem_cons_of_mem _ (htree b hb), ?_, hrecorded, ?_⟩
    · rw [hevents, hbegin earlier c later hlist, State.events_announce, hbefore]
      simp only [List.append_assoc, List.cons_append, List.nil_append]
    · rcases hfate with hkept | ⟨d, hd, hbelow, hlost⟩
      · obtain ⟨-, -, -, happly⟩ := State.apply_opened hs hending
        have hleft := scope.left_leave outcome x.frame x.state
        rw [← happly] at hleft
        rcases kept_or_lost hleft with hstays | ⟨gas, failure, hfailed⟩ | hfatal
        · exact .inl ((hkept.trans (hrecord c hmem)).trans hstays)
        · refine .inr ⟨a, List.mem_cons_self, htree b hb, .inl ⟨gas, failure, hfailed, ?_⟩⟩
          exact List.mem_append_right _ (rollback_mem_closing hending hfailed)
        · exact .inr ⟨a, List.mem_cons_self, htree b hb, .inr hfatal⟩
      · refine .inr ⟨d, List.mem_cons_of_mem _ (htree d hd), hbelow, ?_⟩
        rcases hlost with ⟨gas, failure, hfailed, htold⟩ | hfatal
        · refine .inl ⟨gas, failure, hfailed, ?_⟩
          rw [hrest]
          exact List.mem_append_left _ (List.mem_append_left _ htold)
        · exact .inr hfatal

/-- **Each transfer that an application tells of is in the record at its end, or was lost with a scope
around it.** -/
theorem accounts_told (hs : a.state.Sound) : ∀ before t after,
    a.told = before ++ .transfer t :: after → a.Accounts before t after := by
  refine tree_induction (Q := fun a => ∀ before t after,
    a.told = before ++ .transfer t :: after → a.Accounts before t after) ?_ hs
  intro a hs ih before t after htold
  have hsplit := htold
  rw [told_eq hs] at hsplit
  cases before with
  | nil =>
    injection hsplit with hevent
    cases hevent
  | cons e before =>
    rw [List.cons_append] at hsplit
    injection hsplit with hevent hsplit
    subst hevent
    rw [List.append_eq_append_iff] at hsplit
    rcases hsplit with ⟨rest, -, hrest⟩ | ⟨rest, hfirst, hrest⟩
    · exact accounts_closing hs htold hrest
    · cases rest with
      | nil =>
        have hclosing : a.closing = [] ++ .transfer t :: after := hrest.symm
        exact accounts_closing hs htold hclosing
      | cons e rest =>
        injection hrest with he hafter
        subst he
        rw [hafter]
        exact accounts_issued hs ih hfirst

end Application

/-! ### Scopes -/

namespace State

/-- How the scope of a message has closed when the message has ended, and what was told of its layer
meanwhile: one commit if it was merged and one rollback if it was discarded, but nothing where the
message ended in a fatal, whether the layer was discarded too or was left open. -/
inductive Closing (s : State ν) (m : Message) (scope : Scope ν) (told : List Event) :
    Except Fatal Receipt × State ν → Prop where
  | merged {gas : Gas} {contract : Address} {returned : Option Value} {outcome : Outcome}
      {x : Active ν} {after : State ν} :
      s.ending m = some (scope, outcome, x) →
      x.state.arena.commit scope.frame.layer = .ok (after.current, after.arena) →
      told.filter (fun e => e.layer? = some scope.frame.layer) = [.commit scope.frame.layer gas] →
      Closing s m scope told (.ok (.succeeded gas contract returned), after)
  | discarded {gas : Gas} {failure : Failure} {after : State ν} :
      s.Recovered after →
      told.filter (fun e => e.layer? = some scope.frame.layer)
        = [.rollback scope.frame.layer s.nonce gas] →
      Closing s m scope told (.ok (.failed gas failure), after)
  | silent {cause : Fatal} {after : State ν} :
      s.Recovered after ∨ s.LeavesOpen m →
      told.filter (fun e => e.layer? = some scope.frame.layer) = [] →
      Closing s m scope told (.error cause, after)

/-- A failure has told of its rollback. -/
theorem Closing.rollback {s : State ν} {m : Message} {scope : Scope ν} {told : List Event}
    {r : Except Fatal Receipt × State ν} (h : s.Closing m scope told r) {gas : Gas}
    {failure : Failure} (hfailed : r.1 = .ok (.failed gas failure)) :
    told.filter (fun e => e.layer? = some scope.frame.layer)
      = [.rollback scope.frame.layer s.nonce gas] := by
  cases h with
  | discarded hrecovered htold =>
    injection hfailed with hreceipt
    injection hreceipt with hgas
    rw [← hgas]
    exact htold
  | merged hending hcommit htold => cases hfailed
  | silent hclosed htold => cases hfailed

theorem closing_apply {s t : State ν} {m : Message} {scope : Scope ν} (hs : s.Sound)
    (henter : s.enter m = (.opened scope, t)) :
    s.Closing m scope (Application.told ⟨m, s⟩) (s.apply m) := by
  have hopens := opens_of_enter hs henter
  have hlayer := hopens.layer_eq_succ hs
  rcases hrun : scope.program.run (fun m s => s.apply m) ⟨scope.frame, t⟩ with ⟨outcome, x⟩
  have hending : s.ending m = some (scope, outcome, x) := by
    rw [ending_opened henter, hrun]
  have htold := Application.filter_layer_told (a := ⟨m, s⟩) hs
  rw [Application.closed?, hending] at htold
  dsimp only [Option.bind_some, Application.result] at htold
  rw [← hlayer] at htold
  have hfailed : ∀ {gas failure}, (s.apply m).1 = .ok (.failed gas failure) →
      s.Recovered (s.apply m).2 := (transition_apply hs m).recovered
  have hfatal : ∀ cause, (s.apply m).1 = .error cause →
      s.Recovered (s.apply m).2 ∨ s.LeavesOpen m := fun cause hcause => by
    by_cases hopen : s.LeavesOpen m
    · exact .inr hopen
    · exact .inl (recovered_of_fatal hs hcause hopen)
  obtain ⟨-, -, -, happly⟩ := apply_opened hs hending
  have hleft := scope.left_leave outcome x.frame x.state
  rw [← happly] at hleft
  generalize s.apply m = r at htold hfailed hfatal hleft
  obtain ⟨result, after⟩ := r
  cases result with
  | error cause => exact .silent (hfatal cause rfl) htold
  | ok receipt =>
    cases receipt with
    | failed gas failure => exact .discarded (hfailed rfl) htold
    | succeeded gas contract returned =>
      cases hleft with
      | merged returned hcan hcommit =>
        refine .merged hending ?_ htold
        rw [Scope.merged_eq]
        exact hcommit

end State

/-- **Scopes that close say so, unless their code ended in a fatal.** A message that opens a scope, at any
moment of a transaction, adds its events to those that were told before. Of the layer of the scope they
tell once if the message ends with a receipt: of its commit if it was merged, and of its rollback if it
was discarded. If the message ends in a fatal they tell nothing of it. And each transfer that is told
while the message is applied is recorded by an application that ends just then. That record is there
when the message has ended, or the scope of some application around it was left without a success: by
a rollback that is told behind the transfer, or in a fatal. -/
theorem closing_told_unless_fatal {μ : Moment ν} (hμ : μ.Reached) {m : Message} {scope : Scope ν}
    {t : State ν} (henter : μ.state.enter m = (.opened scope, t)) :
    ∃ told, (μ.state.apply m).2.journal.events = μ.state.journal.events ++ told ∧
      μ.state.Closing m scope told (μ.state.apply m) ∧
      ∀ before transfer after, told = before ++ .transfer transfer :: after →
        Application.Accounts ⟨m, μ.state⟩ before transfer after := by
  have hs : μ.state.Sound := hμ.sound.state
  exact ⟨_, State.events_apply hs m, State.closing_apply hs henter, Application.accounts_told hs⟩

/-- Methods named `outer` call their own contract and go on whatever comes of it. All others send one
unit to the plain account and end the transaction. -/
def abandoning : Vm Empty where
  create _ _ _ := .done (.ok none)
  call method _ _ :=
    if method.name = "outer" then
      .ask (.call 1 0 ⟨"inner", []⟩ none) fun _ => .done (.ok none)
    else .ask (.transfer 2 1) fun _ => .done (.error (.fatal (.other "stop")))

def abandoningState : State Empty := .new .standard abandoning (oneContract 7 4) 0 5000

def abandoningCall : Message := ⟨2, 0, 4000, .externalCall 1 ⟨"outer", []⟩⟩

/-- The call that the code of `outer` makes. -/
def abandonedCall : Message := ⟨1, 0, 3000, .internalCall 1 ⟨"inner", []⟩⟩

/-- **Not every scope that closes says so.** The nested call of `outer` opens the second layer, sends one
unit and ends in a fatal. Its scope is rolled back, and the code around it ends well. What was told is
the transfer, which is in no record any more, and the commit of the first layer: nothing tells of the
second one. -/
theorem abandoned_untold :
    (∃ (program : Program Empty Outcome) (x : Active Empty) (scope : Scope Empty) (t : State Empty),
      (Moment.running [] program x).Reached ∧ x.state.enter abandonedCall = (.opened scope, t) ∧
      scope.frame.layer = 2 ∧ (x.state.apply abandonedCall).1 = .error (.other "stop") ∧
      (x.state.apply abandonedCall).2.arena.depth = x.state.arena.depth) ∧
    (abandoningState.apply abandoningCall).1 = .ok (.succeeded 1000 1 none) ∧
    (abandoningState.apply abandoningCall).2.transfers = [] ∧
    (abandoningState.apply abandoningCall).2.journal.events =
      [.apply abandoningCall 0 5000, .apply abandonedCall 1 5000,
        .apply ⟨1, 1, 2000, .contractTransfer 2⟩ 2 5000, .transfer ⟨1, 2, 1⟩, .commit 1 1000] := by
  have hstart : (Moment.idle abandoningState).Reached := .new _ _ _ _ _
  refine ⟨⟨_, _, _, _, hstart.entered (rfl : abandoningState.enter abandoningCall = _), rfl, ?_, ?_, ?_⟩,
    ?_, ?_, ?_⟩
  all_goals decide +kernel

-- the nested call sends one unit and reverts
theorem closing_told_unless_fatal_of_detour :
    ∃ (program : Program Empty Outcome) (x : Active Empty) (told : List Event),
      (Moment.running [] program x).Reached ∧
      (x.state.apply ⟨1, 0, 3000, .internalCall 1 ⟨"try", []⟩⟩).2.journal.events
        = x.state.journal.events ++ told ∧
      told.filter (fun e => e.layer? = some 2) = [.rollback 2 0 1000] := by
  have hstart : (Moment.idle detourState).Reached := .new _ _ _ _ _
  have hreached := hstart.entered (rfl : detourState.enter detourCall = _)
  obtain ⟨told, hevents, hclosing, -⟩ :=
    closing_told_unless_fatal hreached (m := ⟨1, 0, 3000, .internalCall 1 ⟨"try", []⟩⟩) rfl
  refine ⟨_, _, told, hreached, hevents,
    hclosing.rollback (?_ : _ = Except.ok (Receipt.failed 1000 (.faulted .reverted)))⟩
  decide +kernel

end ContractExec
