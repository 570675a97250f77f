import ContractExec.Proofs.Nesting

/-!
# Applications within applications

An application is a message together with the state that it is applied to. Its code applies further
messages, each to the state of that moment, so the applications of a transaction form a tree, and
what is said of one of them can speak of all that lie below it.

* `State.ending`, `State.Applied` — how an application goes: it is settled at once, or its code runs
  to an end and its scope is left;
* `Application.issued`, `Application.below` — the applications that the code of one makes, and all
  that lie below it at any depth; with `Application.tree`, which begins with the application itself;
* `Program.run_issued` — what a run carries along with the list of the applications that it has made;
* `Application.induction` — **what holds of an application if it holds of those that its code makes,
  holds of all**;
* `Application.below_eq` — the tree below an application is the trees of those that its code makes;
* `Application.forall_mem_tree`, `Opens.run_tree` — what goes down the tree, and what a run carries
  along if something is known of all of it;
* `Application.collect`, `collect_eq` — lists that are told of applications by those below them.
-/

namespace ContractExec

variable {ν α : Type}

/-! ### The course of an application -/

namespace State

variable {s t : State ν} {m : Message} {scope : Scope ν} {x : Active ν}

/-- The scope of a message with the end of its code, if it has any: the outcome, and the frame and
the state at that moment. -/
def ending (s : State ν) (m : Message) : Option (Scope ν × Outcome × Active ν) :=
  match s.enter m with
  | (.settled _, _) => none
  | (.opened scope, t) => some (scope, scope.program.run (fun m s => s.apply m) ⟨scope.frame, t⟩)

theorem apply_settled (hs : s.Sound) {result : Except Fatal Receipt}
    (henter : s.enter m = (.settled result, t)) : s.apply m = (result, t) := by
  rw [apply_eq hs, applyWith_settled henter]

/-- What applying a message can lead to. -/
inductive Applied (s : State ν) (m : Message) : Except Fatal Receipt × State ν → Prop where
  | settled {result : Except Fatal Receipt} {t : State ν} :
      s.enter m = (.settled result, t) → s.Entered m (.settled result, t) →
      Applied s m (result, t)
  | left {scope : Scope ν} {t : State ν} {outcome : Outcome} {x : Active ν}
      {r : Except Fatal Receipt × State ν} :
      s.enter m = (.opened scope, t) → s.Opens m scope t →
      scope.program.run (fun m s => s.apply m) ⟨scope.frame, t⟩ = (outcome, x) → x.Within t →
      scope.Left x.frame x.state outcome r → Applied s m r

/-- **A message is settled at once, or its code runs within its scope and the scope is left.** -/
theorem applied_apply (hs : s.Sound) (m : Message) : s.Applied m (s.apply m) := by
  rcases henter : s.enter m with ⟨result | scope, t⟩
  · have hentered := entered_enter hs m
    rw [henter] at hentered
    rw [apply_settled hs henter]
    exact .settled henter hentered
  · have hopens := opens_of_enter hs henter
    have hwithin := hopens.within_run transitions_apply
    have happly := apply_eq hs m
    rw [applyWith_opened henter] at happly
    rw [happly]
    exact .left henter hopens rfl hwithin (scope.left_leave _ _ _)

/-- A message with code opens a scope, its code runs within that, and the scope is left. -/
theorem apply_opened (hs : s.Sound) {outcome : Outcome}
    (hending : s.ending m = some (scope, outcome, x)) :
    ∃ t, s.Opens m scope t ∧ x.Within t ∧ s.apply m = scope.leave outcome x.frame x.state := by
  rw [ending] at hending
  split at hending
  case h_1 => nomatch hending
  case h_2 u t henter =>
    injection hending with hending
    injection hending with hscope hrun
    subst hscope
    have hopens := opens_of_enter hs henter
    have hwithin := hopens.within_run transitions_apply
    have happly := apply_eq hs m
    rw [applyWith_opened henter, hrun] at happly
    rw [hrun] at hwithin
    exact ⟨t, hopens, hwithin, happly⟩

end State

/-! ### Applications made by code -/

/-- A message together with the state that it is applied to. -/
structure Application (ν : Type) where
  message : Message
  state : State ν

/-- The application that a frame makes to answer a request, if the request issues a message. -/
def Active.issuedBy (x : Active ν) (q : Request) : Option (Application ν) :=
  match x.issueOf q with
  | some (.issued m) => some ⟨m, x.state⟩
  | _ => none

/-- The applications that a run makes, in their order. -/
def Program.issued (nested : Applying ν) : Program ν α → Active ν → List (Application ν)
  | done _, _ => []
  | ask q next, x =>
    (x.issuedBy q).toList
      ++ (next (x.answer nested q).1).issued nested (x.answer nested q).2
  | note n next, x => next.issued nested { x with state := x.state.keep n }
  | recollect next, x => (next x.state.journal.notes).issued nested x

namespace Application

/-- How an application ends. -/
def result (a : Application ν) : Except Fatal Receipt × State ν := a.state.apply a.message

/-- The applications that the code of one makes. -/
def issued (a : Application ν) : List (Application ν) :=
  match a.state.enter a.message with
  | (.settled _, _) => []
  | (.opened scope, t) => scope.program.issued (fun m s => s.apply m) ⟨scope.frame, t⟩

/-- The applications below one, down to so many levels: each that its code makes, with those below
that one behind it. -/
def belowWithin : (levels : Nat) → Application ν → List (Application ν)
  | 0, _ => []
  | levels + 1, a => a.issued.flatMap fun b => b :: belowWithin levels b

/-- All applications below one. Frames at the call stack limit make none, so that limit bounds the
levels. -/
def below (a : Application ν) : List (Application ν) :=
  belowWithin a.state.config.callStackLimit.toNat a

/-- An application and all that lie below it. -/
def tree (a : Application ν) : List (Application ν) := a :: a.below

end Application

section

variable {s t : State ν} {m : Message} {scope : Scope ν}

theorem State.ending_settled {result : Except Fatal Receipt}
    (henter : s.enter m = (.settled result, t)) : s.ending m = none := by
  rw [ending, henter]

theorem State.ending_opened (henter : s.enter m = (.opened scope, t)) :
    s.ending m
      = some (scope, scope.program.run (fun m s => s.apply m) ⟨scope.frame, t⟩) := by
  rw [ending, henter]

theorem Application.issued_settled {result : Except Fatal Receipt}
    (henter : s.enter m = (.settled result, t)) : issued ⟨m, s⟩ = [] := by
  rw [issued, henter]

end

/-! ### Along a run -/

/-- A request is answered within its frame, or by one application. -/
theorem Active.acted_or_issued (nested : Applying ν) (x : Active ν) (q : Request) :
    (x.issuedBy q = none ∧ x.Acted (x.answer nested q).2) ∨
      ∃ m, x.issuedBy q = some ⟨m, x.state⟩ ∧ x.Issues m ∧
        (x.answer nested q).2 = (x.follow nested (.issued m)).2 := by
  rw [issuedBy]
  cases hissue : x.issueOf q with
  | none => exact .inl ⟨rfl, acted_answer nested hissue⟩
  | some issue =>
    have hfollow := answer_of_issue nested hissue
    cases issue with
    | settled result =>
      rw [hfollow]
      exact .inl ⟨rfl, .paid .free⟩
    | issued m => exact .inr ⟨m, rfl, ⟨q, hissue⟩, hfollow⟩

/-- **What a run carries along with the applications that it has made.** -/
theorem Program.run_issued (nested : Applying ν) {J : List (Application ν) → Active ν → Prop}
    (hacted : ∀ {l x y}, J l x → x.Acted y → J l y)
    (hissued : ∀ {l x m}, J l x → x.Issues m →
      J (l ++ [⟨m, x.state⟩]) (x.follow nested (.issued m)).2)
    (hnote : ∀ {l x} n, J l x → J l { x with state := x.state.keep n })
    (p : Program ν α) {l : List (Application ν)} {x : Active ν} (hx : J l x) :
    J (l ++ p.issued nested x) (p.run nested x).2 := by
  induction p generalizing l x with
  | done value =>
    rw [issued, List.append_nil]
    exact hx
  | ask q next ih =>
    have hanswer : J (l ++ (x.issuedBy q).toList) (x.answer nested q).2 := by
      rcases x.acted_or_issued nested q with ⟨hnone, hact⟩ | ⟨m, hmade, hissues, hfollow⟩
      · rw [hnone, Option.toList_none, List.append_nil]
        exact hacted hx hact
      · rw [hmade, hfollow]
        exact hissued hx hissues
    rw [issued, ← List.append_assoc]
    exact ih _ hanswer
  | note n next ih => exact ih (hnote n hx)
  | recollect next ih => exact ih _ hx

namespace State

variable {s t : State ν} {m : Message} {scope : Scope ν}

/-- What the code of a scope carries along, from the beginning of the scope to its end. -/
theorem Opens.run_issued (h : s.Opens m scope t) (henter : s.enter m = (.opened scope, t))
    {outcome : Outcome} {x : Active ν}
    (hrun : scope.program.run (fun m s => s.apply m) ⟨scope.frame, t⟩ = (outcome, x))
    {J : List (Application ν) → Active ν → Prop}
    (hacted : ∀ {l x y}, x.Within t → J l x → x.Acted y → J l y)
    (hissued : ∀ {l x n}, x.Within t → J l x → x.Issues n →
      J (l ++ [⟨n, x.state⟩]) (x.follow (fun m s => s.apply m) (.issued n)).2)
    (hnote : ∀ {l x} n, J l x → J l { x with state := x.state.keep n })
    (hstart : J [] ⟨scope.frame, t⟩) : J (Application.issued ⟨m, s⟩) x := by
  have hend := Program.run_issued (fun m s => s.apply m) (J := fun l x => x.Within t ∧ J l x)
    (fun hx hy => ⟨hx.1.answered transitions_apply hy.answered, hacted hx.1 hx.2 hy⟩)
    (fun {l x n} hx hn => ⟨hx.1.answered transitions_apply (Active.answered_issued hn),
      hissued hx.1 hx.2 hn⟩)
    (fun n hx => ⟨hx.1.keep n, hnote n hx.2⟩)
    scope.program (l := []) (x := ⟨scope.frame, t⟩) ⟨h.within, hstart⟩
  rw [hrun] at hend
  rw [Application.issued, henter]
  exact hend.2

end State

/-! ### The tree of applications -/

namespace Application

variable {a b : Application ν}

/-- **Induction over nested applications.** -/
theorem induction {Q : Application ν → Prop}
    (hstep : ∀ {s : State ν} {m : Message}, s.Sound →
      (∀ {scope : Scope ν} {t : State ν} {x : Active ν} {n : Message},
        s.Opens m scope t → x.Within t → x.Issues n → Q ⟨n, x.state⟩) → Q ⟨m, s⟩)
    {s : State ν} (hs : s.Sound) (m : Message) : Q ⟨m, s⟩ := by
  -- on the depth that is left below a state
  generalize hlevels : s.config.callStackLimit.toNat - s.arena.depth = levels
  induction levels using Nat.strongRecOn generalizing s m with
  | ind levels ih =>
    refine hstep hs ?_
    intro scope t x n hopens hx hissues
    obtain ⟨hconfig, hdepth, hlimit⟩ := hopens.issued_deeper hs hx hissues
    exact ih _ (by rw [hconfig]; omega) hx.sound n rfl

/-- Every application that code makes is made by its frame, within its scope. -/
theorem exists_of_mem_issued (hs : a.state.Sound) (hb : b ∈ a.issued) :
    ∃ (scope : Scope ν) (t : State ν) (x : Active ν),
      a.state.Opens a.message scope t ∧ x.Within t ∧ x.Issues b.message ∧
      b.state = x.state := by
  rcases henter : a.state.enter a.message with ⟨result | scope, t⟩
  · rw [issued, henter] at hb
    nomatch hb
  · have hopens := State.opens_of_enter hs henter
    have hall := hopens.run_issued henter rfl
      (J := fun l _ => ∀ b ∈ l, ∃ x : Active ν, x.Within t ∧ x.Issues b.message ∧ b.state = x.state)
      (fun _ hl _ => hl)
      (fun {l x n} hx hl hissues c hc => by
        rcases List.mem_append.mp hc with hc | hc
        · exact hl c hc
        · rw [List.mem_singleton.mp hc]
          exact ⟨x, hx, hissues, rfl⟩)
      (fun _ hl => hl) nofun
    obtain ⟨x, hx, hissues, hstate⟩ := hall b hb
    exact ⟨scope, t, x, hopens, hx, hissues, hstate⟩

/-- Every application that code makes is made in a sound state, deeper down. -/
theorem of_mem_issued (hs : a.state.Sound) (hb : b ∈ a.issued) :
    b.state.Sound ∧ b.state.config = a.state.config ∧
      a.state.arena.depth < b.state.arena.depth ∧
      a.state.arena.depth + 1 < a.state.config.callStackLimit.toNat := by
  obtain ⟨scope, t, x, hopens, hx, hissues, hstate⟩ := exists_of_mem_issued hs hb
  rw [hstate]
  exact ⟨hx.sound, hopens.issued_deeper hs hx hissues⟩

/-- With enough levels for the depth that is left, one more makes no difference. -/
theorem belowWithin_succ (levels : Nat) (hs : a.state.Sound)
    (hlevels : a.state.config.callStackLimit.toNat ≤ levels + a.state.arena.depth + 1) :
    belowWithin (levels + 1) a = belowWithin levels a := by
  induction levels generalizing a with
  | zero =>
    have hnone : a.issued = [] := by
      refine List.eq_nil_iff_forall_not_mem.mpr fun b hb => ?_
      obtain ⟨-, -, -, hlimit⟩ := of_mem_issued hs hb
      omega
    show a.issued.flatMap _ = []
    rw [hnone]
    rfl
  | succ levels ih =>
    rw [belowWithin, belowWithin, List.flatMap_def, List.flatMap_def]
    refine congrArg List.flatten (List.map_congr_left fun b hb => ?_)
    obtain ⟨hsound, hconfig, hdepth, -⟩ := of_mem_issued hs hb
    rw [ih hsound (by rw [hconfig]; omega)]

/-- **The tree below an application** is made of the trees of those that its code makes. -/
theorem below_eq (hs : a.state.Sound) : a.below = a.issued.flatMap tree := by
  rw [below, ← belowWithin_succ _ hs (by omega), belowWithin, List.flatMap_def, List.flatMap_def]
  refine congrArg List.flatten (List.map_congr_left fun b hb => ?_)
  obtain ⟨-, hconfig, -⟩ := of_mem_issued hs hb
  rw [tree, below, hconfig]

/-- An application in the tree is the root of it, or in the tree of one that its code makes. -/
theorem mem_tree_iff (hs : a.state.Sound) : b ∈ a.tree ↔ b = a ∨ ∃ c ∈ a.issued, b ∈ c.tree := by
  rw [tree, below_eq hs, List.mem_cons, List.mem_flatMap]

/-- **Induction over the tree of an application**: each holds if those hold that its code makes. -/
theorem tree_induction {Q : Application ν → Prop}
    (hstep : ∀ a : Application ν, a.state.Sound → (∀ b ∈ a.issued, Q b) → Q a)
    (hs : a.state.Sound) : Q a := by
  refine Application.induction (Q := Q) (fun {s m} hs ih => hstep ⟨m, s⟩ hs fun b hb => ?_) hs a.message
  obtain ⟨scope, t, x, hopens, hx, hissues, hstate⟩ := exists_of_mem_issued hs hb
  obtain ⟨n, u⟩ := b
  subst hstate
  exact ih hopens hx hissues

/-- What an application hands on to those that its code makes, it hands on to the whole tree. -/
theorem forall_mem_tree {P : Application ν → Prop}
    (hissued : ∀ a : Application ν, a.state.Sound → P a → ∀ b ∈ a.issued, P b)
    (hs : a.state.Sound) (ha : P a) : ∀ b ∈ a.tree, P b := by
  refine tree_induction (Q := fun a => P a → ∀ b ∈ a.tree, P b) ?_ hs ha
  intro a hs ih ha b hb
  rcases (mem_tree_iff hs).mp hb with rfl | ⟨c, hc, hbelow⟩
  · exact ha
  · exact ih c hc (hissued a hs ha c hc) b hbelow

/-- Lists that are told of applications, each by those of the applications that its code makes, down
to so many levels. -/
def collectWithin {γ : Type} (tell : (Application ν → List γ) → Application ν → List γ) :
    (levels : Nat) → Application ν → List γ
  | 0, a => tell (fun _ => []) a
  | levels + 1, a => tell (collectWithin tell levels) a

/-- The list that is told of an application by those of all below it. -/
def collect {γ : Type} (tell : (Application ν → List γ) → Application ν → List γ)
    (a : Application ν) : List γ :=
  collectWithin tell a.state.config.callStackLimit.toNat a

section

variable {γ : Type} {tell : (Application ν → List γ) → Application ν → List γ}

/-- With enough levels for the depth that is left, one more makes no difference. -/
theorem collectWithin_succ
    (htell : ∀ {below below' : Application ν → List γ} {a : Application ν},
      (∀ b ∈ a.issued, below b = below' b) → tell below a = tell below' a)
    (levels : Nat) (hs : a.state.Sound)
    (hlevels : a.state.config.callStackLimit.toNat ≤ levels + a.state.arena.depth + 1) :
    collectWithin tell (levels + 1) a = collectWithin tell levels a := by
  induction levels generalizing a with
  | zero =>
    refine htell fun b hb => ?_
    obtain ⟨-, -, -, hlimit⟩ := of_mem_issued hs hb
    omega
  | succ levels ih =>
    refine htell fun b hb => ?_
    obtain ⟨hsound, hconfig, hdepth, -⟩ := of_mem_issued hs hb
    exact ih hsound (by rw [hconfig]; omega)

/-- **What is collected below an application** is told by what is collected below those that its code
makes, if it is told by nothing else. -/
theorem collect_eq
    (htell : ∀ {below below' : Application ν → List γ} {a : Application ν},
      (∀ b ∈ a.issued, below b = below' b) → tell below a = tell below' a)
    (hs : a.state.Sound) : collect tell a = tell (collect tell) a := by
  rw [collect, ← collectWithin_succ htell _ hs (by omega)]
  refine htell fun b hb => ?_
  obtain ⟨-, hconfig, -⟩ := of_mem_issued hs hb
  rw [collect, hconfig]

end

theorem sound_of_mem_tree (hs : a.state.Sound) : ∀ b ∈ a.tree, b.state.Sound :=
  forall_mem_tree (fun _ ha _ _ hb => (of_mem_issued ha hb).1) hs hs

end Application

namespace State.Opens

variable {s t : State ν} {m : Message} {scope : Scope ν}

/-- What the code of a scope carries along from its beginning to its end, if something is known of all
applications of the tree. Every application that the code makes is made on the way. -/
theorem run_tree (h : s.Opens m scope t) (hs : s.Sound) (henter : s.enter m = (.opened scope, t))
    {outcome : Outcome} {x : Active ν}
    (hrun : scope.program.run (fun m s => s.apply m) ⟨scope.frame, t⟩ = (outcome, x))
    {F : Application ν → Prop} (hall : ∀ b ∈ Application.tree ⟨m, s⟩, F b) {J : Active ν → Prop}
    (hacted : ∀ {x y}, x.Within t → J x → x.Acted y → J y)
    (hissued : ∀ {x n}, x.Within t → J x → x.Issues n →
      (∀ b ∈ Application.tree ⟨n, x.state⟩, F b) →
      J (x.follow (fun m s => s.apply m) (.issued n)).2)
    (hnote : ∀ {x} n, J x → J { x with state := x.state.keep n })
    (hstart : J ⟨scope.frame, t⟩) :
    J x ∧ ∀ b ∈ Application.issued ⟨m, s⟩,
      ∃ y : Active ν, y.Within t ∧ J y ∧ y.Issues b.message ∧ b.state = y.state := by
  refine h.run_issued henter hrun
    (J := fun l x => (∀ b ∈ l.flatMap Application.tree, F b) → J x ∧ ∀ b ∈ l,
      ∃ y : Active ν, y.Within t ∧ J y ∧ y.Issues b.message ∧ b.state = y.state)
    (fun hx hJ hy hl => ⟨hacted hx (hJ hl).1 hy, (hJ hl).2⟩) (fun {l x n} hx hJ hissues hl => ?_)
    (fun n hJ hl => ⟨hnote n (hJ hl).1, (hJ hl).2⟩) (fun _ => ⟨hstart, nofun⟩) fun b hb => ?_
  · rw [List.flatMap_append, List.flatMap_singleton, List.forall_mem_append] at hl
    obtain ⟨hbefore, hmade⟩ := hJ hl.1
    rw [List.forall_mem_append, List.forall_mem_singleton]
    exact ⟨hissued hx hbefore hissues hl.2, hmade, x, hx, hbefore, hissues, rfl⟩
  · rw [← Application.below_eq hs] at hb
    exact hall b (List.mem_cons_of_mem _ hb)

end State.Opens

end ContractExec
