import ContractExec.Proofs.Application
import ContractExec.Proofs.Moment

/-!
# The course of a transaction

From one moment of a transaction to a later one operations come back: requests of contract code with
their answers, and messages that were applied. A nested message comes back right before the request
that led to it, and after everything that its own code has asked for. So what has come back so far,
in the order of time, is one list, and what is said of it up to a moment speaks of all depths.

* `Return`, `Return.fatal?` — an operation that has come back, and the fatal that it came back with;
* `Program.returns`, `Application.returns` — all that comes back while code runs, and while a message
  is applied; `returns_eq` — the latter at one level and those below;
* `applied_mem_returns_iff` — the messages among it are those of the tree of applications;
* `Moment.Course` — from one moment to another, with all that came back in between;
* `Course.reached`, `Course.run` — a course stays within the reached moments, and goes on to the end
  of the code that runs.
-/

namespace ContractExec

variable {ν α : Type}

/-! ### What comes back -/

/-- An operation that has come back: a request of contract code, or a message that was applied. -/
inductive Return (ν : Type) where
  | answered (x : Active ν) (q : Request)
  | applied (a : Application ν)

/-- The fatal that something ended in, if it did. -/
def fatalOf? {β : Type} : Except Fatal β → Option Fatal
  | .ok _ => none
  | .error fatal => some fatal

/-- The fatal that something was stopped by, if it was. -/
def fatalOfStop? {β : Type} : Except Stop β → Option Fatal
  | .error (.fatal fatal) => some fatal
  | _ => none

/-- The fatal of an answer. Reading storage, logs and hashes can only fail with a fault. -/
def Request.fatal? : (q : Request) → q.Answer → Option Fatal
  | .balance, answer => fatalOf? answer
  | .setStorage .., answer | .setCode _, answer | .setContractType _, answer => fatalOfStop? answer
  | .create .., answer | .call .., answer | .transfer .., answer => fatalOf? answer
  | _, _ => none

/-- The fatal of an application that ended in one. -/
def Application.fatal? (a : Application ν) : Option Fatal := fatalOf? a.result.1

def Return.fatal? : Return ν → Option Fatal
  | .answered x q => q.fatal? (x.answer (fun m s => s.apply m) q).1
  | .applied a => a.fatal?

/-- All fatals with which operations have come back, the first one first. -/
def fatals (returns : List (Return ν)) : List Fatal := returns.filterMap Return.fatal?

theorem fatals_append (l k : List (Return ν)) : fatals (l ++ k) = fatals l ++ fatals k :=
  List.filterMap_append

theorem fatalOf?_eq_some_iff {β : Type} {answer : Except Fatal β} {cause : Fatal} :
    fatalOf? answer = some cause ↔ answer = .error cause := by
  cases answer <;> simp [fatalOf?]

theorem fatalOf?_eq_none_iff {β : Type} {answer : Except Fatal β} :
    fatalOf? answer = none ↔ ∃ value, answer = .ok value := by
  cases answer <;> simp [fatalOf?]

theorem fatalOfStop?_eq_some_iff {β : Type} {answer : Except Stop β} {cause : Fatal} :
    fatalOfStop? answer = some cause ↔ answer = .error (.fatal cause) := by
  rcases answer with (fault | fatal) | value <;> simp [fatalOfStop?]

/-- If no operation has come back with a fatal, every message has with a receipt. -/
theorem exists_receipt_of_mem {returns : List (Return ν)} (hnone : fatals returns = [])
    {a : Application ν} (ha : .applied a ∈ returns) : ∃ receipt, a.result.1 = .ok receipt := by
  have hcalm : a.fatal? = none := List.filterMap_eq_nil_iff.mp hnone _ ha
  exact fatalOf?_eq_none_iff.mp hcalm

/-- What comes back while a request is answered, given what does while a message is applied. -/
def Active.returns (below : Application ν → List (Return ν)) (x : Active ν) (q : Request) :
    List (Return ν) :=
  (x.issuedBy q).toList.flatMap below ++ [.answered x q]

/-- What comes back while a program runs. -/
def Program.returns (below : Application ν → List (Return ν)) :
    Program ν α → Active ν → List (Return ν)
  | done _, _ => []
  | ask q next, x =>
    let (answer, y) := x.answer (fun m s => s.apply m) q
    x.returns below q ++ (next answer).returns below y
  | note n next, x => next.returns below { x with state := x.state.keep n }
  | recollect next, x => (next x.state.journal.notes).returns below x

namespace Application

/-- What comes back while the code of an application runs, and then the application itself. -/
def returnsWith (below : Application ν → List (Return ν)) (a : Application ν) : List (Return ν) :=
  (match a.state.enter a.message with
    | (.settled _, _) => []
    | (.opened scope, t) => scope.program.returns below ⟨scope.frame, t⟩) ++ [.applied a]

/-- What comes back while a message is applied, the application itself last. -/
def returns (a : Application ν) : List (Return ν) := collect returnsWith a

end Application

/-- Of what lies below, only the applications matter that the code makes. -/
theorem Program.returns_congr {below below' : Application ν → List (Return ν)} (p : Program ν α)
    {x : Active ν} (h : ∀ b ∈ p.issued (fun m s => s.apply m) x, below b = below' b) :
    p.returns below x = p.returns below' x := by
  induction p generalizing x with
  | done value => rfl
  | ask q next ih =>
    rw [issued, List.forall_mem_append] at h
    have hfirst : x.returns below q = x.returns below' q := by
      rw [Active.returns, Active.returns, List.flatMap_def, List.flatMap_def,
        List.map_congr_left h.1]
    rw [returns, returns, hfirst]
    exact congrArg _ (ih _ h.2)
  | note n next ih => exact ih h
  | recollect next ih => exact ih _ h

/-- The messages that come back while a program runs come back while one of those is applied that the
program issues. -/
theorem Program.applied_mem_returns_iff {below : Application ν → List (Return ν)} (p : Program ν α)
    {x : Active ν} {b : Application ν} :
    .applied b ∈ p.returns below x ↔
      ∃ c ∈ p.issued (fun m s => s.apply m) x, .applied b ∈ below c := by
  induction p generalizing x with
  | done value => simp [returns, issued]
  | ask q next ih =>
    simp only [returns, issued, Active.returns, List.mem_append, ih, List.mem_flatMap,
      List.mem_singleton, reduceCtorEq, or_false, or_and_right, exists_or]
  | note n next ih => exact ih
  | recollect next ih => exact ih _

namespace Application

variable {a b : Application ν} {s t : State ν} {m : Message} {scope : Scope ν}

theorem returnsWith_congr {below below' : Application ν → List (Return ν)}
    (h : ∀ b ∈ a.issued, below b = below' b) : a.returnsWith below = a.returnsWith below' := by
  rw [returnsWith, returnsWith]
  rcases henter : a.state.enter a.message with ⟨result | scope, t⟩
  · rfl
  · rw [issued, henter] at h
    dsimp only
    rw [Program.returns_congr _ h]

/-- **What comes back while a message is applied** is what comes back while its code runs, with all
that comes back at the levels below, and then the message itself. -/
theorem returns_eq (hs : a.state.Sound) : a.returns = a.returnsWith returns :=
  collect_eq returnsWith_congr hs

theorem returns_settled (hs : s.Sound) {result : Except Fatal Receipt}
    (henter : s.enter m = (.settled result, t)) : returns ⟨m, s⟩ = [.applied ⟨m, s⟩] := by
  rw [returns_eq hs, returnsWith, henter]
  rfl

theorem returns_opened (hs : s.Sound) (henter : s.enter m = (.opened scope, t)) :
    returns ⟨m, s⟩ = scope.program.returns returns ⟨scope.frame, t⟩ ++ [.applied ⟨m, s⟩] := by
  rw [returns_eq hs, returnsWith, henter]

/-- The messages that come back are those of the tree. -/
theorem applied_mem_returns_iff (hs : a.state.Sound) : .applied b ∈ a.returns ↔ b ∈ a.tree := by
  refine tree_induction (Q := fun a => .applied b ∈ a.returns ↔ b ∈ a.tree) ?_ hs
  intro a hs ih
  have hcode : .applied b ∈ a.returns ↔ b = a ∨ ∃ c ∈ a.issued, .applied b ∈ c.returns := by
    rcases henter : a.state.enter a.message with ⟨result | scope, t⟩
    · rw [returns_settled hs henter, issued_settled henter]
      simp
    · rw [returns_opened hs henter, issued, henter, List.mem_append,
        Program.applied_mem_returns_iff, List.mem_singleton, Return.applied.injEq, or_comm]
  rw [hcode, mem_tree_iff hs]
  exact or_congr_right (exists_congr fun c => and_congr_right fun hc => ih c hc)

end Application

/-- The whole tree of an application comes back with the request that it answers. -/
theorem Active.applied_mem_returns {x : Active ν} {q : Request} {a b : Application ν}
    (hmade : x.issuedBy q = some a) (hs : a.state.Sound) (hb : b ∈ a.tree) :
    .applied b ∈ x.returns Application.returns q := by
  rw [returns, hmade, Option.toList_some, List.flatMap_singleton]
  exact List.mem_append_left _ ((Application.applied_mem_returns_iff hs).mpr hb)

/-! ### From one moment to another -/

namespace Moment

/-- The moments that a transaction comes to from one of its moments, with all that came back on the
way. While no code runs it applies messages of some kind only. A course never leaves the scopes that
are open at its beginning. -/
inductive Course (admits : Message → Prop) (start : Moment ν) :
    List (Return ν) → Moment ν → Prop where
  | start : Course admits start [] start
  | applied {returns : List (Return ν)} {s : State ν} {m : Message} :
      Course admits start returns (.idle s) → admits m →
      Course admits start (returns ++ Application.returns ⟨m, s⟩) (.idle (s.apply m).2)
  | entered {returns : List (Return ν)} {s t : State ν} {m : Message} {scope : Scope ν} :
      Course admits start returns (.idle s) → admits m → s.enter m = (.opened scope, t) →
      Course admits start returns (.running [] scope.program ⟨scope.frame, t⟩)
  | nested {returns : List (Return ν)} {waiting : List Frame} {q : Request}
      {next : q.Answer → Program ν Outcome} {x : Active ν} {t : State ν} {m : Message}
      {scope : Scope ν} :
      Course admits start returns (.running waiting (.ask q next) x) →
      x.issueOf q = some (.issued m) → x.state.enter m = (.opened scope, t) →
      Course admits start returns (.running (x.frame :: waiting) scope.program ⟨scope.frame, t⟩)
  | asked {returns : List (Return ν)} {waiting : List Frame} {q : Request}
      {next : q.Answer → Program ν Outcome} {x : Active ν} :
      Course admits start returns (.running waiting (.ask q next) x) →
      Course admits start (returns ++ x.returns Application.returns q)
        (.running waiting (next (x.answer (fun m s => s.apply m) q).1)
          (x.answer (fun m s => s.apply m) q).2)
  | noted {returns : List (Return ν)} {waiting : List Frame} {n : ν} {next : Program ν Outcome}
      {x : Active ν} :
      Course admits start returns (.running waiting (.note n next) x) →
      Course admits start returns (.running waiting next { x with state := x.state.keep n })
  | recalled {returns : List (Return ν)} {waiting : List Frame}
      {next : List ν → Program ν Outcome} {x : Active ν} :
      Course admits start returns (.running waiting (.recollect next) x) →
      Course admits start returns (.running waiting (next x.state.journal.notes) x)

namespace Course

variable {admits : Message → Prop} {start μ : Moment ν} {returns : List (Return ν)}

/-- What a transaction comes to from a reached moment is reached. -/
theorem reached (hstart : start.Reached) (h : Course admits start returns μ) : μ.Reached := by
  induction h with
  | start => exact hstart
  | applied h hadmits ih => exact ih.applied _
  | entered h hadmits henter ih => exact ih.entered henter
  | nested h hissue henter ih => exact ih.nested hissue henter
  | asked h ih => exact ih.asked
  | noted h ih => exact ih.noted
  | recalled h ih => exact ih.recalled

/-- Code that runs comes to its end. -/
theorem run {waiting : List Frame} {p : Program ν Outcome} {x : Active ν}
    (h : Course admits start returns (.running waiting p x)) :
    Course admits start (returns ++ p.returns Application.returns x)
      (.running waiting (.done (p.run (fun m s => s.apply m) x).1)
        (p.run (fun m s => s.apply m) x).2) := by
  induction p generalizing x returns with
  | done outcome =>
    rw [Program.returns, List.append_nil]
    exact h
  | ask q next ih =>
    rw [Program.returns, ← List.append_assoc]
    exact ih _ h.asked
  | note n next ih => exact ih h.noted
  | recollect next ih => exact ih _ h.recalled

end Course

end Moment

end ContractExec
