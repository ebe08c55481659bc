import GpuManager.Lib.Plays
import GpuManager.Lifecycle.Resources
import GpuManager.Lifecycle.StoreOracle

/-!
# Operations under a transition lease

`run_transition` and `run_group_transition` of `bundle_lifecycle.py`: a lease is begun, an
operation is awaited under it while a `_lease_keepalive` task renews it, and the lease is finished
on the way out.  The two differ in the calls of the store and in two error texts.

The store is the in-memory one.  Its lock is never held across an `await`, so a call of it is one
step that is neither refused nor cancelled.  Between two steps of the runner the clock is set, the
keepalive task makes a round, and others call the store.  A cancellation that arrives while the
runner joins its keepalive task is swallowed there, so the join has one outcome.
-/

namespace GpuManager.Lifecycle

open AtomicProgram InMemory

/-- An exception: `asyncio.CancelledError`, an `Exception` with its name and text, unless `str`
raises, or another `BaseException`. -/
inductive Raised where
  | cancelled
  | exception (text : Option String)
  | base
  deriving DecidableEq

inductive TransitionRequest where
  | transition (bundleName : String) (desiredState : DesiredState)
  | group (transitions : List (String × DesiredState))

/-- The lease of a runner: of one bundle, or of a group. -/
inductive RunnerLease where
  | transition (lease : BundleTransitionLease)
  | group (leases : List BundleTransitionLease)
  deriving DecidableEq

/-- The leases of the bundles. -/
def RunnerLease.members : RunnerLease → List BundleTransitionLease
  | .transition lease => [lease]
  | .group leases => leases

/-- Every lease is the one of its record, in owner, fence and transition id, and has not expired. -/
def RunnerLease.Live (lease : RunnerLease) (now : ℚ) (records : Records) : Prop :=
  ∀ member ∈ lease.members, Held member now records

instance (lease : RunnerLease) (now : ℚ) (records : Records) :
    Decidable (lease.Live now records) := by
  unfold RunnerLease.Live
  infer_instance

/-! ## The calls of the store -/

/-- `BundleLifecycleController`, of its fields the ones that are used here, and the resource lease
that is passed into a runner. -/
structure BundleLifecycleController where
  owner : String
  transitionTtlSeconds : ℚ
  resourceLease : Option ResourceLease := none

namespace BundleLifecycleController

variable (controller : BundleLifecycleController)

/-- `begin_transition` and `begin_group_transition`: the lease, if it is acquired, and the reason
of the attempt. -/
def beginTransition (request : TransitionRequest) (reason : String) (now : ℚ)
    (records : Records) : (Option RunnerLease × String) × Records :=
  match request with
  | .transition bundleName desiredState =>
    let r := begin bundleName desiredState controller.owner now
      controller.transitionTtlSeconds reason records
    ((if r.1.acquired = true then r.1.lease.map .transition else none, r.1.reason), r.2)
  | .group transitions =>
    let r := beginGroup transitions controller.owner now
      controller.transitionTtlSeconds reason records
    ((if r.1.acquired = true then r.1.lease.map .group else none, r.1.reason), r.2)

def renewTransition (lease : RunnerLease) (now : ℚ) (records : Records) :
    Bool × Records :=
  match lease with
  | .transition lease => renew lease now controller.transitionTtlSeconds records
  | .group leases => renewGroup leases now controller.transitionTtlSeconds records

/-- One round of `_lease_keepalive`.  The resources are renewed also when the transition is not,
and an error counts as a renewal that failed. -/
def keepaliveRound (lease : RunnerLease) (now : ℚ)
    (stores : Records × Resources) :
    Bool × Records × Resources :=
  let renewed := controller.renewTransition lease now stores.1
  match controller.resourceLease with
  | none => (renewed.1, renewed.2, stores.2)
  | some resourceLease =>
    let r := renewResources resourceLease now controller.transitionTtlSeconds stores.2
    (match r.1 with
      | .ok resourceRenewed => resourceRenewed && renewed.1
      | .error _ => false, renewed.2, r.2)

end BundleLifecycleController

/-- `finish_transition` and `finish_group_transition`. -/
def finishTransition (lease : RunnerLease) (success : Bool) (now : ℚ) (reason : String)
    (error : Option String) (records : Records) : Bool × Records :=
  match lease with
  | .transition lease => finish lease success now reason error records
  | .group leases => finishGroup leases success now reason error records

/-! ## The runners -/

/-- What a runner awaits, and the check of its `lost` event. -/
inductive RunnerCommand where
  | beginTransition (request : TransitionRequest) (reason : String)
  | operation
  | finishTransition (lease : RunnerLease) (success : Bool) (reason : String)
      (error : Option String)
  | joinKeepalive
  | isLost

/-- What a command answers.  The operation has a result, and its truth. -/
abbrev RunnerReply (α : Type) : RunnerCommand → Type
  | .beginTransition _ _ => Option RunnerLease × String
  | .operation => Except Raised (α × Bool)
  | .finishTransition _ _ _ _ => Bool
  | .joinKeepalive => Unit
  | .isLost => Bool

/-- A program of a runner. -/
abbrev RunnerProg (α β : Type) : Type := Prog RunnerCommand (RunnerReply α) Raised β

/-- The `error` texts that a runner does not share with the other one. -/
structure RunnerTexts where
  cancelled : String
  returnedFalse : String

namespace RunnerProg

variable {α : Type}

/-- `finish_transition` or `finish_group_transition`. -/
def finish (lease : RunnerLease) (success : Bool) (reason : String) (error : Option String) :
    RunnerProg α Bool :=
  Prog.perform (RunnerCommand.finishTransition lease success reason error)

/-- The body of the `try` block. -/
def tryBlock : RunnerProg α (α × Bool) := do
  let outcome ← Prog.perform RunnerCommand.operation
  .done outcome

/-- The `except` clauses. -/
def exceptClauses (texts : RunnerTexts) (lease : RunnerLease) (reason : String) :
    Except Raised (α × Bool) → RunnerProg α (α × Bool)
  | .ok outcome => pure outcome
  | .error .cancelled => do
      let _ ← finish lease false reason (some texts.cancelled)
      .throw .cancelled
  | .error (.exception (some text)) => do
      let _ ← finish lease false reason (some text)
      .throw (.exception (some text))
  -- The error text is an argument of the call, so it is made first.
  | .error (.exception none) => .throw (.exception none)
  | .error .base => .throw .base

/-- The `finally` clause. -/
def finallyClause (r : Except Raised (α × Bool)) : RunnerProg α (α × Bool) := do
  Prog.perform RunnerCommand.joinKeepalive
  .done r

/-- What follows the `try` statement. -/
def publish (texts : RunnerTexts) (lease : RunnerLease) (reason : String) (outcome : α × Bool) :
    RunnerProg α (Bool × Option α × String) := do
  let lost ← Prog.perform RunnerCommand.isLost
  if lost = true then do
    let _ ← finish lease false reason (some "bundle lease renewal lost")
    pure (true, some outcome.1, "stale_transition")
  else do
    let finished ← finish lease outcome.2 reason
      (if outcome.2 = true then none else some texts.returnedFalse)
    if finished = true then
      pure (true, some outcome.1, if outcome.2 = true then "completed" else "failed")
    else pure (true, some outcome.1, "stale_transition")

def run (texts : RunnerTexts) (request : TransitionRequest) (reason : String) :
    RunnerProg α (Bool × Option α × String) := do
  match ← Prog.perform (RunnerCommand.beginTransition request reason) with
  | (none, refused) =>
    pure (false, none, if refused = "" then "transition_in_progress" else refused)
  | (some lease, _) =>
    let outcome ← (tryBlock.rescue (exceptClauses texts lease reason)).rescue finallyClause
    publish texts lease reason outcome

end RunnerProg

/-- `run_transition`. -/
def runTransition {α : Type} (bundleName : String) (desiredState : DesiredState)
    (reason : String) : RunnerProg α (Bool × Option α × String) :=
  RunnerProg.run
    { cancelled := "bundle operation cancelled"
      returnedFalse := "bundle operation returned false" }
    (.transition bundleName desiredState) reason

/-- `run_group_transition`. -/
def runGroupTransition {α : Type} (transitions : List (String × DesiredState))
    (reason : String) : RunnerProg α (Bool × Option α × String) :=
  RunnerProg.run
    { cancelled := "bundle transition group cancelled"
      returnedFalse := "bundle transition group returned false" }
    (.group transitions) reason

/-- The runner of a request. -/
def TransitionRequest.runner {α : Type} (request : TransitionRequest) (reason : String) :
    RunnerProg α (Bool × Option α × String) :=
  match request with
  | .transition bundleName desiredState => runTransition bundleName desiredState reason
  | .group transitions => runGroupTransition transitions reason

/-! ## The outside -/

/-- A call of `finish`: what it was to publish, and whether it matched the records. -/
structure FinishCall where
  success : Bool
  matched : Bool
  deriving DecidableEq

/-- The stores and their clock, the lease of the runner and its keepalive task.  Noted down are the
renewals, the calls of `finish`, whether the lease has expired or been superseded before them, and
the bundles of which `record_recovery` has been called since. -/
structure RunnerState where
  records : Records := fun _ => none
  resources : Resources := {}
  clock : ℚ
  lease : Option RunnerLease := none
  keeping : Bool := false
  lost : Bool := false
  renewals : List Bool := []
  finishes : List FinishCall := []
  lapsed : Bool := false
  recovered : List String := []

/-- The lease is looked at, as long as it has not been finished. -/
def RunnerState.observed (s : RunnerState) : RunnerState :=
  { s with
    lapsed := s.lapsed || decide (s.finishes = [] ∧
      ∃ lease ∈ s.lease, ¬ lease.Live s.clock s.records) }

/-- One command.  What the operation does is up to the outside. -/
def runnerExec {α : Type} (controller : BundleLifecycleController) :
    (command : RunnerCommand) → Except Raised (α × Bool) → RunnerState →
      Option (RunnerReply α command × RunnerState)
  | .beginTransition request reason, _, s =>
    let r := controller.beginTransition request reason s.clock s.records
    some (r.1, RunnerState.observed
      { s with records := r.2, lease := r.1.1, keeping := r.1.1.isSome })
  | .operation, o, s => some (o, s)
  | .finishTransition lease success reason error, _, s =>
    let r := finishTransition lease success s.clock reason error s.records
    some (r.1, { s with
      records := r.2
      finishes := s.finishes ++ [⟨success, lease.Live s.clock s.records⟩] })
  | .joinKeepalive, _, s => some ((), { s with keeping := false })
  | .isLost, _, s => some (s.lost, s)

def TransitionOp.recovers : TransitionOp → List String
  | .recordRecovery bundleName _ _ _ _ => [bundleName]
  | _ => []

/-- What happens meanwhile.  The clock may be set back, and the resources may be taken by anyone or
be released. -/
inductive RunnerEvent where
  | setClock (clock : ℚ)
  | keepalive
  | call (op : TransitionOp)
  | setResources (resources : Resources)

def runnerEnv (controller : BundleLifecycleController) :
    RunnerEvent → RunnerState → Option RunnerState
  | .setClock clock, s => some (RunnerState.observed { s with clock := clock })
  | .keepalive, s =>
    match s.keeping, s.lease with
    | true, some lease =>
      let r := controller.keepaliveRound lease s.clock (s.records, s.resources)
      some { s with
        records := r.2.1
        resources := r.2.2
        renewals := s.renewals ++ [r.1]
        lost := !r.1
        keeping := r.1 }
    | _, _ => none
  | .call op, s =>
    some (RunnerState.observed { s with
      records := (inMemoryStore.step op s.records).2
      recovered := if s.finishes = [] then s.recovered else op.recovers ++ s.recovered })
  | .setResources resources, s => some { s with resources := resources }

def runnerArena {α : Type} (controller : BundleLifecycleController) :
    Arena RunnerState RunnerCommand (RunnerReply α) (Except Raised (α × Bool)) RunnerEvent where
  exec := runnerExec controller
  env := runnerEnv controller

end GpuManager.Lifecycle
