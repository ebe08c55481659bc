import GpuManager.Lib.Plays
import GpuManager.Runtime.StateHistory

/-!
# One transition of a runtime

`transition_runtime` of `runtime_supervisor.py`: a program that begins a fenced transition, drives
an adapter through it, publishes what the adapter observes, and blocks the record when anything
fails on the way.  Between two of its commands the other owners call the same store, the
`_lease_keepalive` task renews the lease by the clock of the store, and time passes.  A caller may
give a fixed `now`, which is then the time of `begin_transition`, `publish_observation` and
`fail_transition`, but not of a renewal.

Every `await` may raise.  The loop of `_wait_for_desired_observation` has no bound of its own
here, so the program is given one on the number of its rounds, and hangs beyond it.
-/

namespace GpuManager.Runtime

open AtomicProgram PyStr

/-- An exception: `asyncio.CancelledError`, an `Exception` with what `str` makes of it, unless that
raises, or another `BaseException`. -/
inductive Raised where
  | cancelled
  | exception (message : Option PyStr)
  | base
  deriving DecidableEq

/-- `TransitionPhase`. -/
inductive TransitionPhase where
  | inspect
  | drain
  | unload
  | stop
  | prepare
  | load
  | health
  | reconcile
  deriving DecidableEq

/-- The value of a `TransitionPhase`. -/
def TransitionPhase.value : TransitionPhase → String
  | inspect => "inspect"
  | drain => "drain"
  | unload => "unload"
  | stop => "stop"
  | prepare => "prepare"
  | load => "load"
  | health => "health"
  | reconcile => "reconcile"

structure TransitionCall where
  instanceId : PyStr
  profileName : PyStr
  profile : Json ℚ
  owner : PyStr
  desiredState : PyStr
  ttlSeconds : ℚ
  readinessTimeoutSeconds : ℚ
  readinessPollIntervalSeconds : ℚ
  now : Option ℚ

/-- What a transition does: calls of the store and of the adapter, and the rest of its outside. -/
inductive TransitionCommand where
  | beginTransition
  | bindTransition (lease : TransitionLease)
  | adapter (phase : TransitionPhase)
  | renew (lease : TransitionLease)
  | publishObservation (lease : TransitionLease) (observation : Json ℚ)
  | failTransition (lease : TransitionLease) (error : Option PyStr)
  | leaseLost
  | pause
  | timedOut
  | joinKeepalive
  | clearTransition
  | hang

/-- What a command answers.  A pause says whether it was ended by the loss of the lease. -/
abbrev TransitionReply : TransitionCommand → Type
  | .beginTransition => Except Raised TransitionLease
  | .bindTransition _ => Except Raised Unit
  | .adapter _ => Except Raised (Json ℚ)
  | .renew _ => Except Raised Unit
  | .publishObservation _ _ => Except Raised InstanceRecord
  | .failTransition _ _ => Except Raised Unit
  | .leaseLost => Bool
  | .pause => Except Raised Bool
  | .timedOut => Bool
  | .joinKeepalive => Unit
  | .clearTransition => Except Raised Unit
  | .hang => Empty

/-- A program of a transition. -/
abbrev TransitionProg (ε α : Type) : Type := Prog TransitionCommand TransitionReply ε α

/-- `_observation_reached_desired`. -/
def observationReachedDesired (observation : Json ℚ) : DesiredState → Bool
  | .ready => (observation.get "state").str? = some (text "ready") ∧
      bool? (observation.get "process_ready") = some true ∧
      bool? (observation.get "model_ready") = some true ∧
      bool? (observation.get "accepting") = some true
  | .stopped => (observation.get "state").str? = some (text "stopped") ∧
      bool? (observation.get "process_ready") = some false ∧
      bool? (observation.get "model_ready") = some false ∧
      bool? (observation.get "accepting") = some false

namespace TransitionProg

def raising {ε α : Type} (r : Except ε α) : TransitionProg ε α := .done r

def raiseError {α : Type} (message : PyStr) : TransitionProg Raised α :=
  .throw (.exception (some message))

/-- `bind_transition` of the adapter. -/
def bind (lease : TransitionLease) : TransitionProg Raised Unit := do
  raising (← Prog.perform (TransitionCommand.bindTransition lease))

/-- A method of the adapter. -/
def adapter (phase : TransitionPhase) : TransitionProg Raised (Json ℚ) := do
  raising (← Prog.perform (TransitionCommand.adapter phase))

/-- `_ensure_lease_live`. -/
def ensureLeaseLive (phase : TransitionPhase) : TransitionProg Raised Unit := do
  let lost ← Prog.perform TransitionCommand.leaseLost
  if lost = true then
    raiseError (text (phase.value ++ " failed: runtime transition lease lost"))
  else pure ()

/-- `_renew_or_raise`. -/
def renewOrRaise (lease : TransitionLease) : TransitionProg Raised Unit := do
  raising (← Prog.perform (TransitionCommand.renew lease))

/-- `publish_observation`. -/
def publish (lease : TransitionLease) (observation : Json ℚ) :
    TransitionProg Raised InstanceRecord := do
  raising (← Prog.perform (TransitionCommand.publishObservation lease observation))

/-- The wait for the loss of the lease, with a timeout. -/
def pause : TransitionProg Raised Bool := do
  raising (← Prog.perform TransitionCommand.pause)

def lastState (c : Contracts) (evidence : Json ℚ) : PyStr :=
  let state := evidence.get "state"
  if truthy state = true then state.str?.getD (c.str state) else text "unknown"

/-- The loop of `_wait_for_desired_observation`, for a number of rounds. -/
def waitRounds (c : Contracts) (desired : DesiredState) : ℕ → TransitionProg Raised (Json ℚ)
  | 0 => .call TransitionCommand.hang Empty.elim
  | rounds + 1 => do
      let evidence ← adapter .health
      ensureLeaseLive .health
      if observationReachedDesired evidence desired = true then pure evidence
      else if lastState c evidence = text "faulted" then
        raiseError (text "runtime reported a faulted state")
      else do
        let timedOut ← Prog.perform TransitionCommand.timedOut
        if timedOut = true then
          raiseError (text ("runtime did not reach '" ++ desired.value ++
            "' before readiness timeout (last_state=") ++ quoted (lastState c evidence) ++ text ")")
        else do
          let lost ← pause
          if lost = true then do
            ensureLeaseLive .health
            waitRounds c desired rounds
          else waitRounds c desired rounds

/-- `_wait_for_desired_observation`. -/
def waitForDesiredObservation (c : Contracts) (call : TransitionCall) (desired : DesiredState)
    (rounds : ℕ) : TransitionProg Raised (Json ℚ) :=
  if call.readinessTimeoutSeconds ≤ 0 then
    raiseError (text "readiness timeout must be positive")
  else if call.readinessPollIntervalSeconds ≤ 0 then
    raiseError (text "readiness poll interval must be positive")
  else waitRounds c desired rounds

/-- A part of the `try` block; an exception keeps the phase in which it was raised. -/
def inPhase {α : Type} (phase : TransitionPhase) (p : TransitionProg Raised α) :
    TransitionProg (TransitionPhase × Raised) α :=
  p.rescue fun r =>
    match r with
    | .ok a => pure a
    | .error e => .throw (phase, e)

def actIn (phase : TransitionPhase) : TransitionProg (TransitionPhase × Raised) Unit :=
  inPhase phase do
    let _ ← adapter phase
    ensureLeaseLive phase

/-- The `try` block. -/
def tryBlock (c : Contracts) (call : TransitionCall) (desired : DesiredState) (rounds : ℕ)
    (lease : TransitionLease) : TransitionProg (TransitionPhase × Raised) InstanceRecord := do
  let observed ← inPhase .inspect do
    bind lease
    let observed ← adapter .inspect
    ensureLeaseLive .inspect
    pure observed
  if observationReachedDesired observed desired = true then
    inPhase .inspect (publish lease observed)
  else do
    inPhase .inspect do
      renewOrRaise lease
      ensureLeaseLive .inspect
    if observationReachedDesired observed .stopped = false then do
      actIn .drain
      inPhase .drain (renewOrRaise lease)
      actIn .unload
      inPhase .unload (renewOrRaise lease)
    if desired = .stopped then actIn .stop
    else do
      actIn .prepare
      inPhase .prepare (renewOrRaise lease)
      actIn .load
    inPhase .health do
      let evidence ← waitForDesiredObservation c call desired rounds
      publish lease evidence

/-- `except Exception: pass`. -/
def pass (r : Except Raised α) : TransitionProg Raised Unit :=
  match r with
  | .ok _ => pure ()
  | .error (.exception _) => pure ()
  | .error e => .throw e

/-- The `except` clauses. -/
def exceptClauses (lease : TransitionLease) :
    Except (TransitionPhase × Raised) InstanceRecord → TransitionProg Raised InstanceRecord
  | .ok record => pure record
  | .error (phase, .cancelled) => do
      pass (← Prog.perform (TransitionCommand.adapter .reconcile))
      pass (← Prog.perform (TransitionCommand.failTransition lease
        (some (text (phase.value ++ ": cancelled")))))
      .throw .cancelled
  | .error (phase, .exception message) => do
      pass (← Prog.perform (TransitionCommand.adapter .reconcile))
      match ← Prog.perform (TransitionCommand.failTransition lease
          (message.map fun message => text (phase.value ++ ": ") ++ message)) with
      | .ok _ => raiseError (text (phase.value ++ " failed: ") ++ message.getD [])
      | .error (.exception fenceError) =>
        raiseError (text (phase.value ++ " failed and transition fence was lost: ") ++
          fenceError.getD [])
      | .error e => .throw e
  | .error (_, .base) => .throw .base

/-- The `finally` clause. -/
def finallyClause (r : Except Raised InstanceRecord) : TransitionProg Raised InstanceRecord := do
  Prog.perform TransitionCommand.joinKeepalive
  match ← Prog.perform TransitionCommand.clearTransition with
  | .ok _ => .done r
  | .error e => .throw e

end TransitionProg

open TransitionProg

/-- `transition_runtime`. -/
def transitionRuntime (c : Contracts) (call : TransitionCall) (rounds : ℕ) :
    TransitionProg Raised InstanceRecord := do
  let lease ← raising (← Prog.perform TransitionCommand.beginTransition)
  match desired call.desiredState with
  | .ok desired =>
    ((tryBlock c call desired rounds lease).rescue (exceptClauses lease)).rescue finallyClause
  | .error _ => raiseError []

/-! ## The outside -/

/-- The store and its clock, and what is noted down of the transition: its lease, whether it is lost
and still kept alive, what the adapter has returned, and the record that ended it. -/
structure TransitionState where
  records : Records := []
  clock : ℚ
  lease : Option TransitionLease := none
  lost : Bool := false
  keeping : Bool := false
  produced : List (Json ℚ) := []
  ended : Option InstanceRecord := none

structure TransitionOutcome where
  raises : Option Raised
  observation : List (PyStr × Json ℚ)
  message : PyStr
  flag : Bool

/-- An exception of the store.  The text of an exception of a built-in is up to the outside. -/
def StateError.raised (message : PyStr) : StateError → Raised
  | .state m => .exception (some m)
  | .conflict m => .exception (some m)
  | .python => .exception (some message)

/-- A call of the store, which may be cancelled before it changes anything. -/
def storeCall {α : Type} (o : TransitionOutcome) (r : Except StateError α)
    (error : TransitionState) (ok : α → TransitionState) : Except Raised α × TransitionState :=
  if o.raises.isSome = true then (.error .cancelled, error)
  else
    match r with
    | .error e => (.error (e.raised o.message), error)
    | .ok a => (.ok a, ok a)

/-- One command.  What is awaited without an adapter or the store can only be cancelled. -/
def transitionExec (c : Contracts) (call : TransitionCall) :
    (command : TransitionCommand) → TransitionOutcome → TransitionState →
      Option (TransitionReply command × TransitionState)
  | .beginTransition, o, s =>
    let r := storeCall o (Runtime.beginTransition c call.instanceId call.profileName call.profile
      call.owner call.desiredState call.ttlSeconds (call.now.getD s.clock) s.records) s
      fun r => { s with records := r.2, lease := some r.1.2, keeping := true }
    some (r.1.map fun r => r.1.2, r.2)
  | .bindTransition _, o, s =>
    some (match o.raises with | some e => .error e | none => .ok (), s)
  | .adapter _, o, s =>
    match o.raises with
    | some e => some (.error e, s)
    | none =>
      some (.ok (.obj o.observation), { s with produced := s.produced ++ [.obj o.observation] })
  | .renew lease, o, s =>
    let r := storeCall o (Runtime.renew lease call.ttlSeconds s.clock s.records) s
      fun r => { s with records := r.2 }
    some (r.1.map fun _ => (), r.2)
  | .publishObservation lease observation, o, s =>
    let r := storeCall o (Runtime.publishObservation c lease call.profile observation
      (call.now.getD s.clock) s.records) s fun r => { s with records := r.2, ended := some r.1 }
    some (r.1.map fun r => r.1, r.2)
  | .failTransition lease error, o, s =>
    match error with
    | none => some (.error (.exception (some o.message)), s)
    | some error =>
      let r := storeCall o (Runtime.failTransition lease error (call.now.getD s.clock)
        s.records) s fun r => { s with records := r.2, ended := some r.1 }
      some (r.1.map fun _ => (), r.2)
  | .leaseLost, _, s => some (s.lost, s)
  | .pause, o, s =>
    if o.raises.isSome = true then some (.error .cancelled, s)
    else some (.ok (s.lost && o.flag), s)
  | .timedOut, o, s => some (o.flag, s)
  | .joinKeepalive, _, s => some ((), { s with keeping := false })
  | .clearTransition, o, s =>
    some (match o.raises with | some e => .error e | none => .ok (), s)
  | .hang, _, _ => none

def StateCall.PresentsOwn (call : StateCall) (lease : Option TransitionLease) : Prop :=
  ∃ presented ∈ call.presents.map (·.1), ∃ own ∈ lease, presented.instanceId = own.instanceId ∧
    presented.owner = own.owner ∧ presented.fence = own.fence

instance (call : StateCall) (lease : Option TransitionLease) :
    Decidable (call.PresentsOwn lease) := by
  unfold StateCall.PresentsOwn
  infer_instance

/-- What happens meanwhile. -/
inductive Meanwhile where
  | tick (clock : ℚ)
  | keepalive
  | other (call : StateCall)

/-- One such event; `none` when it cannot happen.  The other owners do not have the lease. -/
def transitionEnv (c : Contracts) (call : TransitionCall) :
    Meanwhile → TransitionState → Option TransitionState
  | .tick clock, s => if s.clock ≤ clock then some { s with clock := clock } else none
  | .keepalive, s =>
    match s.keeping, s.lease with
    | true, some lease =>
      match Runtime.renew lease call.ttlSeconds s.clock s.records with
      | .ok (_, records) => some { s with records := records }
      | .error _ => some { s with lost := true, keeping := false }
    | _, _ => none
  | .other other, s =>
    if other.PresentsOwn s.lease then none
    else
      match change c other s.records with
      | .ok (_, records) => some { s with records := records }
      | .error _ => some s

def transitionArena (c : Contracts) (call : TransitionCall) :
    Arena TransitionState TransitionCommand TransitionReply TransitionOutcome Meanwhile where
  exec := transitionExec c call
  env := transitionEnv c call

end GpuManager.Runtime
