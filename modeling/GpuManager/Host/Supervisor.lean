import Mathlib.Logic.Function.Basic
import GpuManager.Host.Overlay
import GpuManager.Lib.PythonText
import GpuManager.Lib.RelyGuarantee

/-!
# The host supervisor

`HostRuntimeSupervisor` of `runtime_host_supervisor.py`.  A request is checked, waits for the lock
of its instance, presents its fence to the ledger, and then acts on systemd units and probes.

Every `await` is a command that may raise, by a cancellation or a timeout for instance; what comes
between two of them is immediate.  The units are those of the host: what `systemctl show` says of
one is true, what `start` and `restart` make of one is up to the host, and meanwhile the units
change by themselves.  Nothing but this supervisor starts one; but the job of a `systemctl start`
that timed out or was cancelled may stay queued and take effect at any later moment, so that a unit
the supervisor has started may come up when nobody waits for it any more (`unitEnv`).
-/

namespace GpuManager.Host

open AtomicProgram FileBacked PyStr

structure UnitState where
  activeState : String
  pid : ℤ
  deriving DecidableEq

/-- The unit is down: `inactive` or `failed`, without a process. -/
def UnitState.Stopped (unit : UnitState) : Prop :=
  (unit.activeState = "inactive" ∨ unit.activeState = "failed") ∧ unit.pid ≤ 0

instance (unit : UnitState) : Decidable unit.Stopped := by
  unfold UnitState.Stopped
  infer_instance

/-- The unit is active. -/
def UnitState.Active (unit : UnitState) : Prop := unit.activeState = "active"

instance (unit : UnitState) : Decidable unit.Active := by
  unfold UnitState.Active
  infer_instance

/-- What a unit may become while no start job of it is queued: one that is down stays down, and one
becomes active only if the supervisor has started it. -/
def UnitState.Follows (started : Prop) (old new : UnitState) : Prop :=
  (old.Stopped → new.Stopped) ∧ (new.Active → old.Active ∨ started)

instance (started : Prop) [Decidable started] (old new : UnitState) :
    Decidable (UnitState.Follows started old new) := by
  unfold UnitState.Follows
  infer_instance

inductive Verb where
  | start
  | restart
  | stop
  deriving DecidableEq

/-- `binding.get("load_mode", "start")`, which is one of the two in an overlay that is accepted. -/
def loadVerb (binding : Json ℚ) : Verb :=
  if (binding.get "load_mode").str? = some (text "restart") then .restart else .start

/-- What a request does to the ledger, the units, the probes and `_drained`.  The action of
`accept` is for the account only. -/
inductive HostCommand where
  | accept (action : Action) (instanceId owner : PyStr) (fence : ℤ)
  | unitState (unit : PyStr)
  | systemctl (verb : Verb) (unit : PyStr)
  | probe (probe : Json ℚ)
  | stat (pid : ℤ)
  | drain (instanceId : PyStr)
  | undrain (instanceId : PyStr)
  | drained (instanceId : PyStr)

/-- What a command answers.  The state of a unit is missing when `systemctl show` fails. -/
abbrev HostReply : HostCommand → Type
  | .accept _ _ _ _ => Except SupervisorError Unit
  | .unitState _ => Except SupervisorError (Option UnitState)
  | .systemctl _ _ => Except SupervisorError ℤ
  | .probe _ => Except SupervisorError Bool
  | .stat _ => Option String
  | .drain _ => Unit
  | .undrain _ => Unit
  | .drained _ => Bool

/-- The body of a request. -/
abbrev HostProg (α : Type) : Type := Prog HostCommand HostReply SupervisorError α

/-- The `state` of an observation. -/
inductive ObservedState where
  | ready
  | draining
  | loading
  | stopped
  deriving DecidableEq

/-- The name of a state. -/
def ObservedState.value : ObservedState → String
  | ready => "ready"
  | draining => "draining"
  | loading => "loading"
  | stopped => "stopped"

/-- An observation. -/
structure Observation where
  profileName : Json ℚ
  profileFingerprint : Json ℚ
  state : ObservedState
  processGeneration : ℤ
  processReady : Bool
  modelReady : Bool
  accepting : Bool
  modelSet : Json ℚ

/-- A result: what it repeats of the request, and the observation, if the action makes one. -/
structure ActionResult where
  action : Action
  instanceId : PyStr
  profileFingerprint : Json ℚ
  transitionOwner : PyStr
  transitionFence : ℤ
  observation : Option Observation

namespace HostProg

def raising {α : Type} (r : Except SupervisorError α) : HostProg α := .done r

def fail {α : Type} (message : String) : HostProg α := .throw (.host (.supervisor message 503))

/-- `_systemctl`, for a change of a unit: its return code. -/
def systemctl (verb : Verb) (unit : PyStr) : HostProg ℤ := do
  raising (← Prog.perform (.systemctl verb unit))

/-- `_unit_state`. -/
def unitState (unit : PyStr) : HostProg UnitState := do
  match ← raising (← Prog.perform (.unitState unit)) with
  | some state => pure state
  | none => fail "systemd unit inspection failed"

def probe (probe : Json ℚ) : HostProg Bool :=
  if probe.isObj = false then pure false
  else do raising (← Prog.perform (.probe probe))

/-- The generation in a text of `/proc/<pid>/stat`: `text.split()[21]`. -/
def statGeneration (stat : Option String) : Option ℤ := do
  let stat ← stat
  let field ← (PythonText.split stat)[21]?
  let ticks ← PythonText.int field
  return max 1 ticks

def generation (stat : Option String) (pid fence : ℤ) : ℤ :=
  if 0 < pid then (statGeneration stat).getD (max 1 fence) else max 1 fence

/-- The condition of an `and` chain: what follows is not awaited if this is false. -/
def andThen (p : Bool) (q : HostProg Bool) : HostProg Bool := if p = true then q else pure false

/-- `process_ready`. -/
def processReady (unit : UnitState) : Bool := unit.activeState = "active" ∧ 0 < unit.pid

/-- The observation that is made of the unit, the probes, `_drained` and `/proc`. -/
def observationOf (binding : Json ℚ) (fence : ℤ) (unit : UnitState) (modelReady drained : Bool)
    (stat : Option String) : Observation :=
  { profileName := binding.get "profile_name"
    profileFingerprint := binding.get "profile_fingerprint"
    state :=
      if (modelReady && !drained) = true then .ready
      else if processReady unit = true ∧ drained = true then .draining
      else if processReady unit = true then .loading
      else .stopped
    processGeneration := generation stat unit.pid fence
    processReady := processReady unit
    modelReady := modelReady
    accepting := modelReady && !drained
    modelSet := binding.get "model_set" }

/-- `_observation`. -/
def observation (instanceId : PyStr) (binding : Json ℚ) (fence : ℤ) : HostProg Observation := do
  let unit ← unitState (unitOf binding)
  let healthReady ← andThen (processReady unit) (probe (binding.get "health_probe"))
  let modelReady ← andThen healthReady (probe (binding.get "model_probe"))
  let drained ← Prog.perform (HostCommand.drained instanceId)
  let stat ← Prog.perform (HostCommand.stat unit.pid)
  pure (observationOf binding fence unit modelReady drained stat)

/-- The loop of `_stop_active_profiles`, for one sibling. -/
def stopProfile (sibling : Json ℚ) : HostProg Unit := do
  let unit ← unitState (unitOf sibling)
  if unit.Stopped then pure ()
  else if ¬ (unit.activeState = "active" ∧ 0 < unit.pid) then
    fail ("sibling runtime unit is not conclusively stopped: " ++ unit.activeState)
  else do
    let drains ← probe (sibling.get "drain_probe")
    if drains = false then fail "active sibling runtime did not drain"
    else do
      let unloads ← probe (sibling.get "unload_probe")
      if unloads = false then fail "active sibling runtime did not unload"
      else do
        let code ← systemctl .stop (unitOf sibling)
        if code ≠ 0 then fail "active sibling runtime did not stop"
        else do
          let final ← unitState (unitOf sibling)
          if final.Stopped then pure ()
          else fail "active sibling runtime did not reach a stopped state"

def stopProfiles (exceptUnit : Option PyStr) : List (Json ℚ) → HostProg Unit
  | [] => pure ()
  | sibling :: rest =>
    if exceptUnit = some (unitOf sibling) then stopProfiles exceptUnit rest
    else do
      stopProfile sibling
      stopProfiles exceptUnit rest

/-- `_stop_active_profiles`. -/
def stopActiveProfiles (overlay : Json ℚ) (instanceId : PyStr) (exceptUnit : Option PyStr) :
    HostProg Unit := do
  Prog.perform (HostCommand.drain instanceId)
  let siblings ← raising (profileBindings overlay instanceId)
  stopProfiles exceptUnit siblings

def act (overlay : Json ℚ) (action : Action) (instanceId : PyStr) (binding : Json ℚ) :
    HostProg Unit :=
  match action with
  | .prepare => do
      let _ ← unitState (unitOf binding)
      pure ()
  | .load => do
      stopActiveProfiles overlay instanceId (some (unitOf binding))
      let code ← systemctl (loadVerb binding) (unitOf binding)
      if code ≠ 0 then fail "systemd start failed"
      else Prog.perform (HostCommand.undrain instanceId)
  | .drain => do
      Prog.perform (HostCommand.drain instanceId)
      -- An empty object is no drain endpoint.
      match binding.get "drain_probe" with
      | .obj (m :: rest) => do
          let drains ← probe (.obj (m :: rest))
          if drains = false then fail "runtime drain endpoint failed" else pure ()
      | _ => pure ()
  | .unload => do
      Prog.perform (HostCommand.drain instanceId)
      let unloads ← probe (binding.get "unload_probe")
      if unloads = false then fail "runtime unload endpoint failed" else pure ()
  | .stop => stopActiveProfiles overlay instanceId none
  | .inspect | .health | .reconcile => pure ()

def observes : Action → Bool
  | .inspect | .health | .reconcile => true
  | _ => false

end HostProg

open HostProg

/-- A request that has passed the checks of `execute`. -/
structure HostRequest where
  action : Action
  instanceId : PyStr
  owner : PyStr
  fence : ℤ
  binding : Json ℚ
  profileFingerprint : Json ℚ

def HostRequest.body (overlay : Json ℚ) (request : HostRequest) : HostProg ActionResult := do
  raising (← Prog.perform
    (.accept request.action request.instanceId request.owner request.fence))
  act overlay request.action request.instanceId request.binding
  let observed ←
    if observes request.action = true then do
      let observed ← observation request.instanceId request.binding request.fence
      pure (some observed)
    else pure none
  pure
    { action := request.action
      instanceId := request.instanceId
      profileFingerprint := request.profileFingerprint
      transitionOwner := request.owner
      transitionFence := request.fence
      observation := observed }

/-- `ACTION_SCHEMA`. -/
def actionSchema : String := "runtime-host-action.v1"

/-- The checks of `execute` before the lock.  `equal` is `==`. -/
def checkRequest (equal : Json ℚ → Json ℚ → Bool) (overlay request : Json ℚ) :
    Except SupervisorError HostRequest :=
  let raise := fun (message : String) (status : ℕ) =>
    Except.error (SupervisorError.host (.supervisor message status))
  if (request.get "schema_version").str? ≠ some (text actionSchema) then
    raise "unsupported action schema" 400
  else if (request.get "action").hashable = false then .error .python
  else
    match (request.get "action").str?.bind Action.ofText, (request.get "instance_id").str? with
    | some action, some instanceId =>
      match binding overlay instanceId (request.get "profile_name") with
      | .error e => .error e
      | .ok binding =>
        match ["profile_name", "profile_fingerprint", "engine", "adapter", "model_set"].find?
          fun field => !equal (request.get field) (binding.get field) with
        | some field => raise ("runtime identity mismatch: " ++ field) 409
        | none =>
          if (actionsOf (binding.get "actions")).all (fun actions => action ∉ actions) then
            raise "runtime action is not allowed for this instance" 403
          else
            match request.get "transition_owner", request.get "transition_fence" with
            | .str owner, .int fence =>
              if owner = [] ∨ fence < 1 then raise "transition owner/fence is invalid" 400
              else .ok
                { action := action
                  instanceId := instanceId
                  owner := owner
                  fence := fence
                  binding := binding
                  profileFingerprint := request.get "profile_fingerprint" }
            | _, _ => raise "transition owner/fence is invalid" 400
    | _, _ => raise "invalid runtime action or instance" 400

/-! ## The host -/

/-- What is noted down: a request is accepted by the ledger, a load returns, and an observation is
reported. -/
inductive HostEvent where
  | accepted (action : Action) (instanceId : PyStr)
  | loaded (instanceId : PyStr)
  | reported (instanceId : PyStr) (profileName : Json ℚ) (state : ObservedState)

/-- The units of the host and the supervisor.  `started` are the units that it has started. -/
structure HostState where
  units : PyStr → UnitState
  started : List PyStr
  drained : List PyStr
  ledger : FenceLedger ℚ
  trace : List HostEvent

structure Outcome where
  raises : Option SupervisorError
  code : ℤ
  unit : UnitState
  answer : Bool
  stat : Option String
  fault : WriteFault

namespace HostState

/-- A unit has changed. -/
def setUnit (s : HostState) (unit : PyStr) (state : UnitState) : HostState :=
  { s with units := Function.update s.units unit state }

def startUnit (s : HostState) (unit : PyStr) (state : UnitState) : HostState :=
  { s.setUnit unit state with started := unit :: s.started }

/-- `_drained.add`. -/
def drain (s : HostState) (instanceId : PyStr) : HostState :=
  { s with drained := instanceId :: s.drained.filter (· ≠ instanceId) }

/-- `_drained.discard`. -/
def undrain (s : HostState) (instanceId : PyStr) : HostState :=
  { s with drained := s.drained.filter (· ≠ instanceId) }

/-- Something is noted down. -/
def note (s : HostState) (event : HostEvent) : HostState := { s with trace := s.trace ++ [event] }

end HostState

/-- What an awaited command answers, unless it raises. -/
def Outcome.reply {α : Type} (o : Outcome) (a : α) : Except SupervisorError α :=
  match o.raises with
  | some e => .error e
  | none => .ok a

/-- One command. -/
def hostExec : (c : HostCommand) → Outcome → HostState → HostReply c × HostState
  | .accept action instanceId owner fence, o, s =>
    match o.raises with
    | some e => (.error e, s)
    | none =>
      match s.ledger.accept instanceId owner fence o.fault with
      | (some e, ledger) => (.error (.host e), { s with ledger := ledger })
      | (none, ledger) =>
        (.ok (), { s with ledger := ledger }.note (.accepted action instanceId))
  | .unitState unit, o, s => (o.reply (if o.code ≠ 0 then none else some (s.units unit)), s)
  | .systemctl .stop unit, o, s =>
    (o.reply o.code,
      if (s.units unit).Follows (unit ∈ s.started) o.unit then s.setUnit unit o.unit else s)
  | .systemctl _ unit, o, s => (o.reply o.code, s.startUnit unit o.unit)
  | .probe _, o, s => (o.reply o.answer, s)
  | .stat _, o, s => (o.stat, s)
  | .drain instanceId, _, s => ((), s.drain instanceId)
  | .undrain instanceId, _, s => ((), s.undrain instanceId)
  | .drained instanceId, _, s => (instanceId ∈ s.drained, s)

/-- The commands that are an `await`. -/
def HostCommand.awaits : HostCommand → Bool
  | .accept _ _ _ _ | .unitState _ | .systemctl _ _ | .probe _ => true
  | .stat _ | .drain _ | .undrain _ | .drained _ => false

def hostFinish (result : ActionResult) (s : HostState) : HostState :=
  if result.action = .load then s.note (.loaded result.instanceId)
  else
    match result.observation with
    | some observed => s.note (.reported result.instanceId observed.profileName observed.state)
    | none => s

/-- A unit changes by itself.  If `late`, one that the supervisor has started may do so in any way,
because a start job of it may still be queued. -/
def unitEnv (late : Bool) (e : PyStr × UnitState) (s : HostState) : Option HostState :=
  if (late = true ∧ e.1 ∈ s.started) ∨ (s.units e.1).Follows (e.1 ∈ s.started) e.2 then
    some (s.setUnit e.1 e.2)
  else none

/-- The requests of a supervisor, and the units that change by themselves.  On a real host `late` is
true. -/
def hostSystem (late : Bool) (equal : Json ℚ → Json ℚ → Bool) (overlay : Json ℚ) :
    LockSystem HostState HostCommand HostReply SupervisorError ActionResult (Json ℚ) PyStr Outcome
      (PyStr × UnitState) where
  awaits := HostCommand.awaits
  exec := hostExec
  launch request :=
    (checkRequest equal overlay request).map fun r => (r.instanceId, r.body overlay)
  finish _ := hostFinish
  cancelled := .python
  env := unitEnv late

/-- The host and the requests so far. -/
abbrev HostWorld : Type :=
  LockWorld HostState HostCommand HostReply SupervisorError ActionResult (Json ℚ) PyStr

/-- A supervisor that has just been made: every instance is drained. -/
def hostInit (overlay : Json ℚ) (units : PyStr → UnitState) (ledger : FenceLedger ℚ) : HostWorld where
  state :=
    { units := units
      started := []
      drained :=
        match overlay.get "instances" with
        | .obj instances => instances.map (·.1)
        | _ => []
      ledger := ledger
      trace := [] }
  calls := []

end GpuManager.Host
