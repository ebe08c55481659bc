import GpuManager.Lib.Interleaving
import GpuManager.Coordinator.Advance

/-!
# The clients of the coordinator

`ControllerPipelineRuntime.process_one` claims one parent run, advances it once, and then
acknowledges its entry or replaces it by a fresh one.  Beside the consumers there are the
clients that submit runs, those that request a cancellation, and whoever reclaims orphaned
entries; a process that dies is a client that never acts again.

A `Deployment` is the coordinator with its providers; its `system` lets any number of clients
act in any order, one command at a time.
-/

namespace GpuManager.Coordinator

open AtomicProgram RedisCoordinatorStore

namespace ControllerPipelineRuntime

/-- Step 5 of `process_one`: a terminal run is acknowledged, any other is queued again. -/
def release (store : ℕ) (state : PipelineRunState) : Method PipelineRunState :=
  if state.status.isTerminal then do
    if ← ackParent store state.runId then pure state
    else .throw (.runtimeError ("ack_parent failed for run_id=" ++ state.runId))
  else do
    if ← requeueParent store state.runId then pure state
    else .throw (.runtimeError ("requeue_parent failed for run_id=" ++ state.runId))

/-- Steps 3 to 5 of `process_one`: reload the claimed run, advance it once, release it. -/
def processClaimed (coordinator : PipelineCoordinator) (store : ℕ) (now : String)
    (claimedRunId : String) : Method PipelineRunState := do
  match ← loadState claimedRunId with
  | none =>
    .throw (.runtimeError ("claimed parent state disappeared for run_id=" ++ claimedRunId))
  | some state => do
      let state ← coordinator.advance now state
      release store state

/-- `process_one`. -/
def processOne (coordinator : PipelineCoordinator) (store : ℕ) (consumer now : String) :
    Method (Option PipelineRunState) := do
  match ← dequeueParent store consumer with
  | some state => some <$> processClaimed coordinator store now state.runId
  | none =>
    match ← reclaimOrphanedParents store consumer with
    | state :: _ => some <$> processClaimed coordinator store now state.runId
    | [] => pure none

/-- `submit_parent`. -/
def submitParent (runId : String) (pipeline : CompiledPipeline) (requestParams : Fields) :
    Method Bool := do
  match ← loadState runId with
  | some _ => pure false
  | none => PipelineCoordinator.submit runId pipeline requestParams

/-- A redelivery of the run on its own: reload it and advance it once. -/
def advanceOnce (coordinator : PipelineCoordinator) (now runId : String) :
    Method PipelineRunState := do
  match ← loadState runId with
  | none => .throw (.runtimeError ("claimed parent state disappeared for run_id=" ++ runId))
  | some state => coordinator.advance now state

end ControllerPipelineRuntime

/-- What a client does. -/
inductive CoordinatorOp where
  | submitParent (runId : String) (pipeline : CompiledPipeline) (requestParams : Fields)
  | processOne (store : ℕ) (consumer now : String)
  | advanceOnce (now runId : String)
  | reclaimOrphaned (store : ℕ) (consumer : String)
  | requestCancellation (store : ℕ) (runId : String)
  | elapse (milliseconds : ℕ)

/-- What a client has returned. -/
inductive Outcome where
  | submitted (accepted : Bool)
  | processed (state : Option PipelineRunState)
  | reclaimed (states : List PipelineRunState)
  | cancellation (runId : String) (requested : Bool)
  | elapsed

structure Deployment where
  coordinator : PipelineCoordinator
  providers : Providers

namespace Deployment

variable (d : Deployment)

/-- The program of a client. -/
def program : CoordinatorOp → Method Outcome
  | .submitParent runId pipeline requestParams =>
    .submitted <$> ControllerPipelineRuntime.submitParent runId pipeline requestParams
  | .processOne store consumer now =>
    .processed <$> ControllerPipelineRuntime.processOne d.coordinator store consumer now
  | .advanceOnce now runId =>
    (fun state => .processed (some state)) <$>
      ControllerPipelineRuntime.advanceOnce d.coordinator now runId
  | .reclaimOrphaned store consumer => .reclaimed <$> reclaimOrphanedParents store consumer
  | .requestCancellation store runId =>
    .cancellation runId <$> PipelineCoordinator.requestCancellation store runId
  | .elapse milliseconds => (fun _ => .elapsed) <$> send (.elapse milliseconds)

def system : System World Cmd Reply CoordinatorError Outcome CoordinatorOp where
  exec := exec d.providers
  launch := fun _ op => some (d.program op)

def start : Config World Cmd Reply CoordinatorError Outcome := ⟨{}, []⟩

/-! ## The smallest deployment -/

/-- One external stage. -/
def oneStage : CompiledPipeline where
  stages := [{ id := "generate", kind := .generate }]
  ids_nodup := by decide

/-- Every stage is external, and what is asked is done. -/
def obliging : Deployment where
  coordinator := ⟨fun _ => .ok .external, id⟩
  providers :=
    { execute := fun _ _ _ _ _ => .ok { status := .completed }
      poll := fun _ _ _ _ _ _ => .ok { status := .completed }
      cancel := fun _ _ _ => .ok true
      leafSubmit := fun _ _ _ _ _ => .ok "child"
      leafPoll := fun _ _ => .ok { status := .completed }
      leafCancel := fun _ _ => .ok true }

end Deployment

end GpuManager.Coordinator
