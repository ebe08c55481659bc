import GpuManager.Coordinator.RunState
import GpuManager.Lib.Json
import GpuManager.Lib.PyDict

/-!
# The record of a run

`PipelineRunState` with all its fields and the records in it, over the JSON values that callers and
providers hand over; `GpuManager.Coordinator.RunState` has the part of it that the coordinator
decides with.  `to_dict` of a record is what is stored of it and what a leaf job is given.
-/

namespace GpuManager.RunRecord

open Json PyStr
open Coordinator (StageStatus TerminalCode)

/-- A text that may be `None`. -/
def optionalText {F : Type} : Option PyStr → Json F
  | none => .null
  | some s => .str s

/-- A record that may be `None`. -/
def optionalRecord {F α : Type} (toDict : α → Json F) : Option α → Json F
  | none => .null
  | some a => toDict a

/-- `ArtifactRef`. -/
structure ArtifactRef where
  pathOrUrl : PyStr
  sha256 : PyStr
  producerStageId : PyStr
  producedAt : PyStr
  deriving DecidableEq

def ArtifactRef.toDict {F : Type} (artifact : ArtifactRef) : Json F :=
  .obj [(text "path_or_url", .str artifact.pathOrUrl), (text "sha256", .str artifact.sha256),
    (text "producer_stage_id", .str artifact.producerStageId),
    (text "produced_at", .str artifact.producedAt)]

/-- `QCVerdict`. -/
structure QCVerdict where
  stageId : PyStr
  passed : Bool
  report : PyStr
  rawData : Option PyStr
  scoredAt : PyStr
  deriving DecidableEq

def QCVerdict.toDict {F : Type} (verdict : QCVerdict) : Json F :=
  .obj [(text "stage_id", .str verdict.stageId), (text "passed", .bool verdict.passed),
    (text "report", .str verdict.report), (text "raw_data", optionalText verdict.rawData),
    (text "scored_at", .str verdict.scoredAt)]

/-- `ChildJobRef`. -/
structure ChildJobRef where
  childJobId : PyStr
  stageId : PyStr
  submittedAt : PyStr
  idempotencyKey : PyStr := []
  status : PyStr := text "queued"
  cancelled : Bool := false
  deriving DecidableEq

/-- `StageAttempt`.  The error and the output are what a provider returned. -/
structure StageAttempt (F : Type) where
  attempt : ℤ
  status : StageStatus
  startedAt : PyStr
  completedAt : Option PyStr := none
  error : Json F := .null
  output : Json F := .obj []
  qcVerdict : Option QCVerdict := none
  idempotencyKey : PyStr := []
  providerHandle : Option PyStr := none

/-- `RestorationEvidence`. -/
structure RestorationEvidence where
  resumedFrom : PyStr
  stageId : Option PyStr
  resumedAt : PyStr
  resumeCount : ℤ
  restorationArtifactRefs : List PyStr := []
  deriving DecidableEq

/-- `PipelineRunState`. -/
structure PipelineRunState (F : Type) where
  parentJobId : PyStr
  runId : PyStr
  pipelineId : PyStr
  revisionHash : PyStr
  status : PyStr
  currentStageId : Option PyStr := none
  cursorNote : Option PyStr := none
  requestParams : PyDict PyStr (Json F) := []
  compiledPipeline : PyDict PyStr (Json F) := []
  childJobs : List ChildJobRef := []
  stageAttempts : PyDict PyStr (List (StageAttempt F)) := []
  stageQcVerdicts : PyDict PyStr (List QCVerdict) := []
  correctionCount : ℤ := 0
  maxCorrections : ℤ := 0
  loopIterations : PyDict PyStr ℤ := []
  pendingStageIds : List PyStr := []
  artifact : Option ArtifactRef := none
  initialArtifact : Option ArtifactRef := none
  lastGoodArtifact : Option ArtifactRef := none
  cancelled : Bool := false
  cancellationIntent : Bool := false
  cancelledChildren : List PyStr := []
  terminalCode : Option TerminalCode := none
  terminalReason : Option PyStr := none
  terminalAt : Option PyStr := none
  createdAt : PyStr
  updatedAt : PyStr
  lastResumedAt : Option PyStr := none
  resumeCount : ℤ := 0
  restorationEvidence : List RestorationEvidence := []

end GpuManager.RunRecord
