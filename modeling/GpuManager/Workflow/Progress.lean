import GpuManager.Workflow.Safety

/-!
# Progress and safety of admitted workflows

The two results about whole runs of an admitted job.  `run_movesOn_iff`: in every run the
job has ended, has a stage under way or a stage that can be made ready, exactly if the
definition enables a stage at all.  `run_safe`: dependencies come first, the job is
completed exactly when its enabled stages have succeeded and nobody cancelled, a terminal
job does not change, and no stage is submitted after a cancellation unless a failed attempt
was put back for a retry.
-/

namespace GpuManager.Workflow

open PyStr List

section Progress

variable {F : Type} {digest : Json F → Option PyStr} {definition : Json F} {job : WorkflowJob F}

/-- In a job that has not ended and has no stage under way, nobody cancelled, and every
stage waits or is settled. -/
theorem Consistent.waiting (h : Consistent digest definition job)
    (hopen : job.status.terminal = false) (hidle : ∀ r ∈ job.stages, r.status.active = false) :
    (∀ r ∈ job.stages, r.status = .pending ∨ r.status.settled = true) ∧
      (job.stages.filter (fun r => enabledIn definition r.stageId) = [] ∨
        ∃ r ∈ job.stages, r.status = .pending) := by
  have hnone : job.stages.any (fun r => r.status.active) = false := by
    rw [any_eq_false]
    exact fun r hr => by simp [hidle r hr]
  have hstatus := h.status
  unfold deriveStatus at hstatus
  dsimp only at hstatus
  rw [hnone] at hstatus
  split at hstatus
  · rw [hstatus] at hopen
    cases hopen
  next hunknown =>
  split at hstatus
  · rw [hstatus] at hopen
    cases hopen
  split at hstatus
  · rw [hstatus] at hopen
    cases hopen
  next hfailed =>
  split at hstatus
  · rw [if_neg Bool.false_ne_true] at hstatus
    rw [hstatus] at hopen
    cases hopen
  next hcancel =>
  have hrest : ∀ r ∈ job.stages, r.status = .pending ∨ r.status.settled = true := by
    intro r hr
    have hu : r.status ≠ .outcomeUnknown := fun hs =>
      hunknown (any_eq_true.mpr ⟨r, hr, decide_eq_true hs⟩)
    have hf : r.status ≠ .failed := fun hs =>
      hfailed (any_eq_true.mpr ⟨r, hr, decide_eq_true hs⟩)
    have hc : r.status ≠ .cancelled := fun hs => hcancel (h.cancelled r hr hs)
    have ha := hidle r hr
    have hv := h.reviewed r hr
    generalize r.status = s at *
    cases s <;> simp_all [StageStatus.settled, StageStatus.active]
  refine ⟨hrest, ?_⟩
  have hcompleted : ¬ (job.stages.filter (fun r => enabledIn definition r.stageId) ≠ [] ∧
      (job.stages.filter fun r => enabledIn definition r.stageId).all
        (fun r => r.status.settled) = true) := by
    intro hall
    rw [if_pos hall] at hstatus
    rw [hstatus] at hopen
    cases hopen
  by_cases hempty : job.stages.filter (fun r => enabledIn definition r.stageId) = []
  · exact .inl hempty
  right
  by_contra hwaits
  refine hcompleted ⟨hempty, all_eq_true.mpr fun r hr => ?_⟩
  have hr := mem_of_mem_filter hr
  exact (hrest r hr).resolve_left fun hs => hwaits ⟨r, hr, hs⟩

theorem dependenciesMet_ok (job : WorkflowJob F) (deps : List PyStr)
    (h : ∀ dep ∈ deps, ∃ r ∈ job.stages, r.stageId = dep) :
    ∃ met, dependenciesMet job deps = .ok met ∧
      ((∀ dep ∈ deps, ∀ r, job.stage dep = .ok r → r.status.settled = true) → met = true) := by
  induction deps with
  | nil => exact ⟨true, rfl, fun _ => rfl⟩
  | cons dep deps ih =>
    obtain ⟨met, hmet, hall⟩ := ih fun d hd => h d (mem_cons_of_mem _ hd)
    obtain ⟨r, hr, hid⟩ := h dep mem_cons_self
    have hstage : ∃ record, job.stage dep = .ok record := by
      unfold WorkflowJob.stage
      cases hfind : job.stages.find? fun r => r.stageId = dep with
      | some record => exact ⟨record, rfl⟩
      | none => exact absurd (decide_eq_true hid) (List.find?_eq_none.mp hfind r hr)
    obtain ⟨record, hrecord⟩ := hstage
    unfold dependenciesMet
    rw [hrecord]
    cases hsettled : record.status.settled with
    | true =>
      refine ⟨met, ?_, fun hdeps => hall fun d hd => hdeps d (mem_cons_of_mem _ hd)⟩
      simpa [bind, Except.bind, hsettled] using hmet
    | false =>
      refine ⟨false, by simp [bind, Except.bind, hsettled, pure, Except.pure], fun hdeps => ?_⟩
      have := hdeps dep mem_cons_self record hrecord
      rw [hsettled] at this
      cases this

/-- `ready_stage_ids` raises nothing on a consistent job. -/
theorem Consistent.stageReady_ok (h : Consistent digest definition job)
    (hwf : WellFormed definition) {r : StageRecord F} (hr : r ∈ job.stages) :
    ∃ ready, stageReady job definition r = .ok ready := by
  obtain ⟨stage, hmem, hid⟩ := h.declared hr
  unfold stageReady
  rw [hwf.stageMap hmem hid]
  dsimp only
  split
  · exact ⟨_, rfl⟩
  split
  · exact ⟨_, rfl⟩
  obtain ⟨met, hmet, -⟩ := dependenciesMet_ok job (dependsOn stage) (by
    intro dep hdep
    obtain ⟨other, hother, hdep⟩ := hwf.known stage hmem dep hdep
    exact h.record hother hdep)
  exact ⟨met, hmet⟩

theorem readyAmong_ok {records : List (StageRecord F)}
    (h : ∀ r ∈ records, ∃ ready, stageReady job definition r = .ok ready) :
    ∃ ids, readyAmong job definition records = .ok ids ∧
      ∀ r ∈ records, stageReady job definition r = .ok true → r.stageId ∈ ids := by
  induction records with
  | nil => exact ⟨[], rfl, by simp⟩
  | cons record records ih =>
    obtain ⟨ids, hids, hin⟩ := ih fun r hr => h r (mem_cons_of_mem _ hr)
    obtain ⟨ready, hready⟩ := h record mem_cons_self
    refine ⟨if ready then record.stageId :: ids else ids, ?_, fun r hr htrue => ?_⟩
    · unfold readyAmong
      rw [hready, hids]
      rfl
    · rcases mem_cons.mp hr with rfl | hr
      · rw [hready] at htrue
        cases htrue
        exact mem_cons_self
      · cases ready
        · exact hin r hr htrue
        · exact mem_cons_of_mem _ (hin r hr htrue)

/-- A consistent job whose definition enables a stage can move on. -/
theorem Consistent.movesOn (h : Consistent digest definition job) (hwf : WellFormed definition)
    (henabled : ∃ stage ∈ stagesOf definition, stageEnabled stage = true) :
    MovesOn definition job := by
  by_cases hended : job.status.terminal = true
  · exact .inl hended
  by_cases hactive : ∃ r ∈ job.stages, r.status.active = true
  · exact .inr (.inl hactive)
  have hidle : ∀ r ∈ job.stages, r.status.active = false := fun r hr => by
    by_contra hs
    exact hactive ⟨r, hr, by simpa using hs⟩
  obtain ⟨hrest, hwaits⟩ := h.waiting (by simpa using hended) hidle
  -- some stage waits, since an enabled one is not skipped
  have hpending : ∃ r ∈ job.stages, r.status = .pending := by
    refine hwaits.resolve_left fun hempty => ?_
    obtain ⟨stage, hmem, hen⟩ := henabled
    obtain ⟨id, hid⟩ := hwf.named stage hmem
    obtain ⟨r, hr, rfl⟩ := h.record hmem hid
    have hin : r ∈ job.stages.filter (fun r => enabledIn definition r.stageId) := by
      refine mem_filter.mpr ⟨hr, ?_⟩
      unfold enabledIn
      rw [hwf.stageMap hmem hid]
      exact hen
    rw [hempty] at hin
    cases hin
  -- a waiting stage that depends on no waiting stage
  obtain ⟨stage, hmem, id, hid, ⟨r, hr, rfl, hp⟩, hmin⟩ := hwf.founded
    (fun id => ∃ r ∈ job.stages, r.stageId = id ∧ r.status = .pending) (by
      obtain ⟨r, hr, hp⟩ := hpending
      obtain ⟨stage, hmem, hid⟩ := h.declared hr
      exact ⟨stage, hmem, r.stageId, hid, r, hr, rfl, hp⟩)
  have hready : stageReady job definition r = .ok true := by
    have hen : enabledIn definition r.stageId = true := by
      by_contra hdisabled
      have hskipped := (h.skipped r hr).mpr (by simpa using hdisabled)
      rw [hp] at hskipped
      cases hskipped
    unfold enabledIn at hen
    unfold stageReady
    rw [hwf.stageMap hmem hid] at hen ⊢
    have hen : stageEnabled stage = true := hen
    dsimp only
    rw [if_neg (not_not.mpr hp), hen, if_neg (by simp)]
    obtain ⟨met, hmet, hall⟩ := dependenciesMet_ok job (dependsOn stage) (by
      intro dep hdep
      obtain ⟨other, hother, hdep⟩ := hwf.known stage hmem dep hdep
      exact h.record hother hdep)
    rw [hmet, hall]
    intro dep hdep r' hr'
    obtain ⟨hr', hid'⟩ := stage_ok hr'
    exact (hrest r' hr').resolve_left fun hs => hmin dep hdep ⟨r', hr', hid', hs⟩
  obtain ⟨ids, hids, hin⟩ := readyAmong_ok fun r hr => h.stageReady_ok hwf hr
  exact .inr (.inr ⟨ids, hids, ne_nil_of_mem (hin r hr hready)⟩)

/-- Where no stage is enabled, an admitted job can do nothing. -/
theorem not_movesOn_of_disabled {a : Admission F}
    (h : acceptWorkflow digest definition a = .ok job)
    (hnone : ∀ stage ∈ stagesOf definition, stageEnabled stage = false) :
    ¬ MovesOn definition job := by
  obtain ⟨-, -, -, hstatus, hstages⟩ := acceptWorkflow_ok h
  have hskipped : ∀ r ∈ job.stages, r.status = .skipped := by
    intro r hr
    rw [hstages] at hr
    obtain ⟨stage, hmem, rfl⟩ := mem_map.mp hr
    simp [admittedStage, hnone stage hmem]
  rintro (hended | ⟨r, hr, hactive⟩ | ⟨ids, hids, hne⟩)
  · rw [hstatus] at hended
    cases hended
  · rw [hskipped r hr] at hactive
    cases hactive
  · obtain ⟨id, hid⟩ := exists_mem_of_ne_nil _ hne
    obtain ⟨r, hr, -, hready⟩ := mem_readyAmong hids hid
    have hpending := (stageReady_true hready).1
    rw [hskipped r hr] at hpending
    cases hpending

/-- **Progress.**  In every state of every run an admitted job has ended, has a stage under way or
has one that can be made ready, exactly if its definition enables a stage. -/
theorem run_movesOn_iff {a : Admission F} (h : acceptWorkflow digest definition a = .ok job) :
    (∀ ops : List (Op F), (∀ op ∈ ops, Pinned digest definition op) →
      MovesOn definition (run digest job ops)) ↔
    ∃ stage ∈ stagesOf definition, stageEnabled stage = true := by
  obtain ⟨hwf, hjob, -⟩ := acceptWorkflow_ok h
  constructor
  · intro hruns
    by_contra hnone
    refine not_movesOn_of_disabled h (fun stage hmem => ?_) (hruns [] (by simp))
    by_contra hen
    exact hnone ⟨stage, hmem, by simpa using hen⟩
  · intro henabled ops hpin
    exact (hjob.run hwf hpin).movesOn hwf henabled

end Progress

/-! ## A definition with one stage -/

def soloDefinition (enabled : Bool) : Json ℕ :=
  .obj [(text "schema_version", .str (text "workflow.v1")), (text "id", .str (text "solo")),
    (text "stages", .arr [.obj [(text "id", .str (text "render")),
      (text "kind", .str (text "generation")), (text "operation", .str (text "render.image")),
      (text "enabled_by_default", .bool enabled)]])]

def soloAdmission : Admission ℕ where
  jobId := text "job"
  serviceName := text "service"
  serviceRevision := text "1"
  payload := .null
  idempotencyKey := text "key"
  priority := .ok ⟨50, text "normal", 10⟩
  now := 0

def soloDigest (value : Json ℕ) : Option PyStr := some (text (if value.isObj then "d0" else "d1"))

def soloJob (enabled : Bool) : WorkflowJob ℕ where
  jobId := text "job"
  serviceName := text "service"
  serviceRevision := text "1"
  workflowId := text "solo"
  workflowRevision := 1
  workflowFingerprint := text "d0"
  payloadDigest := text "d1"
  idempotencyKey := text "key"
  priority := 50
  priorityClass := text "normal"
  brokerPriority := 10
  stages := [{ stageId := text "render", status := if enabled then .pending else .skipped,
               updatedAt := 0 }]
  createdAt := 0
  updatedAt := 0

theorem soloDefinition_valid (enabled : Bool) :
    validateWorkflowDefinition (soloDefinition enabled) = .ok [] := by
  cases enabled <;> decide +kernel

theorem soloJob_accepted (enabled : Bool) :
    acceptWorkflow soloDigest (soloDefinition enabled) soloAdmission = .ok (soloJob enabled) := by
  unfold acceptWorkflow requireValid
  rw [soloDefinition_valid]
  cases enabled <;> rfl

/-- A stage of `clipDefinition`. -/
def clipStage (id kind operation : String) (dependsOn : List String) (enabled : Bool) : Json ℕ :=
  .obj [(text "id", .str (text id)), (text "kind", .str (text kind)),
    (text "operation", .str (text operation)),
    (text "depends_on", .arr (dependsOn.map fun id => .str (text id))),
    (text "enabled_by_default", .bool enabled)]

/-- Three stages, of which the second is disabled and the third depends on both others. -/
def clipDefinition : Json ℕ :=
  .obj [(text "schema_version", .str (text "workflow.v1")), (text "id", .str (text "clip")),
    (text "stages", .arr [clipStage "write" "generation" "write.prompt" [] true,
      clipStage "review" "qc" "review.prompt" ["write"] false,
      clipStage "render" "generation" "render.image" ["write", "review"] true])]

/-- The job of `clipDefinition` right after its admission. -/
def clipJob : WorkflowJob ℕ :=
  { soloJob true with
    workflowId := text "clip"
    stages := [{ stageId := text "write", updatedAt := 0 },
      { stageId := text "review", status := .skipped, updatedAt := 0 },
      { stageId := text "render", updatedAt := 0 }] }

/-- The first stage fails, is retried and succeeds, and the third one is made ready. -/
def clipSteps : List (Op ℕ) :=
  [.markStageReady clipDefinition (text "write") 1,
    .submitStage clipDefinition (text "write") (text "a1") 2,
    .failStage clipDefinition (text "write") (text "timeout") true 3,
    .submitStage clipDefinition (text "write") (text "a2") 4,
    .acceptStage clipDefinition (text "write") (text "a2") 5,
    .completeStage clipDefinition (text "write") [] 6,
    .markStageReady clipDefinition (text "render") 7]

theorem clipJob_accepted :
    acceptWorkflow soloDigest clipDefinition soloAdmission = .ok clipJob := by
  have hvalid : validateWorkflowDefinition clipDefinition = .ok [] := by decide +kernel
  unfold acceptWorkflow requireValid
  rw [hvalid]
  rfl

/-- The job can move on after each of its steps. -/
theorem clip_movesOn :
    (run soloDigest clipJob clipSteps).stages.map (·.status) = [.succeeded, .skipped, .ready] ∧
      ∀ ops, ops <+: clipSteps → MovesOn clipDefinition (run soloDigest clipJob ops) := by
  refine ⟨by decide +kernel, fun ops hops => (run_movesOn_iff clipJob_accepted).mpr
    ⟨_, mem_cons_self, by decide⟩ ops fun op hop => ?_⟩
  have hmem := hops.subset hop
  simp only [clipSteps, mem_cons, not_mem_nil, or_false] at hmem
  rcases hmem with rfl | rfl | rfl | rfl | rfl | rfl | rfl <;> exact fun _ => rfl

/-- A definition without an enabled stage is accepted, and its job is stuck from the start. -/
theorem not_movesOn_solo : validateWorkflowDefinition (soloDefinition false) = .ok [] ∧
    acceptWorkflow soloDigest (soloDefinition false) soloAdmission = .ok (soloJob false) ∧
    ¬ MovesOn (soloDefinition false) (run soloDigest (soloJob false) []) :=
  ⟨soloDefinition_valid false, soloJob_accepted false,
    not_movesOn_of_disabled (soloJob_accepted false) (by
      intro stage hmem
      rw [mem_singleton.mp hmem]
      decide)⟩

section Safety

variable {F : Type} {digest : Json F → Option PyStr} {definition : Json F} {job : WorkflowJob F}

/-- A job is completed exactly when nobody cancelled it and its enabled stages have
succeeded. -/
theorem Consistent.completed_iff (h : Consistent digest definition job)
    (hwf : WellFormed definition)
    (henabled : ∃ stage ∈ stagesOf definition, stageEnabled stage = true) :
    job.status = .completed ↔ job.cancelRequested = false ∧
      ∀ r ∈ job.stages, enabledIn definition r.stageId = true → r.status = .succeeded := by
  have hskipped : ∀ r ∈ job.stages, enabledIn definition r.stageId = true →
      r.status.settled = true → r.status = .succeeded := by
    intro r hr hen hsettled
    have hnot : r.status ≠ .skipped := fun hs => by
      rw [(h.skipped r hr).mp hs] at hen
      cases hen
    generalize r.status = s at *
    cases s <;> simp_all [StageStatus.settled]
  rw [h.status]
  unfold deriveStatus
  dsimp only
  constructor
  · intro hcompleted
    split at hcompleted
    · cases hcompleted
    split at hcompleted
    · cases hcompleted
    split at hcompleted
    · cases hcompleted
    split at hcompleted
    · split at hcompleted <;> cases hcompleted
    next hcancel =>
    refine ⟨by simpa using hcancel, fun r hr hen => hskipped r hr hen ?_⟩
    split at hcompleted
    · next hall => exact all_eq_true.mp hall.2 r (mem_filter.mpr ⟨hr, hen⟩)
    · split at hcompleted <;> cases hcompleted
  · rintro ⟨hcancel, hall⟩
    have hsettled : ∀ r ∈ job.stages, r.status.settled = true := by
      intro r hr
      cases hen : enabledIn definition r.stageId with
      | true => rw [hall r hr hen]; rfl
      | false => rw [(h.skipped r hr).mpr hen]; rfl
    have hnone : ∀ s : StageStatus, s.settled = false →
        ¬ job.stages.any (fun r => r.status = s) = true := by
      intro s hs hany
      obtain ⟨r, hr, heq⟩ := any_eq_true.mp hany
      have := hsettled r hr
      rw [of_decide_eq_true heq, hs] at this
      cases this
    have hne : job.stages.filter (fun r => enabledIn definition r.stageId) ≠ [] := by
      obtain ⟨stage, hmem, hen⟩ := henabled
      obtain ⟨id, hid⟩ := hwf.named stage hmem
      obtain ⟨r, hr, rfl⟩ := h.record hmem hid
      refine ne_nil_of_mem (mem_filter.mpr ⟨hr, ?_⟩)
      unfold enabledIn
      rw [hwf.stageMap hmem hid]
      exact hen
    rw [if_neg (hnone _ rfl), if_neg (hnone _ rfl), if_neg (hnone _ rfl), hcancel,
      if_neg Bool.false_ne_true, if_pos ⟨hne, all_eq_true.mpr fun r hr =>
        hsettled r (mem_of_mem_filter hr)⟩]

variable {next : WorkflowJob F} {op : Op F}

theorem Consistent.terminal (h : Consistent digest definition job) (hwf : WellFormed definition)
    (hended : job.status.terminal = true)
    (happly : op.apply digest job = .ok next) : next = job := by
  rcases (Workflow.apply_cases (h.nodup hwf) happly).2 with heq | ⟨hmutable, -⟩
  · exact heq
  · rw [hended] at hmutable
    cases hmutable

/-- Nothing is left to be submitted. -/
def Drained (job : WorkflowJob F) : Prop :=
  job.status.terminal = true ∨ ∀ r ∈ job.stages, r.status ≠ .pending ∧ r.status ≠ .ready

theorem drained_cancelling (job : WorkflowJob F) (reason : PyStr) (now : F) :
    ∀ r ∈ (cancelling job reason now).stages, r.status ≠ .pending ∧ r.status ≠ .ready := by
  intro r₀ hr₀
  obtain ⟨r, -, rfl⟩ := mem_map.mp hr₀
  obtain ⟨-, ⟨hsame, hopen⟩ | ⟨hcancelled, -⟩⟩ := cancel_cases reason now r
  · rw [hsame]
    exact hopen
  · rw [hcancelled]
    simp

theorem requestCancel_cases {d : Json F} {reason : PyStr} {now : F}
    (h : requestCancel digest job d reason now = .ok next) :
    job.status.terminal = true ∧ next = job ∨
      next = withStatus (cancelling job reason now) d now := by
  obtain ⟨_, -, h⟩ := bind_ok h
  split at h
  · next hended =>
      cases h
      exact .inl ⟨hended, rfl⟩
  · cases h
    exact .inr rfl

section

variable (hd : Drained job) (h : Consistent digest definition job) (hwf : WellFormed definition)
include hd h hwf

/-- Only a retry makes a stage of a drained job ready again. -/
theorem Drained.apply (hpin : Pinned digest definition op) (hop : op.retries = false)
    (happly : op.apply digest job = .ok next) : Drained next := by
  rcases h.apply_cases hwf hpin happly with
    rfl | ⟨hmutable, ⟨r, r', now, rfl, hr, hid, hmove⟩ | ⟨reason, now, rfl⟩⟩
  · exact hd
  · have hnone := hd.resolve_left (by simp [hmutable])
    refine .inr fun r₀ hr₀ => ?_
    rcases mem_replaceStage now hr₀ with rfl | ⟨hr₀, -⟩
    · have hopen := hnone r (stage_ok hr).1
      generalize r.status = s, r₀.status = s' at *
      cases hmove with
      | ready => exact absurd rfl hopen.1
      | submit => exact absurd rfl hopen.2
      | accept => simp
      | finish _ hs' => rcases hs' with rfl | rfl | rfl <;> simp
      | retry _ hretry => rw [hop] at hretry; cases hretry
    · exact hnone r₀ hr₀
  · exact .inr (drained_cancelling job reason now)

theorem Drained.run {ops : List (Op F)}
    (hops : ∀ op ∈ ops, Pinned digest definition op ∧ op.retries = false) :
    Drained (run digest job ops) := by
  induction ops generalizing job with
  | nil => exact hd
  | cons op ops ih =>
    obtain ⟨hpin, hretry⟩ := hops op mem_cons_self
    have hnext : Drained (step digest job op) := by
      unfold step
      split
      · next happly => exact hd.apply h hwf hpin hretry happly
      · exact hd
    exact ih hnext (h.step hwf hpin) fun o ho => hops o (mem_cons_of_mem _ ho)

theorem Drained.not_submitted (hpin : Pinned digest definition op) {r₀ : StageRecord F}
    (hr₀ : r₀ ∈ (step digest job op).stages) (hsubmitted : r₀.status = .submitted) :
    ∃ r ∈ job.stages, r.stageId = r₀.stageId ∧ r.status = .submitted := by
  unfold step at hr₀
  split at hr₀
  swap
  · exact ⟨r₀, hr₀, rfl, hsubmitted⟩
  next happly =>
  rcases h.apply_cases hwf hpin happly with
    rfl | ⟨hmutable, ⟨r, r', now, rfl, hr, hid, hmove⟩ | ⟨reason, now, rfl⟩⟩
  · exact ⟨r₀, hr₀, rfl, hsubmitted⟩
  · have hnone := hd.resolve_left (by simp [hmutable])
    rcases mem_replaceStage now hr₀ with rfl | ⟨hr₀, -⟩
    · have hopen := hnone r (stage_ok hr).1
      rw [hsubmitted] at hmove
      generalize r.status = s at *
      cases hmove with
      | submit => exact absurd rfl hopen.2
      | finish _ hs' => rcases hs' with hs' | hs' | hs' <;> cases hs'
    · exact ⟨r₀, hr₀, rfl, hsubmitted⟩
  · obtain ⟨r, hr, rfl⟩ := mem_map.mp hr₀
    obtain ⟨hid, ⟨hsame, -⟩ | ⟨hcancelled, -⟩⟩ := cancel_cases reason now r
    · rw [hsame] at hsubmitted
      exact ⟨r, hr, hid.symm, hsubmitted⟩
    · rw [hcancelled] at hsubmitted
      cases hsubmitted

end

/-- **Safety.**  In every state of every run of an admitted job, what a stage under way depends on
is settled; with an enabled stage the job is completed just if it was not cancelled and these have
succeeded; a job that has ended is left as it is; and after a cancellation nothing is submitted as
long as nothing is retried. -/
theorem run_safe {a : Admission F} (h : acceptWorkflow digest definition a = .ok job)
    (ops : List (Op F)) (hpin : ∀ op ∈ ops, Pinned digest definition op) :
    (∀ r ∈ (run digest job ops).stages, r.status.active = true ∨ r.status = .succeeded →
      ∀ stage, stageMap definition r.stageId = some stage → ∀ dep ∈ dependsOn stage,
        SettledIn (run digest job ops) dep) ∧
    ((∃ stage ∈ stagesOf definition, stageEnabled stage = true) →
      ((run digest job ops).status = .completed ↔
        (run digest job ops).cancelRequested = false ∧
        ∀ r ∈ (run digest job ops).stages, enabledIn definition r.stageId = true →
          r.status = .succeeded)) ∧
    ((run digest job ops).status.terminal = true → ∀ (op : Op F) (next : WorkflowJob F),
      op.apply digest (run digest job ops) = .ok next → next = run digest job ops) ∧
    (∀ (d : Json F) (reason : PyStr) (now : F) (cancelled : WorkflowJob F),
      Pinned digest definition (.requestCancel d reason now) →
      requestCancel digest (run digest job ops) d reason now = .ok cancelled →
      ∀ later : List (Op F), (∀ op ∈ later, Pinned digest definition op ∧ op.retries = false) →
      ∀ op : Op F, Pinned digest definition op →
      ∀ r ∈ (step digest (run digest cancelled later) op).stages, r.status = .submitted →
        ∃ r' ∈ (run digest cancelled later).stages, r'.stageId = r.stageId ∧
          r'.status = .submitted) := by
  obtain ⟨hwf, hjob, -⟩ := acceptWorkflow_ok h
  have hrun := hjob.run hwf hpin
  refine ⟨?_, hrun.completed_iff hwf, fun hended op next => hrun.terminal hwf hended, ?_⟩
  · intro r hr hstatus stage hstage
    exact hrun.met r hr hstatus _ (by rw [stageView, hstage]; rfl)
  · intro d reason now cancelled hpinned hcancel later hlater op hop r hr
    have happly : (Op.requestCancel d reason now).apply digest (run digest job ops) =
        .ok cancelled := hcancel
    have hdrained : Drained cancelled := by
      rcases requestCancel_cases hcancel with ⟨hended, rfl⟩ | rfl
      · exact .inl hended
      · exact .inr (drained_cancelling _ reason now)
    have hcons := hrun.apply hwf hpinned happly
    have hcons' := hcons.run hwf fun o ho => (hlater o ho).1
    exact (hdrained.run hcons hwf hlater).not_submitted hcons' hwf hop hr

end Safety

/-- The stage is submitted, and the job is cancelled before the attempt ends. -/
def soloCancelled : List (Op ℕ) :=
  [.markStageReady (soloDefinition true) (text "render") 1,
    .submitStage (soloDefinition true) (text "render") (text "attempt") 2,
    .requestCancel (soloDefinition true) (text "cancel_requested") 3]

def soloCompletion : Op ℕ := .completeStage (soloDefinition true) (text "render") [] 4

/-- The attempt fails after the cancellation and is retried. -/
def soloRetry : List (Op ℕ) :=
  [.failStage (soloDefinition true) (text "render") (text "timeout") true 4,
    .submitStage (soloDefinition true) (text "render") (text "again") 5]

/-- The only stage succeeds after the cancellation, so the job is not completed. -/
theorem solo_completed_iff :
    (run soloDigest (soloJob true) soloCancelled).status = .completed ↔
      (run soloDigest (soloJob true) soloCancelled).cancelRequested = false ∧
      ∀ r ∈ (run soloDigest (soloJob true) soloCancelled).stages,
        enabledIn (soloDefinition true) r.stageId = true → r.status = .succeeded :=
  (run_safe (soloJob_accepted true) soloCancelled fun op hop _ => by
    simp only [soloCancelled, mem_cons, not_mem_nil, or_false] at hop
    rcases hop with rfl | rfl | rfl <;> rfl).2.1 ⟨_, mem_singleton_self _, by decide⟩

/-- A job whose only stage succeeds after a cancellation is cancelled and not completed, and a
stage that is retried after a cancellation is submitted again. -/
theorem not_safe_solo :
    ((run soloDigest (soloJob true) (soloCancelled ++ [soloCompletion])).stages.map (·.status),
      (run soloDigest (soloJob true) (soloCancelled ++ [soloCompletion])).status) =
        ([StageStatus.succeeded], WorkflowStatus.cancelled) ∧
    ((run soloDigest (soloJob true) (soloCancelled ++ soloRetry.take 1)).cancelRequested,
      (run soloDigest (soloJob true) (soloCancelled ++ soloRetry.take 1)).stages.map (·.status),
      (run soloDigest (soloJob true) (soloCancelled ++ soloRetry)).stages.map (·.status)) =
        (true, [StageStatus.ready], [StageStatus.submitted]) := by
  decide +kernel

end GpuManager.Workflow
