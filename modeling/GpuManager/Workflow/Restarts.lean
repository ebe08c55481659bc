import GpuManager.Lib.JsonFile
import GpuManager.Workflow.Progress
import GpuManager.Workflow.Stores

/-!
# The file store with restarts is the in-memory store

A store is used by calls, and the file store is closed and reopened on its file at any
point; the file system works.  A document is represented by the value that `json.loads`
makes of what `json.dump` wrote (`Json.reread`).

The file store answers every call as the in-memory store does (`fileRun_eq_memoryRun`) as
long as the jobs it stores are plain JSON: no string holds a high surrogate right before a
low one, and no integer is too long to be written.  What is load-bearing is that a document
is accepted again when it is read (`load_document`), with every record it was written from.
-/

namespace GpuManager.Workflow

open PyStr FileBacked PyDict Json

variable {F : Type}

/-! ## Records and documents -/

section RoundTrip

variable (c : Coercions F)

/-- The job is written as plain JSON. -/
def Storable (job : WorkflowJob F) : Prop := (jobToDict job).Plain

theorem ofValue_value (s : StageStatus) : StageStatus.ofValue s.value = some s := by
  cases s <;> rfl

theorem workflowStatus_ofValue_value (s : WorkflowStatus) :
    WorkflowStatus.ofValue s.value = some s := by
  cases s <;> rfl

theorem toStr?_optional (s : Option PyStr) : c.toStr? (sortKeys (optional s)) = s := by
  cases s <;> rfl

/-- A stage is read back from its record. -/
theorem stageFromDict_sortKeys {r : StageRecord F} (h : (stageToDict r).Plain) :
    stageFromDict c (sortKeys (stageToDict r)) = some r := by
  have hget : ∀ key v, (stageToDict r).get? key = some v →
      (sortKeys (stageToDict r)).get? key = some (sortKeys v) := by
    intro key v hv
    rw [get?_sortKeys h, hv]
    rfl
  have hobj : (sortKeys (stageToDict r)).isObj = true := rfl
  have hhandle : (sortKeys (stageToDict r)).get "provider_handle" =
      Json.sortKeys (optional r.providerHandle) := by
    unfold Json.get
    rw [hget "provider_handle" _ rfl]
    rfl
  have herror : (Json.sortKeys (stageToDict r)).get "error" = Json.sortKeys (optional r.error) := by
    unfold Json.get
    rw [hget "error" _ rfl]
    rfl
  have houtputs : r.outputRefs.map (c.toStr ∘ sortKeys ∘ str) = r.outputRefs :=
    List.map_id _
  unfold stageFromDict
  rw [hobj, hget "output_refs" _ rfl, hget "stage_id" _ rfl, hget "attempt" _ rfl,
    hget "status" _ rfl, hget "idempotency_key" _ rfl, hget "updated_at" _ rfl, hhandle, herror,
    toStr?_optional, toStr?_optional]
  simp only [guard_true, sortKeys, sortItems_eq_map, iterate, Coercions.toInt,
    Coercions.toFloat, Option.bind_eq_bind, Option.pure_def, Option.bind_some, List.map_map,
    houtputs]
  simp only [Coercions.toStr, ofValue_value, Option.bind_some]

/-- A list of records is read back if each of them is. -/
theorem mapM_eq_some {α β : Type} {f : α → Option β} {g : β → α} {l : List β}
    (h : ∀ b ∈ l, f (g b) = some b) : (l.map g).mapM f = some l := by
  induction l with
  | nil => rfl
  | cons b l ih =>
    rw [List.map_cons, List.mapM_cons, h b List.mem_cons_self,
      ih fun b' hb' => h b' (List.mem_cons_of_mem _ hb')]
    rfl

/-- A storable job is read back from its sorted document. -/
theorem jobFromDict_sortKeys {job : WorkflowJob F} (h : Storable job) :
    jobFromDict c (sortKeys (jobToDict job)) = some job := by
  have hget : ∀ key v, (jobToDict job).get? key = some v →
      (sortKeys (jobToDict job)).get? key = some (sortKeys v) := by
    intro key v hv
    rw [get?_sortKeys h, hv]
    rfl
  have hobj : (sortKeys (jobToDict job)).isObj = true := rfl
  have hreason : (sortKeys (jobToDict job)).get "terminal_reason" =
      Json.sortKeys (optional job.terminalReason) := by
    unfold Json.get
    rw [hget "terminal_reason" _ rfl]
    rfl
  have hstages : (job.stages.map (sortKeys ∘ stageToDict)).mapM (stageFromDict c) =
      some job.stages := by
    refine mapM_eq_some fun r hr => stageFromDict_sortKeys c ?_
    have hmembers := plainMembers_iff.mp h.2
    have hplain := (hmembers (text "stages", .arr (job.stages.map stageToDict)) (by simp)).2
    exact plainItems_iff.mp hplain _ (List.mem_map_of_mem hr)
  unfold jobFromDict
  rw [hobj, hget "stages" _ rfl, hget "job_id" _ rfl, hget "service_name" _ rfl,
    hget "service_revision" _ rfl, hget "workflow_id" _ rfl, hget "workflow_revision" _ rfl,
    hget "workflow_fingerprint" _ rfl, hget "payload_digest" _ rfl, hget "idempotency_key" _ rfl,
    hget "priority" _ rfl, hget "priority_class" _ rfl, hget "broker_priority" _ rfl,
    hget "status" _ rfl, hget "cancel_requested" _ rfl, hget "created_at" _ rfl,
    hget "updated_at" _ rfl, hreason, toStr?_optional]
  simp only [guard_true, sortKeys, sortItems_eq_map, iterate, Coercions.toInt,
    Coercions.toFloat, Coercions.toBool, Option.bind_eq_bind, Option.pure_def, Option.bind_some,
    List.map_map, hstages]
  simp only [Coercions.toStr, workflowStatus_ofValue_value, Option.bind_some]

end RoundTrip

/-! ## Views -/

/-- What holds of the view of a store that only ever stored plain jobs. -/
structure Sound (view : StoreView F) : Prop where
  jobKeys : (view.jobs.map (·.1)).Nodup
  indexKeys : (view.idempotency.map (·.1)).Nodup
  own : ∀ id job, view.jobs.get? id = some job → job.jobId = id
  storable : ∀ id job, view.jobs.get? id = some job → Storable job
  /-- every idempotency record is that of its job -/
  index : ∀ key entry, view.idempotency.get? key = some entry →
    ∃ job, view.jobs.get? entry.2 = some job ∧ key = (job.serviceName, job.idempotencyKey) ∧
      entry.1 = job.payloadDigest
  /-- every job has its idempotency record -/
  indexed : ∀ id job, view.jobs.get? id = some job →
    view.idempotency.get? (job.serviceName, job.idempotencyKey) = some (job.payloadDigest, id)

structure Agree (v v' : StoreView F) : Prop where
  jobs : ∀ id, v.jobs.get? id = v'.jobs.get? id
  idempotency : ∀ key, v.idempotency.get? key = v'.idempotency.get? key

theorem sound_empty : Sound ({} : StoreView F) where
  jobKeys := List.nodup_nil
  indexKeys := List.nodup_nil
  own := fun _ _ h => by cases h
  storable := fun _ _ h => by cases h
  index := fun _ _ h => by cases h
  indexed := fun _ _ h => by cases h

theorem Sound.of_agree {v v' : StoreView F} (h : Sound v) (hagree : Agree v' v)
    (hjobs : (v'.jobs.map (·.1)).Nodup) (hindex : (v'.idempotency.map (·.1)).Nodup) :
    Sound v' where
  jobKeys := hjobs
  indexKeys := hindex
  own := fun id job hget => h.own id job (hagree.jobs id ▸ hget)
  storable := fun id job hget => h.storable id job (hagree.jobs id ▸ hget)
  index := fun key entry hget => by
    obtain ⟨job, hjob, hrest⟩ := h.index key entry (hagree.idempotency key ▸ hget)
    exact ⟨job, (hagree.jobs _).trans hjob, hrest⟩
  indexed := fun id job hget =>
    (hagree.idempotency _).trans (h.indexed id job (hagree.jobs id ▸ hget))

/-- The strings of a storable job. -/
theorem Storable.strings {job : WorkflowJob F} (h : Storable job) :
    join job.jobId = job.jobId ∧ join job.serviceName = job.serviceName ∧
      join job.idempotencyKey = job.idempotencyKey ∧ join job.payloadDigest = job.payloadDigest := by
  have hmembers := plainMembers_iff.mp h.2
  have hstr : ∀ (key : String) (s : PyStr), (text key, (.str s : Json F)) ∈
      [(text "job_id", (.str job.jobId : Json F)), (text "service_name", .str job.serviceName),
        (text "service_revision", .str job.serviceRevision),
        (text "workflow_id", .str job.workflowId),
        (text "workflow_revision", .int job.workflowRevision),
        (text "workflow_fingerprint", .str job.workflowFingerprint),
        (text "payload_digest", .str job.payloadDigest),
        (text "idempotency_key", .str job.idempotencyKey)] → join s = s := by
    intro key s hmem
    refine (hmembers (text key, .str s) ?_).2
    exact List.mem_append_left _ hmem
  exact ⟨hstr "job_id" _ (by simp), hstr "service_name" _ (by simp),
    hstr "idempotency_key" _ (by simp), hstr "payload_digest" _ (by simp)⟩

/-- An idempotency record, as JSON. -/
def indexToDict (e : (PyStr × PyStr) × PyStr × PyStr) : Json F :=
  .obj [(text "service_name", .str e.1.1), (text "idempotency_key", .str e.1.2),
    (text "payload_digest", .str e.2.1), (text "job_id", .str e.2.2)]

variable {view : StoreView F} {definition : Json F} {a : Admission F}

/-- The idempotency record of a storable job is plain. -/
theorem Sound.plain_index (h : Sound view) {e : (PyStr × PyStr) × PyStr × PyStr}
    (he : e ∈ view.idempotency) : (indexToDict e : Json F).Plain := by
  obtain ⟨job, hjob, hkey, hdigest⟩ := h.index _ _ (get?_eq_some_of_mem h.indexKeys he)
  obtain ⟨hid, hservice, hidem, hpayload⟩ := (h.storable _ _ hjob).strings
  refine ⟨show [text "service_name", text "idempotency_key", text "payload_digest",
    text "job_id"].Nodup by decide, plainMembers_iff.mpr fun m hm => ?_⟩
  simp only [List.mem_cons, List.not_mem_nil, or_false] at hm
  rcases hm with rfl | rfl | rfl | rfl
  · exact ⟨show join (text "service_name") = text "service_name" by decide,
      show join e.1.1 = e.1.1 by rw [hkey]; exact hservice⟩
  · exact ⟨show join (text "idempotency_key") = text "idempotency_key" by decide,
      show join e.1.2 = e.1.2 by rw [hkey]; exact hidem⟩
  · exact ⟨show join (text "payload_digest") = text "payload_digest" by decide,
      show join e.2.1 = e.2.1 by rw [hdigest]; exact hpayload⟩
  · exact ⟨show join (text "job_id") = text "job_id" by decide,
      show join e.2.2 = e.2.2 by rw [← h.own _ _ hjob]; exact hid⟩

theorem Sound.plain_document (h : Sound view) : (storeDocument view).Plain := by
  refine ⟨show [text "schema", text "jobs", text "idempotency"].Nodup by decide,
    plainMembers_iff.mpr fun m hm => ?_⟩
  simp only [List.mem_cons, List.not_mem_nil, or_false] at hm
  rcases hm with rfl | rfl | rfl
  · exact ⟨show join (text "schema") = text "schema" by decide,
      show join (text "workflow-runtime-store.v1") = text "workflow-runtime-store.v1" by decide⟩
  · refine ⟨show join (text "jobs") = text "jobs" by decide, ?_,
      plainMembers_iff.mpr fun m hm => ?_⟩
    · rw [List.map_map]
      exact h.jobKeys
    · obtain ⟨e, he, rfl⟩ := List.mem_map.mp hm
      have hget := get?_eq_some_of_mem h.jobKeys he
      have hstorable := h.storable _ _ hget
      refine ⟨?_, hstorable⟩
      show join e.1 = e.1
      rw [← h.own _ _ hget]
      exact hstorable.strings.1
  · refine ⟨show join (text "idempotency") = text "idempotency" by decide,
      plainItems_iff.mpr fun item hitem => ?_⟩
    obtain ⟨e, he, rfl⟩ := List.mem_map.mp hitem
    exact h.plain_index he

/-- The jobs of a document are read back in the order of their keys. -/
theorem loadJobs_map (c : Coercions F) {jobs : PyDict PyStr (WorkflowJob F)}
    (h : ∀ e ∈ jobs, e.2.jobId = e.1 ∧ Storable e.2) :
    loadJobs c (jobs.map fun e => (e.1, sortKeys (jobToDict e.2))) = some jobs := by
  induction jobs with
  | nil => rfl
  | cons e jobs ih =>
    obtain ⟨hid, hstorable⟩ := h e List.mem_cons_self
    rw [List.map_cons]
    unfold loadJobs
    rw [jobFromDict_sortKeys c hstorable, ih fun e' he' => h e' (List.mem_cons_of_mem _ he')]
    simp [hid]

theorem guard_eq_some {p : Prop} [Decidable p] (h : p) : (guard p : Option Unit) = some () := by
  simp [guard, h]

/-- The idempotency records are read back in their order. -/
theorem loadIdempotency_map (c : Coercions F) (jobs : PyDict PyStr (WorkflowJob F))
    {entries : PyDict (PyStr × PyStr) (PyStr × PyStr)}
    (done : PyDict (PyStr × PyStr) (PyStr × PyStr))
    (hplain : ∀ e ∈ entries, (indexToDict e : Json F).Plain)
    (hindex : ∀ e ∈ entries, ∃ job, jobs.get? e.2.2 = some job ∧
      e.1 = (job.serviceName, job.idempotencyKey) ∧ e.2.1 = job.payloadDigest)
    (hnodup : ((done ++ entries).map (·.1)).Nodup) :
    loadIdempotency c jobs (entries.map fun e => sortKeys (indexToDict e)) done =
      some (done ++ entries) := by
  induction entries generalizing done with
  | nil => simp [loadIdempotency]
  | cons e entries ih =>
    obtain ⟨job, hjob, hkey, hdigest⟩ := hindex e List.mem_cons_self
    have hget : ∀ key v, (indexToDict e : Json F).get? key = some v →
        (sortKeys (indexToDict e : Json F)).get? key = some (sortKeys v) := by
      intro key v hv
      rw [get?_sortKeys (hplain e List.mem_cons_self), hv]
      rfl
    have hobj : (sortKeys (indexToDict e : Json F)).isObj = true := rfl
    have hnew : (get? done (c.toStr (.str e.1.1), c.toStr (.str e.1.2))).isNone = true := by
      show (get? done e.1).isNone = true
      rw [Option.isNone_iff_eq_none]
      by_contra hsome
      obtain ⟨value, hvalue⟩ := Option.ne_none_iff_exists'.mp hsome
      have hmem : e.1 ∈ done.map (·.1) := List.mem_map.mpr ⟨_, mem_of_get? hvalue, rfl⟩
      rw [List.map_append, List.nodup_append] at hnodup
      exact hnodup.2.2 e.1 hmem e.1 (by simp) rfl
    have hrest := ih (done ++ [e]) (fun e' he' => hplain e' (List.mem_cons_of_mem _ he'))
      (fun e' he' => hindex e' (List.mem_cons_of_mem _ he')) (by simpa using hnodup)
    have hkeys : c.toStr (.str e.1.1) = job.serviceName ∧
        c.toStr (.str e.1.2) = job.idempotencyKey ∧ c.toStr (.str e.2.1) = job.payloadDigest :=
      ⟨show e.1.1 = _ by rw [hkey], show e.1.2 = _ by rw [hkey], hdigest⟩
    have hfound : jobs.get? (c.toStr (.str e.2.2)) = some job := hjob
    rw [List.map_cons]
    unfold loadIdempotency
    rw [hobj, hget "service_name" _ rfl, hget "idempotency_key" _ rfl,
      hget "payload_digest" _ rfl, hget "job_id" _ rfl]
    simp only [guard_true, sortKeys, Option.bind_eq_bind, Option.bind_some,
      Option.pure_def, hfound]
    rw [guard_eq_some hkeys, guard_eq_some hnew]
    simpa [Coercions.toStr] using hrest

/-- The document of a sound view is accepted again, with every record it was written from. -/
theorem load_document (c : Coercions F) (h : Sound view) :
    ∃ loaded, loadDocument c (sortKeys (storeDocument view)) = some loaded ∧
      Agree loaded view ∧ Sound loaded := by
  have hget : ∀ key v, (storeDocument view).get? key = some v →
      (sortKeys (storeDocument view)).get key = sortKeys v := by
    intro key v hv
    unfold Json.get
    rw [Json.get?_sortKeys h.plain_document, hv]
    rfl
  let jobs := view.jobs.insertionSort fun a b => PyStr.le a.1 b.1 = true
  have hperm : jobs.Perm view.jobs := List.perm_insertionSort _ _
  have hown : ∀ e ∈ jobs, e.2.jobId = e.1 ∧ Storable e.2 := by
    intro e he
    have hlookup := get?_eq_some_of_mem h.jobKeys (hperm.mem_iff.mp he)
    exact ⟨h.own _ _ hlookup, h.storable _ _ hlookup⟩
  have hjobs : sortKeys (.obj (view.jobs.map fun e => (e.1, jobToDict e.2))) =
      .obj (jobs.map fun e => (e.1, sortKeys (jobToDict e.2))) := by
    show obj (sortMembers (sortValues _)) = _
    rw [sortValues_eq_map, List.map_map]
    congr 1
    exact (List.map_insertionSort _ _ (fun e : PyStr × WorkflowJob F =>
      (e.1, sortKeys (jobToDict e.2))) _ fun _ _ _ _ => Iff.rfl).symm
  have hitems : sortKeys (.arr (view.idempotency.map indexToDict) : Json F) =
      .arr (view.idempotency.map fun e => sortKeys (indexToDict e)) := by
    show arr (sortItems _) = _
    rw [sortItems_eq_map, List.map_map]
    rfl
  have hkeys : (jobs.map (·.1)).Nodup := (hperm.map (·.1)).nodup_iff.mpr h.jobKeys
  have hlookup : ∀ id, get? jobs id = view.jobs.get? id := by
    intro id
    cases hfound : view.jobs.get? id with
    | some job =>
      exact get?_eq_some_of_mem hkeys (hperm.mem_iff.mpr (mem_of_get? hfound))
    | none =>
      by_contra hsome
      obtain ⟨job, hjob⟩ := Option.ne_none_iff_exists'.mp hsome
      have := get?_eq_some_of_mem h.jobKeys (hperm.mem_iff.mp (mem_of_get? hjob))
      rw [hfound] at this
      cases this
  have hindex := loadIdempotency_map c jobs [] (fun e he => h.plain_index he) (by
    intro e he
    obtain ⟨job, hjob, hrest⟩ := h.index _ _ (get?_eq_some_of_mem h.indexKeys he)
    exact ⟨job, (hlookup _).trans hjob, hrest⟩) (by simpa using h.indexKeys)
  have hagree : Agree { jobs := jobs, idempotency := view.idempotency } view :=
    ⟨hlookup, fun _ => rfl⟩
  refine ⟨{ jobs := jobs, idempotency := view.idempotency }, ?_, hagree,
    h.of_agree hagree hkeys h.indexKeys⟩
  unfold loadDocument
  rw [hget "schema" _ rfl, hget "jobs" _ rfl,
    hget "idempotency" (.arr (view.idempotency.map indexToDict)) rfl, hjobs, hitems,
    if_neg (by simp [sortKeys, str?])]
  simp only [loadJobs_map c hown, Option.bind_eq_bind, Option.bind_some, hindex, List.nil_append,
    Option.pure_def]

/-! ## Identities -/

structure SameIdentity (job job' : WorkflowJob F) : Prop where
  jobId : job.jobId = job'.jobId
  serviceName : job.serviceName = job'.serviceName
  serviceRevision : job.serviceRevision = job'.serviceRevision
  workflowId : job.workflowId = job'.workflowId
  workflowRevision : job.workflowRevision = job'.workflowRevision
  workflowFingerprint : job.workflowFingerprint = job'.workflowFingerprint
  payloadDigest : job.payloadDigest = job'.payloadDigest
  idempotencyKey : job.idempotencyKey = job'.idempotencyKey

theorem SameIdentity.refl (job : WorkflowJob F) : SameIdentity job job :=
  ⟨rfl, rfl, rfl, rfl, rfl, rfl, rfl, rfl⟩

theorem SameIdentity.trans {a b d : WorkflowJob F} (h : SameIdentity a b) (h' : SameIdentity b d) :
    SameIdentity a d where
  jobId := h.jobId.trans h'.jobId
  serviceName := h.serviceName.trans h'.serviceName
  serviceRevision := h.serviceRevision.trans h'.serviceRevision
  workflowId := h.workflowId.trans h'.workflowId
  workflowRevision := h.workflowRevision.trans h'.workflowRevision
  workflowFingerprint := h.workflowFingerprint.trans h'.workflowFingerprint
  payloadDigest := h.payloadDigest.trans h'.payloadDigest
  idempotencyKey := h.idempotencyKey.trans h'.idempotencyKey

theorem changedField_of_same {job current : WorkflowJob F} (h : SameIdentity job current) :
    changedField job current = none := by
  unfold changedField
  simp [h.serviceName, h.serviceRevision, h.workflowId, h.workflowRevision, h.workflowFingerprint,
    h.payloadDigest, h.idempotencyKey]

section Identities

variable {digest : Json F → Option PyStr} {job job' : WorkflowJob F}

theorem moveStage_identity {d : Json F} {id : PyStr} {from_ : List StageStatus}
    {refusal : WorkflowRuntimeError} {check : Except Raised Unit}
    {update : StageRecord F → StageRecord F} {now : F}
    (h : moveStage digest job d id from_ refusal check update now = .ok job') :
    SameIdentity job' job := by
  obtain ⟨-, -, r, -, -, rfl⟩ := moveStage_ok h
  exact ⟨rfl, rfl, rfl, rfl, rfl, rfl, rfl, rfl⟩

/-- No reducer changes the identity of a job. -/
theorem apply_identity {op : Op F} (h : op.apply digest job = .ok job') :
    SameIdentity job' job := by
  cases op
  case markStageReady d id now =>
    obtain ⟨_, -, h⟩ := bind_ok h
    obtain ⟨_, -, h⟩ := bind_ok h
    obtain ⟨_, -, h⟩ := bind_ok h
    obtain ⟨_, -, h⟩ := bind_ok h
    obtain ⟨_, -, h⟩ := bind_ok h
    cases h
    exact ⟨rfl, rfl, rfl, rfl, rfl, rfl, rfl, rfl⟩
  case requestCancel d reason now =>
    rcases requestCancel_cases h with ⟨-, rfl⟩ | rfl
    · exact .refl job'
    · exact ⟨rfl, rfl, rfl, rfl, rfl, rfl, rfl, rfl⟩
  case submitStage => exact moveStage_identity h
  case acceptStage => exact moveStage_identity h
  case completeStage => exact moveStage_identity h
  case failStage => exact moveStage_identity h
  case markOutcomeUnknown => exact moveStage_identity h

theorem run_identity (job : WorkflowJob F) (ops : List (Op F)) :
    SameIdentity (run digest job ops) job := by
  induction ops generalizing job with
  | nil => exact .refl job
  | cons op ops ih =>
    refine (ih (step digest job op)).trans ?_
    unfold step
    split
    · next happly => exact apply_identity happly
    · exact .refl job

/-- The identity of an admitted job is that of its submission. -/
theorem acceptWorkflow_identity (h : acceptWorkflow digest definition a = .ok job) :
    job.jobId = a.jobId ∧ job.serviceName = a.serviceName ∧
      job.idempotencyKey = a.idempotencyKey ∧ digest a.payload = some job.payloadDigest := by
  obtain ⟨_, -, h⟩ := bind_ok h
  obtain ⟨_, -, h⟩ := bind_ok h
  obtain ⟨_, -, h⟩ := bind_ok h
  obtain ⟨_, -, h⟩ := bind_ok h
  obtain ⟨_, -, h⟩ := bind_ok h
  obtain ⟨contracted, -, h⟩ := bind_ok h
  obtain ⟨fingerprint, -, h⟩ := bind_ok h
  obtain ⟨payload, hpayload, h⟩ := bind_ok h
  cases h
  refine ⟨rfl, rfl, rfl, ?_⟩
  unfold digestOf at hpayload
  split at hpayload
  · cases hpayload
    assumption
  · cases hpayload

end Identities

/-! ## Updates of a view -/

def StoreView.add (view : StoreView F) (job : WorkflowJob F) : StoreView F where
  jobs := view.jobs.set job.jobId job
  idempotency := view.idempotency.set (job.serviceName, job.idempotencyKey)
    (job.payloadDigest, job.jobId)

def StoreView.replace (view : StoreView F) (job : WorkflowJob F) : StoreView F :=
  { view with jobs := view.jobs.set job.jobId job }

theorem Agree.add {v v' : StoreView F} (h : Agree v v') (job : WorkflowJob F) :
    Agree (v.add job) (v'.add job) where
  jobs id := by
    show get? (set _ _ _) _ = get? (set _ _ _) _
    rw [get?_set, get?_set, h.jobs]
  idempotency key := by
    show get? (set _ _ _) _ = get? (set _ _ _) _
    rw [get?_set, get?_set, h.idempotency]

theorem Agree.replace {v v' : StoreView F} (h : Agree v v') (job : WorkflowJob F) :
    Agree (v.replace job) (v'.replace job) where
  jobs id := by
    show get? (set _ _ _) _ = get? (set _ _ _) _
    rw [get?_set, get?_set, h.jobs]
  idempotency key := h.idempotency key

/-- A job that can be stored, under a new id and key, keeps the store sound. -/
theorem Sound.add (h : Sound view) {job : WorkflowJob F} (hstorable : Storable job)
    (hid : view.jobs.get? job.jobId = none)
    (hkey : view.idempotency.get? (job.serviceName, job.idempotencyKey) = none) :
    Sound (view.add job) := by
  have hjobs : ∀ id, (view.add job).jobs.get? id =
      if id = job.jobId then some job else view.jobs.get? id := fun _ => get?_set ..
  have hindex : ∀ key, (view.add job).idempotency.get? key =
      if key = (job.serviceName, job.idempotencyKey) then some (job.payloadDigest, job.jobId)
      else view.idempotency.get? key := fun _ => get?_set ..
  constructor
  case jobKeys => exact nodup_set h.jobKeys _ _
  case indexKeys => exact nodup_set h.indexKeys _ _
  case own =>
    intro id j hj
    rw [hjobs] at hj
    split at hj
    · next hid' =>
        cases hj
        exact hid'.symm
    · exact h.own id j hj
  case storable =>
    intro id j hj
    rw [hjobs] at hj
    split at hj
    · cases hj
      exact hstorable
    · exact h.storable id j hj
  case index =>
    intro key entry hentry
    rw [hindex] at hentry
    split at hentry
    · next hkey' =>
        cases hentry
        exact ⟨job, by rw [hjobs, if_pos rfl], hkey', rfl⟩
    · obtain ⟨j, hj, hrest⟩ := h.index key entry hentry
      have hne : entry.2 ≠ job.jobId := fun heq => by
        rw [heq, hid] at hj
        cases hj
      exact ⟨j, by rw [hjobs, if_neg hne]; exact hj, hrest⟩
  case indexed =>
    intro id j hj
    rw [hjobs] at hj
    rw [hindex]
    split at hj
    · next hid' =>
        cases hj
        rw [if_pos rfl, hid']
    · have hold := h.indexed id j hj
      have hne : (j.serviceName, j.idempotencyKey) ≠ (job.serviceName, job.idempotencyKey) :=
        fun heq => by
          rw [heq, hkey] at hold
          cases hold
      rw [if_neg hne]
      exact hold

/-- So does a job that replaces one of the same identity. -/
theorem Sound.replace (h : Sound view) {job current : WorkflowJob F} (hstorable : Storable job)
    (hcurrent : view.jobs.get? job.jobId = some current) (hsame : SameIdentity job current) :
    Sound (view.replace job) := by
  have hjobs : ∀ id, (view.replace job).jobs.get? id =
      if id = job.jobId then some job else view.jobs.get? id := fun _ => get?_set ..
  constructor
  case jobKeys => exact nodup_set h.jobKeys _ _
  case indexKeys => exact h.indexKeys
  case own =>
    intro id j hj
    rw [hjobs] at hj
    split at hj
    · next hid' =>
        cases hj
        exact hid'.symm
    · exact h.own id j hj
  case storable =>
    intro id j hj
    rw [hjobs] at hj
    split at hj
    · cases hj
      exact hstorable
    · exact h.storable id j hj
  case index =>
    intro key entry hentry
    obtain ⟨j, hj, hkey, hdigest⟩ := h.index key entry hentry
    by_cases heq : entry.2 = job.jobId
    · rw [heq, hcurrent] at hj
      cases hj
      exact ⟨job, by rw [hjobs, if_pos heq],
        by rw [hsame.serviceName, hsame.idempotencyKey]; exact hkey,
        by rw [hsame.payloadDigest]; exact hdigest⟩
    · exact ⟨j, by rw [hjobs, if_neg heq]; exact hj, hkey, hdigest⟩
  case indexed =>
    intro id j hj
    rw [hjobs] at hj
    split at hj
    · next hid' =>
        cases hj
        have hold := h.indexed _ _ hcurrent
        rw [hid', hsame.serviceName, hsame.idempotencyKey, hsame.payloadDigest]
        exact hold
    · exact h.indexed id j hj

/-! ## Runs with restarts -/

/-- A document is represented by the value that is read back from it. -/
def fileText : JsonText F (Json F) where
  loads := some
  dumps := reread

/-- The file system works. -/
def noFaults : Faults := ⟨false, .none⟩

/-- A call of the store, or its reopening on the same file. -/
inductive StoreStep (F : Type) where
  | call (op : StoreCall F)
  | restart

section Runs

variable (digest : Json F → Option PyStr) (c : Coercions F)

/-- A call of the file store. -/
def fileCall (op : StoreCall F) (h : Handle (StoreView F) (Json F)) :
    Outcome (StoreView F) (Json F) (Except StoreError (Answer F)) :=
  call (storeFormat c fileText) (storeEarly digest)
    (fun op view => storeExec digest fileText view op) op noFaults h

/-- The replies of the file store. -/
def fileRun : Handle (StoreView F) (Json F) → List (StoreStep F) →
    List (Reply (Except StoreError (Answer F)))
  | _, [] => []
  | h, .restart :: steps => fileRun (fresh (storeFormat c fileText) h.file) steps
  | h, .call op :: steps =>
    (fileCall digest c op h).reply :: fileRun (fileCall digest c op h).next steps

/-- The replies of the in-memory store, which is not restarted. -/
def memoryRun : StoreView F → List (StoreStep F) → List (Except StoreError (Answer F))
  | _, [] => []
  | view, .restart :: steps => memoryRun view steps
  | view, .call op :: steps =>
    (memoryCall digest view op).1 :: memoryRun (memoryCall digest view op).2 steps

/-- The job that a call returned. -/
def returned : Except StoreError (Answer F) → List (WorkflowJob F)
  | .ok (.created job _) => [job]
  | .ok (.job job) => [job]
  | .error _ => []

/-- Every job that is put was made by the reducers from a job that an earlier call returned. -/
def Produced : StoreView F → List (WorkflowJob F) → List (StoreStep F) → Prop
  | _, _, [] => True
  | view, seen, .restart :: steps => Produced view seen steps
  | view, seen, .call op :: steps =>
    (∀ job, op = .put job → ∃ base ∈ seen, ∃ ops, job = run digest base ops) ∧
      Produced (memoryCall digest view op).2 (seen ++ returned (memoryCall digest view op).1)
        steps

def stored : StoreCall F → Except StoreError (Answer F) → Option (WorkflowJob F)
  | .get _, _ => none
  | .create .., .ok (.created job true) => some job
  | .put _, .ok (.job job) => some job
  | _, _ => none

def StorableRun : StoreView F → List (StoreStep F) → Prop
  | _, [] => True
  | view, .restart :: steps => StorableRun view steps
  | view, .call op :: steps =>
    (∀ job ∈ stored op (memoryCall digest view op).1, Storable job) ∧
      StorableRun (memoryCall digest view op).2 steps

end Runs

section Simulation

variable {digest : Json F → Option PyStr} {c : Coercions F} {v mem : StoreView F}

def Seen (mem : StoreView F) (seen : List (WorkflowJob F)) : Prop :=
  ∀ base ∈ seen, ∃ current, mem.jobs.get? base.jobId = some current ∧ SameIdentity base current

variable {seen : List (WorkflowJob F)} {current job : WorkflowJob F} {op : StoreCall F}

theorem Seen.append {seen' : List (WorkflowJob F)} (h : Seen mem seen) (h' : Seen mem seen') :
    Seen mem (seen ++ seen') := by
  intro base hbase
  rcases List.mem_append.mp hbase with hb | hb
  · exact h base hb
  · exact h' base hb

theorem Seen.single (h : mem.jobs.get? job.jobId = some current)
    (hsame : SameIdentity job current) : Seen mem [job] := by
  intro base hbase
  rw [List.mem_singleton.mp hbase]
  exact ⟨current, h, hsame⟩

theorem Seen.add (h : Seen mem seen) (hid : mem.jobs.get? job.jobId = none) :
    Seen (mem.add job) seen := by
  intro base hbase
  obtain ⟨current, hcurrent, hsame⟩ := h base hbase
  have hne : base.jobId ≠ job.jobId := fun heq => by
    rw [heq, hid] at hcurrent
    cases hcurrent
  refine ⟨current, ?_, hsame⟩
  show get? (set _ _ _) _ = _
  rw [get?_set, if_neg hne]
  exact hcurrent

theorem Seen.replace (h : Seen mem seen)
    (hcurrent : mem.jobs.get? job.jobId = some current) (hsame : SameIdentity job current) :
    Seen (mem.replace job) seen := by
  intro base hbase
  obtain ⟨stored, hstored, hbases⟩ := h base hbase
  by_cases heq : base.jobId = job.jobId
  · rw [heq, hcurrent] at hstored
    cases hstored
    refine ⟨job, ?_, hbases.trans ⟨hsame.jobId.symm, hsame.serviceName.symm,
      hsame.serviceRevision.symm, hsame.workflowId.symm, hsame.workflowRevision.symm,
      hsame.workflowFingerprint.symm, hsame.payloadDigest.symm, hsame.idempotencyKey.symm⟩⟩
    show get? (set _ _ _) _ = _
    rw [get?_set, if_pos heq]
  · refine ⟨stored, ?_, hbases⟩
    show get? (set _ _ _) _ = _
    rw [get?_set, if_neg heq]
    exact hstored

/-- The document of a sound view can be written. -/
theorem persist_sound (h : Sound v) (answer : Answer F) :
    persist fileText v answer =
      .commit v (sortKeys (storeDocument v)) (.ok answer) := by
  have hdumps : fileText.dumps (storeDocument v) = some (sortKeys (storeDocument v)) :=
    reread_plain _ h.plain_document
  unfold persist
  rw [hdumps]

/-- What `create` does on two views that agree. -/
theorem admit_agree (hmem : Sound mem) (hagree : Agree v mem)
    {payloadHash : PyStr} (hdigest : digest a.payload = some payloadHash) :
    (∃ e, admitJob digest v definition a payloadHash = .error e ∧
      admitJob digest mem definition a payloadHash = .error e) ∨
    (∃ job, mem.jobs.get? job.jobId = some job ∧
      admitJob digest v definition a payloadHash = .ok (.inl job) ∧
      admitJob digest mem definition a payloadHash = .ok (.inl job)) ∨
    ∃ job, acceptWorkflow digest definition a = .ok job ∧ mem.jobs.get? job.jobId = none ∧
      mem.idempotency.get? (job.serviceName, job.idempotencyKey) = none ∧
      admitJob digest v definition a payloadHash = .ok (.inr (job, v.add job)) ∧
      admitJob digest mem definition a payloadHash = .ok (.inr (job, mem.add job)) := by
  unfold admitJob
  rw [hagree.idempotency, hagree.jobs]
  cases hprior : mem.idempotency.get? (a.serviceName, a.idempotencyKey) with
  | some prior =>
    obtain ⟨priorHash, priorId⟩ := prior
    dsimp only
    by_cases hhash : priorHash ≠ payloadHash
    · rw [if_pos hhash, if_pos hhash]
      exact .inl ⟨_, rfl, rfl⟩
    rw [if_neg hhash, if_neg hhash, hagree.jobs]
    obtain ⟨job, hjob, -⟩ := hmem.index _ _ hprior
    dsimp only at hjob
    rw [hjob]
    exact .inr (.inl ⟨job, by rw [hmem.own _ _ hjob]; exact hjob, rfl, rfl⟩)
  | none =>
    dsimp only
    by_cases hid : (mem.jobs.get? a.jobId).isSome = true
    · rw [if_pos hid, if_pos hid]
      exact .inl ⟨_, rfl, rfl⟩
    rw [if_neg hid, if_neg hid]
    cases hjob : acceptWorkflow digest definition a with
    | error e => exact .inl ⟨_, rfl, rfl⟩
    | ok job =>
      obtain ⟨hjobId, hservice, hkey, hpayload⟩ := acceptWorkflow_identity hjob
      rw [hdigest] at hpayload
      cases hpayload
      refine .inr (.inr ⟨job, rfl, ?_, ?_, ?_, ?_⟩)
      · rw [hjobId]
        simpa using hid
      · rw [hservice, hkey]
        exact hprior
      · unfold StoreView.add
        rw [hjobId, hservice, hkey]
      · unfold StoreView.add
        rw [hjobId, hservice, hkey]

/-- A call on a view that agrees with the in-memory store answers what that store answers,
and where it writes, the next views agree again. -/
theorem exec_agree (hv : Sound v) (hmem : Sound mem) (hagree : Agree v mem) (hseen : Seen mem seen)
    (hearly : storeEarly digest op = none)
    (hproduced : ∀ job, op = .put job → ∃ base ∈ seen, ∃ ops, job = run digest base ops)
    (hstorable : ∀ job ∈ stored op (memoryCall digest mem op).1, Storable job) :
    Sound (memoryCall digest mem op).2 ∧
    Seen (memoryCall digest mem op).2 (seen ++ returned (memoryCall digest mem op).1) ∧
    ((storeExec digest fileText v op = .answer (memoryCall digest mem op).1 ∧
        (memoryCall digest mem op).2 = mem) ∨
      ∃ next, storeExec digest fileText v op =
          .commit next (sortKeys (storeDocument next)) (memoryCall digest mem op).1 ∧
        Sound next ∧ Agree next (memoryCall digest mem op).2) := by
  cases op with
  | create definition a =>
    cases hdigest : digest a.payload with
    | none => simp [storeEarly, hdigest] at hearly
    | some payloadHash =>
      rcases admit_agree hmem hagree hdigest with
        ⟨e, hl, hr⟩ | ⟨job, hjob, hl, hr⟩ | ⟨job, haccept, hid, hkey, hl, hr⟩
      · simp only [storeExec, memoryCall, hdigest]
        rw [hl, hr]
        exact ⟨hmem, hseen.append (fun _ h => by cases h), .inl ⟨rfl, rfl⟩⟩
      · simp only [storeExec, memoryCall, hdigest]
        rw [hl, hr]
        exact ⟨hmem, hseen.append (.single hjob (.refl job)), .inl ⟨rfl, rfl⟩⟩
      · have hplain : Storable job :=
          hstorable job (by simp only [memoryCall, hdigest, hr, stored, Option.mem_def])
        simp only [storeExec, memoryCall, hdigest]
        rw [hl, hr]
        have hnext : Sound (v.add job) := hv.add hplain ((hagree.jobs _).trans hid)
          ((hagree.idempotency _).trans hkey)
        have hself : (mem.add job).jobs.get? job.jobId = some job := get?_set_self ..
        exact ⟨hmem.add hplain hid hkey, (hseen.add hid).append (.single hself (.refl job)),
          .inr ⟨v.add job, persist_sound hnext _, hnext, hagree.add job⟩⟩
  | get jobId =>
    have hsame : v.get jobId = mem.get jobId := by
      unfold StoreView.get
      rw [hagree.jobs]
    refine ⟨hmem, hseen.append ?_, .inl ⟨?_, rfl⟩⟩
    · cases hjob : mem.jobs.get? jobId with
      | none =>
        simp only [memoryCall, StoreView.get, hjob, Except.map]
        exact fun _ h => by cases h
      | some job =>
        simp only [memoryCall, StoreView.get, hjob, Except.map]
        exact .single (by rw [hmem.own _ _ hjob]; exact hjob) (.refl job)
    · show FileBacked.Effect.answer ((v.get jobId).map Answer.job) = _
      rw [hsame]
      rfl
  | put job =>
    obtain ⟨base, hbase, ops, hjob⟩ := hproduced job rfl
    obtain ⟨current, hcurrent, hbases⟩ := hseen base hbase
    have hsame : SameIdentity job current := by
      rw [hjob]
      exact (run_identity base ops).trans hbases
    have hid : job.jobId = base.jobId := by
      rw [hjob]
      exact (run_identity base ops).jobId
    rw [← hid] at hcurrent
    have hright : memoryCall digest mem (.put job) = (.ok (.job job), mem.replace job) := by
      simp only [memoryCall, hcurrent]
      rfl
    have hplain : Storable job := hstorable job (by rw [hright]; rfl)
    have hnext : Sound (v.replace job) :=
      hv.replace hplain ((hagree.jobs _).trans hcurrent) hsame
    have hindex : (v.idempotency.get? (job.serviceName, job.idempotencyKey)).map (·.2) =
        some job.jobId := by
      rw [hagree.idempotency, hsame.serviceName, hsame.idempotencyKey,
        hmem.indexed _ _ hcurrent]
      rfl
    have hleft : storeExec digest fileText v (.put job) =
        persist fileText (v.replace job) (.job job) := by
      simp only [storeExec, hagree.jobs, hcurrent, changedField_of_same hsame]
      rw [if_neg (not_not.mpr hindex)]
      rfl
    rw [hleft, hright]
    have hself : (mem.replace job).jobs.get? job.jobId = some job := get?_set_self ..
    exact ⟨hmem.replace hplain hcurrent hsame,
      (hseen.replace hcurrent hsame).append (.single hself (.refl job)),
      .inr ⟨v.replace job, persist_sound hnext _, hnext, hagree.replace job⟩⟩

/-- The file store mirrors the in-memory store: the view it works on agrees with it, and so
does the one it would work on after a restart. -/
structure Mirrors (c : Coercions F) (mem : StoreView F) (seen : List (WorkflowJob F))
    (h : Handle (StoreView F) (Json F)) : Prop where
  sound : Sound mem
  seen : Seen mem seen
  loaded : ∃ v, loadedView (storeFormat c fileText) h noFaults = some v ∧ Sound v ∧ Agree v mem
  reopened : ∃ v, loadedView (storeFormat c fileText) (fresh (storeFormat c fileText) h.file)
    noFaults = some v ∧ Sound v ∧ Agree v mem

theorem mirrors_fresh (c : Coercions F) :
    Mirrors c {} [] (fresh (storeFormat c fileText) none) where
  sound := sound_empty
  seen := fun _ h => by cases h
  loaded := ⟨{}, rfl, sound_empty, fun _ => rfl, fun _ => rfl⟩
  reopened := ⟨{}, rfl, sound_empty, fun _ => rfl, fun _ => rfl⟩

section

variable {h : Handle (StoreView F) (Json F)} (hm : Mirrors c mem seen h)
include hm

/-- A restart keeps the mirror. -/
theorem Mirrors.restart :
    Mirrors c mem seen (fresh (storeFormat c fileText) h.file) where
  sound := hm.sound
  seen := hm.seen
  loaded := hm.reopened
  reopened := hm.reopened

/-- A call is answered as the in-memory store answers it, and keeps the mirror. -/
theorem Mirrors.call
    (hproduced : ∀ job, op = .put job → ∃ base ∈ seen, ∃ ops, job = run digest base ops)
    (hstorable : ∀ job ∈ stored op (memoryCall digest mem op).1, Storable job) :
    (fileCall digest c op h).reply = .answered (memoryCall digest mem op).1 ∧
      Mirrors c (memoryCall digest mem op).2 (seen ++ returned (memoryCall digest mem op).1)
        (fileCall digest c op h).next := by
  obtain ⟨v, hload, hv, hagree⟩ := hm.loaded
  unfold fileCall FileBacked.call
  cases hearly : storeEarly digest op with
  | some r =>
    cases op with
    | create definition a =>
      cases hdigest : digest a.payload with
      | some payloadHash => simp [storeEarly, hdigest] at hearly
      | none =>
        simp only [storeEarly, hdigest, Option.isNone_none, if_true,
          Option.some.injEq] at hearly
        subst hearly
        simp only [memoryCall, hdigest, returned, List.append_nil]
        exact ⟨trivial, hm⟩
    | get jobId | put job => cases hearly
  | none =>
    obtain ⟨hsound, hseen, hcases⟩ :=
      exec_agree hv hm.sound hagree hm.seen hearly hproduced hstorable
    dsimp only
    rw [hload]
    dsimp only [work]
    rcases hcases with ⟨hexec, hmem⟩ | ⟨next, hexec, hnext, hnextAgree⟩
    · rw [hexec]
      refine ⟨rfl, hsound, hseen, ⟨v, rfl, hv, ?_⟩, ?_⟩
      · rw [hmem]
        exact hagree
      · rw [hmem]
        exact hm.reopened
    · rw [hexec]
      refine ⟨rfl, hsound, hseen, ⟨next, rfl, hnext, hnextAgree⟩, ?_⟩
      obtain ⟨loaded, hloaded, hloadedAgree, hloadedSound⟩ := load_document c hnext
      refine ⟨loaded, hloaded, hloadedSound, fun id => ?_, fun key => ?_⟩
      · exact (hloadedAgree.jobs id).trans (hnextAgree.jobs id)
      · exact (hloadedAgree.idempotency key).trans (hnextAgree.idempotency key)

theorem Mirrors.run {steps : List (StoreStep F)} (hproduced : Produced digest mem seen steps)
    (hstorable : StorableRun digest mem steps) :
    fileRun digest c h steps = (memoryRun digest mem steps).map .answered := by
  induction steps generalizing mem seen h with
  | nil => rfl
  | cons step steps ih =>
    cases step with
    | restart => exact ih hm.restart hproduced hstorable
    | call op =>
      obtain ⟨hput, hproduced⟩ := hproduced
      obtain ⟨hplain, hrest⟩ := hstorable
      obtain ⟨hreply, hm'⟩ := hm.call hput hplain
      unfold fileRun memoryRun
      rw [hreply, ih hm' hproduced hrest]
      rfl

end

/-- With jobs that are plain JSON, the file store with restarts answers every call as the
in-memory store does, and every such job is read back as it was written. -/
theorem fileRun_eq_memoryRun (digest : Json F → Option PyStr) (c : Coercions F)
    {steps : List (StoreStep F)} (hproduced : Produced digest {} [] steps)
    (hstorable : StorableRun digest {} steps) :
    fileRun digest c (fresh (storeFormat c fileText) none) steps =
        (memoryRun digest {} steps).map .answered ∧
      ∀ job : WorkflowJob F, Storable job →
        (reread (jobToDict job)).bind (jobFromDict c) = some job := by
  refine ⟨(mirrors_fresh c).run hproduced hstorable, fun job hjob => ?_⟩
  have hread := reread_plain (jobToDict job) hjob
  calc (reread (jobToDict job)).bind (jobFromDict c)
      = (some (jobToDict job).sortKeys).bind (jobFromDict c) :=
        congrArg (Option.bind · (jobFromDict c)) hread
    _ = jobFromDict c (jobToDict job).sortKeys := Option.bind_some ..
    _ = some job := jobFromDict_sortKeys c hjob

end Simulation

/-! ## A pair of surrogates -/

def pairSteps (jobId : PyStr) : List (StoreStep ℕ) :=
  [.call (.create (soloDefinition true) { soloAdmission with jobId := jobId }), .restart,
    .call (.get jobId)]

def strictCoercions : Coercions ℕ where
  str _ := []
  int _ := none
  float _ := none
  bool _ := false

/-- A job with a plain id is found again after the restart. -/
theorem fileRun_pairSteps_job :
    fileRun soloDigest strictCoercions (fresh (storeFormat strictCoercions fileText) none)
        (pairSteps (text "job")) =
        (memoryRun soloDigest {} (pairSteps (text "job"))).map .answered ∧
      ∀ job : WorkflowJob ℕ, Storable job →
        (reread (jobToDict job)).bind (jobFromDict strictCoercions) = some job := by
  have hcreated : (memoryCall soloDigest {} (.create (soloDefinition true) soloAdmission)).1 =
      .ok (.created (soloJob true) true) := by
    simp only [memoryCall, admitJob, soloJob_accepted]
    rfl
  refine fileRun_eq_memoryRun soloDigest strictCoercions
    ⟨fun _ h => (by cases h), fun _ h => (by cases h), trivial⟩
    ⟨fun job hjob => ?_, fun job hjob => ?_, trivial⟩
  · change job ∈ stored _ (memoryCall soloDigest {} (.create (soloDefinition true)
      soloAdmission)).1 at hjob
    rw [hcreated] at hjob
    cases hjob
    exact show (jobToDict (soloJob true)).Plain by decide +kernel
  · cases hjob

def answeredOk : Reply (Except StoreError (Answer ℕ)) → Bool
  | .answered (.ok _) => true
  | _ => false

/-- A job whose id is a high surrogate followed by a low one is lost at the restart: its id
comes back as one code point. -/
theorem fileRun_ne_memoryRun_pair :
    (memoryRun soloDigest {} (pairSteps [0xD83D, 0xDE00])).map (answeredOk ∘ .answered) =
        [true, true] ∧
      (fileRun soloDigest strictCoercions (fresh (storeFormat strictCoercions fileText) none)
        (pairSteps [0xD83D, 0xDE00])).map answeredOk = [true, false] := by
  decide +kernel

end GpuManager.Workflow
