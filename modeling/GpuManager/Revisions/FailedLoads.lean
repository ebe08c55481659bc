import GpuManager.Revisions.Catalog
import GpuManager.Workflow.Progress
import GpuManager.Workflow.Stores

/-!
# Failed loads and failed writes of the file stores

Both file stores mark themselves as loaded before they read their file.  A load that fails
is reported once; from the next call on the object passes for an empty one, denies every
record and, at the first creation, replaces the file it could not read.  A write that fails
at the sync of the directory is reported as failed although the file has been replaced.

`fileStores_respectful_iff` says exactly which runs escape both: after a failed load the
caller only tries creations that are refused for their arguments or whose write fails in
time, and no write fails after the replacement unless it writes what is there already.
-/

namespace GpuManager.Revisions

open PyStr Workflow FileBacked

variable {F C : Type}

/-! ## The workflow store -/

def DeniesJob : Except StoreError (Answer F) → Prop
  | .error (.unknownJob _) => True
  | _ => False

/-- The call creates a job. -/
def CreatesJob : StoreCall F → Prop
  | .create .. => True
  | _ => False

def firstView (a : Admission F) (job : WorkflowJob F) (payloadHash : PyStr) : StoreView F where
  jobs := [(a.jobId, job)]
  idempotency := [((a.serviceName, a.idempotencyKey), (payloadHash, a.jobId))]

/-- A creation that is refused for its arguments: the payload has no digest,
`accept_workflow` raises, or the job cannot be written as JSON. -/
def RefusedCreate (digest : Json F → Option PyStr) (json : JsonText F C) : StoreCall F → Prop
  | .create definition a =>
    digest a.payload = none ∨ (∃ e, acceptWorkflow digest definition a = .error e) ∨
      ∃ job payloadHash, acceptWorkflow digest definition a = .ok job ∧
        digest a.payload = some payloadHash ∧
        json.dumps (storeDocument (firstView a job payloadHash)) = none
  | _ => False

theorem store_emptyView (digest : Json F → Option PyStr) (c : Coercions F) (json : JsonText F C) :
    EmptyView (storeFormat c json) (storeEarly digest) (fun op view => storeExec digest json view op)
      DeniesJob (RefusedCreate digest json) CreatesJob where
  ends op r h := by
    cases op with
    | create definition a =>
      cases hdigest : digest a.payload with
      | none =>
        simp only [storeEarly, hdigest, Option.isNone_none, if_true, Option.some.injEq] at h
        subst h
        exact ⟨.inl hdigest, id⟩
      | some payloadHash => simp [storeEarly, hdigest] at h
    | get jobId | put job => cases h
  answers op hop hearly := by
    cases op with
    | get jobId | put job => cases hop
    | create definition a =>
      cases hdigest : digest a.payload with
      | none => simp [storeEarly, hdigest] at hearly
      | some payloadHash =>
        rcases hop with hnone | ⟨e, he⟩ | ⟨job, hash, hjob, hhash, hdumps⟩
        · rw [hdigest] at hnone
          cases hnone
        · refine ⟨.error (.reducer e), ?_, id⟩
          simp [storeExec, hdigest, admitJob, storeFormat, he]
        rw [hdigest] at hhash
        cases hhash
        refine ⟨.error .unwritable, ?_, id⟩
        have hpersist : persist json (firstView a job payloadHash) (.created job true) =
            .answer (.error .unwritable) := by
          unfold persist
          rw [hdumps]
        simpa [storeExec, hdigest, admitJob, storeFormat, hjob, PyDict.set, firstView]
          using hpersist
  writes op hop hcreates := by
    cases op with
    | get jobId | put job => cases hcreates
    | create definition a =>
      simp only [RefusedCreate, not_or] at hop
      obtain ⟨hdigest, haccept, hdumps⟩ := hop
      obtain ⟨payloadHash, hdigest⟩ := Option.ne_none_iff_exists'.mp hdigest
      cases hjob : acceptWorkflow digest definition a with
      | error e => exact absurd ⟨e, hjob⟩ haccept
      | ok job =>
        have hwritable : json.dumps (storeDocument (firstView a job payloadHash)) ≠ none :=
          fun hnone => hdumps ⟨job, payloadHash, hjob, hdigest, hnone⟩
        obtain ⟨document, hdocument⟩ := Option.ne_none_iff_exists'.mp hwritable
        refine ⟨firstView a job payloadHash, document, .ok (.created job true), ?_⟩
        have hpersist : persist json (firstView a job payloadHash) (.created job true) =
            .commit (firstView a job payloadHash) document (.ok (.created job true)) := by
          unfold persist
          rw [hdocument]
        simpa [storeExec, hdigest, admitJob, storeFormat, hjob, PyDict.set, firstView]
          using hpersist
  denies op hop hcreates := by
    cases op with
    | create definition a => exact absurd trivial hcreates
    | get jobId => exact ⟨.error (.unknownJob jobId), rfl, trivial⟩
    | put job => exact ⟨.error (.unknownJob job.jobId), rfl, trivial⟩

/-! ## The revision catalog -/

/-- The reply says that a revision, or every revision, does not exist. -/
def DeniesRevision : Except CatalogError (CatalogAnswer F) → Prop
  | .error (.unknownRevision _ _) => True
  | .error (.changed _ _ none) => True
  | .ok (.found none) => True
  | .ok (.exported []) => True
  | _ => False

/-- The call publishes a revision whatever the latest one is. -/
def CreatesRevision : CatalogCall F → Prop
  | .publish _ _ none => True
  | _ => False

/-- The first revision of a service. -/
def firstRevision (name : PyStr) (definition : Json F) (fingerprint : PyStr) :
    ServiceRevision F where
  name := name
  revision := 1
  fingerprint := fingerprint
  state := .draft
  definition := definition

/-- A publication that is refused for its arguments: the definition has no fingerprint, is
not valid, or cannot be written as JSON. -/
def RefusedPublish (k : Contract F C) : CatalogCall F → Prop
  | .publish name definition none =>
    k.fingerprint name definition = none ∨ k.validate name definition ≠ some [] ∨
      ∃ fingerprint, k.fingerprint name definition = some fingerprint ∧
        k.dumps (Records.document
          (Records.put [] (firstRevision name definition fingerprint))) = none
  | _ => False

/-- What publishing does on an empty catalog. -/
theorem publish_nil (k : Contract F C) (name : PyStr) (definition : Json F) :
    (k.fingerprint name definition = none ∧
      publish k [] name definition none = .error .incompatible) ∨
    (k.validate name definition ≠ some [] ∧
      ∃ e, publish k [] name definition none = .error e ∧
        ¬ DeniesRevision (F := F) (.error e)) ∨
    ∃ fingerprint, k.fingerprint name definition = some fingerprint ∧
      k.validate name definition = some [] ∧
      publish k [] name definition none =
        .ok (firstRevision name definition fingerprint,
          some (Records.put [] (firstRevision name definition fingerprint))) := by
  have hlatest : Records.latest ([] : Records F) name = none := rfl
  unfold publish
  rw [hlatest]
  cases hfingerprint : k.fingerprint name definition with
  | none => exact .inl ⟨rfl, rfl⟩
  | some fingerprint =>
    rcases hvalid : k.validate name definition with _ | _ | ⟨e, es⟩
    · exact .inr (.inl ⟨(fun h => (by cases h)), .unchecked, rfl, id⟩)
    · exact .inr (.inr ⟨fingerprint, rfl, rfl, rfl⟩)
    · exact .inr (.inl ⟨(fun h => (by cases h)), .invalidDefinition (e :: es), rfl, id⟩)

theorem catalog_emptyView (k : Contract F C) :
    EmptyView (catalogFormat k) (fun _ => none) (fun op records => catalogExec k records op)
      DeniesRevision (RefusedPublish k) CreatesRevision where
  ends op r h := by cases h
  answers op hop _ := by
    cases op with
    | publish name definition expected =>
      cases expected with
      | some fingerprint => cases hop
      | none =>
        show ∃ r, commit k (publish k [] name definition none) = .answer r ∧ _
        rcases publish_nil k name definition with
          ⟨-, hpublish⟩ | ⟨-, e, hpublish, hdenies⟩ | ⟨fingerprint, hfingerprint, hvalid, hpublish⟩
        · exact ⟨.error .incompatible, by rw [hpublish]; rfl, id⟩
        · exact ⟨.error e, by rw [hpublish]; rfl, hdenies⟩
        rcases hop with hnone | hinvalid | ⟨other, hother, hdumps⟩
        · rw [hfingerprint] at hnone
          cases hnone
        · exact absurd hvalid hinvalid
        rw [hfingerprint] at hother
        cases hother
        refine ⟨.error .unwritable, ?_, id⟩
        rw [hpublish]
        simp only [commit, hdumps]
    | _ => cases hop
  writes op hop hcreates := by
    cases op with
    | publish name definition expected =>
      cases expected with
      | some fingerprint => cases hcreates
      | none =>
        simp only [RefusedPublish, not_or, not_not] at hop
        obtain ⟨hfingerprint, hvalid, hdumps⟩ := hop
        show ∃ view document r, commit k (publish k [] name definition none) =
          .commit view document r
        rcases publish_nil k name definition with
          ⟨hnone, -⟩ | ⟨hne, -⟩ | ⟨fingerprint, hsome, -, hpublish⟩
        · exact absurd hnone hfingerprint
        · exact absurd hvalid hne
        have hwritable : k.dumps (Records.document
            (Records.put [] (firstRevision name definition fingerprint))) ≠ none :=
          fun hnone => hdumps ⟨fingerprint, hsome, hnone⟩
        obtain ⟨document, hdocument⟩ := Option.ne_none_iff_exists'.mp hwritable
        refine ⟨Records.put [] (firstRevision name definition fingerprint), document,
          .ok (.revision (firstRevision name definition fingerprint)), ?_⟩
        rw [hpublish]
        simp only [commit, hdocument]
    | _ => cases hcreates
  denies op hop hcreates := by
    cases op with
    | publish name definition expected =>
      cases expected with
      | none => exact absurd trivial hcreates
      | some fingerprint =>
        exact ⟨.error (.changed name (some fingerprint) none), rfl, trivial⟩
    | activate name revision expected expectedActive | deprecateRevision name revision expected
    | get name revision =>
      exact ⟨.error (.unknownRevision name revision), rfl, trivial⟩
    | latest name | active name => exact ⟨.ok (.found none), rfl, trivial⟩
    | exportCatalog =>
      exact ⟨.ok (.exported []), by simp [catalogExec, catalogFormat, Records.sorted], trivial⟩

/-! ## Whole runs -/

/-- A run on one object of either class destroys nothing it could not read, denies nothing
because of that, and leaves no trace of a failed write, exactly if it is careful. -/
theorem fileStores_respectful_iff (digest : Json F → Option PyStr) (c : Coercions F)
    (json : JsonText F C) (k : Contract F C) (file : Option C) :
    (∀ run : List (StoreCall F × Faults),
      Respectful (storeFormat c json) (storeEarly digest)
          (fun op view => storeExec digest json view op) DeniesJob False
          (fresh (storeFormat c json) file) run ↔
        Careful (storeFormat c json) (storeEarly digest)
          (fun op view => storeExec digest json view op) (RefusedCreate digest json) CreatesJob
          False (fresh (storeFormat c json) file) run) ∧
    ∀ run : List (CatalogCall F × Faults),
      Respectful (catalogFormat k) (fun _ => none) (fun op records => catalogExec k records op)
          DeniesRevision False (fresh (catalogFormat k) file) run ↔
        Careful (catalogFormat k) (fun _ => none) (fun op records => catalogExec k records op)
          (RefusedPublish k) CreatesRevision False (fresh (catalogFormat k) file) run :=
  ⟨fun run => respectful_iff (store_emptyView digest c json) False _ (fun _ => rfl) False.elim run,
    fun run => respectful_iff (catalog_emptyView k) False _ (fun _ => rfl) False.elim run⟩

/-- Texts that are JSON documents, and one that is none. -/
def sampleText : JsonText ℕ (Option (Json ℕ)) where
  loads content := content
  dumps document := some (some document)

def sampleCoercions : Coercions ℕ where
  str _ := []
  int _ := none
  float _ := none
  bool _ := false

/-- A store on a file that is not JSON reports the failure once; the next `get` denies the
job, and a `create` replaces the file. -/
theorem not_respectful_corrupt :
    ¬ Respectful (storeFormat sampleCoercions sampleText) (storeEarly soloDigest)
      (fun op view => storeExec soloDigest sampleText view op) DeniesJob False
      (fresh (storeFormat sampleCoercions sampleText) (some none))
      [(.get (text "job"), ⟨false, .none⟩), (.get (text "job"), ⟨false, .none⟩),
        (.create (soloDefinition true) soloAdmission, ⟨false, .none⟩)] ∧
    (call (storeFormat sampleCoercions sampleText) (storeEarly soloDigest)
      (fun op view => storeExec soloDigest sampleText view op)
      (.create (soloDefinition true) soloAdmission) ⟨false, .none⟩
      ⟨true, {}, some none⟩).replaced = true := by
  constructor
  · rintro ⟨-, -, hdenied, -⟩
    exact (hdenied (.inr ⟨rfl, rfl⟩)).2 trivial
  · unfold call work
    simp only [storeEarly, storeExec, admitJob, loadedView]
    rw [soloJob_accepted true]
    rfl

end GpuManager.Revisions
