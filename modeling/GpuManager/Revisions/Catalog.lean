import GpuManager.Lib.FileBacked
import GpuManager.Lib.Json
import GpuManager.Lib.PyDict

/-!
# The service revision catalog

For each service the catalog holds its revisions under their numbers; a revision is a
definition with its fingerprint and a state.  Publishing adds a draft, activating makes one
revision active and deprecates the one that was, deprecating retires a revision; definitions
never change.  `FileServiceRevisionCatalog` writes the whole catalog after every mutation.

`validate_service_definition`, `service_revision_fingerprint` and the JSON texts are
parameters; a definition without a canonical text has no fingerprint, and a validation may raise.
-/

namespace GpuManager.Revisions

open PyStr

variable {F C : Type}

/-- `RevisionState`. -/
inductive RevisionState where
  | draft
  | active
  | deprecated
  deriving DecidableEq

def RevisionState.value : RevisionState → PyStr
  | draft => text "draft"
  | active => text "active"
  | deprecated => text "deprecated"

/-- `RevisionState(value)`. -/
def RevisionState.ofValue (value : PyStr) : Option RevisionState :=
  [draft, active, deprecated].find? fun s => s.value = value

/-- `ServiceRevision`. -/
structure ServiceRevision (F : Type) where
  name : PyStr
  revision : ℤ
  fingerprint : PyStr
  state : RevisionState
  definition : Json F

/-- `self._records`. -/
abbrev Records (F : Type) := PyDict PyStr (PyDict ℤ (ServiceRevision F))

structure Contract (F C : Type) where
  validate : PyStr → Json F → Option (List PyStr)
  fingerprint : PyStr → Json F → Option PyStr
  loads : C → Option (Json F)
  dumps : Json F → Option C

/-- `ServiceRevisionError` and `RevisionConflict`, and an exception of the validation. -/
inductive CatalogError where
  | changed (name : PyStr) (expected observed : Option PyStr)
  | targetFingerprint
  | activeChanged (name : PyStr) (expected observed : Option PyStr)
  | unknownRevision (name : PyStr) (revision : ℤ)
  | deprecatedTarget
  | incompatible
  | invalidDefinition (errors : List PyStr)
  | unchecked
  | unwritable

/-- What a call returns. -/
inductive CatalogAnswer (F : Type) where
  | revision (r : ServiceRevision F)
  | found (r : Option (ServiceRevision F))
  | exported (services : List (PyStr × List (ServiceRevision F)))

/-- A call of the catalog. -/
inductive CatalogCall (F : Type) where
  | publish (name : PyStr) (definition : Json F) (expectedLatest : Option PyStr)
  | activate (name : PyStr) (revision : ℤ) (expected expectedActive : Option PyStr)
  | deprecateRevision (name : PyStr) (revision : ℤ) (expected : Option PyStr)
  | get (name : PyStr) (revision : ℤ)
  | latest (name : PyStr)
  | active (name : PyStr)
  | exportCatalog

/-- `self._records.get(name, {})`. -/
def Records.revisions (records : Records F) (name : PyStr) : PyDict ℤ (ServiceRevision F) :=
  (records.get? name).getD []

/-- `latest`. -/
def Records.latest (records : Records F) (name : PyStr) : Option (ServiceRevision F) :=
  let revisions := records.revisions name
  match (revisions.map (·.1)).max? with
  | none => none
  | some number => revisions.get? number

/-- `active`. -/
def Records.active (records : Records F) (name : PyStr) : Option (ServiceRevision F) :=
  ((records.revisions name).map (·.2)).find? fun r => r.state = .active

/-- `get`. -/
def Records.get (records : Records F) (name : PyStr) (revision : ℤ) :
    Except CatalogError (ServiceRevision F) :=
  match (records.revisions name).get? revision with
  | some r => .ok r
  | none => .error (.unknownRevision name revision)

def Records.put (records : Records F) (record : ServiceRevision F) : Records F :=
  records.set record.name ((records.revisions record.name).set record.revision record)

def unmet (expected observed : Option PyStr) : Bool := expected.isSome && expected ≠ observed

/-- `publish`, up to the write. -/
def publish (k : Contract F C) (records : Records F) (name : PyStr) (definition : Json F)
    (expectedLatest : Option PyStr) :
    Except CatalogError (ServiceRevision F × Option (Records F)) :=
  let current := records.latest name
  let observed := current.map (·.fingerprint)
  if unmet expectedLatest observed then .error (.changed name expectedLatest observed)
  else
    match k.fingerprint name definition with
    | none => .error .incompatible
    | some candidate =>
      match current.filter fun r => r.fingerprint = candidate with
      | some r => .ok (r, none)
      | none =>
        match k.validate name definition with
        | none => .error .unchecked
        | some [] =>
          let record : ServiceRevision F :=
            { name := name, revision := (current.map (·.revision)).getD 0 + 1,
              fingerprint := candidate, state := .draft, definition := definition }
          .ok (record, some (records.put record))
        | some errors => .error (.invalidDefinition errors)

/-- `activate`, up to the write. -/
def activate (records : Records F) (name : PyStr) (revision : ℤ)
    (expected expectedActive : Option PyStr) :
    Except CatalogError (ServiceRevision F × Option (Records F)) :=
  match records.get name revision with
  | .error e => .error e
  | .ok target =>
    if unmet expected (some target.fingerprint) then .error .targetFingerprint
    else
      let current := records.active name
      let observed := current.map (·.fingerprint)
      if unmet expectedActive observed then .error (.activeChanged name expectedActive observed)
      else if target.state = .deprecated then .error .deprecatedTarget
      else
        let retired :=
          match current with
          | some peer =>
            if peer.revision ≠ target.revision then records.put { peer with state := .deprecated }
            else records
          | none => records
        let record := { target with state := .active }
        .ok (record, some (retired.put record))

/-- `deprecate`, up to the write. -/
def deprecateRevision (records : Records F) (name : PyStr) (revision : ℤ) (expected : Option PyStr) :
    Except CatalogError (ServiceRevision F × Option (Records F)) :=
  match records.get name revision with
  | .error e => .error e
  | .ok target =>
    if unmet expected (some target.fingerprint) then .error .targetFingerprint
    else if target.state = .deprecated then .ok (target, none)
    else
      let record := { target with state := .deprecated }
      .ok (record, some (records.put record))

/-- `to_dict`. -/
def ServiceRevision.toDict (r : ServiceRevision F) : Json F :=
  .obj [(text "schema_version", .str (text "service-revision.v1")), (text "name", .str r.name),
    (text "revision", .int r.revision), (text "fingerprint", .str r.fingerprint),
    (text "state", .str r.state.value), (text "definition", r.definition)]

/-- The revisions of each service by number, the services by name. -/
def Records.sorted (records : Records F) : List (PyStr × List (ServiceRevision F)) :=
  (records.map fun e => (e.1, (e.2.mergeSort fun a b => a.1 ≤ b.1).map (·.2))).mergeSort
    fun a b => PyStr.le a.1 b.1

def Records.document (records : Records F) : Json F :=
  .obj [(text "schema_version", .str (text "service-revision-catalog.v1")),
    (text "services", .obj (records.sorted.map fun e =>
      (e.1, .arr (e.2.map ServiceRevision.toDict))))]

/-! ## Reading the file -/

/-- A record of the file that `validate_service_revision` accepts. -/
def revisionOf (k : Contract F C) (value : Json F) : Option (ServiceRevision F) := do
  guard value.isObj
  guard ((value.get "schema_version").str? = some (text "service-revision.v1"))
  let name ← (value.get "name").str?
  guard (name ≠ [])
  let revision ← match value.get "revision" with
    | .int n => if 1 ≤ n then some n else none
    | _ => none
  let definition := value.get "definition"
  guard definition.isObj
  guard (k.validate name definition = some [])
  let state ← (value.get "state").str?.bind RevisionState.ofValue
  let fingerprint ← (value.get "fingerprint").str?
  guard (k.fingerprint name definition = some fingerprint)
  return { name, revision, fingerprint, state, definition }

/-- The revisions of one service of the file, each number once. -/
def loadRevisions (k : Contract F C) (service : PyStr) :
    List (Json F) → PyDict ℤ (ServiceRevision F) → Option (PyDict ℤ (ServiceRevision F))
  | [], revisions => some revisions
  | value :: values, revisions => do
      let record ← revisionOf k value
      guard (record.name = service)
      guard (revisions.get? record.revision).isNone
      loadRevisions k service values (revisions ++ [(record.revision, record)])

/-- The services of the file. -/
def loadServices (k : Contract F C) : List (PyStr × Json F) → Option (Records F)
  | [] => some []
  | (name, values) :: members => do
      guard (name ≠ [])
      let values ← match values with
        | .arr values => some values
        | _ => none
      let revisions ← loadRevisions k name values []
      guard ((revisions.filter fun e => e.2.state = .active).length ≤ 1)
      let services ← loadServices k members
      return (name, revisions) :: services

def catalogFromDocument (k : Contract F C) (raw : Json F) : Option (Records F) :=
  if raw.isNull then some []
  else if (raw.get "schema_version").str? ≠ some (text "service-revision-catalog.v1") then none
  else
    match raw.get "services" with
    | .obj members => loadServices k members
    | _ => none

/-! ## The file catalog -/

def catalogFormat (k : Contract F C) : FileBacked.Format (Records F) C where
  load content := (k.loads content).bind (catalogFromDocument k)
  empty := []

/-- `_commit_locked`: the mutated records are written; where that fails, the records from
before the mutation come back. -/
def commit (k : Contract F C) :
    Except CatalogError (ServiceRevision F × Option (Records F)) →
      FileBacked.Effect (Records F) C (Except CatalogError (CatalogAnswer F))
  | .error e => .answer (.error e)
  | .ok (r, none) => .answer (.ok (.revision r))
  | .ok (r, some next) =>
    match k.dumps next.document with
    | none => .answer (.error .unwritable)
    | some document => .commit next document (.ok (.revision r))

/-- A call on the loaded records. -/
def catalogExec (k : Contract F C) (records : Records F) :
    CatalogCall F → FileBacked.Effect (Records F) C (Except CatalogError (CatalogAnswer F))
  | .publish name definition expected => commit k (publish k records name definition expected)
  | .activate name revision expected expectedActive =>
    commit k (activate records name revision expected expectedActive)
  | .deprecateRevision name revision expected =>
    commit k (deprecateRevision records name revision expected)
  | .get name revision => .answer ((records.get name revision).map .revision)
  | .latest name => .answer (.ok (.found (records.latest name)))
  | .active name => .answer (.ok (.found (records.active name)))
  | .exportCatalog => .answer (.ok (.exported records.sorted))

end GpuManager.Revisions
