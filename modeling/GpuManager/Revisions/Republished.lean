import GpuManager.Revisions.Reopened

/-!
# Publishing and then activating

`publish` of a definition that is the latest one already returns the record that is there, in
whatever state it is.  A deprecated one cannot be activated; the catalog has no way back from that
but another definition.

* `Tidy`: revisions are stored under their numbers, and at most one of a name is active.  A loaded
  catalog is tidy, and every mutation keeps it so.
* `publish_activates`: in a catalog that was reached from any document, a published record that is
  not deprecated can be activated, and is then the one that is active.
* `republished_not_activated`: a definition that was deprecated and is published again cannot.
-/

namespace GpuManager.Revisions

open PyStr Option PyDict Records

variable {F : Type} {digest : Json F → List (Fin 16)} {name : PyStr} {records next : Records F}
  {l : PyDict ℤ (ServiceRevision F)} {r : ServiceRevision F}

/-- The revisions of a service stand under their numbers, and at most one is active. -/
structure TidyRevisions (name : PyStr) (l : PyDict ℤ (ServiceRevision F)) : Prop where
  nodup : (l.map (·.1)).Nodup
  revision : ∀ p ∈ l, p.2.name = name ∧ p.2.revision = p.1
  active : ∀ p ∈ l, ∀ q ∈ l, p.2.state = .active → q.2.state = .active → p.1 = q.1

def Tidy (records : Records F) : Prop := ∀ name, TidyRevisions name (records.revisions name)

theorem tidyRevisions_nil : TidyRevisions (F := F) name [] :=
  ⟨List.nodup_nil, fun _ h => (by cases h), fun _ h => (by cases h)⟩

/-- A record is put under its number, and no second one becomes active. -/
theorem Tidy.put (h : Tidy records) (hactive : r.state = .active →
    ∀ p ∈ records.revisions r.name, p.2.state = .active → p.1 = r.revision) :
    Tidy (records.put r) := by
  intro name
  rw [revisions_put]
  split
  case isFalse => exact h name
  case isTrue hname =>
    subst hname
    have hl := h r.name
    refine ⟨nodup_set hl.nodup _ _, fun p hp => ?_, fun p hp q hq hpa hqa => ?_⟩
    · rcases mem_set hp with rfl | ⟨hp, -⟩
      · exact ⟨rfl, rfl⟩
      · exact hl.revision p hp
    · rcases mem_set hp with rfl | ⟨hp, -⟩
      · rcases mem_set hq with rfl | ⟨hq, -⟩
        · rfl
        · exact (hactive hpa q hq hqa).symm
      · rcases mem_set hq with rfl | ⟨hq, -⟩
        · exact hactive hqa p hp hpa
        · exact hl.active p hp q hq hpa hqa

variable {revision : ℤ} {expected : Option PyStr} {written : Option (Records F)}

/-- The record of a number has the number and the name. -/
theorem Tidy.get (h : Tidy records) (hr : (records.revisions name).get? revision = some r) :
    r.name = name ∧ r.revision = revision :=
  (h name).revision _ (mem_of_get? hr)

theorem Tidy.active (h : Tidy records) (hr : records.active name = some r) :
    (r.revision, r) ∈ records.revisions name ∧ r.name = name ∧ r.state = .active ∧
      ∀ p ∈ records.revisions name, p.2.state = .active → p.1 = r.revision := by
  unfold Records.active at hr
  have hstate : r.state = .active := by simpa using List.find?_some hr
  obtain ⟨e, he, rfl⟩ := List.mem_map.mp (List.mem_of_find?_eq_some hr)
  obtain ⟨hname, hrevision⟩ := (h name).revision e he
  refine ⟨hrevision ▸ he, hname, hstate, fun p hp hpa => ?_⟩
  exact ((h name).active p hp e he hpa hstate).trans hrevision.symm

theorem Tidy.active_eq (h : Tidy records) (hr : (records.revisions name).get? revision = some r)
    (hstate : r.state = .active) : records.active name = some r := by
  have hmem := mem_of_get? hr
  cases hfound : records.active name with
  | none =>
    have hnone := List.find?_eq_none.mp hfound r (List.mem_map_of_mem hmem)
    exact absurd (decide_eq_true hstate) hnone
  | some r' =>
    obtain ⟨hmem', -, -, honly⟩ := h.active hfound
    have hkey : revision = r'.revision := honly _ hmem hstate
    have hr' : (records.revisions name).get? r'.revision = some r' :=
      get?_eq_some_of_mem (h name).nodup hmem'
    rw [← hkey, hr] at hr'
    exact hr'.symm

/-! ## Activation -/

/-- The catalog without an active peer of the target. -/
def retired (records : Records F) (name : PyStr) (target : ServiceRevision F) : Records F :=
  match records.active name with
  | some peer =>
    if peer.revision ≠ target.revision then records.put { peer with state := .deprecated }
    else records
  | none => records

/-- An activation whose expectations are met, if any. -/
theorem activate_cases {expectedActive : Option PyStr}
    (h : activate records name revision expected expectedActive = .ok (r, written)) :
    ∃ target, records.get name revision = .ok target ∧ r = { target with state := .active } ∧
      written = some ((retired records name target).put r) := by
  unfold activate at h
  split at h
  · cases h
  rename_i target htarget
  simp only at h
  split at h
  · cases h
  split at h
  · cases h
  split at h
  · cases h
  · obtain ⟨rfl, rfl⟩ := Prod.mk.inj (Except.ok.inj h)
    exact ⟨target, htarget, rfl, rfl⟩

variable {target : ServiceRevision F}

theorem activate_eq (hget : records.get name revision = .ok target)
    (hstate : target.state ≠ .deprecated) :
    activate records name revision none none = .ok ({ target with state := .active },
      some ((retired records name target).put { target with state := .active })) := by
  unfold activate
  rw [hget]
  exact if_neg hstate

theorem get_eq_ok (h : records.get name revision = .ok r) :
    (records.revisions name).get? revision = some r := by
  unfold Records.get at h
  split at h
  · rename_i found hfound
    exact Except.ok.inj h ▸ hfound
  · cases h

/-- The peer is deprecated, and nothing else changes: the target is what may be active. -/
structure Retires (records : Records F) (name : PyStr) (target : ServiceRevision F)
    (next : Records F) : Prop where
  tidy : Tidy next
  kept : (next.revisions name).get? target.revision = some target
  only : ∀ p ∈ next.revisions name, p.2.state = .active → p.1 = target.revision
  peer : ∀ peer ∈ records.active name, peer.revision ≠ target.revision →
    (next.revisions name).get? peer.revision = some { peer with state := .deprecated }

/-- Deprecating the active peer leaves the target the only record that may be active. -/
theorem Tidy.retires (h : Tidy records)
    (htarget : (records.revisions name).get? revision = some target) :
    Retires records name target (retired records name target) := by
  obtain ⟨-, rfl⟩ := h.get htarget
  unfold retired
  cases hactive : records.active name with
  | none =>
    refine ⟨h, htarget, fun p hp hpa => ?_, fun peer hpeer => absurd hpeer ?_⟩
    · have hp := get?_eq_some_of_mem (h name).nodup hp
      rw [h.active_eq hp hpa] at hactive
      cases hactive
    · rw [hactive]
      exact not_mem_none _
  | some peer =>
    obtain ⟨hmem, hname, -, honly⟩ := h.active hactive
    simp only
    by_cases hsame : peer.revision = target.revision
    · rw [if_neg (not_not_intro hsame)]
      refine ⟨h, htarget, fun p hp hpa => ?_, fun other hother hne => ?_⟩
      · exact (honly p hp hpa).trans hsame
      rw [hactive] at hother
      obtain rfl := some.inj hother
      exact absurd hsame hne
    · rw [if_pos hsame]
      subst hname
      have hput : ∀ other, (records.put { peer with state := .deprecated }).revisions other =
          if other = peer.name then
            (records.revisions peer.name).set peer.revision { peer with state := .deprecated }
          else records.revisions other := fun other => revisions_put ..
      refine ⟨h.put fun hstate => (by cases hstate), ?_, fun p hp hpa => ?_,
        fun other hother hne => ?_⟩
      · rw [hput, if_pos rfl, get?_set, if_neg (Ne.symm hsame)]
        exact htarget
      · rw [hput, if_pos rfl] at hp
        rcases mem_set hp with rfl | ⟨hp, hne⟩
        · cases hpa
        · exact absurd (honly p hp hpa) hne
      · rw [hactive] at hother
        obtain rfl := some.inj hother
        rw [hput, if_pos rfl, get?_set_self]

/-! ## Reached catalogs -/

theorem publish_cases {C : Type} {k : Contract F C} {definition : Json F}
    (h : publish k records name definition expected = .ok (r, written)) :
    k.fingerprint name definition = some r.fingerprint ∧
      (written = none ∧ records.latest name = some r ∨
        written = some (records.put r) ∧ r.name = name ∧ r.state = .draft ∧
          r.revision = ((records.latest name).map (·.revision)).getD 0 + 1) := by
  unfold publish at h
  simp only at h
  split at h
  · cases h
  split at h
  · cases h
  rename_i candidate hcandidate
  split at h
  · rename_i current hcurrent
    obtain ⟨rfl, rfl⟩ := Prod.mk.inj (Except.ok.inj h)
    obtain ⟨hlatest, hsame⟩ := filter_eq_some_iff.mp hcurrent
    exact ⟨hcandidate.trans (congrArg some (of_decide_eq_true hsame).symm), Or.inl ⟨rfl, hlatest⟩⟩
  · split at h
    · cases h
    · obtain ⟨rfl, rfl⟩ := Prod.mk.inj (Except.ok.inj h)
      exact ⟨hcandidate, Or.inr ⟨rfl, rfl, rfl, rfl⟩⟩
    · cases h

/-- **A mutation** keeps the catalog tidy. -/
theorem Tidy.step (h : Tidy records) {m : Mutation F}
    (hmutate : mutate digest records m = .ok (r, some next)) : Tidy next := by
  cases m with
  | publish name definition expected =>
    obtain ⟨-, ⟨hnone, -⟩ | ⟨hnext, -, hdraft, -⟩⟩ := publish_cases hmutate
    · cases hnone
    · obtain rfl := some.inj hnext
      exact h.put fun hstate => absurd (hdraft.symm.trans hstate) (by decide)
  | activate name revision expected expectedActive =>
    obtain ⟨target, hget, rfl, hnext⟩ := activate_cases hmutate
    obtain rfl := some.inj hnext
    have htarget := get_eq_ok hget
    have hretires := h.retires htarget
    refine hretires.tidy.put fun _ p hp hpa => ?_
    have hname : target.name = name := (h.get htarget).1
    have hp : p ∈ (retired records name target).revisions target.name := hp
    rw [hname] at hp
    exact hretires.only p hp hpa
  | deprecateRevision name revision expected =>
    change deprecateRevision records name revision expected = .ok (r, some next) at hmutate
    unfold deprecateRevision at hmutate
    split at hmutate
    · cases hmutate
    split at hmutate
    · cases hmutate
    split at hmutate
    · cases hmutate
    obtain ⟨-, hnext⟩ := Prod.mk.inj (Except.ok.inj hmutate)
    obtain rfl := some.inj hnext
    exact h.put fun hstate => (by cases hstate)

theorem Tidy.run (h : Tidy records) (steps : List (CatalogStep F)) :
    Tidy (memoryState digest records steps) := by
  induction steps generalizing records with
  | nil => exact h
  | cons step steps ih =>
    cases step with
    | reopen => exact ih h
    | call m =>
      refine ih ?_
      unfold memoryCall
      split
      · exact h
      · exact h
      · rename_i hmutate
        exact h.step hmutate

theorem loadRevisions_tidy {values : List (Json F)} {acc revisions : PyDict ℤ (ServiceRevision F)}
    (h : loadRevisions (catalogContract digest) name values acc = some revisions)
    (hnodup : (acc.map (·.1)).Nodup)
    (hrevision : ∀ p ∈ acc, p.2.name = name ∧ p.2.revision = p.1) :
    (revisions.map (·.1)).Nodup ∧ ∀ p ∈ revisions, p.2.name = name ∧ p.2.revision = p.1 := by
  induction values generalizing acc with
  | nil => exact some.inj h ▸ ⟨hnodup, hrevision⟩
  | cons value values ih =>
    unfold loadRevisions at h
    simp only [bind_eq_bind, bind_eq_some_iff, guard_eq_some',
      exists_and_left, exists_const] at h
    obtain ⟨record, -, hname, hnew, h⟩ := h
    refine ih h ?_ fun p hp => ?_
    · rw [List.map_append, List.nodup_append]
      refine ⟨hnodup, List.nodup_singleton _, fun key hkey key' hkey' heq => ?_⟩
      have hsame : key = record.revision := heq.trans (List.mem_singleton.mp hkey')
      rw [← hsame, isNone_iff_eq_none, ← not_isSome_iff_eq_none,
        get?_isSome] at hnew
      exact hnew hkey
    · rcases List.mem_append.mp hp with hp | hp
      · exact hrevision p hp
      · rw [List.mem_singleton.mp hp]
        exact ⟨hname, rfl⟩

/-- Of the revisions that are read at most one is active. -/
theorem active_of_length
    (h : (l.filter fun e => e.2.state = .active).length ≤ 1) {p q : ℤ × ServiceRevision F}
    (hp : p ∈ l) (hq : q ∈ l) (hpa : p.2.state = .active) (hqa : q.2.state = .active) :
    p = q := by
  have hp' : p ∈ l.filter fun e => e.2.state = .active :=
    List.mem_filter.mpr ⟨hp, decide_eq_true hpa⟩
  have hq' : q ∈ l.filter fun e => e.2.state = .active :=
    List.mem_filter.mpr ⟨hq, decide_eq_true hqa⟩
  generalize (l.filter fun e => e.2.state = .active) = found at h hp' hq'
  match found, h with
  | [], _ => cases hp'
  | [only], _ => exact (List.mem_singleton.mp hp').trans (List.mem_singleton.mp hq').symm

theorem loadServices_tidy {members : List (PyStr × Json F)} {services : Records F}
    (h : loadServices (catalogContract digest) members = some services) :
    ∀ e ∈ services, TidyRevisions e.1 e.2 := by
  induction members generalizing services with
  | nil =>
    obtain rfl := some.inj h
    exact fun e he => (by cases he)
  | cons member members ih =>
    obtain ⟨name, values⟩ := member
    unfold loadServices at h
    cases values with
    | arr items =>
      simp only [bind_eq_bind, bind_eq_some_iff, guard_eq_some',
        exists_and_left, exists_const, pure_def, some.injEq] at h
      obtain ⟨-, items, -, revisions, hload, hactive, rest, hrest, rfl⟩ := h
      obtain ⟨hnodup, hrevision⟩ :=
        loadRevisions_tidy hload List.nodup_nil fun p hp => (by cases hp)
      intro e he
      rcases List.mem_cons.mp he with rfl | he
      · exact ⟨hnodup, hrevision, fun p hp q hq hpa hqa =>
          congrArg Prod.fst (active_of_length hactive hp hq hpa hqa)⟩
      · exact ih hrest e he
    | _ => simp at h

/-- **A loaded catalog** is tidy. -/
theorem tidy_of_document {raw : Json F}
    (h : catalogFromDocument (catalogContract digest) raw = some records) : Tidy records := by
  have hservices : ∀ e ∈ records, TidyRevisions e.1 e.2 := by
    unfold catalogFromDocument at h
    split at h
    · obtain rfl := some.inj h
      exact fun e he => (by cases he)
    split at h
    · cases h
    split at h
    · exact loadServices_tidy h
    · cases h
  intro name
  unfold revisions
  cases hname : records.get? name with
  | none => exact tidyRevisions_nil
  | some l => exact hservices _ (mem_of_get? hname)

/-! ## Publishing and activating -/

/-- What becomes of an activation of a published record: the record is active, with the
fingerprint of the definition, and another one that was active is deprecated. -/
structure ActivatesAs (digest : Json F → List (Fin 16)) (name : PyStr) (definition : Value F)
    (published : ServiceRevision F) (before : Records F)
    (activated : Except CatalogError (ServiceRevision F) × Records F) : Prop where
  succeeds : ∃ r, activated.1 = .ok r ∧ activated.2.active name = some r ∧
    r.revision = published.revision ∧ definition.fingerprint digest name = some r.fingerprint
  retires : ∀ peer ∈ before.active name, peer.revision ≠ published.revision →
    ∃ r ∈ (activated.2.revisions name).get? peer.revision, r.state = .deprecated

/-- The latest record of a name. -/
theorem Tidy.latest (h : Tidy records) (hr : records.latest name = some r) :
    (records.revisions name).get? r.revision = some r ∧
      ∀ key ∈ (records.revisions name).map (·.1), key ≤ r.revision := by
  unfold Records.latest at hr
  simp only at hr
  split at hr
  · cases hr
  rename_i number hnumber
  rw [(h.get hr).2]
  exact ⟨hr, (List.max?_eq_some_iff.mp hnumber).2⟩

/-- The record that `publish` returns is there, and what was active still is. -/
theorem Tidy.published (h : Tidy records) {definition : Value F}
    (hpublish : (memoryCall digest (.publish name definition expected) records).1 = .ok r) :
    let next := (memoryCall digest (.publish name definition expected) records).2
    Tidy next ∧ (next.revisions name).get? r.revision = some r ∧
      definition.fingerprint digest name = some r.fingerprint ∧
      ∀ peer ∈ records.active name, next.active name = some peer := by
  unfold memoryCall at hpublish ⊢
  cases hmutate : mutate digest records (.publish name definition expected) with
  | error e =>
    rw [hmutate] at hpublish
    cases hpublish
  | ok returned =>
    obtain ⟨r', written⟩ := returned
    rw [hmutate] at hpublish
    obtain ⟨hfingerprint, ⟨rfl, hlatest⟩ | ⟨rfl, hname, -, hrevision⟩⟩ := publish_cases hmutate
    · obtain rfl := Except.ok.inj hpublish
      exact ⟨h, (h.latest hlatest).1, hfingerprint, fun peer hpeer => hpeer⟩
    · obtain rfl := Except.ok.inj hpublish
      have hnext := h.step hmutate
      subst hname
      have hput := revisions_put records r' r'.name
      rw [if_pos rfl] at hput
      refine ⟨hnext, ?_, hfingerprint, fun peer hpeer => ?_⟩
      · rw [hput, get?_set_self]
      · -- The new number is above all others, so the active record stays.
        obtain ⟨hmem, -, hstate, -⟩ := h.active hpeer
        have hne : peer.revision ≠ r'.revision := by
          intro hsame
          cases hlatest : records.latest r'.name with
          | none =>
            have hempty : (records.revisions r'.name).map (·.1) = [] := by
              unfold Records.latest at hlatest
              simp only at hlatest
              split at hlatest
              · rename_i hnone
                exact List.max?_eq_none_iff.mp hnone
              rename_i number hnumber
              have hkey := (List.max?_eq_some_iff.mp hnumber).1
              rw [← get?_isSome, hlatest] at hkey
              cases hkey
            rw [List.map_eq_nil_iff.mp hempty] at hmem
            cases hmem
          | some latest =>
            have hle := (h.latest hlatest).2 peer.revision (List.mem_map_of_mem hmem)
            rw [hlatest] at hrevision
            have hrevision : r'.revision = latest.revision + 1 := hrevision
            omega
        have hfound : ((records.put r').revisions r'.name).get? peer.revision = some peer := by
          rw [hput, get?_set, if_neg hne]
          exact get?_eq_some_of_mem (h r'.name).nodup hmem
        exact hnext.active_eq hfound hstate

/-- **Publishing and then activating**, in any catalog that was reached from a document: a
published record that is not deprecated is activated. -/
theorem publish_activates (digest : Json F → List (Fin 16)) (raw : Json F) (start : Records F)
    (hstart : catalogFromDocument (catalogContract digest) raw = some start)
    (steps : List (CatalogStep F)) (name : PyStr) (definition : Value F) (expected : Option PyStr)
    (r : ServiceRevision F)
    (hpublish : (memoryCall digest (.publish name definition expected)
      (memoryState digest start steps)).1 = .ok r) (hstate : r.state ≠ .deprecated) :
    ActivatesAs digest name definition r (memoryState digest start steps)
      (memoryCall digest (.activate name r.revision none none)
        (memoryCall digest (.publish name definition expected)
          (memoryState digest start steps)).2) := by
  have htidy := @Tidy.run F digest start (tidy_of_document hstart) steps
  generalize memoryState digest start steps = before at hpublish htidy ⊢
  obtain ⟨hnext, hkept, hfingerprint, hactive⟩ := htidy.published hpublish
  generalize (memoryCall digest (.publish name definition expected) before).2 = next at *
  have hget : next.get name r.revision = .ok r := by
    unfold Records.get
    rw [hkept]
  have heq : memoryCall digest (.activate name r.revision none none) next =
      (.ok { r with state := .active },
        (retired next name r).put { r with state := .active }) := by
    have hmutate : mutate digest next (.activate name r.revision none none) = _ :=
      activate_eq hget hstate
    unfold memoryCall
    rw [hmutate]
  have hretires := hnext.retires hkept
  obtain ⟨hname, -⟩ := hnext.get hkept
  subst hname
  have hput := revisions_put (retired next r.name r) { r with state := .active } r.name
  rw [if_pos rfl] at hput
  rw [heq]
  refine ⟨⟨_, rfl, ?_, rfl, hfingerprint⟩, fun peer hpeer hne => ?_⟩
  · have hlast : Tidy ((retired next r.name r).put { r with state := .active }) :=
      hretires.tidy.put fun _ => hretires.only
    have hfound : (((retired next r.name r).put { r with state := .active }).revisions
        r.name).get? r.revision = some { r with state := .active } := by
      rw [hput, get?_set_self]
    exact hlast.active_eq hfound rfl
  · refine ⟨{ peer with state := .deprecated }, ?_, rfl⟩
    rw [mem_def, hput, get?_set, if_neg hne]
    exact hretires.peer peer (hactive peer hpeer) hne

/-! ## A definition that is published twice -/

section Republished

variable {definition : Value F} {fingerprint : PyStr}

/-- The one revision of a service. -/
def onlyRevision (name : PyStr) (definition : Value F) (fingerprint : PyStr)
    (state : RevisionState) : ServiceRevision F where
  name := name
  revision := 1
  fingerprint := fingerprint
  state := state
  definition := definition.freeze

def onlyRecords (name : PyStr) (definition : Value F) (fingerprint : PyStr)
    (state : RevisionState) : Records F :=
  [(name, [(1, onlyRevision name definition fingerprint state)])]

/-- The first publication adds a draft. -/
theorem publish_first
    (hfingerprint : definition.fingerprint digest name = some fingerprint)
    (hvalid : validateServiceDefinition name definition.checked = .ok []) :
    memoryCall digest (.publish name definition none) [] =
      (.ok (onlyRevision name definition fingerprint .draft),
        onlyRecords name definition fingerprint .draft) := by
  have hpublish : publish (definition.contract digest) [] name definition.freeze none =
      .ok (onlyRevision name definition fingerprint .draft,
        some (onlyRecords name definition fingerprint .draft)) := by
    simp [publish, Value.contract, hfingerprint, hvalid, Except.toOption, latest, revisions, put,
      PyDict.set, unmet, onlyRevision, onlyRecords]
  simp only [memoryCall, mutate, hpublish]

/-- A second publication returns the revision that is there. -/
theorem publish_again (state : RevisionState)
    (hfingerprint : definition.fingerprint digest name = some fingerprint) :
    memoryCall digest (.publish name definition none)
        (onlyRecords name definition fingerprint state) =
      (.ok (onlyRevision name definition fingerprint state),
        onlyRecords name definition fingerprint state) := by
  have hpublish : publish (definition.contract digest) (onlyRecords name definition fingerprint state)
      name definition.freeze none = .ok (onlyRevision name definition fingerprint state, none) := by
    simp [publish, Value.contract, hfingerprint, latest, revisions, get?_cons, unmet,
      onlyRevision, onlyRecords, filter_some]
  simp only [memoryCall, mutate, hpublish]

theorem deprecate_only :
    memoryCall digest (.deprecateRevision name 1 none)
        (onlyRecords name definition fingerprint .draft) =
      (.ok (onlyRevision name definition fingerprint .deprecated),
        onlyRecords name definition fingerprint .deprecated) := by
  have hdeprecate :
      deprecateRevision (onlyRecords name definition fingerprint .draft) name 1 none =
        .ok (onlyRevision name definition fingerprint .deprecated,
          some (onlyRecords name definition fingerprint .deprecated)) := by
    simp [deprecateRevision, Records.get, Records.put, Records.revisions, PyDict.get?_cons,
      PyDict.set, unmet, onlyRevision, onlyRecords]
  simp only [memoryCall, mutate, hdeprecate]

theorem activate_only :
    (memoryCall digest (.activate name 1 none none)
      (onlyRecords name definition fingerprint .draft)).2 =
        onlyRecords name definition fingerprint .active := by
  have hactivate :
      activate (onlyRecords name definition fingerprint .draft) name 1 none none =
        .ok (onlyRevision name definition fingerprint .active,
          some (onlyRecords name definition fingerprint .active)) := by
    simp [activate, Records.get, Records.put, Records.revisions, Records.active, PyDict.get?_cons,
      PyDict.set, unmet, onlyRevision, onlyRecords]
  simp only [memoryCall, mutate, hactivate]

/-- Another definition becomes the second revision. -/
theorem publish_second {other : Value F} {candidate : PyStr} (state : RevisionState)
    (hcandidate : other.fingerprint digest name = some candidate) (hne : fingerprint ≠ candidate)
    (hvalid : validateServiceDefinition name other.checked = .ok []) :
    (memoryCall digest (.publish name other none)
      (onlyRecords name definition fingerprint state)).1 =
        .ok { onlyRevision name other candidate .draft with revision := 2 } := by
  have hpublish : publish (other.contract digest) (onlyRecords name definition fingerprint state)
      name other.freeze none =
        .ok ({ onlyRevision name other candidate .draft with revision := 2 },
          some ((onlyRecords name definition fingerprint state).put
            { onlyRevision name other candidate .draft with revision := 2 })) := by
    simp [publish, Value.contract, hcandidate, hvalid, Except.toOption, latest,
      revisions, get?_cons, unmet, onlyRevision, onlyRecords, filter_some, hne]
  simp only [memoryCall, mutate, hpublish]

theorem activate_deprecated :
    (memoryCall digest (.activate name 1 none none)
      (onlyRecords name definition fingerprint .deprecated)).1 = .error .deprecatedTarget := by
  have hactivate :
      activate (onlyRecords name definition fingerprint .deprecated) name 1 none none =
        .error .deprecatedTarget := by
    simp [activate, Records.get, Records.revisions, get?_cons, unmet, onlyRevision,
      onlyRecords]
  simp only [memoryCall, mutate, hactivate]

/-- **A definition that is deprecated and published again** is not activated. -/
theorem not_activatesAs_again
    (hfingerprint : definition.fingerprint digest name = some fingerprint)
    (hvalid : validateServiceDefinition name definition.checked = .ok [])
    (hall : ∀ (steps : List (CatalogStep F)) (r : ServiceRevision F),
      (memoryCall digest (.publish name definition none) (memoryState digest [] steps)).1 = .ok r →
      ActivatesAs digest name definition r (memoryState digest [] steps)
        (memoryCall digest (.activate name r.revision none none)
          (memoryCall digest (.publish name definition none)
            (memoryState digest [] steps)).2)) : False := by
  have hstate : memoryState digest [] [.call (.publish name definition none),
      .call (.deprecateRevision name 1 none)] =
        onlyRecords name definition fingerprint .deprecated := by
    simp only [memoryState]
    rw [publish_first hfingerprint hvalid, deprecate_only]
  have hagain := publish_again .deprecated hfingerprint
  have hactivates := hall [.call (.publish name definition none),
    .call (.deprecateRevision name 1 none)] _ (by rw [hstate, hagain])
  rw [hstate, hagain] at hactivates
  obtain ⟨⟨r, hr, -⟩, -⟩ := hactivates
  exact absurd (activate_deprecated.symm.trans hr) (fun h => by cases h)

end Republished

theorem fluxDefinition_fingerprint :
    (fluxDefinition 8080).fingerprint portDigest (text "flux") = some (hexdigest [0]) ∧
      (fluxDefinition 8081).fingerprint portDigest (text "flux") = some (hexdigest [1]) := by
  decide +kernel

theorem fluxDefinition_valid :
    validateServiceDefinition (text "flux") (fluxDefinition 8080).checked = .ok [] ∧
      validateServiceDefinition (text "flux") (fluxDefinition 8081).checked = .ok [] := by
  decide +kernel

/-- A publication and the activation of the revision. -/
def activeSteps : List (CatalogStep ℕ) :=
  [.call (.publish (text "flux") (fluxDefinition 8080) none),
    .call (.activate (text "flux") 1 none none)]

/-- The second revision of a service whose first one is active. -/
theorem publish_activates_second :
    ActivatesAs portDigest (text "flux") (fluxDefinition 8081)
      { onlyRevision (text "flux") (fluxDefinition 8081) (hexdigest [1]) .draft with revision := 2 }
      (memoryState portDigest [] activeSteps)
      (memoryCall portDigest (.activate (text "flux") 2 none none)
        (memoryCall portDigest (.publish (text "flux") (fluxDefinition 8081) none)
          (memoryState portDigest [] activeSteps)).2) :=
  have hactive : memoryState portDigest [] activeSteps =
      onlyRecords (text "flux") (fluxDefinition 8080) (hexdigest [0]) .active := by
    simp only [activeSteps, memoryState]
    rw [publish_first fluxDefinition_fingerprint.1 fluxDefinition_valid.1, activate_only]
  publish_activates portDigest .null [] rfl activeSteps (text "flux") (fluxDefinition 8081) none
    { onlyRevision (text "flux") (fluxDefinition 8081) (hexdigest [1]) .draft with revision := 2 }
    (by
      rw [hactive]
      exact publish_second .active fluxDefinition_fingerprint.2 (by decide) fluxDefinition_valid.2)
    (fun h => by cases h)

/-- The revision of a definition that is deprecated and published again is not activated. -/
theorem republished_not_activated :
    ¬ ∀ (steps : List (CatalogStep ℕ)) (r : ServiceRevision ℕ),
        (memoryCall portDigest (.publish (text "flux") (fluxDefinition 8080) none)
          (memoryState portDigest [] steps)).1 = .ok r →
        ActivatesAs portDigest (text "flux") (fluxDefinition 8080) r
          (memoryState portDigest [] steps)
          (memoryCall portDigest (.activate (text "flux") r.revision none none)
            (memoryCall portDigest (.publish (text "flux") (fluxDefinition 8080) none)
              (memoryState portDigest [] steps)).2) :=
  not_activatesAs_again fluxDefinition_fingerprint.1 fluxDefinition_valid.1

end GpuManager.Revisions
