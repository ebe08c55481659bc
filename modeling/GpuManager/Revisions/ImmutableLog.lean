import GpuManager.Revisions.Values

/-!
# The catalog as an immutable log

The file catalog is called, and is opened again on its file at any point; the file system works.
A document is represented by the value that `json.loads` makes of what `json.dump` wrote.

* `Log`: the revisions of a service are numbered from 1 on without a gap, at most one is active,
  and each of them passes the checks with which it is read.
* `mutate_grows`: a mutation keeps the log, and whatever was published stays as it is, if what it
  publishes is `Textual`.
* `mutate_agree`: catalogs that differ in the order of keys only answer a mutation alike.

A definition with a surrogate has no fingerprint and is never stored.  One that is stored comes
back, but the reopened catalog takes its fingerprint again, from the frozen copy: if that gives
another text than the value that was published, the file is refused.
-/

namespace GpuManager.Revisions

open PyStr Json FileBacked ServiceRevision List PyDict Records

variable {F : Type} {expected : Option PyStr} {revision : ℤ} {definition : Json F}

inductive Mutation (F : Type) where
  | publish (name : PyStr) (definition : Value F) (expectedLatest : Option PyStr)
  | activate (name : PyStr) (revision : ℤ) (expected expectedActive : Option PyStr)
  | deprecateRevision (name : PyStr) (revision : ℤ) (expected : Option PyStr)

/-- What the mutation publishes has the canonical text of its frozen copy. -/
def Mutation.Textual : Mutation F → Prop
  | publish name definition _ => definition.Textual name
  | _ => True

/-- A mutation, up to the write. -/
def mutate (digest : Json F → List (Fin 16)) (records : Records F) :
    Mutation F → Except CatalogError (ServiceRevision F × Option (Records F))
  | .publish name definition expected =>
    publish (definition.contract digest) records name definition.freeze expected
  | .activate name revision expected expectedActive =>
    activate records name revision expected expectedActive
  | .deprecateRevision name revision expected => deprecateRevision records name revision expected

/-- A mutation, or the reopening of the catalog on its file. -/
inductive CatalogStep (F : Type) where
  | call (m : Mutation F)
  | reopen

/-- The file system works. -/
def noFaults : Faults := ⟨false, .none⟩

section Runs

variable (digest : Json F → List (Fin 16))

/-- A call of the file catalog. -/
def fileCall (m : Mutation F) (h : Handle (Records F) (Json F)) :
    Outcome (Records F) (Json F) (Except CatalogError (CatalogAnswer F)) :=
  call (catalogFormat (catalogContract digest)) (fun _ => none)
    (fun m records => commit (catalogContract digest) (mutate digest records m)) m noFaults h

/-- A new object on the file. -/
def reopened (h : Handle (Records F) (Json F)) : Handle (Records F) (Json F) :=
  fresh (catalogFormat (catalogContract digest)) h.file

/-- The replies of the file catalog. -/
def fileRun : Handle (Records F) (Json F) → List (CatalogStep F) →
    List (Reply (Except CatalogError (CatalogAnswer F)))
  | _, [] => []
  | h, .reopen :: steps => fileRun (reopened digest h) steps
  | h, .call m :: steps => (fileCall digest m h).reply :: fileRun (fileCall digest m h).next steps

/-- The file catalog after a run. -/
def fileAfter : Handle (Records F) (Json F) → List (CatalogStep F) → Handle (Records F) (Json F)
  | h, [] => h
  | h, .reopen :: steps => fileAfter (reopened digest h) steps
  | h, .call m :: steps => fileAfter (fileCall digest m h).next steps

/-- The records that the file catalog works on after a run from no file. -/
def fileState (steps : List (CatalogStep F)) : Option (Records F) :=
  loadedView (catalogFormat (catalogContract digest)) (fileAfter digest
    (fresh (catalogFormat (catalogContract digest)) none) steps) noFaults

/-- A call of the catalog in memory. -/
def memoryCall (m : Mutation F) (records : Records F) :
    Except CatalogError (ServiceRevision F) × Records F :=
  match mutate digest records m with
  | .error e => (.error e, records)
  | .ok (r, none) => (.ok r, records)
  | .ok (r, some next) => (.ok r, next)

/-- The replies of the catalog in memory, which is not restarted. -/
def memoryRun : Records F → List (CatalogStep F) → List (Except CatalogError (ServiceRevision F))
  | _, [] => []
  | records, .reopen :: steps => memoryRun records steps
  | records, .call m :: steps =>
    (memoryCall digest m records).1 :: memoryRun (memoryCall digest m records).2 steps

def memoryState : Records F → List (CatalogStep F) → Records F
  | records, [] => records
  | records, .reopen :: steps => memoryState records steps
  | records, .call m :: steps => memoryState (memoryCall digest m records).2 steps

end Runs

/-! ## What is claimed of a run -/

/-- Two replies are the same JSON, or the same error. -/
def SameReply : Reply (Except CatalogError (CatalogAnswer F)) →
    Except CatalogError (ServiceRevision F) → Prop
  | .answered (.ok (.revision r)), .ok r' => sortKeys r.toDict = sortKeys r'.toDict
  | .answered (.error e), .error e' => e = e'
  | _, _ => False

/-- The numbers from 1 to `n`. -/
def numbers (n : ℕ) : List ℤ := (List.range n).map fun i : ℕ => (i : ℤ) + 1

/-- The revisions of a name are 1 to n, and at most one of them is active. -/
def InOrder (records : Records F) : Prop :=
  ∀ name, (records.revisions name).map (·.1) = numbers (records.revisions name).length ∧
    ∀ p ∈ records.revisions name, ∀ q ∈ records.revisions name,
      p.2.state = .active → q.2.state = .active → p.1 = q.1

/-- What was published is still there: with its fingerprint and its definition, and deprecated if it
was. -/
def Persists (records records' : Records F) : Prop :=
  ∀ name revision r, (records.revisions name).get? revision = some r →
    ∃ r', (records'.revisions name).get? revision = some r' ∧ r'.fingerprint = r.fingerprint ∧
      sortKeys r'.definition = sortKeys r.definition ∧
      (r.state = .deprecated → r'.state = .deprecated)

/-- An immutable log: its states are in order, and each persists in all later ones. -/
structure ImmutableLog (state : List (CatalogStep F) → Option (Records F))
    (steps : List (CatalogStep F)) : Prop where
  inOrder : ∀ before, before <+: steps → ∃ records, state before = some records ∧ InOrder records
  persists : ∀ before after, before <+: after → after <+: steps → ∀ records records',
    state before = some records → state after = some records' → Persists records records'

/-! ## Numbers -/

theorem numbers_succ (n : ℕ) : numbers (n + 1) = numbers n ++ [(n : ℤ) + 1] := by
  unfold numbers
  rw [range_succ, map_append]
  rfl

theorem mem_numbers {k : ℤ} {n : ℕ} : k ∈ numbers n ↔ 1 ≤ k ∧ k ≤ n := by
  unfold numbers
  rw [mem_map]
  constructor
  · rintro ⟨i, hi, rfl⟩
    rw [mem_range] at hi
    omega
  · rintro ⟨hlow, hhigh⟩
    exact ⟨(k - 1).toNat, by rw [mem_range]; omega, by omega⟩

theorem numbers_nodup (n : ℕ) : (numbers n).Nodup :=
  Nodup.map (fun i j h => by omega) nodup_range

theorem numbers_sorted (n : ℕ) : (numbers n).Pairwise (· ≤ ·) := by
  refine pairwise_map.mpr (pairwise_lt_range.imp fun h => ?_)
  omega

/-- The last number. -/
theorem max?_numbers (n : ℕ) : (numbers n).max? = if n = 0 then none else some (n : ℤ) := by
  by_cases hn : n = 0
  · subst hn
    rfl
  · rw [if_neg hn, List.max?_eq_some_iff]
    exact ⟨mem_numbers.mpr (by omega), fun k hk => (mem_numbers.mp hk).2⟩

/-! ## Logs -/

section Logs

variable {digest : Json F → List (Fin 16)} {name : PyStr} {l : PyDict ℤ (ServiceRevision F)}
  {key : ℤ} {r r' : ServiceRevision F} {records next : Records F}

/-- A revision that passes the checks with which it is read. -/
structure Stored (digest : Json F → List (Fin 16)) (name : PyStr) (r : ServiceRevision F) :
    Prop where
  named : r.name = name
  fingerprint : (catalogContract digest).fingerprint name r.definition = some r.fingerprint
  valid : validateServiceDefinition name r.definition = .ok []

/-- The revisions of a service. -/
structure Log (digest : Json F → List (Fin 16)) (name : PyStr)
    (l : PyDict ℤ (ServiceRevision F)) : Prop where
  numbers : l.map (·.1) = numbers l.length
  revision : ∀ p ∈ l, p.2.revision = p.1
  stored : ∀ p ∈ l, Stored digest name p.2
  active : ∀ p ∈ l, ∀ q ∈ l, p.2.state = .active → q.2.state = .active → p.1 = q.1

theorem Log.nodup (h : Log digest name l) : (l.map (·.1)).Nodup := h.numbers ▸ numbers_nodup _

theorem log_nil : Log digest name [] :=
  ⟨rfl, fun _ h => (by cases h), fun _ h => (by cases h), fun _ h => (by cases h)⟩

/-- The members after the revision of a key was replaced. -/
theorem mem_set {p : ℤ × ServiceRevision F} (hp : p ∈ l.set key r) :
    p = (key, r) ∨ p ∈ l ∧ p.1 ≠ key := by
  unfold PyDict.set at hp
  split at hp
  · obtain ⟨q, hq, rfl⟩ := mem_map.mp hp
    by_cases hkey : q.1 = key
    · rw [if_pos hkey]
      exact Or.inl rfl
    · rw [if_neg hkey]
      exact Or.inr ⟨hq, hkey⟩
  · rename_i hnew
    rcases mem_append.mp hp with hq | hq
    · refine Or.inr ⟨hq, fun hkey => hnew ?_⟩
      exact any_eq_true.mpr ⟨p, hq, decide_eq_true hkey⟩
    · exact Or.inl (mem_singleton.mp hq)

/-- Replacing the revision of a key keeps the keys. -/
theorem keys_set (hkey : l.get? key = some r) :
    (l.set key r').map (·.1) = l.map (·.1) := by
  have hany : l.any (fun e => e.1 = key) = true := by
    rw [PyDict.any_iff, hkey]
    rfl
  unfold PyDict.set
  rw [if_pos hany, map_map]
  refine map_congr_left fun e _ => ?_
  by_cases he : e.1 = key <;> simp [he]

/-- A revision in another state. -/
structure Restated (r r' : ServiceRevision F) : Prop where
  name : r'.name = r.name
  revision : r'.revision = r.revision
  fingerprint : r'.fingerprint = r.fingerprint
  definition : r'.definition = r.definition

theorem restated (r : ServiceRevision F) (state : RevisionState) :
    Restated r { r with state := state } := ⟨rfl, rfl, rfl, rfl⟩

/-- A revision changes its state, and no second one becomes active. -/
theorem Log.restate (h : Log digest name l) (hkey : l.get? key = some r) (hrestated : Restated r r')
    (hactive : r'.state = .active → ∀ p ∈ l, p.2.state = .active → p.1 = key) :
    Log digest name (l.set key r') := by
  have hmem := mem_of_get? hkey
  have hlength : (l.set key r').length = l.length := by
    rw [← length_map (fun e : ℤ × ServiceRevision F => e.1), keys_set hkey, length_map]
  refine ⟨?_, fun p hp => ?_, fun p hp => ?_, fun p hp q hq hpa hqa => ?_⟩
  · rw [keys_set hkey, hlength]
    exact h.numbers
  · rcases mem_set hp with rfl | ⟨hp, -⟩
    · exact hrestated.revision.trans (h.revision _ hmem)
    · exact h.revision p hp
  · rcases mem_set hp with rfl | ⟨hp, -⟩
    · have hstored := h.stored _ hmem
      refine ⟨hrestated.name.trans hstored.named, ?_, ?_⟩
      · show (catalogContract digest).fingerprint name r'.definition = some r'.fingerprint
        rw [hrestated.definition, hrestated.fingerprint]
        exact hstored.fingerprint
      · show validateServiceDefinition name r'.definition = .ok []
        rw [hrestated.definition]
        exact hstored.valid
    · exact h.stored p hp
  · rcases mem_set hp with rfl | ⟨hp, -⟩
    · rcases mem_set hq with rfl | ⟨hq, -⟩
      · rfl
      · exact (hactive hpa q hq hqa).symm
    · rcases mem_set hq with rfl | ⟨hq, -⟩
      · exact hactive hqa p hp hpa
      · exact h.active p hp q hq hpa hqa

theorem Log.append (h : Log digest name l) (hstored : Stored digest name r)
    (hrevision : r.revision = (l.length : ℤ) + 1) (hstate : r.state ≠ .active) :
    l.set r.revision r = l ++ [(r.revision, r)] ∧ Log digest name (l ++ [(r.revision, r)]) := by
  have hnew : ¬ l.any (fun e => e.1 = r.revision) = true := by
    rw [PyDict.any_iff, PyDict.get?_isSome, h.numbers, mem_numbers]
    omega
  refine ⟨?_, ?_, fun p hp => ?_, fun p hp => ?_, fun p hp q hq hpa hqa => ?_⟩
  · unfold PyDict.set
    rw [if_neg hnew]
  · rw [map_append, h.numbers, length_append, length_singleton, numbers_succ,
      ← hrevision]
    rfl
  · rcases mem_append.mp hp with hp | hp
    · exact h.revision p hp
    · rw [mem_singleton.mp hp]
  · rcases mem_append.mp hp with hp | hp
    · exact h.stored p hp
    · rw [mem_singleton.mp hp]
      exact hstored
  · rcases mem_append.mp hp with hp | hp
    · rcases mem_append.mp hq with hq | hq
      · exact h.active p hp q hq hpa hqa
      · rw [mem_singleton.mp hq] at hqa
        exact absurd hqa hstate
    · rw [mem_singleton.mp hp] at hpa
      exact absurd hpa hstate

/-- The catalog consists of logs. -/
structure Sound (digest : Json F → List (Fin 16)) (records : Records F) : Prop where
  services : (records.map (·.1)).Nodup
  named : ∀ e ∈ records, PyStr.isId e.1 = true
  log : ∀ name, Log digest name (records.revisions name)

theorem sound_nil : Sound digest ([] : Records F) :=
  ⟨nodup_nil, fun _ h => (by cases h), fun _ => log_nil⟩

theorem revisions_put (records : Records F) (r : ServiceRevision F) (name : PyStr) :
    (records.put r).revisions name =
      if name = r.name then (records.revisions r.name).set r.revision r
      else records.revisions name := by
  show (PyDict.get? (PyDict.set records _ _) name).getD [] = _
  rw [PyDict.get?_set]
  by_cases hname : name = r.name
  · rw [if_pos hname, if_pos hname]
    rfl
  · rw [if_neg hname, if_neg hname]
    rfl

/-- A revision is put into the log of its service. -/
theorem Sound.put (h : Sound digest records) (hname : PyStr.isId r.name = true)
    (hlog : Log digest r.name ((records.revisions r.name).set r.revision r)) :
    Sound digest (records.put r) := by
  refine ⟨PyDict.nodup_set h.services _ _, fun e he => ?_, fun name => ?_⟩
  · have hkey : e.1 ∈ (records.put r).map (·.1) := mem_map_of_mem he
    rw [← PyDict.get?_isSome] at hkey
    change (PyDict.get? (PyDict.set records _ _) e.1).isSome = true at hkey
    rw [PyDict.get?_set] at hkey
    split at hkey
    case isTrue hnew => exact hnew ▸ hname
    case isFalse =>
      rw [PyDict.get?_isSome, mem_map] at hkey
      obtain ⟨e', he', heq⟩ := hkey
      exact heq ▸ h.named e' he'
  · rw [revisions_put]
    split
    case isTrue hnew => exact hnew ▸ hlog
    case isFalse => exact h.log name

theorem Sound.isId (h : Sound digest records) (hr : (records.revisions name).get? key = some r) :
    PyStr.isId name = true := by
  unfold revisions at hr
  cases hname : records.get? name with
  | none =>
    rw [hname] at hr
    cases hr
  | some l => exact h.named _ (mem_of_get? hname)

theorem Persists.refl (records : Records F) : Persists records records :=
  fun _ _ r hr => ⟨r, hr, rfl, rfl, id⟩

theorem Persists.trans {last : Records F} (h : Persists records next) (h' : Persists next last) :
    Persists records last := by
  intro name revision r hr
  obtain ⟨r', hr', hfingerprint, hdefinition, hstate⟩ := h name revision r hr
  obtain ⟨r'', hr'', hfingerprint', hdefinition', hstate'⟩ := h' name revision r' hr'
  exact ⟨r'', hr'', hfingerprint'.trans hfingerprint, hdefinition'.trans hdefinition,
    hstate' ∘ hstate⟩

theorem isId_of_valid
    (h : validateServiceDefinition name definition = .ok []) : PyStr.isId name = true := by
  by_contra hname
  unfold validateServiceDefinition at h
  simp only [if_neg hname] at h
  split at h
  · cases h
  split at h
  · cases h
  cases hworkflow : workflowErrors definition with
  | error e | ok workflow =>
    rw [hworkflow] at h
    cases h

structure Grows (digest : Json F → List (Fin 16)) (records next : Records F) : Prop where
  sound : Sound digest next
  persists : Persists records next
  length : ∀ name, (next.revisions name).length ≤ (records.revisions name).length + 1

/-- A revision is put back in another state, deprecated if it was. -/
theorem Sound.restate (h : Sound digest records) (hr : (records.revisions name).get? r.revision =
      some r) (hrestated : Restated r r') (hdeprecated : r.state = .deprecated →
        r'.state = .deprecated)
    (hactive : r'.state = .active → ∀ p ∈ records.revisions name, p.2.state = .active →
      p.1 = r.revision) :
    Sound digest (records.put r') ∧ Persists records (records.put r') ∧
      (∀ other, (records.put r').revisions other = if other = name then
        (records.revisions name).set r.revision r' else records.revisions other) := by
  have hname : r'.name = name :=
    hrestated.name.trans ((h.log name).stored _ (mem_of_get? hr)).named
  have hput : ∀ other, (records.put r').revisions other = if other = name then
      (records.revisions name).set r.revision r' else records.revisions other := fun other => by
    rw [revisions_put, hname, hrestated.revision]
  refine ⟨h.put (hname ▸ h.isId hr) ?_, fun other revision old hold => ?_, hput⟩
  · rw [hname, hrestated.revision]
    exact (h.log name).restate hr hrestated hactive
  · rw [hput]
    split
    case isFalse => exact ⟨old, hold, rfl, rfl, id⟩
    case isTrue hother =>
      subst hother
      rw [get?_set]
      split
      case isFalse => exact ⟨old, hold, rfl, rfl, id⟩
      case isTrue hrevision =>
        rw [hrevision, hr] at hold
        obtain rfl := Option.some.inj hold
        exact ⟨r', rfl, hrestated.fingerprint, congrArg sortKeys hrestated.definition,
          hdeprecated⟩

/-- The latest revision has the number of revisions. -/
theorem Sound.latest (h : Sound digest records) (name : PyStr) :
    (records.latest name = none ∧ records.revisions name = []) ∨
      ∃ r, records.latest name = some r ∧
        r.revision = ((records.revisions name).length : ℤ) ∧
        (records.revisions name).get? r.revision = some r := by
  have hlog := h.log name
  unfold Records.latest
  simp only [hlog.numbers, max?_numbers]
  by_cases hempty : (records.revisions name).length = 0
  · rw [if_pos hempty]
    exact Or.inl ⟨rfl, length_eq_zero_iff.mp hempty⟩
  rw [if_neg hempty]
  have hmem : ((records.revisions name).length : ℤ) ∈ (records.revisions name).map (·.1) := by
    rw [hlog.numbers, mem_numbers]
    omega
  obtain ⟨p, hp, hkey⟩ := mem_map.mp hmem
  have hget := get?_eq_some_of_mem hlog.nodup hp
  have hrevision := hlog.revision p hp
  rw [hkey] at hget hrevision
  exact Or.inr ⟨p.2, hget, hrevision, hrevision ▸ hget⟩

/-- What is accepted of a value passes, in its frozen copy, the checks with which it is read. -/
structure Respects {C : Type} (k : Contract F C) (digest : Json F → List (Fin 16)) (name : PyStr)
    (definition : Json F) : Prop where
  fingerprint : ∀ candidate, k.fingerprint name definition = some candidate →
    k.validate name definition = some [] →
    (catalogContract digest).fingerprint name definition = some candidate
  valid : k.validate name definition = some [] → validateServiceDefinition name definition = .ok []

/-- So does a publication. -/
theorem publish_grows {C : Type} {k : Contract F C} (h : Sound digest records)
    (hk : Respects k digest name definition)
    (hpublish : publish k records name definition expected = .ok (r, some next)) :
    Grows digest records next := by
  unfold publish at hpublish
  simp only at hpublish
  split at hpublish
  · cases hpublish
  split at hpublish
  · cases hpublish
  rename_i candidate hcandidate
  split at hpublish
  · cases hpublish
  split at hpublish
  · cases hpublish
  · rename_i hvalid
    obtain ⟨hr, hnext⟩ := Prod.mk.inj (Except.ok.inj hpublish)
    obtain rfl := Option.some.inj hnext
    rw [hr]
    have hlength : ((records.latest name).map (·.revision)).getD 0 =
        ((records.revisions name).length : ℤ) := by
      rcases h.latest name with ⟨hnone, hempty⟩ | ⟨current, hsome, hrevision, -⟩
      · rw [hnone, hempty]
        rfl
      · rw [hsome]
        exact hrevision
    have hname : r.name = name := by rw [← hr]
    have hrevision : r.revision = ((records.revisions name).length : ℤ) + 1 := by
      rw [← hr]
      exact congrArg (· + 1) hlength
    have hok := hk.valid hvalid
    have hstored : Stored digest name r := by
      rw [← hr]
      exact ⟨rfl, hk.fingerprint _ hcandidate hvalid, hok⟩
    have hdraft : r.state ≠ .active := by
      rw [← hr]
      exact fun hactive => (by cases hactive)
    obtain ⟨hset, hlog⟩ := (h.log name).append hstored hrevision hdraft
    have hput : ∀ other, (records.put r).revisions other = if other = name then
        records.revisions name ++ [(r.revision, r)] else records.revisions other := fun other => by
      rw [revisions_put, hname, hset]
    refine ⟨h.put (hname ▸ isId_of_valid hok) ?_, fun other revision old hold => ?_, fun other => ?_⟩
    · rw [hname, hset]
      exact hlog
    · refine ⟨old, ?_, rfl, rfl, id⟩
      rw [hput]
      split
      case isFalse => exact hold
      case isTrue hother =>
        subst hother
        rw [get?_append, hold]
        rfl
    · rw [hput]
      split
      case isFalse => exact Nat.le_succ _
      case isTrue hother =>
        subst hother
        rw [length_append]
        exact le_rfl
  · cases hpublish

theorem get_ok (hget : records.get name revision = .ok r) :
    (records.revisions name).get? revision = some r := by
  unfold Records.get at hget
  split at hget
  · rename_i hfound
    rw [hfound, Except.ok.inj hget]
  · cases hget

theorem length_set (hkey : l.get? key = some r) : (l.set key r').length = l.length := by
  rw [← length_map (fun e : ℤ × ServiceRevision F => e.1), keys_set hkey, length_map]

/-- A deprecation keeps what was published. -/
theorem deprecate_grows (h : Sound digest records)
    (hdeprecate : deprecateRevision records name revision expected = .ok (r, some next)) :
    Grows digest records next := by
  unfold deprecateRevision at hdeprecate
  split at hdeprecate
  · cases hdeprecate
  rename_i target hget
  split at hdeprecate
  · cases hdeprecate
  split at hdeprecate
  · cases hdeprecate
  obtain ⟨-, hnext⟩ := Prod.mk.inj (Except.ok.inj hdeprecate)
  obtain rfl := Option.some.inj hnext
  have htarget := get_ok hget
  have hrevision : target.revision = revision :=
    (h.log name).revision _ (mem_of_get? htarget)
  rw [← hrevision] at htarget
  obtain ⟨hsound, hpersists, hput⟩ := h.restate htarget (restated target .deprecated)
    (fun _ => rfl) (fun hactive => (by cases hactive))
  refine ⟨hsound, hpersists, fun other => ?_⟩
  rw [hput]
  split
  case isTrue hother =>
    subst hother
    rw [length_set htarget]
    exact Nat.le_succ _
  case isFalse => exact Nat.le_succ _

theorem active_some {current : ServiceRevision F} (h : Sound digest records)
    (hactive : records.active name = some current) :
    (records.revisions name).get? current.revision = some current ∧ current.state = .active ∧
      ∀ p ∈ records.revisions name, p.2.state = .active → p.1 = current.revision := by
  unfold active at hactive
  have hlog := h.log name
  obtain ⟨p, hp, rfl⟩ := mem_map.mp (mem_of_find?_eq_some hactive)
  have hstate : p.2.state = .active := by simpa using List.find?_some hactive
  have hrevision := hlog.revision p hp
  refine ⟨?_, hstate, fun q hq hqa => ?_⟩
  · rw [hrevision]
    exact get?_eq_some_of_mem hlog.nodup hp
  · rw [hrevision]
    exact hlog.active q hq p hp hqa hstate

theorem active_none (hactive : records.active name = none) :
    ∀ p ∈ records.revisions name, p.2.state ≠ .active := by
  intro p hp hstate
  have hnot := List.find?_eq_none.mp hactive p.2 (mem_map_of_mem hp)
  exact hnot (decide_eq_true hstate)

/-- An activation only extends the immutable log. -/
theorem activate_grows (h : Sound digest records) {expectedActive : Option PyStr}
    (hactivate : activate records name revision expected expectedActive = .ok (r, some next)) :
    Grows digest records next := by
  unfold activate at hactivate
  split at hactivate
  · cases hactivate
  rename_i target hget
  split at hactivate
  · cases hactivate
  simp only at hactivate
  split at hactivate
  · cases hactivate
  split at hactivate
  · cases hactivate
  rename_i hlive
  obtain ⟨-, hnext⟩ := Prod.mk.inj (Except.ok.inj hactivate)
  obtain rfl := Option.some.inj hnext
  have htarget := get_ok hget
  have hrevision : target.revision = revision :=
    (h.log name).revision _ (mem_of_get? htarget)
  rw [← hrevision] at htarget
  -- What is there once the active peer, if there is one, has been retired.
  have hretired : ∀ retired : Records F, Sound digest retired → Persists records retired →
      (∀ other, (retired.revisions other).length = (records.revisions other).length) →
      (retired.revisions name).get? target.revision = some target →
      (∀ p ∈ retired.revisions name, p.2.state = .active → p.1 = target.revision) →
      Grows digest records (retired.put { target with state := .active }) := by
    intro retired hsound hpersists hlength htarget hothers
    obtain ⟨hsound', hpersists', hput⟩ := hsound.restate htarget (restated target .active)
      (fun hdeprecated => absurd hdeprecated hlive) (fun _ => hothers)
    refine ⟨hsound', hpersists.trans hpersists', fun other => ?_⟩
    rw [hput]
    split
    case isTrue hother =>
      subst hother
      rw [length_set htarget, hlength]
      exact Nat.le_succ _
    case isFalse =>
      rw [hlength]
      exact Nat.le_succ _
  cases hactive : records.active name with
  | none =>
    exact hretired records h (Persists.refl _) (fun _ => rfl) htarget
      fun p hp hstate => absurd hstate (active_none hactive p hp)
  | some peer =>
    obtain ⟨hpeer, hstate, honly⟩ := active_some h hactive
    simp only
    by_cases hsame : peer.revision = target.revision
    · rw [if_neg (not_not_intro hsame)]
      exact hretired records h (Persists.refl _) (fun _ => rfl) htarget
        fun p hp hpa => (honly p hp hpa).trans hsame
    · rw [if_pos hsame]
      obtain ⟨hsound, hpersists, hput⟩ := h.restate hpeer (restated peer .deprecated)
        (fun _ => rfl) (fun hactive => (by cases hactive))
      refine hretired _ hsound hpersists (fun other => ?_) ?_ fun p hp hpa => ?_
      · rw [hput]
        split
        case isTrue hother =>
          subst hother
          exact length_set hpeer
        case isFalse => rfl
      · rw [hput, if_pos rfl, get?_set, if_neg (Ne.symm hsame)]
        exact htarget
      · rw [hput, if_pos rfl] at hp
        rcases mem_set hp with rfl | ⟨hp, hne⟩
        · cases hpa
        · exact absurd (honly p hp hpa) hne

theorem toOption_eq_some {errors : Except TypeError (List PyStr)}
    (h : errors.toOption = some []) : errors = .ok [] := by
  cases errors with
  | error e => cases h
  | ok errors => exact congrArg Except.ok (Option.some.inj h)

/-- `env_overrides` is an object of a valid definition. -/
theorem overrides_of_valid (h : validateServiceDefinition name definition = .ok []) :
    (definition.get? "env_overrides").any overridesWrong = false := by
  unfold validateServiceDefinition at h
  dsimp only at h
  split at h
  · exact absurd (append_eq_nil_iff.mp (Except.ok.inj h)).2 (cons_ne_nil _ _)
  split at h
  · cases h
  cases hworkflow : workflowErrors definition with
  | error e =>
    rw [hworkflow] at h
    cases h
  | ok workflow =>
    rw [hworkflow] at h
    have hfields := (append_eq_nil_iff.mp (Except.ok.inj h)).2
    simp only [fieldErrors, append_eq_nil_iff, and_assoc] at hfields
    by_contra hwrong
    have hfault := hfields.2.2.2.1
    unfold fault at hfault
    rw [if_pos (by simpa using hwrong)] at hfault
    exact cons_ne_nil _ _ hfault

/-- A value that is valid as it was published is valid when it is frozen. -/
theorem valid_freeze {value : Value F} (h : validateServiceDefinition name value.checked = .ok []) :
    validateServiceDefinition name value.freeze = .ok [] := by
  unfold Value.checked at h
  split at h
  next members frozen hfrozen =>
    split at h
    · split at h
      · rwa [hfrozen]
      · have hnull : (Json.obj (set frozen (text "env_overrides") .null)).get?
            "env_overrides" = some .null := get?_set_self ..
        have hright := overrides_of_valid h
        rw [hnull] at hright
        cases hright
    · rwa [hfrozen]
  · exact h

/-- A textual value is accepted only if its frozen copy is. -/
theorem Value.Textual.respects {value : Value F} (h : value.Textual name) :
    Respects (value.contract digest) digest name value.freeze where
  fingerprint candidate hcandidate hvalid := by
    obtain ⟨document, hdocument, rfl⟩ := Option.map_eq_some_iff.mp hcandidate
    exact Option.map_eq_some_iff.mpr ⟨document, h document hdocument (toOption_eq_some hvalid), rfl⟩
  valid hvalid := valid_freeze (toOption_eq_some hvalid)

/-- **A mutation** keeps the logs and whatever was published. -/
theorem mutate_grows (h : Sound digest records) {m : Mutation F} (hm : m.Textual)
    (hmutate : mutate digest records m = .ok (r, some next)) : Grows digest records next := by
  cases m with
  | publish name definition expected => exact publish_grows h (Value.Textual.respects hm) hmutate
  | activate name revision expected expectedActive => exact activate_grows h hmutate
  | deprecateRevision name revision expected => exact deprecate_grows h hmutate

end Logs

/-! ## Catalogs that agree -/

section Agreement

variable {digest : Json F → List (Fin 16)} {records records' : Records F} {r r' : ServiceRevision F}

/-- A revision with the keys of its definition in order. -/
def ServiceRevision.normal (r : ServiceRevision F) : ServiceRevision F :=
  { r with definition := sortKeys r.definition }

def normals (l : PyDict ℤ (ServiceRevision F)) : PyDict ℤ (ServiceRevision F) :=
  l.map fun e => (e.1, e.2.normal)

/-- Two catalogs differ in the order of the services and of the keys of definitions only. -/
def Agree (records records' : Records F) : Prop :=
  ∀ name, normals (records.revisions name) = normals (records'.revisions name)

/-- What is the same of two revisions with the same normal form. -/
theorem fields_of_normal (h : r.normal = r'.normal) :
    r.name = r'.name ∧ r.revision = r'.revision ∧ r.fingerprint = r'.fingerprint ∧
      r.state = r'.state ∧ sortKeys r.definition = sortKeys r'.definition := by
  have hname := congrArg name h
  have hrevision := congrArg revision h
  have hfingerprint := congrArg fingerprint h
  have hstate := congrArg state h
  have hdefinition := congrArg definition h
  exact ⟨hname, hrevision, hfingerprint, hstate, hdefinition⟩

/-- Two revisions with the same normal form, in the same state. -/
theorem normal_restate (h : r.normal = r'.normal) (state : RevisionState) :
    normal { r with state := state } =
      normal { r' with state := state } :=
  congrArg (fun r : ServiceRevision F => { r with state := state }) h

theorem normal_cases {o o' : Option (ServiceRevision F)}
    (h : o.map normal = o'.map normal) :
    (o = none ∧ o' = none) ∨ ∃ r r', o = some r ∧ o' = some r' ∧ r.normal = r'.normal := by
  cases o with
  | none =>
    cases o' with
    | none => exact Or.inl ⟨rfl, rfl⟩
    | some r' => cases h
  | some r =>
    cases o' with
    | none => cases h
    | some r' => exact Or.inr ⟨r, r', rfl, rfl, Option.some.inj h⟩

section

variable (h : Agree records records') (name : PyStr)
include h

theorem Agree.get? (revision : ℤ) :
    ((records.revisions name).get? revision).map normal =
      ((records'.revisions name).get? revision).map normal := by
  have hget := fun l : PyDict ℤ (ServiceRevision F) =>
    PyDict.get?_mapValues normal l revision
  rw [← hget, ← hget]
  exact congrArg (fun l => PyDict.get? l revision) (h name)

theorem Agree.keys : (records.revisions name).map (·.1) = (records'.revisions name).map (·.1) := by
  have hkeys : ∀ l : PyDict ℤ (ServiceRevision F), (normals l).map (·.1) = l.map (·.1) :=
    fun l => by
      unfold normals
      rw [map_map]
      rfl
  rw [← hkeys, h name, hkeys]

theorem Agree.latest :
    (records.latest name).map normal =
      (records'.latest name).map normal := by
  unfold Records.latest
  simp only [h.keys name]
  split
  · rfl
  · exact h.get? name _

theorem Agree.active :
    (records.active name).map normal =
      (records'.active name).map normal := by
  have hactive : ∀ l : PyDict ℤ (ServiceRevision F),
      (((l.map (·.2)).find? fun r => r.state = .active).map normal) =
        ((normals l).map (·.2)).find? fun r => r.state = .active := by
    intro l
    unfold normals
    rw [map_map, List.find?_map, List.find?_map, Option.map_map]
    rfl
  unfold Records.active
  rw [hactive, hactive, h name]

end

theorem normals_set (l : PyDict ℤ (ServiceRevision F)) (key : ℤ) (r : ServiceRevision F) :
    normals (l.set key r) = (normals l).set key r.normal := by
  have hany : (normals l).any (fun e => e.1 = key) = l.any fun e => e.1 = key := by
    unfold normals
    rw [any_map]
    rfl
  unfold PyDict.set
  rw [hany]
  split
  · unfold normals
    rw [map_map, map_map]
    refine map_congr_left fun e _ => ?_
    by_cases hkey : e.1 = key <;> simp [hkey]
  · unfold normals
    rw [map_append]
    rfl

theorem Agree.put (h : Agree records records') (hr : r.normal = r'.normal) :
    Agree (records.put r) (records'.put r') := by
  obtain ⟨hname, hrevision, -⟩ := fields_of_normal hr
  intro name
  rw [revisions_put, revisions_put, ← hname, ← hrevision]
  split
  · rw [normals_set, normals_set, h r.name, hr]
  · exact h name

/-- Two mutations raise the same error, or write and return the same. -/
def SameEffect : Except CatalogError (ServiceRevision F × Option (Records F)) →
    Except CatalogError (ServiceRevision F × Option (Records F)) → Prop
  | .error e, .error e' => e = e'
  | .ok (r, none), .ok (r', none) => r.normal = r'.normal
  | .ok (r, some next), .ok (r', some next') => r.normal = r'.normal ∧ Agree next next'
  | _, _ => False

variable (h : Agree records records')
include h

theorem publish_agree {C : Type} (k : Contract F C) (name : PyStr) (definition : Json F)
    (expected : Option PyStr) :
    SameEffect (publish k records name definition expected)
      (publish k records' name definition expected) := by
  unfold publish
  simp only
  have hobserved : (records.latest name).map (·.fingerprint) =
      (records'.latest name).map (·.fingerprint) ∧
      (records.latest name).map (·.revision) = (records'.latest name).map (·.revision) := by
    rcases normal_cases (h.latest name) with ⟨hnone, hnone'⟩ | ⟨r, r', hsome, hsome', hr⟩
    · rw [hnone, hnone']
      exact ⟨rfl, rfl⟩
    obtain ⟨-, hrevision, hfingerprint, -⟩ := fields_of_normal hr
    rw [hsome, hsome']
    exact ⟨congrArg some hfingerprint, congrArg some hrevision⟩
  rw [hobserved.1]
  split
  · rfl
  split
  · rfl
  rename_i candidate _
  have hsame : ((records.latest name).filter fun r => r.fingerprint = candidate).map
      normal = ((records'.latest name).filter fun r =>
        r.fingerprint = candidate).map normal := by
    rcases normal_cases (h.latest name) with ⟨hnone, hnone'⟩ | ⟨r, r', hsome, hsome', hr⟩
    · rw [hnone, hnone']
    obtain ⟨-, -, hfingerprint, -⟩ := fields_of_normal hr
    rw [hsome, hsome', Option.filter_some, Option.filter_some, hfingerprint]
    split
    · exact congrArg some hr
    · rfl
  rcases normal_cases hsame with ⟨hnone, hnone'⟩ | ⟨r, r', hsome, hsome', hr⟩
  · rw [hnone, hnone', hobserved.2]
    simp only
    split
    · rfl
    · exact ⟨rfl, h.put rfl⟩
    · rfl
  · rw [hsome, hsome']
    exact hr

theorem get_agree (name : PyStr) (revision : ℤ) :
    (∃ e, records.get name revision = .error e ∧ records'.get name revision = .error e) ∨
      ∃ r r', records.get name revision = .ok r ∧ records'.get name revision = .ok r' ∧
        r.normal = r'.normal := by
  unfold Records.get
  rcases normal_cases (h.get? name revision) with ⟨hnone, hnone'⟩ | ⟨r, r', hsome, hsome', hr⟩
  · rw [hnone, hnone']
    exact Or.inl ⟨_, rfl, rfl⟩
  · rw [hsome, hsome']
    exact Or.inr ⟨r, r', rfl, rfl, hr⟩

theorem deprecate_agree (name : PyStr) (revision : ℤ) (expected : Option PyStr) :
    SameEffect (deprecateRevision records name revision expected)
      (deprecateRevision records' name revision expected) := by
  unfold deprecateRevision
  rcases get_agree h name revision with ⟨e, he, he'⟩ | ⟨target, target', hget, hget', htarget⟩
  · rw [he, he']
    rfl
  obtain ⟨-, -, hfingerprint, hstate, -⟩ := fields_of_normal htarget
  have hunmet : unmet expected (some target.fingerprint) =
      unmet expected (some target'.fingerprint) := by rw [hfingerprint]
  rw [hget, hget']
  simp only [hunmet, hstate]
  split
  · rfl
  split
  · exact htarget
  · exact ⟨normal_restate htarget .deprecated, h.put (normal_restate htarget .deprecated)⟩

theorem activate_agree (name : PyStr) (revision : ℤ) (expected expectedActive : Option PyStr) :
    SameEffect (activate records name revision expected expectedActive)
      (activate records' name revision expected expectedActive) := by
  unfold activate
  rcases get_agree h name revision with ⟨e, he, he'⟩ | ⟨target, target', hget, hget', htarget⟩
  · rw [he, he']
    rfl
  obtain ⟨-, hrevision, hfingerprint, hstate, -⟩ := fields_of_normal htarget
  have hunmet : unmet expected (some target.fingerprint) =
      unmet expected (some target'.fingerprint) := by rw [hfingerprint]
  have hactive := normal_restate htarget .active
  rw [hget, hget']
  simp only [hunmet, hstate]
  split
  · rfl
  rcases normal_cases (h.active name) with ⟨hnone, hnone'⟩ | ⟨peer, peer', hsome, hsome', hpeer⟩
  · rw [hnone, hnone']
    split
    · rfl
    split
    · rfl
    · exact ⟨hactive, h.put hactive⟩
  · obtain ⟨-, hpeerRevision, hpeerFingerprint, -⟩ := fields_of_normal hpeer
    have hobserved : some peer.fingerprint = some peer'.fingerprint :=
      congrArg some hpeerFingerprint
    have hother : (peer.revision ≠ target.revision) = (peer'.revision ≠ target'.revision) := by
      rw [hpeerRevision, hrevision]
    rw [hsome, hsome']
    simp only [Option.map_some, hobserved, hother]
    split
    · rfl
    split
    · rfl
    refine ⟨hactive, ?_⟩
    split
    · exact (h.put (normal_restate hpeer .deprecated)).put hactive
    · exact h.put hactive

/-- **A mutation** of two catalogs that agree. -/
theorem mutate_agree (m : Mutation F) :
    SameEffect (mutate digest records m) (mutate digest records' m) := by
  cases m with
  | publish name definition expected => exact publish_agree h _ name _ expected
  | activate name revision expected expectedActive =>
    exact activate_agree h name revision expected expectedActive
  | deprecateRevision name revision expected => exact deprecate_agree h name revision expected

end Agreement

end GpuManager.Revisions
