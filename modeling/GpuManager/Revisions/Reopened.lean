import GpuManager.Revisions.ImmutableLog

/-!
# The catalog after it was opened again

* `load_document`: the document of a catalog of logs is written, read and accepted, and gives the
  catalog back up to the order of the keys in its definitions.
* `Mirrors`: the file catalog agrees with the catalog in memory, and would after a reopening.

With any number of reopenings in between, the file catalog answers as the catalog in memory does,
and both are immutable logs.

A revision number is written in decimal, which Python refuses for a number of more than 4300
digits; a run has fewer calls.
-/

namespace GpuManager.Revisions

open PyStr Json FileBacked List Records

variable {F : Type} {definition : Json F}

/-! ## One revision -/

section Loads

variable {digest : Json F → List (Fin 16)} {name : PyStr} {r : ServiceRevision F}
  {l : PyDict ℤ (ServiceRevision F)} {records : Records F}

theorem plain_identity (h : (identity name definition).Plain) :
    join name = name ∧ definition.Plain := ⟨h.2.2.1, h.2.2.2.2.1⟩

/-- The text of an identity with the keys of its definition in order. -/
theorem encode_identity {value : Json F} (h : encode (identity name definition) = some value) :
    encode (identity name (sortKeys definition)) = some value := by
  have hplain := plain_of_encode h
  unfold encode at h ⊢
  split at h
  case isFalse => cases h
  case isTrue hencodable =>
    have hsorted : sortKeys (identity name (sortKeys definition)) =
        sortKeys (identity name definition) := by
      show Json.obj (sortMembers [(text "name", .str name),
        (text "definition", sortKeys (sortKeys definition))]) = _
      rw [sortKeys_sortKeys]
      rfl
    have hstrings : (strings (identity name (sortKeys definition))).Perm
        (strings (identity name definition)) :=
      (((strings_sortKeys definition).append_right []).cons (text "definition")).cons name
        |>.cons (text "name")
    rw [if_pos, hsorted, h]
    refine ⟨⟨hplain.1, hplain.2.1, hplain.2.2.1, hplain.2.2.2.1,
      plain_sortKeys hplain.2.2.2.2.1, trivial⟩, fun s hs => ?_⟩
    exact hencodable.2 s (hstrings.mem_iff.mp hs)

theorem Stored.plain (h : Stored digest name r) : join name = name ∧ r.definition.Plain := by
  have hfingerprint := h.fingerprint
  obtain ⟨value, hvalue, -⟩ := Option.map_eq_some_iff.mp hfingerprint
  exact plain_identity (plain_of_encode hvalue)

theorem Stored.normal (h : Stored digest name r) : Stored digest name r.normal := by
  refine ⟨h.named, ?_, ?_⟩
  · obtain ⟨value, hvalue, hdigest⟩ := Option.map_eq_some_iff.mp h.fingerprint
    exact Option.map_eq_some_iff.mpr ⟨value, encode_identity hvalue, hdigest⟩
  · exact (validateServiceDefinition_sortKeys name h.plain.2).trans h.valid

theorem Stored.plain_toDict (h : Stored digest name r) (hshort : r.revision.natAbs < intLimit) :
    r.toDict.Plain := by
  obtain ⟨hname, hdefinition⟩ := h.plain
  have hfingerprint : join r.fingerprint = r.fingerprint := by
    obtain ⟨value, -, hdigest⟩ := Option.map_eq_some_iff.mp h.fingerprint
    rw [← hdigest]
    exact join_hexdigest _
  have hnodup : (["schema_version", "name", "revision", "fingerprint", "state",
      "definition"].map text).Nodup := by decide
  have hkeys : ∀ key ∈ ["schema_version", "name", "revision", "fingerprint", "state",
      "definition"].map text, join key = key := by decide
  have hschema : join (text "service-revision.v1") = text "service-revision.v1" := by decide
  have hstate : join r.state.value = r.state.value := by
    cases r.state <;> decide
  exact ⟨hnodup, hkeys _ (by simp), hschema, hkeys _ (by simp), h.named ▸ hname,
    hkeys _ (by simp), hshort, hkeys _ (by simp), hfingerprint, hkeys _ (by simp), hstate,
    hkeys _ (by simp), hdefinition, trivial⟩

theorem ofValue_value (state : RevisionState) : RevisionState.ofValue state.value = some state := by
  cases state <;> decide

theorem Stored.isId (h : Stored digest name r) : PyStr.isId name = true := isId_of_valid h.valid

theorem Stored.nonempty (h : Stored digest name r) : name ≠ [] := by
  rintro rfl
  exact absurd h.isId (by decide)

theorem Stored.isObj (h : Stored digest name r) : r.definition.isObj = true := by
  by_contra hobject
  have hvalid := h.valid
  unfold validateServiceDefinition at hvalid
  simp only [if_pos (Bool.eq_false_iff.mpr hobject), Except.ok.injEq] at hvalid
  exact absurd (append_eq_nil_iff.mp hvalid).2 (cons_ne_nil _ _)

/-- A stored revision is read back from its sorted document. -/
theorem revisionOf_toDict (h : Stored digest name r) (hpositive : 1 ≤ r.revision)
    (hshort : r.revision.natAbs < intLimit) :
    revisionOf (catalogContract digest) (sortKeys r.toDict) = some r.normal := by
  have hget := get_sortKeys (h.plain_toDict hshort)
  have hschema : (sortKeys r.toDict).get "schema_version" =
      .str (text "service-revision.v1") := by
    rw [hget]
    rfl
  have hname : (sortKeys r.toDict).get "name" = .str r.name := by
    rw [hget]
    rfl
  have hrevision : (sortKeys r.toDict).get "revision" = .int r.revision := by
    rw [hget]
    rfl
  have hfingerprint : (sortKeys r.toDict).get "fingerprint" = .str r.fingerprint := by
    rw [hget]
    rfl
  have hstate : (sortKeys r.toDict).get "state" = .str r.state.value := by
    rw [hget]
    rfl
  have hdefinition : (sortKeys r.toDict).get "definition" = sortKeys r.definition := by
    rw [hget]
    rfl
  have hobject : (sortKeys r.toDict).isObj = true := by
    rw [isObj_sortKeys]
    rfl
  have hvalid : (catalogContract digest).validate r.name (sortKeys r.definition) = some [] := by
    show (validateServiceDefinition r.name (sortKeys r.definition)).toOption = some []
    rw [h.named]
    exact congrArg Except.toOption h.normal.valid
  have hdigest : (catalogContract digest).fingerprint r.name (sortKeys r.definition) =
      some r.fingerprint := by
    rw [h.named]
    exact h.normal.fingerprint
  unfold revisionOf
  rw [hobject, hschema, hname, hrevision, hdefinition, hstate, hfingerprint]
  simp [str?, h.isObj, hvalid, hdigest, ofValue_value, hpositive, h.named ▸ h.nonempty]
  rfl

/-! ## The revisions of a service -/

/-- What is written of a service. -/
def written (l : PyDict ℤ (ServiceRevision F)) : Json F :=
  .arr (l.map fun e => sortKeys e.2.toDict)

theorem keys_normals (l : PyDict ℤ (ServiceRevision F)) :
    (normals l).map (·.1) = l.map (·.1) := by
  unfold normals
  rw [map_map]
  rfl

theorem normals_normals (l : PyDict ℤ (ServiceRevision F)) : normals (normals l) = normals l := by
  unfold normals
  rw [map_map]
  refine map_congr_left fun e _ => ?_
  show (e.1, e.2.normal.normal) = (e.1, e.2.normal)
  unfold ServiceRevision.normal
  rw [sortKeys_sortKeys]

/-- The log with the keys of its definitions in order. -/
theorem Log.normals (h : Log digest name l) : Log digest name (normals l) := by
  have hlength : (Revisions.normals l).length = l.length := length_map _
  refine ⟨?_, fun p hp => ?_, fun p hp => ?_, fun p hp q hq hpa hqa => ?_⟩
  · rw [keys_normals, hlength]
    exact h.numbers
  · obtain ⟨e, he, rfl⟩ := mem_map.mp hp
    exact h.revision e he
  · obtain ⟨e, he, rfl⟩ := mem_map.mp hp
    exact (h.stored e he).normal
  · obtain ⟨e, he, rfl⟩ := mem_map.mp hp
    obtain ⟨e', he', rfl⟩ := mem_map.mp hq
    exact h.active e he e' he' hpa hqa

theorem Log.number (h : Log digest name l) {p : ℤ × ServiceRevision F} (hp : p ∈ l) :
    1 ≤ p.2.revision ∧ p.2.revision ≤ l.length := by
  rw [h.revision p hp, ← mem_numbers, ← h.numbers]
  exact mem_map_of_mem hp

theorem loadRevisions_stored {acc : PyDict ℤ (ServiceRevision F)}
    (hnodup : ((acc ++ l).map (·.1)).Nodup) (hstored : ∀ p ∈ l, Stored digest name p.2)
    (hnumber : ∀ p ∈ l, p.2.revision = p.1 ∧ 1 ≤ p.2.revision ∧ p.2.revision.natAbs < intLimit) :
    loadRevisions (catalogContract digest) name (l.map fun e => sortKeys e.2.toDict) acc =
      some (acc ++ normals l) := by
  induction l generalizing acc with
  | nil =>
    rw [show normals ([] : PyDict ℤ (ServiceRevision F)) = [] from rfl, append_nil]
    rfl
  | cons p l ih =>
    obtain ⟨hrevision, hpositive, hshort⟩ := hnumber p mem_cons_self
    have hp := hstored p mem_cons_self
    have hfree : acc.get? p.1 = none := by
      rw [← Option.not_isSome_iff_eq_none, PyDict.get?_isSome]
      intro hmem
      rw [map_append, nodup_append] at hnodup
      exact hnodup.2.2 _ hmem _ (mem_map_of_mem mem_cons_self) rfl
    have hnext := @ih (acc ++ [(p.1, p.2.normal)])
      (by
        rw [map_append, map_append, append_assoc]
        rwa [map_append, map_cons] at hnodup)
      (fun q hq => hstored q (mem_cons_of_mem _ hq))
      (fun q hq => hnumber q (mem_cons_of_mem _ hq))
    have hkey : p.2.normal.revision = p.1 := hrevision
    have hname : p.2.normal.name = name := hp.named
    rw [map_cons]
    unfold loadRevisions
    rw [revisionOf_toDict hp hpositive hshort]
    simp only [Option.bind_eq_bind, Option.bind_some, hkey, hname, hfree, guard_true,
      Option.isNone_none, Option.pure_def, hnext]
    rw [append_assoc]
    rfl

theorem Log.load (h : Log digest name l) (hshort : l.length < intLimit) :
    loadRevisions (catalogContract digest) name (l.map fun e => sortKeys e.2.toDict) [] =
      some (Revisions.normals l) := by
  refine loadRevisions_stored h.nodup h.stored fun p hp => ⟨h.revision p hp, (h.number hp).1, ?_⟩
  have hnumber := h.number hp
  omega

theorem Log.oneActive (h : Log digest name l) :
    (l.filter fun e => e.2.state = .active).length ≤ 1 := by
  have hsub : (l.filter fun e => e.2.state = .active).Pairwise fun p q => p.1 ≠ q.1 :=
    (pairwise_map.mp h.nodup).sublist filter_sublist
  match hfilter : l.filter fun e => e.2.state = .active with
  | [] => exact hfilter ▸ Nat.zero_le _
  | [_] => exact hfilter ▸ le_rfl
  | p :: q :: rest =>
    have hmem : ∀ e ∈ p :: q :: rest, e ∈ l ∧ e.2.state = .active := fun e he => by
      rw [← hfilter, mem_filter] at he
      exact ⟨he.1, of_decide_eq_true he.2⟩
    obtain ⟨hp, hpa⟩ := hmem p (by simp)
    obtain ⟨hq, hqa⟩ := hmem q (by simp)
    rw [hfilter] at hsub
    exact absurd (h.active p hp q hq hpa hqa)
      ((pairwise_cons.mp hsub).1 q mem_cons_self)

/-! ## The document of a catalog -/

/-- Every log is short enough for its numbers to be written. -/
def Short (records : Records F) : Prop := ∀ name, (records.revisions name).length < intLimit

/-- The log of a service of the catalog. -/
theorem Sound.revisions_of_mem (h : Sound digest records)
    {e : PyStr × PyDict ℤ (ServiceRevision F)} (he : e ∈ records) :
    records.revisions e.1 = e.2 := by
  unfold revisions
  rw [PyDict.get?_eq_some_of_mem h.services he]
  rfl

theorem document_eq (h : Sound digest records) :
    records.document = .obj [(text "schema_version", .str (text "service-revision-catalog.v1")),
      (text "services", .obj ((records.mergeSort fun a b => PyStr.le a.1 b.1).map fun e =>
        (e.1, .arr (e.2.map fun p => p.2.toDict))))] := by
  have hsorted : ∀ e ∈ records, (e.2.mergeSort fun a b => a.1 ≤ b.1) = e.2 := by
    intro e he
    have hnumbers : (e.2.map (·.1)).Pairwise (· ≤ ·) := by
      rw [← h.revisions_of_mem he, (h.log e.1).numbers]
      exact numbers_sorted _
    refine mergeSort_of_pairwise ((pairwise_map.mp hnumbers).imp fun hle => ?_)
    exact decide_eq_true hle
  have hrecords : records.sorted = (records.mergeSort fun a b => PyStr.le a.1 b.1).map fun e =>
      (e.1, e.2.map (·.2)) := by
    have hmapped := map_mergeSort (l := records)
      (f := fun e : PyStr × PyDict ℤ (ServiceRevision F) => (e.1, e.2.map (·.2)))
      (r := fun a b => PyStr.le a.1 b.1) (s := fun a b => PyStr.le a.1 b.1) fun a _ b _ => rfl
    unfold sorted
    rw [hmapped]
    refine congrArg (List.mergeSort · _) ?_
    refine map_congr_left fun e he => ?_
    rw [hsorted e he]
  unfold document
  rw [hrecords, map_map]
  refine congrArg (fun services => Json.obj [_, (text "services", .obj services)]) ?_
  refine map_congr_left fun e _ => ?_
  show (e.1, Json.arr ((e.2.map (·.2)).map ServiceRevision.toDict)) = _
  rw [map_map]
  rfl

theorem loadServices_written {members : List (PyStr × Json F)} (h : Sound digest records)
    (hshort : Short records)
    (hmembers : ∀ m ∈ members, m.1 ≠ [] ∧ m.2 = written (records.revisions m.1)) :
    loadServices (catalogContract digest) members =
      some (members.map fun m => (m.1, normals (records.revisions m.1))) := by
  induction members with
  | nil => rfl
  | cons m members ih =>
    obtain ⟨name, values⟩ := m
    obtain ⟨hname, hvalues⟩ := hmembers _ mem_cons_self
    change values = written (records.revisions name) at hvalues
    change name ≠ [] at hname
    subst hvalues
    have hrest := ih fun m hm => hmembers m (mem_cons_of_mem _ hm)
    have hload := (h.log name).load (hshort name)
    have hone := (h.log name).normals.oneActive
    unfold loadServices written
    have hguards : guard (name ≠ []) = some () ∧ guard ((List.filter (fun e => decide (e.2.state =
        RevisionState.active)) (normals (records.revisions name))).length ≤ 1) = some () :=
      ⟨if_pos hname, if_pos hone⟩
    simp only [Option.bind_eq_bind, Option.bind_some, hload, hrest, Option.pure_def, hguards,
      map_cons]

theorem get?_ofKey {K V W : Type} [DecidableEq K] (f : K → V) (d : List (K × W)) (key : K) :
    PyDict.get? (d.map fun e => (e.1, f e.1)) key =
      if key ∈ d.map (·.1) then some (f key) else none := by
  induction d with
  | nil => rfl
  | cons e d ih =>
    rw [map_cons, PyDict.get?_cons, ih]
    by_cases hkey : e.1 = key
    · rw [if_pos hkey, hkey, if_pos]
      exact hkey ▸ mem_cons_self
    have hmem : key ∈ (e :: d).map (·.1) ↔ key ∈ d.map (·.1) := by
      rw [map_cons, mem_cons]
      exact or_iff_right (Ne.symm hkey)
    rw [if_neg hkey, if_congr hmem rfl rfl]

/-- The services of the document are those of the catalog. -/
theorem Sound.plain_services (h : Sound digest records) (hshort : Short records) :
    (records.document : Json F).Plain := by
  have hnodup : (["schema_version", "services"].map text).Nodup := by decide
  have hkeys : ∀ key ∈ ["schema_version", "services"].map text, join key = key := by decide
  have hschema : join (text "service-revision-catalog.v1") =
      text "service-revision-catalog.v1" := by decide
  rw [document_eq h]
  refine ⟨hnodup, hkeys _ (by simp), hschema, hkeys _ (by simp), ⟨?_, ?_⟩, trivial⟩
  · rw [map_map]
    exact ((mergeSort_perm records _).map (·.1)).nodup_iff.mpr h.services
  · rw [plainMembers_iff]
    intro m hm
    obtain ⟨e, he, rfl⟩ := mem_map.mp hm
    have hmem := mem_mergeSort.mp he
    have hlog := h.log e.1
    rw [h.revisions_of_mem hmem] at hlog
    refine ⟨join_of_isId (h.named e hmem), plainItems_iff.mpr fun v hv => ?_⟩
    obtain ⟨p, hp, rfl⟩ := mem_map.mp hv
    have hnumber := hlog.number hp
    have hlength := hshort e.1
    rw [h.revisions_of_mem hmem] at hlength
    exact (hlog.stored p hp).plain_toDict (by omega)

/-- Two revisions with the same normal form have the same `to_dict`. -/
theorem sameDict {r' : ServiceRevision F} (h : r.normal = r'.normal) :
    sortKeys r.toDict = sortKeys r'.toDict := by
  have hnormal : ∀ r : ServiceRevision F, sortKeys r.normal.toDict = sortKeys r.toDict := by
    intro r
    show Json.obj (sortMembers (sortValues _)) = Json.obj (sortMembers (sortValues _))
    rw [sortValues_eq_map, sortValues_eq_map]
    simp only [ServiceRevision.normal, map_cons, sortKeys_sortKeys]
  rw [← hnormal, h, hnormal]

/-- **The document of a catalog** is written, read and accepted. -/
theorem load_document (h : Sound digest records) (hshort : Short records) :
    reread records.document = some (sortKeys records.document) ∧
      ∃ v, catalogFromDocument (catalogContract digest) (sortKeys records.document) = some v ∧
        Sound digest v ∧ Agree v records := by
  have hplain := h.plain_services hshort
  refine ⟨reread_plain _ hplain, ?_⟩
  let members := sortMembers (sortValues ((records.mergeSort fun a b =>
    PyStr.le a.1 b.1).map fun e => (e.1, Json.arr (e.2.map fun p => p.2.toDict))))
  have hmembers : ∀ m ∈ members, ∃ e ∈ records, m = (e.1, written e.2) := by
    intro m hm
    have hm := (sortMembers_perm _).mem_iff.mp hm
    rw [sortValues_eq_map, map_map] at hm
    obtain ⟨e, he, rfl⟩ := mem_map.mp hm
    refine ⟨e, mem_mergeSort.mp he, ?_⟩
    show (e.1, Json.arr (sortItems _)) = _
    rw [sortItems_eq_map, map_map]
    rfl
  have hkeys : (members.map (·.1)).Perm (records.map (·.1)) := by
    refine ((sortMembers_perm _).map (·.1)).trans ?_
    rw [sortValues_eq_map, map_map, map_map]
    exact (mergeSort_perm records _).map (·.1)
  have hservices : (sortKeys records.document).get "services" = .obj members := by
    rw [get_sortKeys hplain, document_eq h]
    rfl
  have hschema : (sortKeys records.document).get "schema_version" =
      .str (text "service-revision-catalog.v1") := by
    rw [get_sortKeys hplain]
    rfl
  have hload := @loadServices_written _ digest records members h hshort fun m hm => by
    obtain ⟨e, he, rfl⟩ := hmembers m hm
    refine ⟨?_, ?_⟩
    · show e.1 ≠ []
      intro hempty
      have hname := h.named e he
      rw [hempty] at hname
      exact absurd hname (by decide)
    · rw [h.revisions_of_mem he]
  let v : Records F := members.map fun m => (m.1, normals (records.revisions m.1))
  have hrevisions : ∀ name, v.revisions name = normals (records.revisions name) := by
    intro name
    show (PyDict.get? (members.map fun m => (m.1, normals (records.revisions m.1))) name).getD [] = _
    rw [get?_ofKey fun name => normals (records.revisions name)]
    split
    case isTrue => rfl
    case isFalse hnew =>
      have habsent : records.get? name = none := by
        rw [← Option.not_isSome_iff_eq_none, PyDict.get?_isSome]
        exact fun hmem => hnew (hkeys.mem_iff.mpr hmem)
      unfold revisions
      rw [habsent]
      rfl
  refine ⟨v, ?_, ⟨?_, fun e he => ?_, fun name => ?_⟩, fun name => ?_⟩
  · unfold catalogFromDocument
    rw [isNull_sortKeys, hschema, hservices]
    exact hload
  · have hnames : v.map (·.1) = members.map (·.1) := map_map ..
    rw [hnames]
    exact hkeys.nodup_iff.mpr h.services
  · obtain ⟨m, hm, rfl⟩ := mem_map.mp he
    obtain ⟨e, hmem, rfl⟩ := hmembers m hm
    exact h.named e hmem
  · rw [hrevisions]
    exact (h.log name).normals
  · rw [hrevisions]
    exact normals_normals _

/-! ## The file catalog and the catalog in memory -/

/-- The file catalog works on what the catalog in memory holds, and would after a reopening; no
service has more than `n` revisions. -/
structure Mirrors (digest : Json F → List (Fin 16)) (n : ℕ) (mem : Records F)
    (h : Handle (Records F) (Json F)) : Prop where
  sound : Sound digest mem
  length : ∀ name, (mem.revisions name).length ≤ n
  loaded : ∃ v, loadedView (catalogFormat (catalogContract digest)) h noFaults = some v ∧
    Sound digest v ∧ Agree v mem
  reopened : ∃ v, loadedView (catalogFormat (catalogContract digest)) (reopened digest h)
    noFaults = some v ∧ Sound digest v ∧ Agree v mem

def Textual (steps : List (CatalogStep F)) : Prop := ∀ m, .call m ∈ steps → m.Textual

section

variable {step : CatalogStep F} {steps : List (CatalogStep F)}

theorem Textual.head {m : Mutation F} (h : Textual (.call m :: steps)) : m.Textual :=
  h m mem_cons_self

theorem Textual.tail (h : Textual (step :: steps)) : Textual steps :=
  fun m hm => h m (mem_cons_of_mem _ hm)

end

theorem mirrors_fresh (digest : Json F → List (Fin 16)) :
    Mirrors digest 0 [] (fresh (catalogFormat (catalogContract digest)) none) :=
  have hempty : ∃ v : Records F, some [] = some v ∧ Sound digest v ∧ Agree v [] :=
    ⟨[], rfl, sound_nil, fun _ => rfl⟩
  ⟨sound_nil, fun _ => le_rfl, hempty, hempty⟩

variable {mem : Records F} {n : ℕ} {h : Handle (Records F) (Json F)}

theorem Agree.length {v : Records F} (h : Agree v mem) (name : PyStr) :
    (v.revisions name).length = (mem.revisions name).length := by
  have hkeys := congrArg List.length (h.keys name)
  rwa [length_map, length_map] at hkeys

section

variable (hm : Mirrors digest n mem h) {steps : List (CatalogStep F)}
include hm

/-- Reopening keeps the mirror. -/
theorem Mirrors.reopen : Mirrors digest n mem (Revisions.reopened digest h) :=
  ⟨hm.sound, hm.length, hm.reopened, hm.reopened⟩

/-- A mutation is answered as the catalog in memory answers it, and keeps the mirror. -/
theorem Mirrors.call (hn : n + 1 < intLimit) {m : Mutation F} (htextual : m.Textual) :
    SameReply (fileCall digest m h).reply (memoryCall digest m mem).1 ∧
      Mirrors digest (n + 1) (memoryCall digest m mem).2 (fileCall digest m h).next := by
  obtain ⟨v, hload, hv, hagree⟩ := hm.loaded
  have heffect := @mutate_agree _ digest _ _ hagree m
  have hcall : fileCall digest m h = work (fun _ _ => commit (catalogContract digest)
      (mutate digest v m)) m noFaults h v := by
    unfold fileCall FileBacked.call
    simp only [hload]
    rfl
  have hlonger : ∀ name, (mem.revisions name).length ≤ n + 1 :=
    fun name => (hm.length name).trans (Nat.le_succ n)
  rw [hcall]
  unfold memoryCall work
  rcases hleft : mutate digest v m with e | ⟨r, _ | next⟩ <;>
    rcases hright : mutate digest mem m with e' | ⟨r', _ | next'⟩ <;>
    rw [hleft, hright] at heffect
  -- both refuse, both leave the catalog or both commit
  all_goals try exact False.elim heffect
  · exact ⟨heffect, hm.sound, hlonger, ⟨v, rfl, hv, hagree⟩, hm.reopened⟩
  · refine ⟨?_, hm.sound, hlonger, ⟨v, rfl, hv, hagree⟩, hm.reopened⟩
    exact sameDict heffect
  · obtain ⟨hr, hnext⟩ := heffect
    have hgrows := mutate_grows hv htextual hleft
    have hgrows' := mutate_grows hm.sound htextual hright
    have hlength : ∀ name, (next'.revisions name).length ≤ n + 1 := fun name =>
      (hgrows'.length name).trans (Nat.succ_le_succ (hm.length name))
    have hshort : Short next := fun name => by
      rw [hnext.length]
      exact (hlength name).trans_lt hn
    obtain ⟨hwritten, w, hw, hsound, hwagree⟩ := load_document hgrows.sound hshort
    have hcommit : commit (catalogContract digest) (.ok (r, some next)) =
        .commit next (sortKeys next.document) (.ok (.revision r)) := by
      unfold commit
      simp only [show (catalogContract digest).dumps next.document = _ from hwritten]
    rw [hcommit]
    refine ⟨sameDict hr, hgrows'.sound, hlength, ⟨next, rfl, hgrows.sound, hnext⟩, w, hw, hsound,
      fun name => (hwagree name).trans (hnext name)⟩

theorem Mirrors.replies (hshort : n + steps.length < intLimit) (htextual : Textual steps) :
    List.Forall₂ SameReply (fileRun digest h steps) (memoryRun digest mem steps) := by
  induction steps generalizing n mem h with
  | nil => exact .nil
  | cons step steps ih =>
    rw [length_cons] at hshort
    cases step with
    | reopen => exact ih hm.reopen (by omega) htextual.tail
    | call m =>
      obtain ⟨hreply, hm'⟩ := hm.call (by omega) htextual.head
      exact .cons hreply (ih hm' (by omega) htextual.tail)

theorem Mirrors.after (hshort : n + steps.length < intLimit) (htextual : Textual steps) :
    ∃ n', Mirrors digest n' (memoryState digest mem steps) (fileAfter digest h steps) := by
  induction steps generalizing n mem h with
  | nil => exact ⟨n, hm⟩
  | cons step steps ih =>
    rw [length_cons] at hshort
    cases step with
    | reopen => exact ih hm.reopen (by omega) htextual.tail
    | call m => exact ih (hm.call (by omega) htextual.head).2 (by omega) htextual.tail

end

theorem memoryState_persists (h : Sound digest mem) {steps : List (CatalogStep F)}
    (htextual : Textual steps) :
    Sound digest (memoryState digest mem steps) ∧ Persists mem (memoryState digest mem steps) := by
  induction steps generalizing mem with
  | nil => exact ⟨h, Persists.refl mem⟩
  | cons step steps ih =>
    cases step with
    | reopen => exact ih h htextual.tail
    | call m =>
      have hcall : Sound digest (memoryCall digest m mem).2 ∧
          Persists mem (memoryCall digest m mem).2 := by
        unfold memoryCall
        split
        · exact ⟨h, Persists.refl mem⟩
        · exact ⟨h, Persists.refl mem⟩
        rename_i hmutate
        have hgrows := mutate_grows h htextual.head hmutate
        exact ⟨hgrows.sound, hgrows.persists⟩
      obtain ⟨hsound, hpersists⟩ := ih hcall.1 htextual.tail
      exact ⟨hsound, hcall.2.trans hpersists⟩

theorem memoryState_append (mem : Records F) (before rest : List (CatalogStep F)) :
    memoryState digest mem (before ++ rest) =
      memoryState digest (memoryState digest mem before) rest := by
  induction before generalizing mem with
  | nil => rfl
  | cons step before ih =>
    cases step with
    | reopen => exact ih mem
    | call m => exact ih _

/-- What persists does so in a catalog that agrees. -/
theorem Agree.persists {v v' mem' : Records F} (h : Agree v mem) (h' : Agree v' mem')
    (hpersists : Persists mem mem') : Persists v v' := by
  intro name revision r hr
  have hget := h.get? name revision
  rw [hr] at hget
  obtain ⟨s, hs, hsame⟩ := Option.map_eq_some_iff.mp hget.symm
  obtain ⟨-, -, hfingerprint, hstate, hdefinition⟩ := fields_of_normal hsame
  obtain ⟨s', hs', hfingerprint', hdefinition', hdeprecated⟩ := hpersists name revision s hs
  have hget' := h'.get? name revision
  rw [hs'] at hget'
  obtain ⟨r', hr', hsame'⟩ := Option.map_eq_some_iff.mp hget'
  obtain ⟨-, -, hfingerprint'', hstate'', hdefinition''⟩ := fields_of_normal hsame'
  exact ⟨r', hr', hfingerprint''.trans (hfingerprint'.trans hfingerprint),
    hdefinition''.trans (hdefinition'.trans hdefinition),
    fun hold => hstate''.trans (hdeprecated (hstate.trans hold))⟩

theorem Sound.inOrder (h : Sound digest records) : InOrder records :=
  fun name => ⟨(h.log name).numbers, (h.log name).active⟩

end Loads

/-- **An immutable log that survives restarts.**  If the values that are published have the canonical
texts of their frozen copies, the file catalog answers every mutation as the catalog in memory does,
with any number of reopenings, and both are immutable logs. -/
theorem catalog_immutable (digest : Json F → List (Fin 16)) (steps : List (CatalogStep F))
    (hshort : steps.length < intLimit) (htextual : Textual steps) :
    List.Forall₂ SameReply
        (fileRun digest (fresh (catalogFormat (catalogContract digest)) none) steps)
        (memoryRun digest [] steps) ∧
      ImmutableLog (fileState digest) steps ∧
      ImmutableLog (fun before => some (memoryState digest [] before)) steps := by
  have hfresh := mirrors_fresh digest
  have hpast : ∀ before, before <+: steps → Textual before :=
    fun before hbefore m hm => htextual m (hbefore.subset hm)
  have hafter : ∀ before, before <+: steps → ∃ v, fileState digest before = some v ∧
      Sound digest v ∧ Agree v (memoryState digest [] before) := by
    intro before hbefore
    have hlength := hbefore.length_le
    obtain ⟨n, hm⟩ := @Mirrors.after _ _ _ _ _ hfresh before (by omega) (hpast before hbefore)
    exact hm.loaded
  have hmemory : ∀ before after, before <+: after → after <+: steps →
      Persists (memoryState digest [] before) (memoryState digest [] after) := by
    rintro before _ ⟨rest, rfl⟩ hsteps
    have htail : Textual rest := fun m hm => hpast _ hsteps m (mem_append_right _ hm)
    rw [memoryState_append]
    exact (memoryState_persists (memoryState_persists sound_nil
      (hpast before ((prefix_append ..).trans hsteps))).1 htail).2
  refine ⟨hfresh.replies (by omega) htextual, ⟨fun before hbefore => ?_, ?_⟩,
    ⟨fun before hbefore => ?_, ?_⟩⟩
  · obtain ⟨v, hv, hsound, -⟩ := hafter before hbefore
    exact ⟨v, hv, hsound.inOrder⟩
  · intro before after hbefore hsteps v v' hv hv'
    obtain ⟨w, hw, -, hagree⟩ := hafter before (hbefore.trans hsteps)
    obtain ⟨w', hw', -, hagree'⟩ := hafter after hsteps
    obtain rfl := Option.some.inj (hw.symm.trans hv)
    obtain rfl := Option.some.inj (hw'.symm.trans hv')
    exact hagree.persists hagree' (hmemory before after hbefore hsteps)
  · exact ⟨_, rfl, (memoryState_persists sound_nil (hpast before hbefore)).1.inOrder⟩
  · intro before after hbefore hsteps v v' hv hv'
    obtain rfl := Option.some.inj hv
    obtain rfl := Option.some.inj hv'
    exact hmemory before after hbefore hsteps

/-- A value is textual if what is written of it is its frozen copy with the keys in order. -/
theorem Value.textual_of_document {name : PyStr} {value : Value F}
    (hdocument : value.document false = some (sortKeys value.freeze))
    (hplain : (identity name value.freeze).Plain)
    (hencodable : ∀ s ∈ strings (identity name value.freeze), s.any isSurrogate = false) :
    value.Textual name := by
  intro document hcanonical _
  unfold Value.canonical at hcanonical
  rw [hdocument, Option.bind_some] at hcanonical
  simp only at hcanonical
  split at hcanonical
  · rw [← Option.some.inj hcanonical]
    exact if_pos ⟨hplain, hencodable⟩
  · cases hcanonical

/-- A definition with keys that are no text, and with lists in a list. -/
def fluxDefinition (port : ℤ) : Value ℕ :=
  .dict [(.str (text "port"), .int port),
    (.str (text "extra"), .dict [(.int 1, .null), (.none, .bool true)]),
    (.str (text "stages"), .arr [.arr [.int 1], .dict [(.str (text "mode"), .str (text "qc"))]])]

theorem fluxDefinition_textual {port : ℤ} (hport : port = 8080 ∨ port = 8081) :
    (fluxDefinition port).Textual (text "flux") := by
  have hone : (PyKey.int 1).writable = true := by decide +kernel
  have hkey : (PyKey.int 1).toStr = text "1" := by decide +kernel
  have hstr : ∀ s, (PyKey.str s).writable = true := fun _ => rfl
  have hnone : PyKey.none.writable = true := rfl
  refine Value.textual_of_document ?_ ?_ ?_
  · simp only [fluxDefinition, Value.document, Value.documentMembers, Value.documentItems,
      Value.freeze, Value.freezeMembers, Value.freezeItems, writtenMembers, hone, hstr, hnone, hkey,
      all_cons, all_nil, Bool.and_true, if_true, foldl_cons, foldl_nil, Option.map_some]
    rfl
  · obtain rfl | rfl := hport <;> decide +kernel
  · obtain rfl | rfl := hport <;> decide +kernel

def portDigest (value : Json ℕ) : List (Fin 16) :=
  match (value.get "definition").get "port" with
  | .int port => [Fin.ofNat 16 port.natAbs]
  | _ => []

/-- Two publications, the activation of both and the retirement of the second, with reopenings. -/
def lifeSteps : List (CatalogStep ℕ) :=
  [.call (.publish (text "flux") (fluxDefinition 8080) none), .reopen,
    .call (.activate (text "flux") 1 none none),
    .call (.publish (text "flux") (fluxDefinition 8081) none),
    .call (.activate (text "flux") 2 none none), .reopen,
    .call (.deprecateRevision (text "flux") 2 none)]

theorem lifeSteps_textual : Textual lifeSteps := by
  intro m hm
  simp only [lifeSteps, mem_cons, CatalogStep.call.injEq, reduceCtorEq, false_or, not_mem_nil,
    or_false] at hm
  obtain rfl | rfl | rfl | rfl | rfl := hm
  · exact fluxDefinition_textual (.inl rfl)
  · trivial
  · exact fluxDefinition_textual (.inr rfl)
  · trivial
  · trivial

/-- The life of a catalog with reopenings is an immutable log. -/
theorem catalog_immutable_life :
    List.Forall₂ SameReply
        (fileRun portDigest (fresh (catalogFormat (catalogContract portDigest)) none) lifeSteps)
        (memoryRun portDigest [] lifeSteps) ∧
      ImmutableLog (fileState portDigest) lifeSteps ∧
      ImmutableLog (fun before => some (memoryState portDigest [] before)) lifeSteps :=
  have hlimit : 10 ≤ intLimit := Nat.le_self_pow (n := 4300) (by decide) 10
  catalog_immutable portDigest lifeSteps
    (Nat.lt_of_lt_of_le (show lifeSteps.length < 10 by decide) hlimit) lifeSteps_textual

/-! ## A key that the file does not keep -/

/-- A definition with a truth value as a key below a list. -/
def flagged : Value ℕ :=
  .dict [(.str (text "processing"), .arr [.dict [(.bool true, .int 1)]])]

/-- A digest that tells the two texts of that key apart. -/
def flagDigest (value : Json ℕ) : List (Fin 16) :=
  if text "True" ∈ strings value then [1] else []

/-- The revision that a publication of the definition makes. -/
def flaggedRevision : ServiceRevision ℕ :=
  { name := text "a", revision := 1, fingerprint := hexdigest [], state := .draft,
    definition := flagged.freeze }

def flagCatalog : Records ℕ := [(text "a", [(1, flaggedRevision)])]

theorem publish_flagged : mutate flagDigest [] (.publish (text "a") flagged none) =
    .ok (flaggedRevision, some flagCatalog) := by
  have hvalid : (validateServiceDefinition (text "a") flagged.checked).toOption = some [] := by
    decide +kernel
  have hfingerprint : flagged.fingerprint flagDigest (text "a") = some (hexdigest []) := by
    decide +kernel
  show publish (flagged.contract flagDigest) [] (text "a") flagged.freeze none = _
  unfold publish Value.contract
  simp only [hvalid, hfingerprint]
  rfl

theorem dumps_flagged : reread flagCatalog.document = some (sortKeys flagCatalog.document) := by
  have hplain : flagCatalog.document.Plain := by
    simp only [document, sorted, flagCatalog, mergeSort_singleton, map_cons, map_nil]
    decide +kernel
  exact reread_plain _ hplain

theorem reads_flagged :
    catalogFromDocument (catalogContract flagDigest) (sortKeys flagCatalog.document) = none := by
  rw [← Option.isNone_iff_eq_none]
  simp only [document, sorted, flagCatalog, mergeSort_singleton, map_cons, map_nil]
  decide +kernel

theorem commit_flagged (h : Handle (Records ℕ) (Json ℕ)) (hempty : loadedView
    (catalogFormat (catalogContract flagDigest)) h noFaults = some []) :
    (fileCall flagDigest (.publish (text "a") flagged none) h).next.file =
      some (sortKeys flagCatalog.document) := by
  have hcommit : commit (catalogContract flagDigest) (.ok (flaggedRevision, some flagCatalog)) =
      .commit flagCatalog (sortKeys flagCatalog.document) (.ok (.revision flaggedRevision)) := by
    unfold commit
    simp only [show (catalogContract flagDigest).dumps flagCatalog.document = _ from dumps_flagged]
  unfold fileCall FileBacked.call work
  simp only [hempty, publish_flagged, hcommit]
  rfl

/-- The catalog goes on in memory and is unreadable after a reopening. -/
theorem not_sameReplies {digest : Json F → List (Fin 16)} {mem : Records F}
    {h : Handle (Records F) (Json F)} {m m' : Mutation F} (hload : loadedView (catalogFormat
      (catalogContract digest)) (reopened digest (fileCall digest m h).next) noFaults = none) :
    ¬ Forall₂ SameReply (fileRun digest h [.call m, .reopen, .call m'])
      (memoryRun digest mem [.call m, .reopen, .call m']) := by
  rintro (_ | ⟨-, _ | ⟨hreply, -⟩⟩)
  unfold fileCall FileBacked.call at hreply
  unfold fileCall FileBacked.call at hload
  simp only [hload] at hreply
  exact hreply

/-- The definition is published, the catalog reopened and the revision retired. -/
def flagSteps : List (CatalogStep ℕ) :=
  [.call (.publish (text "a") flagged none), .reopen, .call (.deprecateRevision (text "a") 1 none)]

/-- **A catalog that cannot be read again.**  The fingerprint is of a text with the key `true`, the
file has the key `"True"`: after the reopening the call is refused that succeeds in memory. -/
theorem reopened_file_unreadable : ¬ Forall₂ SameReply
    (fileRun flagDigest (fresh (catalogFormat (catalogContract flagDigest)) none) flagSteps)
    (memoryRun flagDigest [] flagSteps) := by
  refine not_sameReplies ?_
  unfold reopened loadedView
  rw [commit_flagged _ rfl]
  exact reads_flagged

end GpuManager.Revisions
