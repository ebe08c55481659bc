import GpuManager.Broker.Memory
import GpuManager.Broker.Sequential

/-!
# Selection from the heads of the queues

`peek_next` compares the heads of the three queues.  Waiting lowers the number of a priority, and
along a queue nobody has waited longer than the job before him, so in a queue that is ordered by
`enqueue_sequence` the head has the least key.

* `InOrder`: the queues hold queued jobs of their priority in the order of their sequence numbers,
  and of the times of their submission.
* `Selects`: an answer is a queued job with the least key of all queued jobs.
-/

namespace GpuManager.Broker

open Option

/-! ## Ageing -/

section Ageing

variable {base : Priority} {submittedAt submittedAt' now agingSeconds : ℚ}

theorem effectivePriority_mono (haging : 0 < agingSeconds) (hle : submittedAt ≤ submittedAt') :
    effectivePriority base submittedAt now agingSeconds ≤
      effectivePriority base submittedAt' now agingSeconds := by
  have hwait : max 0 (now - submittedAt') ≤ max 0 (now - submittedAt) :=
    max_le_max le_rfl (sub_le_sub_left hle now)
  have htiers : ⌊max 0 (now - submittedAt') / agingSeconds⌋ ≤
      ⌊max 0 (now - submittedAt) / agingSeconds⌋ :=
    Int.floor_le_floor (div_le_div_of_nonneg_right hwait haging.le)
  unfold effectivePriority
  exact max_le_max le_rfl (by omega)

theorem zero_le_effectivePriority : 0 ≤ effectivePriority base submittedAt now agingSeconds :=
  le_max_left _ _

/-- After two periods every priority is the first one. -/
theorem effectivePriority_aged (haging : 0 < agingSeconds)
    (hwait : 2 * agingSeconds ≤ now - submittedAt) :
    effectivePriority base submittedAt now agingSeconds = 0 := by
  have htiers : 2 ≤ ⌊max 0 (now - submittedAt) / agingSeconds⌋ := by
    rw [Int.le_floor, le_div_iff₀ haging]
    exact le_max_of_le_right (by exact_mod_cast hwait)
  have hbase : base.toInt ≤ 20 := by cases base <;> decide
  unfold effectivePriority
  exact max_eq_left (show base.toInt - _ ≤ 0 by omega)

end Ageing

/-! ## Keys -/

def selectionKey (agingSeconds now : ℚ) (job : JobRecord) : ℤ ×ₗ ℤ :=
  toLex (effectivePriority job.basePriority job.submittedAt now agingSeconds, job.enqueueSequence)

/-- A job with its priority of now. -/
def prioritized (agingSeconds now : ℚ) (selected : JobRecord) : JobRecord :=
  { selected with
    effectivePriority := effectivePriority selected.basePriority
      selected.submittedAt now agingSeconds }

/-- Along a queue the keys grow. -/
theorem selectionKey_le {agingSeconds now : ℚ} {job other : JobRecord} (haging : 0 < agingSeconds)
    (hbase : job.basePriority = other.basePriority)
    (hsequence : job.enqueueSequence ≤ other.enqueueSequence)
    (hsubmitted : job.submittedAt ≤ other.submittedAt) :
    selectionKey agingSeconds now job ≤ selectionKey agingSeconds now other := by
  have hpriority := @effectivePriority_mono job.basePriority _ _ now _ haging hsubmitted
  rw [hbase] at hpriority
  refine Prod.Lex.toLex_le_toLex'.mpr ⟨?_, fun _ => hsequence⟩
  rw [hbase]
  exact hpriority

namespace MemoryStore

variable {agingSeconds now : ℚ} {heads : List JobRecord}

theorem selectHead_eq_none :
    selectHead agingSeconds now heads = none ↔ heads = [] := by
  cases heads with
  | nil => exact iff_of_true rfl rfl
  | cons job rest =>
    refine iff_of_false ?_ (List.cons_ne_nil _ _)
    unfold selectHead
    split
    · exact some_ne_none _
    · split <;> exact some_ne_none _

/-- `select_head` returns a head with the least key. -/
theorem selectHead_least {job : JobRecord} (h : selectHead agingSeconds now heads = some job) :
    job ∈ heads ∧ ∀ other ∈ heads,
      selectionKey agingSeconds now job ≤ selectionKey agingSeconds now other := by
  induction heads generalizing job with
  | nil => cases h
  | cons first rest ih =>
    unfold selectHead at h
    cases hrest : selectHead agingSeconds now rest with
    | none =>
      rw [hrest] at h
      obtain rfl := some.inj h
      obtain rfl := selectHead_eq_none.mp hrest
      refine ⟨List.mem_cons_self, fun other hother => ?_⟩
      rw [List.mem_singleton.mp hother]
    | some best =>
      obtain ⟨hbest, hleast⟩ := ih hrest
      rw [hrest] at h
      simp only at h
      split at h
      case isTrue hlt =>
        obtain rfl := some.inj h
        refine ⟨List.mem_cons_of_mem _ hbest, fun other hother => ?_⟩
        rcases List.mem_cons.mp hother with rfl | hother
        · exact le_of_lt hlt
        · exact hleast other hother
      case isFalse hle =>
        obtain rfl := some.inj h
        refine ⟨List.mem_cons_self, fun other hother => ?_⟩
        rcases List.mem_cons.mp hother with rfl | hother
        · exact le_rfl
        · exact (not_lt.mp hle).trans (hleast other hother)

end MemoryStore

/-! ## Queues in order -/

section Queues

variable {jobs : String → Option JobRecord} {queues : Priority → List String} {agingSeconds now : ℚ}

/-- The queues hold queued jobs of their priority, ordered by `enqueue_sequence` with `submitted_at`
non-decreasing. -/
structure InOrder (jobs : String → Option JobRecord) (queues : Priority → List String) : Prop where
  stored : ∀ p, ∀ id ∈ queues p, ∃ job, jobs id = some job ∧ job.basePriority = p ∧
    job.state = .queued
  ordered : ∀ p, (queues p).Pairwise fun id id' => ∀ job job', jobs id = some job →
    jobs id' = some job' →
      job.enqueueSequence ≤ job'.enqueueSequence ∧ job.submittedAt ≤ job'.submittedAt

/-- The job is in a queue. -/
def Queued (jobs : String → Option JobRecord) (queues : Priority → List String) (job : JobRecord) :
    Prop := ∃ p, ∃ id ∈ queues p, jobs id = some job

/-- An answer of `peek_next` is the best of all queued jobs, with its priority of now; and nobody
comes before a job that has waited for two periods and has a smaller sequence number. -/
structure Selects (agingSeconds now : ℚ) (queued : JobRecord → Prop) (answer : Option JobRecord) :
    Prop where
  none_iff : answer = none ↔ ∀ job, ¬ queued job
  least : ∀ job, answer = some job → ∃ selected, queued selected ∧
    job = prioritized agingSeconds now selected ∧
    ∀ other, queued other →
      selectionKey agingSeconds now selected ≤ selectionKey agingSeconds now other
  aged : ∀ job, answer = some job → ∀ other, queued other →
    2 * agingSeconds ≤ now - other.submittedAt → job.enqueueSequence ≤ other.enqueueSequence

/-- The heads of the queues. -/
def headsOf (jobs : String → Option JobRecord) (queues : Priority → List String) :
    List JobRecord :=
  Priority.all.filterMap fun p => (queues p).head?.bind jobs

theorem mem_headsOf {job : JobRecord} :
    job ∈ headsOf jobs queues ↔ ∃ p id, (queues p).head? = some id ∧ jobs id = some job := by
  have hall : ∀ p, p ∈ Priority.all := fun p => by cases p <;> decide
  unfold headsOf
  rw [List.mem_filterMap]
  constructor
  · rintro ⟨p, -, hjob⟩
    obtain ⟨id, hid, hjob⟩ := bind_eq_some_iff.mp hjob
    exact ⟨p, id, hid, hjob⟩
  · rintro ⟨p, id, hid, hjob⟩
    exact ⟨p, hall p, bind_eq_some_iff.mpr ⟨id, hid, hjob⟩⟩

/-- Before a queued job there is the head of its queue. -/
theorem InOrder.head_le (h : InOrder jobs queues) (haging : 0 < agingSeconds) {job : JobRecord}
    (hjob : Queued jobs queues job) :
    ∃ head ∈ headsOf jobs queues,
      selectionKey agingSeconds now head ≤ selectionKey agingSeconds now job := by
  obtain ⟨p, id, hid, hjob⟩ := hjob
  cases hqueue : queues p with
  | nil =>
    rw [hqueue] at hid
    cases hid
  | cons first rest =>
    have hfirst : first ∈ queues p := hqueue ▸ List.mem_cons_self
    obtain ⟨head, hhead, hbase, -⟩ := h.stored p first hfirst
    refine ⟨head, mem_headsOf.mpr ⟨p, first, by rw [hqueue]; rfl, hhead⟩, ?_⟩
    rw [hqueue] at hid
    rcases List.mem_cons.mp hid with rfl | hrest
    · rw [some.inj (hhead.symm.trans hjob)]
    have hpairs := h.ordered p
    rw [hqueue] at hpairs
    obtain ⟨hsequence, hsubmitted⟩ :=
      (List.pairwise_cons.mp hpairs).1 id hrest head job hhead hjob
    obtain ⟨stored, hstored, hbase', -⟩ := h.stored p id
      (hqueue ▸ List.mem_cons_of_mem _ hrest)
    obtain rfl := some.inj (hstored.symm.trans hjob)
    exact selectionKey_le haging (hbase.trans hbase'.symm) hsequence hsubmitted

/-- The selection from the heads is one from all queued jobs. -/
theorem InOrder.selects (h : InOrder jobs queues) (haging : 0 < agingSeconds) :
    Selects agingSeconds now (Queued jobs queues)
      ((MemoryStore.selectHead agingSeconds now (headsOf jobs queues)).map
        (prioritized agingSeconds now)) := by
  have hleast : ∀ selected, MemoryStore.selectHead agingSeconds now (headsOf jobs queues) =
      some selected → Queued jobs queues selected ∧ ∀ other, Queued jobs queues other →
        selectionKey agingSeconds now selected ≤ selectionKey agingSeconds now other := by
    intro selected hselected
    obtain ⟨hmem, hle⟩ := MemoryStore.selectHead_least hselected
    obtain ⟨p, id, hid, hjob⟩ := mem_headsOf.mp hmem
    refine ⟨⟨p, id, List.mem_of_head? hid, hjob⟩, fun other hother => ?_⟩
    obtain ⟨head, hhead, hheadLe⟩ := h.head_le haging hother
    exact (hle head hhead).trans hheadLe
  refine ⟨?_, fun job hjob => ?_, fun job hjob other hother hwait => ?_⟩
  · rw [map_eq_none_iff, MemoryStore.selectHead_eq_none]
    constructor
    · intro hempty job hjob
      obtain ⟨head, hhead, -⟩ := @InOrder.head_le _ _ _ now h haging _ hjob
      rw [hempty] at hhead
      cases hhead
    · intro hnone
      refine List.eq_nil_iff_forall_not_mem.mpr fun head hhead => ?_
      obtain ⟨p, id, hid, hjob⟩ := mem_headsOf.mp hhead
      exact hnone head ⟨p, id, List.mem_of_head? hid, hjob⟩
  · obtain ⟨selected, hselected, rfl⟩ := map_eq_some_iff.mp hjob
    obtain ⟨hqueued, hle⟩ := hleast selected hselected
    exact ⟨selected, hqueued, rfl, hle⟩
  · obtain ⟨selected, hselected, rfl⟩ := map_eq_some_iff.mp hjob
    obtain ⟨hpriority, hsequence⟩ := Prod.Lex.toLex_le_toLex'.mp
      ((hleast selected hselected).2 other hother)
    have haged := @effectivePriority_aged other.basePriority _ _ _ haging hwait
    refine hsequence (le_antisymm hpriority ?_)
    exact haged.trans_le zero_le_effectivePriority

end Queues

/-! ## The two repositories -/

namespace Store

/-- The records of the jobs. -/
def records (s : Store) (id : String) : Option JobRecord := (s.jobs id).map (·.record)

/-- The members of the sorted sets. -/
def queueIds (s : Store) (p : Priority) : List String := (s.queues p).entries.map (·.2)

end Store

namespace RedisJobRepository

variable (repo : RedisJobRepository) {s : Store}

theorem selectHead_eq (now : ℚ) (heads : List JobRecord) :
    repo.selectHead now heads = MemoryStore.selectHead repo.agingSeconds now heads := by
  induction heads with
  | nil => rfl
  | cons job rest ih =>
    unfold selectHead MemoryStore.selectHead
    rw [ih]
    rfl

/-- The head of a queue in order. -/
theorem queueHead_of_inOrder (h : InOrder s.records s.queueIds) (p : Priority) :
    s.queueHead p = .ok ((s.queueIds p).head?.bind s.records) := by
  have hfirst : (s.queues p).first = (s.queueIds p).head? := List.head?_map.symm
  unfold Store.queueHead
  rw [hfirst]
  cases hhead : (s.queueIds p).head? with
  | none => rfl
  | some id =>
    obtain ⟨job, hjob, -, hstate⟩ := h.stored p id (List.mem_of_head? hhead)
    obtain ⟨hash, hhash, rfl⟩ := map_eq_some_iff.mp hjob
    simp only [hhash, bind_some, Store.records, map_some]
    rw [if_neg (not_not.mpr hstate)]

theorem queueHeads_of_inOrder (h : InOrder s.records s.queueIds) :
    s.queueHeads Priority.all = .ok (headsOf s.records s.queueIds) := by
  have hheads : ∀ ps : List Priority, s.queueHeads ps =
      .ok (ps.filterMap fun p => (s.queueIds p).head?.bind s.records) := by
    intro ps
    induction ps with
    | nil => rfl
    | cons p ps ih =>
      unfold Store.queueHeads
      rw [queueHead_of_inOrder h, ih, List.filterMap_cons]
      cases (s.queueIds p).head?.bind s.records <;> rfl
  exact hheads Priority.all

/-- **The best of all.**  With its queues in order, either repository selects the best of all queued
jobs although it compares the heads of the queues only, and Redis is left as it was. -/
theorem peekNext_selects (now : ℚ) (s : Store) (m : MemoryStore)
    (hs : InOrder s.records s.queueIds) (hm : InOrder m.jobs m.queues) :
    (∃ answer, (repo.peekNext now).run exec s = (.ok answer, s) ∧
        Selects repo.agingSeconds now (Queued s.records s.queueIds) answer) ∧
      Selects repo.agingSeconds now (Queued m.jobs m.queues)
        (m.peekNext repo.agingSeconds now) := by
  refine ⟨⟨_, ?_, hs.selects repo.aging_pos⟩, hm.selects repo.aging_pos⟩
  rw [run_peekNext]
  unfold peeked
  rw [queueHeads_of_inOrder hs]
  simp only [selectHead_eq]
  rfl

end RedisJobRepository

/-! ## A job that waited -/

/-- A queued job. -/
def waitingJob (id : String) (submittedAt : ℚ) (enqueueSequence : ℤ) (basePriority : Priority) :
    JobRecord where
  jobId := id
  idempotencyKey := id
  requestSha256 := ""
  requestBody := ""
  submittedAt := submittedAt
  enqueueSequence := enqueueSequence
  basePriority := basePriority

/-- A background job from the start, and an interactive job from later. -/
def waitingJobs : String → Option JobRecord
  | "old" => some (waitingJob "old" 0 1 .background)
  | "new" => some (waitingJob "new" 50 2 .interactive)
  | _ => none

def waitingQueues : Priority → List String
  | .interactive => ["new"]
  | .normal => []
  | .background => ["old"]

/-- The two jobs in the tables of the repository in memory. -/
def waitingMemory : MemoryStore :=
  { MemoryStore.empty with jobs := waitingJobs, queues := waitingQueues }

/-- The two jobs in Redis. -/
def waitingStore : Store :=
  { Store.empty with
    jobs := fun id => (waitingJobs id).map fun job =>
      { record := job, state := job.state, stateVersion := job.stateVersion }
    queues := fun p =>
      match p with
      | .interactive => KeyValue.SortedSet.empty.add 2 "new"
      | .normal => KeyValue.SortedSet.empty
      | .background => KeyValue.SortedSet.empty.add 1 "old" }

theorem inOrder_waiting : InOrder waitingJobs waitingQueues := by
  refine ⟨fun p id hid => ?_, fun p => ?_⟩
  · cases p with
    | interactive | background => exact ⟨_, by rw [List.mem_singleton.mp hid]; rfl, rfl, rfl⟩
    | normal => cases hid
  · cases p with
    | interactive | background => exact List.pairwise_singleton ..
    | normal => exact .nil

theorem records_waiting : waitingStore.records = waitingJobs := by
  funext id
  show ((waitingJobs id).map _).map _ = waitingJobs id
  rw [map_map]
  exact map_id'

theorem queueIds_waiting : waitingStore.queueIds = waitingQueues := by
  funext p
  cases p <;> rfl

def fiveSeconds : RedisJobRepository where
  agingSeconds := 5
  terminalAttemptRetentionSeconds := 60
  sha256 := id
  aging_pos := by decide
  retention_pos := by decide

/-- The job `old` has waited for long in a lower queue. -/
theorem peekNext_selects_waiting :
    (∃ answer, (fiveSeconds.peekNext 60).run exec waitingStore = (.ok answer, waitingStore) ∧
        Selects 5 60 (Queued waitingStore.records waitingStore.queueIds) answer) ∧
      Selects 5 60 (Queued waitingJobs waitingQueues) (waitingMemory.peekNext 5 60) :=
  fiveSeconds.peekNext_selects 60 waitingStore waitingMemory
    (by rw [records_waiting, queueIds_waiting]; exact inOrder_waiting) inOrder_waiting

example : (waitingMemory.peekNext 5 60).map (·.jobId) = some "old" := by decide +kernel

end GpuManager.Broker
