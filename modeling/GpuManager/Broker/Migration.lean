import GpuManager.Broker.Memory
import GpuManager.Lib.Json
import GpuManager.Lib.PythonText

/-!
# Migration of the legacy stream

`LegacyMigration.execute` takes a fence, submits a job for each entry of the legacy stream, switches
the legacy ingress off and keeps its report.  The repository is any store of jobs with a `submit`;
the calls follow one another.

* `submitEntries_ok_iff`: the loop succeeds exactly if each entry makes a job and each job is
  accepted in its turn.
* `AllOrNothing`: a call returns a full report, or raises with everything as it was.

The fence is taken before the loop and never given back, so a call that fails in the loop is the
last one that does anything.
-/

namespace GpuManager.Broker

open Except

namespace LegacyMigration

variable {F R : Type}

/-- The fields of an entry. -/
abbrev EntryFields := List (String × String)

/-- What the migration calls of `json`, `hashlib` and the built-in conversions; `loads` and `int`
raise what they raise. -/
structure Codec (F : Type) where
  loads : String → Except BrokerError (Json F)
  dumps : Json F → String
  sha256 : String → String
  truthy : Json F → Bool
  int : Json F → Except BrokerError ℤ

/-- `MigrationBlocked`. -/
def blocked (message : String) : BrokerError := .other "MigrationBlocked" message

/-- `fields.get(key)`. -/
def field (fields : EntryFields) (key : String) : Option String :=
  (fields.find? fun f => f.1 = key).map (·.2)

/-- `_job_id`. -/
def jobId (codec : Codec F) (entryId : String) : String :=
  "legacy-" ++ PythonText.slice 24 (codec.sha256 entryId)

/-- `_request`. -/
def request (codec : Codec F) (fields : EntryFields) : Except BrokerError (Json F) :=
  match (field fields "request").or ((field fields "request_body").or (field fields "payload")) with
  | none => .ok (.obj [])
  | some text => do
      let value ← codec.loads text
      if value.isObj then pure value else .error (blocked "LEGACY_REQUEST_INVALID")

/-- `Priority(int(priority_raw))`, and `NORMAL` where that raises. -/
def basePriority (codec : Codec F) (fields : EntryFields) : Priority :=
  match field fields "priority" with
  | none => .normal
  | some text =>
    match codec.int (.str (PyStr.text text)) with
    | .error _ => .normal
    | .ok n => (Priority.all.find? fun p => p.toInt = n).getD .normal

def maxOutputTokens (codec : Codec F) (request : Json F) : Except BrokerError ℤ :=
  match request.get? "max_tokens" with
  | none => .ok 0
  | some value => if codec.truthy value then codec.int value else .ok 0

/-- The job of an entry. -/
def jobOf (codec : Codec F) (now : ℚ) (sequence : ℕ) (entry : String × EntryFields) :
    Except BrokerError JobRecord := do
  let request ← request codec entry.2
  let encoded := codec.dumps request
  let maxOutputTokens ← maxOutputTokens codec request
  pure
    { jobId := jobId codec entry.1
      idempotencyKey := "legacy:" ++ entry.1
      requestSha256 := codec.sha256 encoded
      requestBody := encoded
      submittedAt := now
      enqueueSequence := sequence
      basePriority := basePriority codec entry.2
      maxOutputTokens := some maxOutputTokens
      requiredCapabilities := ["chat"] }

/-- `MigrationReport`. -/
structure MigrationReport where
  dryRun : Bool
  migratedEntryIds : List String
  jobIds : List String
  ignoredLegacySlotKeys : List String
  deriving DecidableEq

structure State (R : Type) where
  report : Option MigrationReport
  fence : Bool
  ingress : Option String
  ingressPreimage : Option String
  repository : R

/-- What a call finds: the pending count, unless asking for it raises, the work in flight, the
entries, the keys of the slots and the times at which the jobs are made. -/
structure Legacy where
  pending : Option ℤ
  inFlight : ℤ
  entries : List (String × EntryFields)
  slotKeys : List String
  now : ℕ → ℚ

/-- `_slot_keys`. -/
def Legacy.ignoredSlotKeys (legacy : Legacy) : List String :=
  (legacy.slotKeys.filter fun key => "Gemma".toList <:+: key.toList).insertionSort (· ≤ ·)

def Legacy.reportOf (legacy : Legacy) (jobIds : List String) : MigrationReport where
  dryRun := false
  migratedEntryIds := legacy.entries.map (·.1)
  jobIds := jobIds
  ignoredLegacySlotKeys := legacy.ignoredSlotKeys

section Execute

variable (codec : Codec F) (submit : JobRecord → R → Except BrokerError JobRecord × R)

/-- The loop of `execute`: the ids of the submitted jobs. -/
def submitEntries (now : ℕ → ℚ) :
    ℕ → List (String × EntryFields) → R → Except BrokerError (List String) × R
  | _, [], repository => (.ok [], repository)
  | sequence, entry :: entries, repository =>
    match jobOf codec (now sequence) sequence entry with
    | .error e => (.error e, repository)
    | .ok job =>
      match submit job repository with
      | (.error e, repository) => (.error e, repository)
      | (.ok stored, repository) =>
        match submitEntries now (sequence + 1) entries repository with
        | (.error e, repository) => (.error e, repository)
        | (.ok jobIds, repository) => (.ok (stored.jobId :: jobIds), repository)

/-- `execute`. -/
def execute (legacy : Legacy) (s : State R) : Except BrokerError MigrationReport × State R :=
  match s.report with
  | some prior => (.ok prior, s)
  | none =>
    match legacy.pending with
    | none => (.error (blocked ReasonCode.redisStateUnknown.value), s)
    | some pending =>
      if pending ≠ 0 then (.error (blocked ReasonCode.migrationPelNotEmpty.value), s)
      else if legacy.inFlight ≠ 0 then (.error (blocked "MIGRATION_IN_FLIGHT_NOT_EMPTY"), s)
      else if s.fence then (.error (blocked "MIGRATION_FENCE_HELD"), s)
      else
        match submitEntries codec submit legacy.now 1 legacy.entries s.repository with
        | (.error e, repository) =>
          (.error e, { s with fence := true, repository := repository })
        | (.ok jobIds, repository) =>
          (.ok (legacy.reportOf jobIds),
            { report := some (legacy.reportOf jobIds)
              fence := true
              ingress := some "false"
              ingressPreimage := some (s.ingress.getD "")
              repository := repository })

/-- What the calls of a run return. -/
def executeAll : List Legacy → State R → List (Except BrokerError MigrationReport)
  | [], _ => []
  | legacy :: calls, s =>
    (execute codec submit legacy s).1 :: executeAll calls (execute codec submit legacy s).2

end Execute

/-! ## All or nothing -/

section Properties

variable (codec : Codec F) (submit : JobRecord → R → Except BrokerError JobRecord × R)

/-- The jobs of the entries. -/
def jobsOf (now : ℕ → ℚ) : ℕ → List (String × EntryFields) → Except BrokerError (List JobRecord)
  | _, [] => .ok []
  | sequence, entry :: entries => do
      let job ← jobOf codec (now sequence) sequence entry
      let jobs ← jobsOf now (sequence + 1) entries
      pure (job :: jobs)

/-- Jobs are accepted one after the other, and recorded under these ids. -/
inductive Submitted : List JobRecord → R → List String → R → Prop where
  | nil (repository : R) : Submitted [] repository [] repository
  | cons {job stored : JobRecord} {jobs : List JobRecord} {jobIds : List String}
      {repository next last : R} (head : submit job repository = (.ok stored, next))
      (tail : Submitted jobs next jobIds last) :
      Submitted (job :: jobs) repository (stored.jobId :: jobIds) last

/-- A call ends before it takes the fence: work is pending or in flight, or that is unknown. -/
def Blocked (legacy : Legacy) : Prop := legacy.pending ≠ some 0 ∨ legacy.inFlight ≠ 0

/-- Each entry makes a job, and the repository accepts the jobs in their order. -/
def Accepted (legacy : Legacy) (repository : R) : Prop :=
  ∃ jobs jobIds last, jobsOf codec legacy.now 1 legacy.entries = .ok jobs ∧
    Submitted submit jobs repository jobIds last

/-- The report lists every entry, with the one job that was submitted for it. -/
def Lists (legacy : Legacy) (report : MigrationReport) (repository last : R) : Prop :=
  report.dryRun = false ∧ report.migratedEntryIds = legacy.entries.map (·.1) ∧
    ∃ jobs, jobsOf codec legacy.now 1 legacy.entries = .ok jobs ∧
      Submitted submit jobs repository report.jobIds last

/-- A call returns the report of an earlier one and does nothing, or returns a full report with the
ingress switched off, or raises with no job submitted and the ingress as it was, so that a later
call can return. -/
def AllOrNothing (legacy : Legacy) (s : State R) : Prop :=
  match execute codec submit legacy s with
  | (.ok report, next) =>
    (s.report = some report ∧ next = s) ∨
    (s.report = none ∧ Lists codec submit legacy report s.repository next.repository ∧
      next.ingress = some "false" ∧ next.report = some report)
  | (.error _, next) =>
    next.repository = s.repository ∧ next.ingress = s.ingress ∧
      ∃ later report, (execute codec submit later next).1 = .ok report

def EachAllOrNothing : List Legacy → State R → Prop
  | [], _ => True
  | legacy :: calls, s => AllOrNothing codec submit legacy s ∧
      EachAllOrNothing calls (execute codec submit legacy s).2

/-- In the first call that is not blocked, every entry is accepted. -/
def FirstAccepted : List Legacy → R → Prop
  | [], _ => True
  | legacy :: calls, repository =>
    (Blocked legacy ∧ FirstAccepted calls repository) ∨
      (¬ Blocked legacy ∧ Accepted codec submit legacy repository)

end Properties

section Runs

variable {codec : Codec F} {submit : JobRecord → R → Except BrokerError JobRecord × R}
  {legacy : Legacy} {s : State R}

/-- The loop succeeds exactly if each entry makes a job and each job is accepted. -/
theorem submitEntries_ok_iff {now : ℕ → ℚ} {sequence : ℕ} {entries : List (String × EntryFields)}
    {repository last : R} {jobIds : List String} :
    submitEntries codec submit now sequence entries repository = (.ok jobIds, last) ↔
      ∃ jobs, jobsOf codec now sequence entries = .ok jobs ∧
        Submitted submit jobs repository jobIds last := by
  induction entries generalizing sequence repository jobIds with
  | nil =>
    constructor
    · intro h
      obtain ⟨hids, rfl⟩ := Prod.mk.inj h
      obtain rfl := ok.inj hids
      exact ⟨[], rfl, .nil _⟩
    · rintro ⟨jobs, hjobs, hsubmitted⟩
      obtain rfl := ok.inj hjobs
      cases hsubmitted
      rfl
  | cons entry entries ih =>
    unfold submitEntries jobsOf
    cases hjob : jobOf codec (now sequence) sequence entry with
    | error e =>
      refine iff_of_false (fun h => by cases h) ?_
      rintro ⟨jobs, hjobs, -⟩
      cases hjobs
    | ok job =>
      simp only
      rcases hsubmit : submit job repository with ⟨e | stored, next⟩
      · refine iff_of_false (fun h => by cases h) ?_
        rintro ⟨jobs, hjobs, hsubmitted⟩
        cases hrest : jobsOf codec now (sequence + 1) entries with
        | error e =>
          rw [hrest] at hjobs
          cases hjobs
        | ok rest =>
          rw [hrest] at hjobs
          obtain rfl := ok.inj hjobs
          cases hsubmitted with
          | cons head tail =>
            rw [hsubmit] at head
            cases head
      · simp only
        constructor
        · intro h
          rcases hrest : submitEntries codec submit now (sequence + 1) entries next with
            ⟨e | ids, repository'⟩
          · rw [hrest] at h
            cases h
          rw [hrest] at h
          obtain ⟨hids, rfl⟩ := Prod.mk.inj h
          obtain rfl := ok.inj hids
          obtain ⟨jobs, hjobs, hsubmitted⟩ := ih.mp hrest
          exact ⟨job :: jobs, by rw [hjobs]; rfl, .cons hsubmit hsubmitted⟩
        · rintro ⟨jobs, hjobs, hsubmitted⟩
          cases hrest : jobsOf codec now (sequence + 1) entries with
          | error e =>
            rw [hrest] at hjobs
            cases hjobs
          | ok rest =>
            rw [hrest] at hjobs
            obtain rfl := ok.inj hjobs
            cases hsubmitted with
            | cons head tail =>
              rw [hsubmit] at head
              obtain ⟨hstored, rfl⟩ := Prod.mk.inj head
              obtain rfl := ok.inj hstored
              rw [ih.mpr ⟨rest, hrest, tail⟩]

/-- A fence that is held stops every later call. -/
theorem execute_of_fence (hreport : s.report = none) (hfence : s.fence = true) (later : Legacy) :
    ∃ e, execute codec submit later s = (.error e, s) := by
  unfold execute
  rw [hreport]
  simp only [hfence, if_true]
  cases later.pending with
  | none => exact ⟨_, rfl⟩
  | some pending =>
    simp only
    split
    · exact ⟨_, rfl⟩
    split <;> exact ⟨_, rfl⟩

theorem execute_of_blocked (hreport : s.report = none) (hblocked : Blocked legacy) :
    ∃ e, execute codec submit legacy s = (.error e, s) := by
  unfold execute
  rw [hreport]
  cases hpending : legacy.pending with
  | none => exact ⟨_, rfl⟩
  | some pending =>
    simp only
    split
    · exact ⟨_, rfl⟩
    rename_i hzero
    split
    · exact ⟨_, rfl⟩
    rename_i hidle
    rcases hblocked with hblocked | hblocked
    · exact absurd (hpending.trans (congrArg some (not_not.mp hzero))) hblocked
    · exact absurd hblocked hidle

variable {report : MigrationReport}

theorem execute_of_report (hreport : s.report = some report) :
    execute codec submit legacy s = (.ok report, s) := by
  unfold execute
  rw [hreport]

/-- With a free fence the first unblocked call submits every entry, or stops at one. -/
theorem execute_of_free (hreport : s.report = none) (hblocked : ¬ Blocked legacy)
    (hfence : s.fence = false) :
    (Accepted codec submit legacy s.repository ∧ ∃ report next,
      execute codec submit legacy s = (.ok report, next) ∧
        Lists codec submit legacy report s.repository next.repository ∧
        next.ingress = some "false" ∧ next.report = some report) ∨
    ¬ Accepted codec submit legacy s.repository ∧ ∃ e next,
      execute codec submit legacy s = (.error e, next) ∧ next.report = none ∧
        next.fence = true := by
  obtain ⟨hpending, hidle⟩ := not_or.mp hblocked
  rcases hloop : submitEntries codec submit legacy.now 1 legacy.entries s.repository with
    ⟨e | jobIds, last⟩
  · refine Or.inr ⟨?_, e, { s with fence := true, repository := last }, ?_, hreport, rfl⟩
    · rintro ⟨jobs, jobIds, last', hjobs, hsubmitted⟩
      rw [submitEntries_ok_iff.mpr ⟨jobs, hjobs, hsubmitted⟩] at hloop
      cases hloop
    · unfold execute
      rw [hreport, not_not.mp hpending]
      simp only [not_not.mp hidle, hfence, hloop, ne_eq, not_true_eq_false, if_false,
        Bool.false_eq_true]
  · obtain ⟨jobs, hjobs, hsubmitted⟩ := submitEntries_ok_iff.mp hloop
    refine Or.inl ⟨⟨jobs, jobIds, last, hjobs, hsubmitted⟩, legacy.reportOf jobIds,
      ⟨some (legacy.reportOf jobIds), true, some "false", some (s.ingress.getD ""), last⟩, ?_,
      ⟨rfl, rfl, jobs, hjobs, hsubmitted⟩, rfl, rfl⟩
    unfold execute
    rw [hreport, not_not.mp hpending]
    simp only [not_not.mp hidle, hfence, hloop, ne_eq, not_true_eq_false, if_false,
      Bool.false_eq_true]

/-- A call can return from a state whose fence is free. -/
theorem execute_empty (hreport : s.report = none) (hfence : s.fence = false) :
    ∃ later report, (execute codec submit later s).1 = .ok report := by
  let later : Legacy := ⟨some 0, 0, [], [], fun _ => 0⟩
  have hfree : ¬ Blocked later := fun h => h.elim (fun h => h rfl) fun h => h rfl
  rcases @execute_of_free _ _ codec submit later s hreport hfree hfence with
    ⟨-, report, next, hexecute, -⟩ | ⟨hnot, -⟩
  · exact ⟨later, report, congrArg Prod.fst hexecute⟩
  · exact absurd ⟨[], [], s.repository, rfl, .nil _⟩ hnot

/-- One call is all or nothing exactly if there is a report, or the fence is free and the call is
blocked or accepted as a whole. -/
theorem allOrNothing_iff : AllOrNothing codec submit legacy s ↔
    s.report.isSome ∨ s.fence = false ∧
      (Blocked legacy ∨ Accepted codec submit legacy s.repository) := by
  unfold AllOrNothing
  cases hreport : s.report with
  | some prior =>
    rw [execute_of_report hreport]
    exact iff_of_true (Or.inl ⟨rfl, rfl⟩) (Or.inl rfl)
  | none =>
    have hsome : (none : Option MigrationReport).isSome = true ↔ False :=
      iff_of_false (by decide) id
    rw [hsome, false_or]
    by_cases hblocked : Blocked legacy
    · obtain ⟨e, hexecute⟩ := @execute_of_blocked _ _ codec submit _ _ hreport hblocked
      rw [hexecute]
      simp only [hblocked, true_or, and_true, true_and]
      constructor
      · rintro ⟨later, report, hlater⟩
        by_contra hfence
        obtain ⟨e, hheld⟩ := @execute_of_fence _ _ codec submit _ hreport
          (Bool.not_eq_false _ ▸ hfence) later
        rw [hheld] at hlater
        cases hlater
      · exact execute_empty hreport
    · by_cases hfence : s.fence = false
      · rcases execute_of_free hreport hblocked hfence with
          ⟨haccepted, report, next, hexecute, hlists, hingress, hnext⟩ |
          ⟨hnot, e, next, hexecute, hnext, hheld⟩
        · rw [hexecute]
          exact iff_of_true (Or.inr ⟨rfl, hlists, hingress, hnext⟩)
            ⟨hfence, Or.inr haccepted⟩
        · rw [hexecute]
          refine iff_of_false ?_ fun h => h.2.elim hblocked hnot
          rintro ⟨-, -, later, report, hlater⟩
          obtain ⟨e, hstuck⟩ := @execute_of_fence _ _ codec submit _ hnext hheld later
          rw [hstuck] at hlater
          cases hlater
      · obtain ⟨e, hstuck⟩ := @execute_of_fence _ _ codec submit _ hreport
          (Bool.not_eq_false _ ▸ hfence) legacy
        rw [hstuck]
        refine iff_of_false ?_ fun h => hfence h.1
        rintro ⟨-, -, later, report, hlater⟩
        obtain ⟨e, hstuck⟩ := @execute_of_fence _ _ codec submit _ hreport
          (Bool.not_eq_false _ ▸ hfence) later
        rw [hstuck] at hlater
        cases hlater

theorem each_of_report (hreport : s.report = some report)
    (calls : List Legacy) : EachAllOrNothing codec submit calls s ∧
      ∀ outcome ∈ executeAll codec submit calls s, outcome = .ok report := by
  induction calls with
  | nil => exact ⟨trivial, fun _ h => (by cases h)⟩
  | cons legacy calls ih =>
    have hcall := @execute_of_report _ _ codec submit legacy _ _ hreport
    unfold EachAllOrNothing executeAll
    rw [hcall]
    refine ⟨⟨allOrNothing_iff.mpr (Or.inl (hreport ▸ rfl)), ih.1⟩, fun outcome houtcome => ?_⟩
    rcases List.mem_cons.mp houtcome with rfl | houtcome
    · rfl
    · exact ih.2 outcome houtcome

theorem reports_same (calls : List Legacy) (s : State R) {report' : MigrationReport}
    (h : .ok report ∈ executeAll codec submit calls s)
    (h' : .ok report' ∈ executeAll codec submit calls s) : report = report' := by
  induction calls generalizing s with
  | nil => cases h
  | cons legacy calls ih =>
    -- The first report that is returned is kept.
    have hkept : ∀ first next, execute codec submit legacy s = (.ok first, next) →
        next.report = some first := by
      intro first next hexecute
      cases hreport : s.report with
      | some prior =>
        rw [execute_of_report hreport] at hexecute
        obtain ⟨hfirst, rfl⟩ := Prod.mk.inj hexecute
        rw [hreport, ok.inj hfirst]
      | none =>
        have hfence : s.fence = false := by
          by_contra hheld
          obtain ⟨e, hstuck⟩ := @execute_of_fence _ _ codec submit _ hreport
            (Bool.not_eq_false _ ▸ hheld) legacy
          rw [hstuck] at hexecute
          cases hexecute
        have hblocked : ¬ Blocked legacy := by
          intro hblocked
          obtain ⟨e, hstuck⟩ := @execute_of_blocked _ _ codec submit _ _ hreport hblocked
          rw [hstuck] at hexecute
          cases hexecute
        rcases @execute_of_free _ _ codec submit _ _ hreport hblocked hfence with
          ⟨-, report, next', hcall, -, -, hnext⟩ | ⟨-, e, next', hcall, -⟩
        · rw [hcall] at hexecute
          obtain ⟨hfirst, rfl⟩ := Prod.mk.inj hexecute
          rw [hnext, ok.inj hfirst]
        · rw [hcall] at hexecute
          cases hexecute
    unfold executeAll at h h'
    rcases hexecute : execute codec submit legacy s with ⟨e | first, next⟩
    · rw [hexecute] at h h'
      rcases List.mem_cons.mp h with h | h
      · cases h
      rcases List.mem_cons.mp h' with h' | h'
      · cases h'
      exact ih next h h'
    · rw [hexecute] at h h'
      have hsame := (@each_of_report _ _ codec submit _ _ (hkept first next hexecute) calls).2
      have heq : ∀ r, Except.ok r ∈ Except.ok first :: executeAll codec submit calls next →
          r = first := by
        intro r hr
        rcases List.mem_cons.mp hr with hr | hr
        · exact ok.inj hr
        · exact ok.inj (hsame _ hr)
      exact (heq _ h).trans (heq _ h').symm

/-- A run from a state with a free fence is all or nothing throughout exactly if its first call that
is not blocked is accepted. -/
theorem each_iff_of_free (hreport : s.report = none) (hfence : s.fence = false)
    (calls : List Legacy) : EachAllOrNothing codec submit calls s ↔
      FirstAccepted codec submit calls s.repository := by
  induction calls with
  | nil => exact iff_of_true trivial trivial
  | cons legacy calls ih =>
    unfold EachAllOrNothing FirstAccepted
    rw [allOrNothing_iff]
    by_cases hblocked : Blocked legacy
    · obtain ⟨e, hexecute⟩ := @execute_of_blocked _ _ codec submit _ _ hreport hblocked
      rw [hexecute]
      simp only [hblocked, hfence, true_or, and_true, or_true, true_and, not_true_eq_false,
        false_and, or_false]
      exact ih
    · simp only [hblocked, hfence, hreport, false_or, false_and, not_false_eq_true, true_and,
        Option.isSome_none, Bool.false_eq_true]
      constructor
      · exact fun h => h.1
      · intro haccepted
        rcases @execute_of_free _ _ codec submit _ _ hreport hblocked hfence with
          ⟨-, report, next, hcall, -, -, hnext⟩ | ⟨hnot, -⟩
        · rw [hcall]
          exact ⟨haccepted, (each_of_report hnext calls).1⟩
        · exact absurd haccepted hnot

end Runs

/-- A run of calls is all or nothing, with one report for all, exactly if there is nothing to do, or
a report, or the fence is free and in the first call that is not blocked every entry is accepted. -/
theorem execute_allOrNothing (codec : Codec F)
    (submit : JobRecord → R → Except BrokerError JobRecord × R) (calls : List Legacy) (s : State R) :
    (EachAllOrNothing codec submit calls s ∧
      ∀ report report', .ok report ∈ executeAll codec submit calls s →
        .ok report' ∈ executeAll codec submit calls s → report = report') ↔
      calls = [] ∨ s.report.isSome ∨
        s.fence = false ∧ FirstAccepted codec submit calls s.repository := by
  rw [and_iff_left fun report report' => reports_same calls s]
  cases hreport : s.report with
  | some report =>
    exact iff_of_true (each_of_report hreport calls).1 (Or.inr (Or.inl rfl))
  | none =>
    by_cases hfence : s.fence = false
    · rw [each_iff_of_free hreport hfence]
      constructor
      · exact fun h => Or.inr (Or.inr ⟨hfence, h⟩)
      · rintro (rfl | h | h)
        · trivial
        · cases h
        · exact h.2
    · cases calls with
      | nil => exact iff_of_true trivial (Or.inl rfl)
      | cons legacy calls =>
        refine iff_of_false (fun h => ?_) ?_
        · rcases allOrNothing_iff.mp h.1 with h | h
          · rw [hreport] at h
            cases h
          · exact hfence h.1
        · rintro (h | h | h)
          · cases h
          · cases h
          · exact hfence h.1

/-! ## A malformed entry -/

def sampleCodec : Codec ℕ where
  loads text := if text = "{}" then .ok (.obj []) else .ok (.arr [])
  dumps _ := "{}"
  sha256 := id
  truthy _ := false
  int _ := .ok 0

def malformed : Legacy where
  pending := some 0
  inFlight := 0
  entries := [("1-0", [("request", "{}")]), ("2-0", [("request", "[]")])]
  slotKeys := []
  now _ := 0

/-- Nothing was migrated. -/
def unmigrated : State MemoryStore := ⟨none, false, none, none, MemoryStore.empty⟩

/-- The repository in memory, called by the migration. -/
def submitLegacy (job : JobRecord) : MemoryStore.Method JobRecord :=
  MemoryStore.submit job "legacy-migration"

/-- The first entry is submitted, and no later call can return. -/
theorem malformed_partial :
    ¬ EachAllOrNothing sampleCodec submitLegacy [malformed] unmigrated ∧
      ((execute sampleCodec submitLegacy malformed unmigrated).2.repository.jobs
        "legacy-1-0").isSome = true := by
  refine ⟨fun h => ?_, by decide +kernel⟩
  rcases allOrNothing_iff.mp h.1 with h | ⟨-, hblocked | ⟨jobs, jobIds, last, hjobs, -⟩⟩
  · cases h
  · exact hblocked.elim (fun h => h rfl) fun h => h rfl
  have herror : jobsOf sampleCodec malformed.now 1 malformed.entries =
      .error (blocked "LEGACY_REQUEST_INVALID") := rfl
  rw [herror] at hjobs
  cases hjobs

end LegacyMigration

end GpuManager.Broker
