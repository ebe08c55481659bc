import GpuManager.Host.Supervisor
import GpuManager.Runtime.StateFile

/-!
# Process generations

`transition_runtime` publishes what a `HostRuntimeSupervisor` observes, and the store rejects an
observation of an older process generation.  The number is a word of `/proc/<pid>/stat`, the ticks
from the boot of the host to the start of the process; without a process it is the fence of the
transition.

`readmitted`: a runtime that is reported ready is not rejected in a history in which the words of
the texts are where the supervisor looks for them (`Plain`), and in which a process that is
reported ready started at no fewer ticks than the numbers that were published before
(`Grows`).  A reboot of the host breaks the second, because the ticks start again: see
`rebooted_not_readmitted`.
-/

namespace GpuManager.Host

open Machine PyStr GpuManager.Runtime PythonText List Option

def Word (s : String) : Prop := s.toList ≠ [] ∧ ∀ c ∈ s.toList, isSpace c = false

/-- What `/proc/<pid>/stat` says of a process: its number and its name, nineteen words, the ticks
at which it started, and more words. -/
structure ProcStat where
  pid : ℕ
  name : String
  fields : List String
  ticks : ℕ
  rest : List String
  length_fields : fields.length = 19
  words : ∀ w ∈ fields ++ rest, Word w

/-- The words, if the name is one. -/
def ProcStat.all (p : ProcStat) : List String :=
  [toString p.pid, "(" ++ p.name ++ ")"] ++ p.fields ++ [toString p.ticks] ++ p.rest

/-- Words on one line. -/
def line (words : List String) : String :=
  String.ofList (List.intercalate [' '] (words.map String.toList) ++ ['\n'])

/-- The text of the file. -/
def ProcStat.text (p : ProcStat) : String := line p.all

/-- What the host sees of a profile.  There is no process to read if it is gone, or if its name is
no UTF-8. -/
structure Sighting where
  binding : Json ℚ
  unit : UnitState
  modelReady : Bool
  drained : Bool
  process : Option ProcStat

/-- An observation as the client of the supervisor hands it on. -/
def Observation.toJson (observed : Observation) : Json ℚ :=
  .obj [(text "profile_name", observed.profileName),
    (text "profile_fingerprint", observed.profileFingerprint),
    (text "state", .str (text observed.state.value)),
    (text "process_generation", .int observed.processGeneration),
    (text "process_ready", .bool observed.processReady),
    (text "model_ready", .bool observed.modelReady),
    (text "accepting", .bool observed.accepting),
    (text "model_set", observed.modelSet)]

/-- The observation that the supervisor makes under a fence. -/
def Sighting.observed (seen : Sighting) (fence : ℤ) : Observation :=
  HostProg.observationOf seen.binding fence seen.unit seen.modelReady seen.drained
    (seen.process.map ProcStat.text)

def publishes : StateCall → Bool
  | .publishObservation _ _ _ _ => true
  | _ => false

/-- A call of a transition.  What it publishes, the host has seen. -/
inductive Episode where
  | other (call : StateCall) (h : publishes call = false)
  | publish (lease : TransitionLease) (profile : Json ℚ) (seen : Sighting) (now : ℚ)

/-- The call of the store. -/
def Episode.stateCall : Episode → StateCall
  | other call _ => call
  | publish lease profile seen now =>
    .publishObservation lease profile (seen.observed lease.fence).toJson now

/-- One call of a history. -/
def episodeStep (c : Contracts) (episode : Episode) (records : Records) :
    Except StateError Returned × Records :=
  match change c episode.stateCall records with
  | .ok (answer, records) => (.ok answer, records)
  | .error e => (.error e, records)

def Episode.ReportsReady : Episode → Prop
  | other _ _ => False
  | publish lease _ seen _ => (seen.observed lease.fence).state = .ready

instance : (episode : Episode) → Decidable episode.ReportsReady
  | .other _ _ => inferInstanceAs (Decidable False)
  | .publish lease _ seen _ =>
    inferInstanceAs (Decidable ((seen.observed lease.fence).state = .ready))

/-- The text of a process can be read, and its name is one word. -/
def Episode.Plain : Episode → Prop
  | other _ _ => True
  | publish _ _ seen _ => 0 < seen.unit.pid →
      ∃ p ∈ seen.process, ∀ c ∈ p.name.toList, isSpace c = false

/-- The ticks at which the process started, or the fence when there is no process. -/
def Sighting.number (seen : Sighting) (fence : ℤ) : ℤ :=
  if 0 < seen.unit.pid then (seen.process.map fun p => (p.ticks : ℤ)).getD fence else fence

/-- The numbers that an episode publishes for an instance. -/
def Episode.numbers (instanceId : PyStr) : Episode → List ℤ
  | other _ _ => []
  | publish lease _ seen _ =>
    if lease.instanceId = instanceId then [seen.number lease.fence] else []

/-- If the second of two episodes reports the profile ready, its process started at no fewer ticks
than what the first one published for the instance: the start of an earlier process, or the fence
of a stop. -/
def Episode.Precedes (earlier : Episode) : Episode → Prop
  | other _ _ => True
  | publish lease _ seen _ => (seen.observed lease.fence).state = .ready →
      ∀ n ∈ earlier.numbers lease.instanceId, n ≤ seen.number lease.fence

instance (earlier : Episode) : (episode : Episode) → Decidable (earlier.Precedes episode)
  | .other _ _ => inferInstanceAs (Decidable True)
  | .publish lease _ seen _ => inferInstanceAs (Decidable
      ((seen.observed lease.fence).state = .ready →
        ∀ n ∈ earlier.numbers lease.instanceId, n ≤ seen.number lease.fence))

/-- The ticks of what is reported ready grow: this is so as long as the host does not reboot, if
the processes of an instance follow each other and no fence is beyond their ticks. -/
def Grows (episodes : List Episode) : Prop := episodes.Pairwise Episode.Precedes

/-- The message of `publish_observation` for an older process generation. -/
def olderGeneration : StateError :=
  .conflict (text "runtime observation is from an older process generation")

/-! ## The word of the ticks -/

theorem word_toString (n : ℕ) : Word (toString n) := by
  refine ⟨fun hnil => ?_, fun c hc => ?_⟩
  · have hempty : n.repr = "" := String.toList_injective hnil
    exact Nat.repr_ne_empty hempty
  · have hmem : c ∈ Nat.toDigits 10 n := by simpa [Nat.toDigits] using hc
    exact isSpace_of_isDigit
      (Nat.isDigit_of_mem_toDigits (by decide) (by decide) hmem)

theorem ProcStat.words_all (p : ProcStat) (hname : ∀ c ∈ p.name.toList, isSpace c = false) :
    ∀ w ∈ p.all, Word w := by
  have hnamed : Word ("(" ++ p.name ++ ")") := by
    refine ⟨by simp, fun c hc => ?_⟩
    simp only [String.toList_append, mem_append] at hc
    rcases hc with (hc | hc) | hc
    · obtain rfl : c = '(' := by simpa using hc
      decide
    · exact hname c hc
    · obtain rfl : c = ')' := by simpa using hc
      decide
  intro w hw
  simp only [ProcStat.all, mem_append, mem_cons, not_mem_nil, or_false] at hw
  rcases hw with (((rfl | rfl) | hw) | rfl) | hw
  · exact word_toString p.pid
  · exact hnamed
  · exact p.words w (mem_append_left _ hw)
  · exact word_toString p.ticks
  · exact p.words w (mem_append_right _ hw)

/-- The supervisor finds the ticks, if the name is one word. -/
theorem statGeneration_text (p : ProcStat)
    (hname : ∀ c ∈ p.name.toList, isSpace c = false) :
    HostProg.statGeneration (some p.text) = some (max 1 (p.ticks : ℤ)) := by
  have hsplit : split p.text = p.all := split_line (p.words_all hname)
  have hword : p.all[21]? = some (toString p.ticks) := by
    unfold ProcStat.all
    rw [append_assoc, List.getElem?_append_right (by simp [p.length_fields])]
    simp [p.length_fields]
  unfold HostProg.statGeneration
  simp only [bind_eq_bind, bind_some, hsplit, hword, int_toString]
  rfl

variable {lease : TransitionLease} {profile : Json ℚ} {now : ℚ} {seen : Sighting}

theorem generation_observed (hplain : (Episode.publish lease profile seen now).Plain) :
    (seen.observed lease.fence).processGeneration = max 1 (seen.number lease.fence) := by
  show HostProg.generation (seen.process.map ProcStat.text) seen.unit.pid lease.fence = _
  unfold HostProg.generation Sighting.number
  split
  · rename_i hpid
    obtain ⟨p, hp, hname⟩ := hplain hpid
    rw [mem_def.mp hp]
    simp only [map_some, statGeneration_text p hname, getD_some]
  · rfl

/-! ## Histories -/

variable {c : Contracts} {records : Records} {episodes past : List Episode} {episode : Episode}

/-- An observation is rejected for an older generation only if a greater one is stored. -/
theorem stored_of_older {observation : Json ℚ}
    (h : publishObservation c lease profile observation now records = .error olderGeneration) :
    ∃ record, records.get? lease.instanceId = some record ∧
      (int? (observation.get "process_generation")).getD 0 < record.processGeneration := by
  unfold publishObservation at h
  simp only at h
  split at h
  · cases h
  split at h
  · cases h
  split at h
  · cases h
  rename_i record hrecord
  split at h
  · rename_i e hraise
    have howner : ∃ message, requireOwner record lease now = .error (.state message) ∨
        requireOwner record lease now =
          .error (.conflict (text "runtime transition lease is stale or expired")) := by
      unfold requireOwner at hraise ⊢
      split
      · exact ⟨_, Or.inl rfl⟩
      split
      · rename_i hname howned
        rw [if_neg hname, if_pos howned] at hraise
        cases hraise
      · exact ⟨[], Or.inr rfl⟩
    obtain ⟨message, hmessage | hmessage⟩ := howner
    · rw [hmessage] at hraise
      cases hraise
      cases h
    · rw [hmessage] at hraise
      cases hraise
      exact absurd (Except.error.inj h) (by decide)
  · split at h
    · cases h
    split at h
    · rename_i e hstored
      unfold storedGeneration at hstored
      split at hstored
      · rename_i hlt
        exact ⟨record, hrecord, hlt⟩
      · cases hstored
    · split at h
      · cases h
      · split at h <;> cases h

def Published (episodes : List Episode) (records : Records) : Prop :=
  ∀ id record, records.get? id = some record → record.processGeneration ≤ 0 ∨
    ∃ episode ∈ episodes, ∃ n ∈ episode.numbers id, record.processGeneration ≤ max 1 n

theorem Published.mono (h : Published episodes records)
    (episode : Episode) : Published (episodes ++ [episode]) records := by
  intro id record hrecord
  rcases h id record hrecord with hle | ⟨e, he, n, hn, hle⟩
  · exact Or.inl hle
  · exact Or.inr ⟨e, mem_append_left _ he, n, hn, hle⟩

/-- What a call leaves as the generation is the one before, or the one that it publishes. -/
theorem written_generation (hplain : episode.Plain) (current : InstanceRecord) :
    (episode.stateCall.written c current).processGeneration = current.processGeneration ∨
      ∃ n ∈ episode.numbers episode.stateCall.instanceId,
        (episode.stateCall.written c current).processGeneration =
          max current.processGeneration (max 1 n) := by
  cases episode with
  | other call h =>
    left
    cases call with
    | publishObservation lease profile observation now => cases h
    | register instanceId profileName profile now
    | beginTransition instanceId profileName profile owner desiredState ttlSeconds now
    | renew lease ttlSeconds now | failTransition lease error now =>
      rfl
  | publish lease profile seen now =>
    right
    have hgeneration := generation_observed hplain
    refine ⟨seen.number lease.fence, ?_, ?_⟩
    · show seen.number lease.fence ∈
        if lease.instanceId = lease.instanceId then [seen.number lease.fence] else []
      rw [if_pos rfl]
      exact mem_singleton.mpr rfl
    · rw [← hgeneration]
      rfl

theorem new_generation {call : StateCall} (hmissing : records.get? call.instanceId = none)
    {current : InstanceRecord} (hcurrent : call.current c records = some current) :
    current.processGeneration ≤ 0 := by
  cases call with
  | register instanceId profileName profile now
  | beginTransition instanceId profileName profile owner desiredState ttlSeconds now =>
    have hget : records.get? instanceId = none := hmissing
    obtain rfl := some.inj hcurrent
    rw [hget]
    exact le_refl 0
  | renew lease ttlSeconds now | failTransition lease error now
  | publishObservation lease profile observation now =>
    exact absurd (hmissing.symm.trans hcurrent) (by simp)

/-- A generation on record stays at most some number that an episode published. -/
theorem Published.step (h : Published episodes records) (hplain : episode.Plain) :
    Published (episodes ++ [episode]) (episodeStep c episode records).2 := by
  unfold episodeStep
  split
  · rename_i answer next hok
    obtain ⟨-, current, hcurrent, -, rfl⟩ := change_ok hok
    intro id record hrecord
    rw [PyDict.get?_set] at hrecord
    split at hrecord
    · rename_i hid
      obtain rfl := some.inj hrecord
      -- A new record has no generation yet.
      have hold : current.processGeneration ≤ 0 ∨ ∃ e ∈ episodes,
          ∃ n ∈ e.numbers episode.stateCall.instanceId,
            current.processGeneration ≤ max 1 n := by
        cases hstored : records.get? episode.stateCall.instanceId with
        | some stored =>
          have hsame := (StateCall.current_eq episode.stateCall hstored (c := c)).symm.trans
            hcurrent
          exact some.inj hsame ▸ h _ stored hstored
        | none => exact Or.inl (new_generation hstored hcurrent)
      subst hid
      rcases written_generation hplain current with heq | ⟨n, hn, heq⟩
      · rw [heq]
        rcases hold with hle | ⟨e, he, n, hn, hle⟩
        · exact Or.inl hle
        · exact Or.inr ⟨e, mem_append_left _ he, n, hn, hle⟩
      · rw [heq]
        rcases le_total current.processGeneration (max 1 n) with hle | hle
        · rw [max_eq_right hle]
          exact Or.inr ⟨episode, mem_append_right _ (mem_singleton.mpr rfl), n, hn,
            le_refl _⟩
        · rw [max_eq_left hle]
          rcases hold with hzero | ⟨e, he, n, hn, hle⟩
          · exact Or.inl hzero
          · exact Or.inr ⟨e, mem_append_left _ he, n, hn, hle⟩
    · exact h.mono episode id record hrecord
  · exact h.mono episode

theorem int?_toJson (observed : Observation) :
    int? (observed.toJson.get "process_generation") = some observed.processGeneration := rfl

/-- One ready observation after plain ones that grow up to it. -/
theorem not_older (h : Published past records)
    (hplain : (Episode.publish lease profile seen now).Plain)
    (hready : (seen.observed lease.fence).state = .ready)
    (hgrows : ∀ episode ∈ past, episode.Precedes (.publish lease profile seen now)) :
    (episodeStep c (.publish lease profile seen now) records).1 ≠ .error olderGeneration := by
  intro hrejected
  have holder : publishObservation c lease profile (seen.observed lease.fence).toJson now records =
      .error olderGeneration := by
    unfold episodeStep at hrejected
    cases hchange : change c (Episode.publish lease profile seen now).stateCall records with
    | ok result =>
      rw [hchange] at hrejected
      cases hrejected
    | error e =>
      rw [hchange] at hrejected
      change (publishObservation c lease profile (seen.observed lease.fence).toJson now
        records).map _ = _ at hchange
      cases hpublish : publishObservation c lease profile (seen.observed lease.fence).toJson now
          records with
      | ok result =>
        rw [hpublish] at hchange
        cases hchange
      | error e' =>
        rw [hpublish] at hchange
        rw [Except.error.inj hchange, Except.error.inj hrejected]
  obtain ⟨record, hrecord, hlt⟩ := stored_of_older holder
  rw [int?_toJson, getD_some, generation_observed hplain] at hlt
  rcases h _ record hrecord with hle | ⟨episode, hmem, n, hn, hle⟩
  · exact absurd hlt (not_lt.mpr (hle.trans (zero_le_one.trans (le_max_left 1 _))))
  · exact absurd hlt (not_lt.mpr (hle.trans (max_le_max_left 1 (hgrows episode hmem hready n hn))))

theorem readmitted_from (episodes : List Episode)
    (h : Published past records) (hplain : ∀ episode ∈ episodes, episode.Plain)
    (hgrows : Grows (past ++ episodes)) :
    ∀ v ∈ visits (episodeStep c) records episodes, v.op.ReportsReady →
      (episodeStep c v.op v.before).1 ≠ .error olderGeneration := by
  induction episodes generalizing past records with
  | nil => exact fun v hv => absurd hv not_mem_nil
  | cons episode episodes ih =>
    rw [forall_mem_cons] at hplain
    unfold visits
    rw [forall_mem_cons]
    constructor
    · intro hready
      cases episode with
      | other call h => exact absurd hready id
      | publish lease profile seen now =>
        exact not_older h hplain.1 hready fun e he =>
          (pairwise_append.mp hgrows).2.2 e he _ mem_cons_self
    · refine ih (h.step hplain.1) hplain.2 ?_
      rw [append_assoc]
      exact hgrows

/-- **A runtime that is ready is admitted again.**  In a history of plain sightings in which the
ticks of what is ready grow, a process that is reported ready is never refused as an older
generation. -/
theorem readmitted (c : Contracts) (episodes : List Episode)
    (hplain : ∀ episode ∈ episodes, episode.Plain) (hgrows : Grows episodes) :
    ∀ v ∈ visits (episodeStep c) [] episodes, v.op.ReportsReady →
      (episodeStep c v.op v.before).1 ≠ .error olderGeneration := by
  have hnone : Published [] [] := fun _ _ h => by cases h
  exact readmitted_from episodes hnone hplain hgrows

theorem spaceless_of_all {s : String}
    (h : s.toList.all (fun c => !PythonText.isSpace c) = true) :
    ∀ c ∈ s.toList, isSpace c = false := fun c hc => by
  simpa using all_eq_true.mp h c hc

def llama (name : String) (ticks : ℕ) : ProcStat where
  pid := 7
  name := name
  fields := List.replicate 19 "0"
  ticks := ticks
  rest := []
  length_fields := rfl
  words := by
    intro w hw
    have hzero : w = "0" := eq_of_mem_replicate ((append_nil _) ▸ hw)
    rw [hzero]
    exact ⟨by decide, spaceless_of_all (by decide)⟩

/-- The profile of it is seen ready. -/
def readyLlama (name : String) (ticks : ℕ) : Sighting where
  binding := .obj [(text "profile_name", .str (text "p")),
    (text "profile_fingerprint", .str (text "12")), (text "model_set", .null)]
  unit := ⟨"active", 7⟩
  modelReady := true
  drained := false
  process := some (llama name ticks)

/-- Two transitions of one instance that find it ready. -/
def readyTwice (first second : Sighting) : List Episode :=
  let begins := fun (now : ℚ) => Episode.other
    (.beginTransition (text "gpu") (text "p") (.obj []) (text "o") (text "ready") 60 now) rfl
  [begins 1, .publish ⟨text "gpu", text "o", 1, 61⟩ (.obj []) first 2,
    begins 3, .publish ⟨text "gpu", text "o", 2, 63⟩ (.obj []) second 4]

/-- What is observed of it. -/
theorem observed_readyLlama (ticks : ℕ) (fence : ℤ) :
    (readyLlama "llama" ticks).observed fence =
      { profileName := .str (text "p")
        profileFingerprint := .str (text "12")
        state := .ready
        processGeneration := max 1 (ticks : ℤ)
        processReady := true
        modelReady := true
        accepting := true
        modelSet := .null } := by
  have hticks := statGeneration_text (llama "llama" ticks)
    (@spaceless_of_all "llama" (by decide))
  unfold Sighting.observed HostProg.observationOf HostProg.generation readyLlama
  simp only [map_some, hticks, getD_some]
  rfl

/-- The process that is found ready the second time has more ticks. -/
theorem readmitted_readyTwice :
    Grows (readyTwice (readyLlama "llama" 5000) (readyLlama "llama" 9000)) ∧
      ∀ v ∈ visits (episodeStep lenient) []
          (readyTwice (readyLlama "llama" 5000) (readyLlama "llama" 9000)),
        v.op.ReportsReady → (episodeStep lenient v.op v.before).1 ≠ .error olderGeneration := by
  have hgrows : Grows (readyTwice (readyLlama "llama" 5000) (readyLlama "llama" 9000)) := by
    unfold Grows
    decide +kernel
  refine ⟨hgrows, readmitted lenient _ ?_ hgrows⟩
  intro episode hmem
  simp only [readyTwice, mem_cons, not_mem_nil, or_false] at hmem
  rcases hmem with rfl | rfl | rfl | rfl
  · trivial
  · exact fun _ => ⟨_, rfl, @spaceless_of_all "llama" (by decide)⟩
  · trivial
  · exact fun _ => ⟨_, rfl, @spaceless_of_all "llama" (by decide)⟩

/-- The host has rebooted in between, and the process started 3 s after that: it is rejected. -/
theorem rebooted_not_readmitted :
    ¬ ∀ v ∈ visits (episodeStep lenient) []
        (readyTwice (readyLlama "llama" 5000) (readyLlama "llama" 300)),
      v.op.ReportsReady → (episodeStep lenient v.op v.before).1 ≠ .error olderGeneration := by
  intro h
  simp only [readyTwice, visits, forall_mem_cons] at h
  obtain ⟨-, -, -, hlast, -⟩ := h
  refine hlast ?_ ?_
  · show ((readyLlama "llama" 300).observed 2).state = .ready
    rw [observed_readyLlama]
  · unfold episodeStep Episode.stateCall
    simp only [observed_readyLlama]
    decide +kernel

end GpuManager.Host
