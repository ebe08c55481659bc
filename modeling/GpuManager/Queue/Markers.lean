import GpuManager.Queue.Frame
import GpuManager.Queue.Tracker

/-!
# How long a marker lives

A job that was admitted under an idempotency key has the digest of the key in its hash, and
the marker of the digest names the job.  The marker is to stay as long as the job is
unfinished, and to expire some time after it.

The status of a job and the time to live of its marker are two keys, and `update_status` writes
them one after the other: in between the marker does not follow the job, but then a call is in
progress that has yet to look at the status again.  So the invariant is that the marker follows
its job or somebody is about to settle it.
-/

namespace GpuManager.Queue

open AtomicProgram Redis Script JobTracker Option Server

/-! ## The marker of a job -/

/-- The digest of the key that a job was admitted under. -/
def digestOf (s : Server) (jobId : String) : Option String :=
  PythonText.nonempty ((s.hash (jobKey jobId)).bind fun h => h "idempotency_key_sha256")

/-- The status in the hash of a job. -/
def statusOf (s : Server) (jobId : String) : String :=
  ((s.hash (jobKey jobId)).bind fun h => h "status").getD ""

/-- A marker that names a job. -/
def marks (jobId : String) : Value → Bool
  | .string (.object fields) => getField fields "job_id" = some jobId
  | _ => false

def ownMarker (s : Server) (jobId digest : String) : Option Key :=
  (s.keys (markerKey digest)).filter fun k => marks jobId k.value

/-- The marker of the key of a job. -/
def markerOf (s : Server) (jobId : String) : Option Key :=
  (digestOf s jobId).bind (ownMarker s jobId)

/-- The marker of a job expires exactly if the job is finished. -/
def Follows (s : Server) (jobId : String) : Prop :=
  ∀ k, markerOf s jobId = some k → (k.ttl.isSome = true ↔ Terminal (statusOf s jobId))

/-- What is said of the markers: each follows its job, so that it is never lost while the job
is unfinished, and does not stay for ever after it. -/
structure MarkersFollow (s : Server) : Prop where
  kept : ∀ jobId k, markerOf s jobId = some k → ¬ Terminal (statusOf s jobId) → k.ttl = none
  expiring : ∀ jobId k, markerOf s jobId = some k → Terminal (statusOf s jobId) → k.ttl.isSome
  survives : ∀ jobId digest, digestOf s jobId = some digest → (markerOf s jobId).isSome →
    ¬ Terminal (statusOf s jobId) → markerOf (exec (.lapse (markerKey digest)) s).2 jobId =
      markerOf s jobId
  lapses : ∀ jobId digest, digestOf s jobId = some digest → Terminal (statusOf s jobId) →
    markerOf (exec (.lapse (markerKey digest)) s).2 jobId = none

/-! ## Clients -/

inductive MarkerOp where
  | claim (idempotencyKey : String) (marker : Marker) (ttlSeconds : ℤ)
  | create (jobId : String) (job : NewJob) (now : String)
  | update (jobId status now : String) (kwargs : StatusFields)
  | heartbeat (jobId : String) (updates : Fields)
  | cancel (serviceName : String) (routingGroup : Option String) (entryId : Handle)
      (jobId : String) (request : CancelRequest)
  | lapse (key : String)

/-- The program of a call, with `digest` for the hash of the caller's key. -/
def MarkerOp.program (digest : String → String) : MarkerOp → Action Unit
  | claim idempotencyKey marker ttlSeconds =>
    discard (claimIdempotency digest idempotencyKey marker ttlSeconds)
  | create jobId job now => discard (createJob jobId job now)
  | update jobId status now kwargs => discard (updateStatus jobId status now kwargs)
  | heartbeat jobId updates => discard (updateHeartbeat jobId updates)
  | cancel serviceName routingGroup entryId jobId request =>
    discard (RedisQueue.cancelQueuedAtomically serviceName routingGroup entryId jobId request)
  | lapse key => redis (.lapse key)

/-- Any number of calls, interleaved at the granularity of round trips. -/
def markerSystem (digest : String → String) :
    System Server Cmd (fun c => Except String c.Reply) QueueError Unit MarkerOp where
  exec := exec
  launch := fun _ op => some (op.program digest)

/-- No call is in progress. -/
def Quiet (cfg : Config Server Cmd (fun c => Except String c.Reply) QueueError Unit) : Prop :=
  ∀ p ∈ cfg.clients, p.isDone = true

instance (cfg : Config Server Cmd (fun c => Except String c.Reply) QueueError Unit) :
    Decidable (Quiet cfg) := by
  unfold Quiet
  infer_instance

def terminalizes : Except String CancelOutcome → Bool
  | .ok .removedAndTerminalized => true
  | _ => false

/-- The steps that leave the marker of their job as its status calls for.
* A marker is set for a job that is not finished under its key already.
* A job is created when the marker under its key is not about to expire.
* A job is cancelled when its marker expires, or it has none.
* A heartbeat carries neither a status nor a digest. -/
def SafeStep (e : Event Server Cmd) : Prop :=
  match e.cmd with
  | .setNx key (.object fields) => ∀ jobId ∈ getField fields "job_id", e.before.keys key = none →
      (digestOf e.before jobId).map markerKey = some key → ¬ Terminal (statusOf e.before jobId)
  | .hset key fields => ∀ jobId ∈ getField fields "job_id",
      ∀ digest ∈ PythonText.nonempty
          (setFields (hashOrEmpty e.before key) fields "idempotency_key_sha256"),
        ∀ k ∈ ownMarker e.before jobId digest, k.ttl = none
  | .cancelQueued stream entryId jobId completedAt error auditSource cancelledBy terminalTtl =>
    terminalizes (exec (.cancelQueued stream entryId jobId completedAt error auditSource
        cancelledBy terminalTtl) e.before).1 = true →
      ∀ k ∈ markerOf e.before jobId, k.ttl.isSome = true
  | .writeHeartbeat _ updates => ∀ f ∈ updates, f.1 ≠ "status" ∧ f.1 ≠ "idempotency_key_sha256"
  | _ => True

instance (e : Event Server Cmd) : Decidable (SafeStep e) := by
  obtain ⟨cmd, before⟩ := e
  unfold SafeStep
  dsimp only
  split <;> infer_instance

/-! ## What a call can do -/

/-- Where a call stands: `update_status` has written a status, or also read the digest, and has
to settle the marker. -/
inductive MarkerLocal where
  | idle
  | wrote (jobId : String)
  | read (jobId digest : String)

def MarkerLocal.ofDigest (jobId : String) (value : Option String) : MarkerLocal :=
  match PythonText.nonempty value with
  | none => .idle
  | some digest => .read jobId digest

def markerMonitor : Prog.Monitor MarkerLocal Cmd fun c => Except String c.Reply where
  ok
    | .idle, .setNx key text => ∃ digest marker, key = markerKey digest ∧
        text = .object (Marker.object marker)
    | .idle, .hset key fields => ∃ jobId job now, key = jobKey jobId ∧
        fields = NewJob.fields job jobId now
    | .idle, .persist key => ∃ jobId, key = jobKey jobId
    | .idle, .writeStatus _ status updates => ∀ h, setFields h updates "status" = some status
    | .idle, .cancelQueued stream _ _ _ _ _ _ _ => IsQueue stream
    | .idle, .get _ | .idle, .writeHeartbeat _ _ | .idle, .lapse _ => True
    | .wrote jobId, .hget key field => key = jobKey jobId ∧ field = "idempotency_key_sha256"
    | .read jobId digest, .settleMarker jobId' digest' => jobId' = jobId ∧ digest' = digest
    | _, _ => False
  next
    | _, .writeStatus jobId _ _, .ok _ => .wrote jobId
    | .wrote jobId, .hget _ _, .ok value => .ofDigest jobId value
    | _, _, _ => .idle

theorem claimIdempotency_obeys (digest : String → String) (idempotencyKey : String)
    (marker : Marker) (ttlSeconds : ℤ) :
    (claimIdempotency digest idempotencyKey marker ttlSeconds).Obeys markerMonitor
      (fun l _ => l = .idle) .idle := by
  unfold claimIdempotency
  iterate 5
    split
    · exact .done rfl
  refine obeys_catching_local ?_
  refine obeys_redis_bind ⟨_, marker, rfl, rfl⟩ (fun (claimed : Bool) => ?_) fun _ => rfl
  cases claimed with
  | true => exact .done rfl
  | false => exact obeys_redis_bind trivial (fun _ => .done rfl) fun _ => rfl

theorem createJob_markers (jobId : String) (job : NewJob) (now : String) :
    (createJob jobId job now).Obeys markerMonitor (fun l _ => l = .idle) .idle := by
  refine obeys_catching_local ?_
  refine obeys_redis_bind ⟨jobId, job, now, rfl, rfl⟩ (fun _ => ?_) fun _ => rfl
  exact obeys_redis_bind ⟨jobId, rfl⟩ (fun _ => .done rfl) fun _ => rfl

theorem updateStatus_markers (jobId status now : String) (kwargs : StatusFields) :
    (updateStatus jobId status now kwargs).Obeys markerMonitor
      (fun l _ => l = .idle) .idle := by
  refine obeys_catching_local ?_
  refine obeys_redis_bind (fun h => setFields_statusUpdates h status now kwargs) (fun _ => ?_)
    fun _ => rfl
  refine obeys_redis_bind ⟨rfl, rfl⟩ (fun (value : Option String) => ?_) fun _ => rfl
  show (match PythonText.nonempty value with | none => _ | some digest => _ : Action Bool).Obeys
    _ _ (MarkerLocal.ofDigest jobId value)
  unfold MarkerLocal.ofDigest
  cases PythonText.nonempty value with
  | none => exact .done rfl
  | some digest => exact obeys_redis_bind ⟨rfl, rfl⟩ (fun _ => .done rfl) fun _ => rfl

theorem updateHeartbeat_markers (jobId : String) (updates : Fields) :
    (updateHeartbeat jobId updates).Obeys markerMonitor (fun l _ => l = .idle) .idle := by
  unfold updateHeartbeat
  split
  · exact .done rfl
  refine obeys_catching_local ?_
  exact obeys_redis (c := .writeHeartbeat jobId updates) (m := markerMonitor)
    (Q := fun l _ => l = MarkerLocal.idle) trivial (fun _ => rfl) fun _ => rfl

theorem cancelQueuedAtomically_markers (serviceName : String) (routingGroup : Option String)
    (entryId : Handle) (jobId : String) (request : CancelRequest) :
    (RedisQueue.cancelQueuedAtomically serviceName routingGroup entryId jobId request).Obeys
      markerMonitor (fun l _ => l = .idle) .idle := by
  unfold RedisQueue.cancelQueuedAtomically
  split
  · exact .done rfl
  split
  · exact .done rfl
  · exact .done rfl
  next key id htarget =>
    refine Prog.Obeys.bind (Prog.Obeys.attempt (Q := fun l _ => l = .idle)
      (obeys_redis (resolve_queue htarget) (fun _ => rfl) fun _ => rfl)) ?_ ?_
    · rintro l reply ⟨r, -, hidle⟩
      subst hidle
      split <;> exact .done rfl
    · rintro l e ⟨r, -, hidle⟩
      exact hidle

/-- Every call keeps to the monitor, and ends with nothing left to settle. -/
theorem MarkerOp.program_obeys (digest : String → String) (op : MarkerOp) :
    (op.program digest).Obeys markerMonitor (fun l _ => l = .idle) .idle := by
  have hdiscard : ∀ {α : Type} {p : Action α}, p.Obeys markerMonitor (fun l _ => l = .idle) .idle →
      (discard p : Action Unit).Obeys markerMonitor (fun l _ => l = .idle) .idle := fun hp =>
    hp.bind (fun _ _ hidle => .done hidle) fun _ _ hidle => hidle
  cases op with
  | claim idempotencyKey marker ttlSeconds =>
    exact hdiscard (claimIdempotency_obeys digest idempotencyKey marker ttlSeconds)
  | create jobId job now => exact hdiscard (createJob_markers jobId job now)
  | update jobId status now kwargs => exact hdiscard (updateStatus_markers jobId status now kwargs)
  | heartbeat jobId updates => exact hdiscard (updateHeartbeat_markers jobId updates)
  | cancel serviceName routingGroup entryId jobId request =>
    exact hdiscard (cancelQueuedAtomically_markers serviceName routingGroup entryId jobId request)
  | lapse key =>
    exact obeys_redis (c := .lapse key) (m := markerMonitor)
      (Q := fun l _ => l = MarkerLocal.idle) trivial (fun _ => rfl) fun _ => rfl

/-! ## What a round trip does to a marker -/

/-- A job has the status, the digest and the marker it had. -/
structure SameJob (s s' : Server) (jobId : String) : Prop where
  digest : digestOf s' jobId = digestOf s jobId
  status : statusOf s' jobId = statusOf s jobId
  marker : markerOf s' jobId = markerOf s jobId

variable {s s' : Server} {jobId digest : String} {calls : ℕ → MarkerLocal}

theorem SameJob.follows (h : SameJob s s' jobId) (hfollows : Follows s jobId) :
    Follows s' jobId := by
  intro k hk
  rw [h.status]
  exact hfollows k (h.marker ▸ hk)

theorem digestOf_congr (h : s'.hash (jobKey jobId) = s.hash (jobKey jobId)) :
    digestOf s' jobId = digestOf s jobId := by
  unfold digestOf
  rw [h]

theorem statusOf_congr (h : s'.hash (jobKey jobId) = s.hash (jobKey jobId)) :
    statusOf s' jobId = statusOf s jobId := by
  unfold statusOf
  rw [h]

theorem sameJob_refl (s : Server) (jobId : String) : SameJob s s jobId := ⟨rfl, rfl, rfl⟩

/-- The keys of a job are its hash and the marker under its digest. -/
theorem sameJob_of_keys (hhash : s'.hash (jobKey jobId) = s.hash (jobKey jobId))
    (hmarker : ∀ digest, digestOf s jobId = some digest →
      ownMarker s' jobId digest = ownMarker s jobId digest) : SameJob s s' jobId := by
  have hdigest := digestOf_congr hhash
  refine ⟨hdigest, statusOf_congr hhash, ?_⟩
  unfold markerOf
  rw [hdigest]
  cases hd : digestOf s jobId with
  | none => rfl
  | some digest => exact hmarker digest hd

theorem sameJob_of_within {α : Type} {m : Script α} {K : String → Prop} (h : m.Within K)
    (s : Server) (hjob : ¬ K (jobKey jobId)) (hmarker : ∀ digest, ¬ K (markerKey digest)) :
    SameJob s (m.run s).2 jobId := by
  refine sameJob_of_keys (hash_congr (h s _ hjob)) fun digest _ => ?_
  unfold ownMarker
  rw [h s _ (hmarker digest)]

theorem follows_of_none (h : markerOf s jobId = none) : Follows s jobId := by
  intro k hk
  rw [h] at hk
  cases hk

theorem markerOf_of_hash_none (h : s.hash (jobKey jobId) = none) : markerOf s jobId = none := by
  unfold markerOf digestOf
  rw [h]
  rfl

theorem markerKey_inj {digest' : String} (h : markerKey digest = markerKey digest') :
    digest = digest' := by
  have hlist := congrArg String.toList h
  simp only [markerKey, String.toList_append, List.append_cancel_left_eq] at hlist
  exact String.toList_injective hlist

theorem IsQueue.ne_markerKey {key : String} (h : IsQueue key) (digest : String) :
    markerKey digest ≠ key := by
  rintro rfl
  obtain ⟨rest, hrest⟩ := h
  have hchar := congrArg (fun key : String => key.toList[0]?) hrest
  simp [markerKey] at hchar

/-- `SET NX` of a marker.  It matters for the job that the marker names. -/
theorem setNx_markers {marker : Marker}
    (hsafe : SafeStep ⟨.setNx (markerKey digest) (.object marker.object), s⟩) (jobId : String) :
    SameJob s (exec (.setNx (markerKey digest) (.object marker.object)) s).2 jobId ∨
      Follows (exec (.setNx (markerKey digest) (.object marker.object)) s).2 jobId := by
  have hrun : exec (.setNx (markerKey digest) (.object marker.object)) s =
      (setNx (markerKey digest) (.object marker.object)).run s := rfl
  rw [hrun]
  simp only [setNx]
  cases habsent : s.keys (markerKey digest) with
  | some k => exact Or.inl (sameJob_refl s jobId)
  | none =>
    have hhash : (s.setKey (markerKey digest)
        (some ⟨.string (.object marker.object), none⟩)).hash (jobKey jobId) = s.hash (jobKey jobId) :=
      hash_congr (setKey_keys_of_ne _ _ (markerKey_ne_jobKey digest jobId).symm)
    have hothers : ∀ digest', digest' ≠ digest →
        ownMarker (s.setKey (markerKey digest) (some ⟨.string (.object marker.object), none⟩))
          jobId digest' = ownMarker s jobId digest' := by
      intro digest' hne
      unfold ownMarker
      rw [setKey_keys_of_ne _ _ fun heq => hne (markerKey_inj heq)]
    by_cases hmine : digestOf s jobId = some digest
    · right
      intro k hk
      have hstatus := statusOf_congr hhash
      have hdigest := (digestOf_congr hhash).trans hmine
      simp only [markerOf, hdigest, bind_some, ownMarker, setKey_keys_self,
        filter_some] at hk
      split at hk
      next hmarks =>
        obtain rfl := some.inj hk
        have hjob : getField marker.object "job_id" = some jobId := of_decide_eq_true hmarks
        have hnot := hsafe jobId hjob habsent (by rw [hmine]; rfl)
        rw [hstatus]
        simpa using hnot
      · cases hk
    · refine Or.inl (sameJob_of_keys hhash fun digest' hdigest' => hothers digest' ?_)
      rintro rfl
      exact hmine hdigest'

theorem create_markers {now : String} {job : NewJob}
    (hsafe : SafeStep ⟨.hset (jobKey jobId) (job.fields jobId now), s⟩) (jobId' : String) :
    SameJob s (exec (.hset (jobKey jobId) (job.fields jobId now)) s).2 jobId' ∨
      Follows (exec (.hset (jobKey jobId) (job.fields jobId now)) s).2 jobId' := by
  by_cases hjob : jobId' = jobId
  · subst hjob
    have hrun : exec (.hset (jobKey jobId') (job.fields jobId' now)) s =
        (hset (jobKey jobId') (job.fields jobId' now)).run s := rfl
    rw [hrun]
    by_cases hfits : Fits s (jobKey jobId') .hash
    · right
      rw [hset_of_fits _ hfits]
      intro k hk
      have hstatus : statusOf (s.put (jobKey jobId')
          (.hash (setFields (hashOrEmpty s (jobKey jobId')) (job.fields jobId' now)))) jobId' =
            "queued" := by
        simp only [statusOf, put_hash_self, bind_some, setFields_newJob]
        rfl
      have hpersists : k.ttl = none := by
        simp only [markerOf, digestOf, put_hash_self, bind_some] at hk
        obtain ⟨digest, hdigest, hown⟩ := bind_eq_some_iff.mp hk
        refine hsafe jobId' rfl digest hdigest k ?_
        unfold ownMarker at hown ⊢
        rwa [put_keys_of_ne _ _ (markerKey_ne_jobKey digest jobId')] at hown
      rw [hstatus, hpersists]
      decide
    · left
      rw [hset_of_not_fits _ hfits]
      exact sameJob_refl s jobId'
  · left
    exact sameJob_of_within (within_hset (K := (· = jobKey jobId)) rfl) s
      (fun heq => hjob (jobKey_inj heq)) fun digest => markerKey_ne_jobKey digest jobId

theorem persist_markers (s : Server) (jobId jobId' : String) :
    SameJob s (exec (.persist (jobKey jobId)) s).2 jobId' := by
  refine sameJob_of_keys (persist_hash s _ _) fun digest _ => ?_
  unfold ownMarker
  have hkeys : (exec (.persist (jobKey jobId)) s).2.keys (markerKey digest) =
      s.keys (markerKey digest) :=
    within_persist (K := (· = jobKey jobId)) rfl s _ (markerKey_ne_jobKey digest jobId)
  rw [hkeys]

/-- The status of another job is written, or the key of the job is of another type. -/
theorem writeStatus_markers (s : Server) (jobId status : String) (updates : Fields) (jobId' : String)
    (hother : jobId' = jobId → (exec (.writeStatus jobId status updates) s).1.isOk = false) :
    SameJob s (exec (.writeStatus jobId status updates) s).2 jobId' ∨
      Follows (exec (.writeStatus jobId status updates) s).2 jobId' := by
  by_cases hjob : jobId' = jobId
  · subst hjob
    right
    have hfits : ¬ Fits s (jobKey jobId') .hash := by
      intro hfits
      obtain ⟨s', hexec, -⟩ := writeStatus_of_fits status updates hfits
      have hrefused := hother rfl
      rw [hexec] at hrefused
      cases hrefused
    refine follows_of_none (markerOf_of_hash_none ?_)
    have hvalue := writeStatus_of_not_fits status updates hfits
    cases hhash : (exec (.writeStatus jobId' status updates) s).2.hash (jobKey jobId') with
    | none => rfl
    | some h =>
      obtain ⟨ttl, hkey⟩ := hash_eq_some.mp hhash
      rw [hkey, map_some] at hvalue
      obtain ⟨⟨value, ttl'⟩, hk, hv⟩ := map_eq_some_iff.mp hvalue.symm
      obtain rfl : value = .hash h := hv
      exact absurd (Or.inr (typeOf_eq_hash.mpr
        ⟨h, hash_eq_some.mpr ⟨ttl', hk⟩⟩)) hfits
  · left
    exact sameJob_of_within (within_writeStatus (K := (· = jobKey jobId)) rfl) s
      (fun heq => hjob (jobKey_inj heq)) fun digest => markerKey_ne_jobKey digest jobId

theorem hget_digest (s : Server) (jobId : String) :
    (exec (.hget (jobKey jobId) "idempotency_key_sha256") s).2 = s ∧
      ((∃ value, (exec (.hget (jobKey jobId) "idempotency_key_sha256") s).1 = .ok value ∧
          digestOf s jobId = PythonText.nonempty value) ∨
        (∃ e, (exec (.hget (jobKey jobId) "idempotency_key_sha256") s).1 = .error e) ∧
          markerOf s jobId = none) := by
  have hrun : exec (.hget (jobKey jobId) "idempotency_key_sha256") s =
      (hget (jobKey jobId) "idempotency_key_sha256").run s := rfl
  rw [hrun]
  rcases hkey : s.keys (jobKey jobId) with _ | ⟨_ | h | _, ttl⟩ <;> simp only [hget, hkey]
  · exact ⟨trivial, Or.inl ⟨none, rfl, by simp [digestOf, Server.hash, hkey]⟩⟩
  · exact ⟨trivial, Or.inr ⟨⟨_, rfl⟩, markerOf_of_hash_none (by simp [Server.hash, hkey])⟩⟩
  · exact ⟨trivial, Or.inl ⟨_, rfl, by simp [digestOf, Server.hash, hkey]⟩⟩
  · exact ⟨trivial, Or.inr ⟨⟨_, rfl⟩, markerOf_of_hash_none (by simp [Server.hash, hkey])⟩⟩

/-- What the script of `update_status` does: nothing, unless the marker names the job; then the
marker gets what the status calls for. -/
theorem settleMarker_cases (s : Server) (jobId digest : String) :
    ((exec (.settleMarker jobId digest) s).2 = s ∧
        (ownMarker s jobId digest = none ∨ markerOf s jobId = none)) ∨
      ∃ k, ownMarker s jobId digest = some k ∧
        (exec (.settleMarker jobId digest) s).2 =
          ((retain (markerKey digest) (statusOf s jobId)).run s).2 := by
  have hrun : exec (.settleMarker jobId digest) s =
      (settleMarker (jobKey jobId) (markerKey digest) jobId).run s := rfl
  rw [hrun]
  unfold settleMarker
  cases hkey : s.keys (markerKey digest) with
  | none =>
    have hget : (Redis.get (markerKey digest)).run s = (.ok none, s) := by
      simp only [Redis.get, hkey]
    rw [bind_ok hget]
    exact Or.inl ⟨rfl, Or.inl (by simp [ownMarker, hkey])⟩
  | some k =>
    obtain ⟨value, ttl⟩ := k
    have hnothing : ∀ r : Except String Unit, ∀ s', s' = s → marks jobId value = false →
        ((r, s').2 = s ∧ (ownMarker s jobId digest = none ∨ markerOf s jobId = none)) := by
      rintro r s' rfl hmarks
      exact ⟨rfl, Or.inl (by simp [ownMarker, hkey, hmarks])⟩
    cases value with
    | hash h | stream st =>
      have hget : (Redis.get (markerKey digest)).run s = (.error wrongType, s) := by
        simp only [Redis.get, hkey]
      rw [bind_error hget]
      exact Or.inl (hnothing _ s rfl rfl)
    | string text =>
      have hget : (Redis.get (markerKey digest)).run s = (.ok (some text), s) := by
        simp only [Redis.get, hkey]
      rw [bind_ok hget]
      cases text with
      | plain text => exact Or.inl (hnothing (.ok ()) s rfl rfl)
      | object fields =>
        by_cases hjob : getField fields "job_id" = some jobId
        · have hown : ownMarker s jobId digest = some ⟨.string (.object fields), ttl⟩ := by
            simp [ownMarker, hkey, marks, hjob]
          simp only [ne_eq, hjob, not_true_eq_false, if_false]
          rcases hhash : s.keys (jobKey jobId) with _ | ⟨_ | h | _, ttl'⟩
          · have hstatus : (Redis.hget (jobKey jobId) "status").run s = (.ok none, s) := by
              simp only [Redis.hget, hhash]
            rw [bind_ok hstatus]
            exact Or.inr ⟨_, hown, by simp [statusOf, Server.hash, hhash]⟩
          · have hstatus : (Redis.hget (jobKey jobId) "status").run s =
                (.error wrongType, s) := by simp only [Redis.hget, hhash]
            rw [bind_error hstatus]
            exact Or.inl ⟨rfl, Or.inr (markerOf_of_hash_none (by simp [Server.hash, hhash]))⟩
          · have hstatus : (Redis.hget (jobKey jobId) "status").run s =
                (.ok (h "status"), s) := by simp only [Redis.hget, hhash]
            rw [bind_ok hstatus]
            exact Or.inr ⟨_, hown, by simp [statusOf, Server.hash, hhash]⟩
          · have hstatus : (Redis.hget (jobKey jobId) "status").run s =
                (.error wrongType, s) := by simp only [Redis.hget, hhash]
            rw [bind_error hstatus]
            exact Or.inl ⟨rfl, Or.inr (markerOf_of_hash_none (by simp [Server.hash, hhash]))⟩
        · simp only [ne_eq, hjob, not_false_eq_true, if_true]
          exact Or.inl (hnothing (.ok ()) s rfl (decide_eq_false hjob))

/-- A job whose marker is settled under its digest is followed by it. -/
theorem settleMarker_follows (hdigest : digestOf s jobId = some digest) :
    Follows (exec (.settleMarker jobId digest) s).2 jobId := by
  rcases settleMarker_cases s jobId digest with ⟨hsame, hnone⟩ | ⟨k, hown, hserver⟩
  · rw [hsame]
    refine follows_of_none ?_
    rcases hnone with hnone | hnone
    · simp only [markerOf, hdigest, bind_some, hnone]
    · exact hnone
  · rw [hserver]
    have hhash : ((retain (markerKey digest) (statusOf s jobId)).run s).2.hash (jobKey jobId) =
        s.hash (jobKey jobId) :=
      hash_congr (within_retain (K := (· = markerKey digest)) rfl s _
        (markerKey_ne_jobKey digest jobId).symm)
    have hstatus := statusOf_congr hhash
    have hdigest' := (digestOf_congr hhash).trans hdigest
    intro k' hk'
    simp only [markerOf, hdigest', bind_some, ownMarker, retain_keys] at hk'
    obtain ⟨hmem, -⟩ := filter_eq_some_iff.mp hk'
    obtain ⟨k₀, -, rfl⟩ := map_eq_some_iff.mp hmem
    rw [hstatus]
    split
    next hterminal => exact ⟨fun _ => hterminal, fun _ => rfl⟩
    next hterminal => exact ⟨fun h => (by cases h), fun h => absurd h hterminal⟩

/-- Settling under a digest concerns no other job, and no job under another digest. -/
theorem settleMarker_sameJob {jobId' : String}
    (hother : jobId' = jobId → digestOf s jobId ≠ some digest) :
    SameJob s (exec (.settleMarker jobId digest) s).2 jobId' := by
  rcases settleMarker_cases s jobId digest with ⟨hsame, -⟩ | ⟨k, hown, hserver⟩
  · rw [hsame]
    exact sameJob_refl s jobId'
  rw [hserver]
  have hwithin : (retain (markerKey digest) (statusOf s jobId)).Within (· = markerKey digest) :=
    within_retain rfl
  refine sameJob_of_keys
    (hash_congr (hwithin s _ (markerKey_ne_jobKey digest jobId').symm)) ?_
  intro digest' hdigest'
  by_cases heq : digest' = digest
  · subst heq
    -- The marker names the job that is settled, so it is not the marker of another one.
    have hne : jobId' ≠ jobId := fun hjob => hother hjob (hjob ▸ hdigest')
    obtain ⟨hkey, hmarks⟩ := filter_eq_some_iff.mp hown
    have hnot : marks jobId' k.value = false := by
      obtain ⟨value, ttl⟩ := k
      cases value with
      | string text =>
        cases text with
        | plain text => rfl
        | object fields =>
          have hjob : getField fields "job_id" = some jobId := of_decide_eq_true hmarks
          refine decide_eq_false fun hjob' => hne ?_
          rw [hjob] at hjob'
          exact (some.inj hjob').symm
      | hash h | stream st => rfl
    simp only [ownMarker, retain_keys, hkey, map_some, filter_some, hnot]
    rfl
  · unfold ownMarker
    rw [hwithin s _ fun hkey => heq (markerKey_inj hkey)]

theorem within_writeHeartbeat (key : String) (updates : Fields) :
    (writeHeartbeat key updates).Within (· = key) := by
  refine within_bind within_read fun found => ?_
  cases found with
  | false => exact within_pure _
  | true =>
    refine within_bind (within_hset rfl) fun _ => ?_
    refine within_bind within_hget fun _ => ?_
    exact within_bind (within_retain rfl) fun _ => within_pure _

theorem writeHeartbeat_hash (s : Server) (key : String) (updates : Fields) :
    ((writeHeartbeat key updates).run s).2.hash key =
      (s.hash key).map fun h => setFields h updates := by
  unfold writeHeartbeat
  rcases hkey : s.keys key with _ | ⟨value, ttl⟩
  · have hexists : (Redis.exists key).run s = (.ok false, s) := by simp [Redis.exists, hkey]
    rw [bind_ok hexists]
    simp [Server.hash, hkey]
  · have hexists : (Redis.exists key).run s = (.ok true, s) := by simp [Redis.exists, hkey]
    rw [bind_ok hexists, if_pos rfl]
    by_cases hfits : Fits s key .hash
    · obtain ⟨h, hhash⟩ : ∃ h, s.hash key = some h := by
        rcases hfits with hnone | htype
        · rw [Server.typeOf_eq_none.mp hnone] at hkey
          cases hkey
        · exact Server.typeOf_eq_hash.mp htype
      have hold : hashOrEmpty s key = h := by simp [hashOrEmpty, hhash]
      have hset := hset_of_fits updates hfits
      rw [hold] at hset
      have hstatus : (Redis.hget key "status").run (s.put key (.hash (setFields h updates))) =
          (.ok (setFields h updates "status"), s.put key (.hash (setFields h updates))) := by
        simp only [Redis.hget, Server.put, Server.setKey_keys_self]
      obtain ⟨s', hretain⟩ := retain_ok (s.put key (.hash (setFields h updates))) key
        ((setFields h updates "status").getD "")
      rw [bind_ok hset, bind_ok hstatus, bind_ok hretain]
      have hkeys := retain_keys (s.put key (.hash (setFields h updates))) key
        ((setFields h updates "status").getD "")
      rw [hretain, Server.put, Server.setKey_keys_self, map_some] at hkeys
      rw [hhash]
      exact Server.hash_eq_some.mpr ⟨_, hkeys⟩
    · rw [bind_error (hset_of_not_fits updates hfits)]
      have hnone : s.hash key = none := by
        cases hhash : s.hash key with
        | none => rfl
        | some h => exact absurd (Or.inr (Server.typeOf_eq_hash.mpr ⟨h, hhash⟩)) hfits
      show s.hash key = _
      rw [hnone]
      rfl

theorem writeHeartbeat_markers {updates : Fields}
    (hsafe : SafeStep ⟨.writeHeartbeat jobId updates, s⟩) (jobId' : String) :
    SameJob s (exec (.writeHeartbeat jobId updates) s).2 jobId' := by
  by_cases hjob : jobId' = jobId
  · subst hjob
    have hfield : ∀ field, (∀ f ∈ updates, f.1 ≠ field) →
        ((exec (.writeHeartbeat jobId' updates) s).2.hash (jobKey jobId')).bind (fun h => h field) =
          (s.hash (jobKey jobId')).bind fun h => h field := by
      intro field hnone
      have hhash : (exec (.writeHeartbeat jobId' updates) s).2.hash (jobKey jobId') = _ :=
        writeHeartbeat_hash s (jobKey jobId') updates
      rw [hhash]
      cases s.hash (jobKey jobId') with
      | none => rfl
      | some h => exact setFields_of_notMem hnone
    have hdigest : digestOf (exec (.writeHeartbeat jobId' updates) s).2 jobId' =
        digestOf s jobId' := by
      unfold digestOf
      rw [hfield _ fun f hf => (hsafe f hf).2]
    refine ⟨hdigest, ?_, ?_⟩
    · unfold statusOf
      rw [hfield _ fun f hf => (hsafe f hf).1]
    · unfold markerOf
      rw [hdigest]
      congr 1
      funext digest
      unfold ownMarker
      have hkeys : (exec (.writeHeartbeat jobId' updates) s).2.keys (markerKey digest) =
          s.keys (markerKey digest) :=
        within_writeHeartbeat _ updates s _ (markerKey_ne_jobKey digest jobId')
      rw [hkeys]
  · exact sameJob_of_within (within_writeHeartbeat (jobKey jobId) updates) s
      (fun heq => hjob (jobKey_inj heq)) fun digest => markerKey_ne_jobKey digest jobId

/-- A cancellation of a job whose marker expires already, or that has none. -/
theorem cancelQueued_markers {stream : String} {entryId : StreamId}
    {completedAt error auditSource cancelledBy : String} {terminalTtl : ℤ} (hqueue : IsQueue stream)
    (hsafe : SafeStep ⟨.cancelQueued stream entryId jobId completedAt error auditSource cancelledBy
      terminalTtl, s⟩) (jobId' : String) :
    SameJob s (exec (.cancelQueued stream entryId jobId completedAt error auditSource cancelledBy
        terminalTtl) s).2 jobId' ∨
      Follows (exec (.cancelQueued stream entryId jobId completedAt error auditSource cancelledBy
        terminalTtl) s).2 jobId' := by
  rcases cancelQueued_cases (s := s) entryId jobId group completedAt error auditSource cancelledBy
      terminalTtl (hqueue.ne_jobKey jobId) with
    ⟨r, hrun, -⟩ | ⟨st, e, s', -, -, -, -, hrun, -, hothers, htracker⟩
  · have hexec : exec (.cancelQueued stream entryId jobId completedAt error auditSource cancelledBy
        terminalTtl) s = (r, s) := hrun
    rw [hexec]
    exact Or.inl (sameJob_refl s jobId')
  · have hexec : exec (.cancelQueued stream entryId jobId completedAt error auditSource cancelledBy
        terminalTtl) s = (.ok .removedAndTerminalized, s') := hrun
    have hmarker : ∀ digest, s'.keys (markerKey digest) = s.keys (markerKey digest) := fun digest =>
      hothers _ (hqueue.ne_markerKey digest) (markerKey_ne_jobKey digest jobId)
    rw [hexec]
    by_cases hjob : jobId' = jobId
    · subst hjob
      right
      by_cases hgone : terminalTtl ≤ 0
      · rw [if_pos hgone] at htracker
        exact follows_of_none (markerOf_of_hash_none (by simp [Server.hash, htracker]))
      rw [if_neg hgone] at htracker
      have hhash := Server.hash_eq_some.mpr ⟨_, htracker⟩
      have hdigest : digestOf s' jobId' = digestOf s jobId' := by
        unfold digestOf
        rw [hhash, bind_some, setFields_of_notMem (by simp [cancelFields])]
        cases hold : s.hash (jobKey jobId') <;> simp [hashOrEmpty, hold]
      have hstatus : statusOf s' jobId' = "cancelled" := by
        unfold statusOf
        rw [hhash, bind_some]
        rfl
      intro k hk
      have hk' : markerOf s jobId' = some k := by
        unfold markerOf ownMarker at hk ⊢
        rw [hdigest] at hk
        simpa only [hmarker] using hk
      have hexpires := hsafe (by rw [hexec]; rfl) k hk'
      rw [hstatus]
      exact ⟨fun _ => by decide, fun _ => hexpires⟩
    · left
      refine sameJob_of_keys (Server.hash_congr (hothers _ (hqueue.ne_jobKey jobId').symm
        fun heq => hjob (jobKey_inj heq))) fun digest _ => ?_
      unfold ownMarker
      rw [hmarker]

theorem lapse_markers (s : Server) (key jobId : String) :
    SameJob s (exec (.lapse key) s).2 jobId ∨ Follows (exec (.lapse key) s).2 jobId := by
  have hrun : exec (.lapse key) s = (lapse key).run s := rfl
  rw [hrun]
  simp only [lapse]
  split
  · by_cases hjob : jobKey jobId = key
    · right
      refine follows_of_none (markerOf_of_hash_none ?_)
      simp [Server.hash, hjob]
    · have hhash : (s.setKey key none).hash (jobKey jobId) = s.hash (jobKey jobId) :=
        Server.hash_congr (Server.setKey_keys_of_ne _ _ hjob)
      by_cases hmine : (digestOf s jobId).map markerKey = some key
      · right
        refine follows_of_none ?_
        obtain ⟨digest, hdigest, rfl⟩ := map_eq_some_iff.mp hmine
        simp [markerOf, digestOf_congr hhash, hdigest, ownMarker]
      · left
        refine sameJob_of_keys hhash fun digest hdigest => ?_
        unfold ownMarker
        rw [Server.setKey_keys_of_ne]
        rintro rfl
        exact hmine (by rw [hdigest]; rfl)
  · exact Or.inl (sameJob_refl s jobId)

/-! ## The invariant -/

/-- Some call has still to settle the marker of a job. -/
def Settling (calls : ℕ → MarkerLocal) (s : Server) (jobId : String) : Prop :=
  ∃ client, calls client = .wrote jobId ∨
    ∃ digest, calls client = .read jobId digest ∧ digestOf s jobId = some digest

def MarkersTended (calls : ℕ → MarkerLocal) (s : Server) : Prop :=
  ∀ jobId, Follows s jobId ∨ Settling calls s jobId

/-- What an idle call does to a job: nothing, or it leaves a marker that follows, or it has
written the status. -/
theorem idle_markers {c : Cmd} (hok : markerMonitor.ok .idle c) (hsafe : SafeStep ⟨c, s⟩)
    (jobId : String) :
    SameJob s (exec c s).2 jobId ∨ Follows (exec c s).2 jobId ∨
      markerMonitor.next .idle c (exec c s).1 = .wrote jobId := by
  cases c with
  | setNx key text =>
    obtain ⟨digest, marker, rfl, rfl⟩ := hok
    exact (setNx_markers hsafe jobId).imp_right Or.inl
  | hset key fields =>
    obtain ⟨jobId', job, now, rfl, rfl⟩ := hok
    exact (create_markers hsafe jobId).imp_right Or.inl
  | persist key =>
    obtain ⟨jobId', rfl⟩ := hok
    exact Or.inl (persist_markers s jobId' jobId)
  | writeStatus jobId' status updates =>
    by_cases hjob : jobId = jobId'
    · subst hjob
      cases hreply : (exec (.writeStatus jobId status updates) s).1 with
      | ok r => exact Or.inr (Or.inr rfl)
      | error e =>
        exact (writeStatus_markers s jobId status updates jobId
          fun _ => by rw [hreply]; rfl).imp_right Or.inl
    · exact (writeStatus_markers s jobId' status updates jobId
        fun heq => absurd heq hjob).imp_right Or.inl
  | cancelQueued stream entryId jobId' completedAt error auditSource cancelledBy terminalTtl =>
    exact (cancelQueued_markers hok hsafe jobId).imp_right Or.inl
  | get key =>
    exact Or.inl (sameJob_of_within (within_get (K := fun _ => False)) s (fun h => h) fun _ h => h)
  | writeHeartbeat jobId' updates => exact Or.inl (writeHeartbeat_markers hsafe jobId)
  | lapse key => exact (lapse_markers s key jobId).imp_right Or.inl
  | _ => exact hok.elim

/-- Whoever else had to settle the marker still has to. -/
theorem Settling.keep {client : ℕ} {l : MarkerLocal}
    (h : Settling calls s jobId) (hsame : SameJob s s' jobId)
    (hclient : ¬ (calls client = .wrote jobId ∨
      ∃ digest, calls client = .read jobId digest ∧ digestOf s jobId = some digest)) :
    Settling (Function.update calls client l) s' jobId := by
  obtain ⟨other, hother⟩ := h
  have hne : other ≠ client := by
    rintro rfl
    exact hclient hother
  refine ⟨other, ?_⟩
  rw [Function.update_of_ne hne, hsame.digest]
  exact hother

/-- **One round trip.**  A safe step of a call leaves every marker tended. -/
theorem MarkersTended.step {x : ℕ × Event Server Cmd}
    (h : MarkersTended calls x.2.before) (hok : markerMonitor.ok (calls x.1) x.2.cmd)
    (hsafe : SafeStep x.2) :
    MarkersTended
      (Function.update calls x.1 (markerMonitor.next (calls x.1) x.2.cmd (exec x.2.cmd x.2.before).1))
      (exec x.2.cmd x.2.before).2 := by
  obtain ⟨client, c, s⟩ := x
  intro jobId
  dsimp only at hok hsafe h ⊢
  cases hcall : calls client with
  | idle =>
    rw [hcall] at hok
    rcases idle_markers hok hsafe jobId with hsame | hfollows | hwrote
    · refine (h jobId).imp hsame.follows fun hsettling => hsettling.keep hsame ?_
      simp [hcall]
    · exact Or.inl hfollows
    · exact Or.inr ⟨client, Or.inl (by rw [Function.update_self, hwrote])⟩
  | wrote jobId' =>
    rw [hcall] at hok
    cases c with
    | hget key field =>
      obtain ⟨rfl, rfl⟩ := hok
      obtain ⟨hserver, hreply⟩ := hget_digest s jobId'
      rw [hserver]
      by_cases hjob : jobId = jobId'
      · subst hjob
        rcases hreply with ⟨value, hvalue, hdigest⟩ | ⟨-, hnone⟩
        · have hnext : markerMonitor.next (.wrote jobId)
              (.hget (jobKey jobId) "idempotency_key_sha256")
              (exec (.hget (jobKey jobId) "idempotency_key_sha256") s).1 =
                .ofDigest jobId value := by
            rw [hvalue]
            rfl
          rw [hnext]
          cases hread : PythonText.nonempty value with
          | none =>
            rw [hread] at hdigest
            exact Or.inl (follows_of_none (by simp [markerOf, hdigest]))
          | some digest =>
            refine Or.inr ⟨client, Or.inr ⟨digest, ?_, hdigest.trans hread⟩⟩
            rw [Function.update_self]
            simp only [MarkerLocal.ofDigest, hread]
        · exact Or.inl (follows_of_none hnone)
      · refine (h jobId).imp_right fun hsettling => hsettling.keep (sameJob_refl s jobId) ?_
        simp [hcall, Ne.symm hjob]
    | _ => exact hok.elim
  | read jobId' digest =>
    rw [hcall] at hok
    cases c with
    | settleMarker jobId'' digest' =>
      obtain ⟨rfl, rfl⟩ := hok
      by_cases hmine : jobId = jobId'' ∧ digestOf s jobId'' = some digest'
      · obtain ⟨rfl, hdigest⟩ := hmine
        exact Or.inl (settleMarker_follows hdigest)
      have hsame : SameJob s (exec (.settleMarker jobId'' digest') s).2 jobId :=
        settleMarker_sameJob fun heq hdigest => hmine ⟨heq, hdigest⟩
      refine (h jobId).imp hsame.follows fun hsettling => hsettling.keep hsame ?_
      rw [hcall]
      rintro (hwrote | ⟨digest, hread, hdigest⟩)
      · cases hwrote
      · obtain ⟨rfl, rfl⟩ := MarkerLocal.read.inj hread
        exact hmine ⟨rfl, hdigest⟩
    | _ => exact hok.elim

/-- A marker that follows its job is not lost while the job is unfinished, and lapses after. -/
theorem markersFollow_of_follows (h : ∀ jobId, Follows s jobId) : MarkersFollow s := by
  have hkept : ∀ jobId k, markerOf s jobId = some k → ¬ Terminal (statusOf s jobId) →
      k.ttl = none := by
    intro jobId k hk hunfinished
    refine not_isSome_iff_eq_none.mp fun hexpires => ?_
    exact hunfinished ((h jobId k hk).mp hexpires)
  have hexpiring : ∀ jobId k, markerOf s jobId = some k → Terminal (statusOf s jobId) →
      k.ttl.isSome := fun jobId k hk hterminal => (h jobId k hk).mpr hterminal
  refine ⟨hkept, hexpiring, ?_, ?_⟩
  · intro jobId digest hdigest hsome hunfinished
    obtain ⟨k, hk⟩ := isSome_iff_exists.mp hsome
    have hown : ownMarker s jobId digest = some k := by
      simpa only [markerOf, hdigest, bind_some] using hk
    obtain ⟨hkey, -⟩ := filter_eq_some_iff.mp hown
    have hstays : (exec (.lapse (markerKey digest)) s).2 = s := by
      show ((lapse (markerKey digest)).run s).2 = s
      obtain ⟨value, ttl⟩ := k
      obtain rfl : ttl = none := hkept jobId _ hk hunfinished
      simp only [lapse, hkey]
    rw [hstays]
  · intro jobId digest hdigest hterminal
    have hrun : exec (.lapse (markerKey digest)) s = (lapse (markerKey digest)).run s := rfl
    rw [hrun]
    simp only [lapse]
    split
    · have hhash : (s.setKey (markerKey digest) none).hash (jobKey jobId) = s.hash (jobKey jobId) :=
        hash_congr (setKey_keys_of_ne _ _ (markerKey_ne_jobKey digest jobId).symm)
      simp [markerOf, digestOf_congr hhash, hdigest, ownMarker]
    next hstays =>
      cases hk : markerOf s jobId with
      | none => rfl
      | some k =>
        have hown : ownMarker s jobId digest = some k := by
          simpa only [markerOf, hdigest, bind_some] using hk
        obtain ⟨hkey, -⟩ := filter_eq_some_iff.mp hown
        obtain ⟨value, ttl⟩ := k
        obtain ⟨seconds, rfl⟩ := isSome_iff_exists.mp (hexpiring jobId _ hk hterminal)
        exact absurd hkey (hstays value seconds)

/-- **Every run.**  From a server on which every marker follows its job, in every run of safe
steps, every marker follows its job whenever no call is in progress. -/
theorem markers_follow (digest : String → String) (s : Server) (hstart : ∀ jobId, Follows s jobId)
    (ls : List (Label MarkerOp))
    (hsafe : ∀ x ∈ (markerSystem digest).trace ⟨s, []⟩ ls, SafeStep x.2) :
    ∀ ls', ls' <+: ls → Quiet ((markerSystem digest).run ⟨s, []⟩ ls') →
      MarkersFollow ((markerSystem digest).run ⟨s, []⟩ ls').store := by
  rintro ls' ⟨rest, rfl⟩ hquiet
  rw [System.trace_append] at hsafe
  have hlaunches : ∀ results op p, True → (markerSystem digest).launch results op = some p →
      p.Obeys markerMonitor (fun l _ => l = .idle) .idle := by
    intro results op p _ hp
    obtain rfl := some.inj hp
    exact op.program_obeys digest
  obtain ⟨hcommands, hclients⟩ :
      (∀ earlier x later, (markerSystem digest).trace ⟨s, []⟩ ls' = earlier ++ x :: later →
        markerMonitor.ok ((markerSystem digest).locals markerMonitor (fun _ => .idle) earlier x.1)
          x.2.cmd) ∧
      ∀ (i : ℕ) p, ((markerSystem digest).run ⟨s, []⟩ ls').clients[i]? = some p →
        p.Obeys markerMonitor (fun l _ => l = .idle)
          ((markerSystem digest).locals markerMonitor (fun _ => .idle)
            ((markerSystem digest).trace ⟨s, []⟩ ls') i) :=
    (markerSystem digest).obeys_run (fun results op p _ => hlaunches results op p)
      (fun i p hp => (by cases hp)) (fun _ _ => rfl)
      fun _ _ => trivial
  have htended : MarkersTended
      ((markerSystem digest).locals markerMonitor (fun _ => .idle)
        ((markerSystem digest).trace ⟨s, []⟩ ls'))
      ((markerSystem digest).run ⟨s, []⟩ ls').store := by
    refine ((markerSystem digest).trace_induction
      (fun trace s => MarkersTended
        ((markerSystem digest).locals markerMonitor (fun _ => .idle) trace) s) ?_ ?_).2
    · exact fun jobId => Or.inl (hstart jobId)
    · intro earlier x later htrace h
      rw [System.locals_concat]
      refine h.step (hcommands earlier x later htrace) (hsafe x (List.mem_append_left _ ?_))
      rw [htrace]
      simp
  -- A call that has ended has nothing left to settle.
  have hidle : ∀ client, (markerSystem digest).locals markerMonitor (fun _ => .idle)
      ((markerSystem digest).trace ⟨s, []⟩ ls') client = .idle := by
    intro client
    cases hclient : ((markerSystem digest).run ⟨s, []⟩ ls').clients[client]? with
    | none => exact (markerSystem digest).locals_of_length_le (List.getElem?_eq_none_iff.mp hclient)
    | some p =>
      have hdone := hquiet p (List.mem_of_getElem? hclient)
      cases hclients client _ hclient with
      | done h => exact h
      | call head tail => cases hdone
  refine markersFollow_of_follows fun jobId => (htended jobId).resolve_right ?_
  rintro ⟨client, hwrote | ⟨digest', hread, -⟩⟩
  · rw [hidle] at hwrote
    cases hwrote
  · rw [hidle] at hread
    cases hread

/-! ## A cancelled job -/

open EntryOp (serverOf newest)

theorem serverOf_follows (n : ℕ) (jobId : String) : Follows (serverOf n) jobId := by
  refine follows_of_none (markerOf_of_hash_none ?_)
  cases hhash : (serverOf n).hash (jobKey jobId) with
  | none => rfl
  | some h =>
    obtain ⟨ttl, hkey⟩ := hash_eq_some.mp hhash
    simp only [serverOf] at hkey
    split at hkey <;> cases hkey

/-- The SHA-256 digest of `a`. -/
def digestOfA : String := "ca978112ca1bbdcafac231b39a23dc4da786eff8147c4e72b9807785afee48bb"

def admitted : List (Label MarkerOp) :=
  [.start (.claim "a" { jobId := "J-0001", requestSha256 := digestOfA } 86400), .act 0,
    .start (.create "J-0001"
      { serviceName := "video", source := "api", prompt := "", maxTokens := 0
        idempotencyKeySha256 := some digestOfA } "now"), .act 1, .act 1]

/-- It completes. -/
def admittedCompleted : List (Label MarkerOp) :=
  admitted ++ [.start (.update "J-0001" "completed" "later" .none), .act 2, .act 2, .act 2]

def admittedCancelled : List (Label MarkerOp) :=
  admitted ++ [.start (.cancel "video" none ⟨none, (newest 1).id⟩ "J-0001"
    { completedAt := "later" }), .act 2]

/-- The marker gets its time to live with the job. -/
theorem admittedCompleted_follow :
    Quiet ((markerSystem fun _ => digestOfA).run ⟨serverOf 1, []⟩ admittedCompleted) ∧
      MarkersFollow
        ((markerSystem fun _ => digestOfA).run ⟨serverOf 1, []⟩ admittedCompleted).store := by
  have hquiet : Quiet ((markerSystem fun _ => digestOfA).run ⟨serverOf 1, []⟩ admittedCompleted) := by
    decide +kernel
  exact ⟨hquiet, markers_follow (fun _ => digestOfA) (serverOf 1) (serverOf_follows 1)
    admittedCompleted (by decide +kernel) admittedCompleted List.prefix_rfl hquiet⟩

/-- The marker of the cancelled job never expires. -/
theorem admittedCancelled_not_follow :
    (∀ jobId, Follows (serverOf 1) jobId) ∧
      Quiet ((markerSystem fun _ => digestOfA).run ⟨serverOf 1, []⟩ admittedCancelled) ∧
      ¬ MarkersFollow
        ((markerSystem fun _ => digestOfA).run ⟨serverOf 1, []⟩ admittedCancelled).store := by
  refine ⟨serverOf_follows 1, by decide +kernel, fun h => ?_⟩
  have hstays : (markerOf ((markerSystem fun _ => digestOfA).run ⟨serverOf 1, []⟩
      admittedCancelled).store "J-0001").map Key.ttl = some none := by
    decide +kernel
  obtain ⟨k, hk, httl⟩ := map_eq_some_iff.mp hstays
  have hexpires := h.expiring "J-0001" k hk (by decide +kernel)
  rw [httl] at hexpires
  cases hexpires

end GpuManager.Queue
