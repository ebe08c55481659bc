import GpuManager.Lib.AnyStore
import GpuManager.Queue.Claims

/-!
# Handles and the streams they stand for

The caller of the queue gets a text for an entry and hands it back with the same service and
routing group.  `enqueue` and `get_pending` make the text from the lane whose stream they used;
`dequeue` guesses the lane from the name of the stream.

* `parseEntryHandle_text`: the text of a handle is read as the handle.
* `laneOfStream_laneStream`: the stream of a lane is recognized; so is every queue whose own name
  ends like one.
* `HandlesResolve`: every text that is given out stands for the entry it was given out for,
  whatever the server holds at each round trip.

A tracked job that has a record keeps the text of its first entry, which is read under the name of
the queue that is called now.
-/

namespace GpuManager.Queue

open AtomicProgram Redis PythonText RedisQueue Except Option

/-! ## Texts -/

section Texts

variable {serviceName : String} {routingGroup : Option String} {c : Char}

theorem after_append (start rest : String) : after start (start ++ rest) = some rest := by
  have hprefix : start.toList.isPrefixOf (start ++ rest).toList = true := by
    rw [String.toList_append, List.isPrefixOf_iff_prefix]
    exact List.prefix_append _ _
  unfold after
  rw [if_pos hprefix, String.toList_append, List.drop_left, String.ofList_toList]

theorem splitOnce_append {first rest : String} (h : c ∉ first.toList) :
    splitOnce c (first ++ (String.singleton c ++ rest)) = some (first, rest) := by
  have hne : ∀ d ∈ first.toList, decide (d ≠ c) = true := fun d hd =>
    decide_eq_true fun heq => h (heq ▸ hd)
  have hdrop : (c :: rest.toList).dropWhile (fun d => decide (d ≠ c)) = c :: rest.toList :=
    List.dropWhile_cons_of_neg (by simp)
  have htake : (c :: rest.toList).takeWhile (fun d => decide (d ≠ c)) = [] :=
    List.takeWhile_cons_of_neg (by simp)
  unfold splitOnce
  rw [String.toList_append, String.toList_append, String.toList_singleton,
    List.dropWhile_append_of_pos hne, List.takeWhile_append_of_pos hne, List.singleton_append,
    hdrop, htake, List.append_nil]
  simp only [String.ofList_toList]

theorem after_idText (id : StreamId) : after "lane:" (idText id) = none := by
  have hdigit : ∀ c ∈ (toString (ofLex id).1).toList, c.isDigit = true := by
    intro c hc
    have hmem : c ∈ Nat.toDigits 10 (ofLex id).1 := by simpa [Nat.toDigits] using hc
    exact Nat.isDigit_of_mem_toDigits (by decide) (by decide) hmem
  unfold after idText
  rw [if_neg]
  intro hprefix
  rw [List.isPrefixOf_iff_prefix, String.toList_append, String.toList_append] at hprefix
  cases hmillis : (toString (ofLex id).1).toList with
  | nil =>
    rw [hmillis] at hprefix
    simp at hprefix
  | cons first others =>
    rw [hmillis] at hprefix
    obtain ⟨rest, hrest⟩ := hprefix
    have hfirst : 'l' = first := by simpa using congrArg List.head? hrest
    have hl := hdigit 'l' (by rw [hmillis, hfirst]; exact List.mem_cons_self)
    exact absurd hl (by decide)

theorem laneNamed_text (lane : Lane) : laneNamed lane.text = some lane := by
  cases lane <;> decide

theorem idText_ne (id : StreamId) : idText id ≠ "" := by
  intro hempty
  have hlist := congrArg String.toList hempty
  simp [idText, String.toList_append] at hlist

/-- The text of a handle is read as the handle. -/
theorem parseEntryHandle_text (handle : Handle) :
    parseEntryHandle handle.text serviceName routingGroup =
      (resolveEntryStream serviceName routingGroup handle).map fun place =>
        (place.1, idText place.2, handle.lane) := by
  obtain ⟨lane, rawId⟩ := handle
  unfold parseEntryHandle resolveEntryStream Handle.text
  cases lane with
  | none =>
    simp only [after_idText]
    cases legacyStreamName serviceName routingGroup <;> rfl
  | some lane =>
    have hcolon : ':' ∉ lane.text.toList := by cases lane <;> decide
    have htext : entryHandle lane.text (idText rawId) =
        "lane:" ++ (lane.text ++ (String.singleton ':' ++ idText rawId)) := by
      unfold entryHandle
      rw [String.append_assoc, String.append_assoc]
      rfl
    simp only [htext, after_append, splitOnce_append hcolon, laneNamed_text,
      if_neg (idText_ne rawId)]
    cases laneStreamName serviceName routingGroup lane <;> rfl

/-- What follows the last separator, when it does not occur in the rest. -/
theorem afterLastChars_append {sep rest : List Char} (before : List Char)
    (h : afterLastChars (c :: sep) (sep ++ rest) = none) :
    afterLastChars (c :: sep) (before ++ (c :: sep ++ rest)) = some rest := by
  induction before with
  | nil =>
    have hprefix : (c :: sep).isPrefixOf (c :: (sep ++ rest)) = true := by
      rw [List.isPrefixOf_iff_prefix]
      exact List.prefix_append (c :: sep) rest
    show afterLastChars (c :: sep) (c :: (sep ++ rest)) = some rest
    unfold afterLastChars
    rw [h]
    simp only [if_pos hprefix]
    exact congrArg some List.drop_left
  | cons d before ih =>
    rw [List.cons_append]
    unfold afterLastChars
    rw [ih]

theorem laneOfStream_laneStream (before : String) (lane : Lane) :
    laneOfStream (before ++ ":lane:" ++ lane.text) = some lane := by
  have hlast : afterLast ":lane:" (before ++ ":lane:" ++ lane.text) =
      some lane.text := by
    have hnone : afterLastChars ":lane:".toList
        ("lane:".toList ++ lane.text.toList) = none := by cases lane <;> decide
    have hchars := @afterLastChars_append ':' "lane:".toList lane.text.toList before.toList hnone
    unfold afterLast
    rw [String.append_assoc, String.toList_append, String.toList_append]
    exact (congrArg (Option.map String.ofList) hchars).trans (by
      rw [map_some, String.ofList_toList])
  unfold laneOfStream
  rw [hlast]
  cases lane <;> rfl

end Texts

/-! ## Streams and lanes -/

section Streams

variable {settings : LaneSettings} {serviceName : String} {routingGroup : Option String}

/-- The stream of a lane, or the legacy stream, of a queue. -/
def streamOf (queue : String) : Option Lane → String
  | some lane => "queue:" ++ queue ++ ":lane:" ++ lane.text
  | none => "queue:" ++ queue

theorem resolveEntryStream_eq (hqueue : authority serviceName routingGroup ≠ "") (handle : Handle) :
    resolveEntryStream serviceName routingGroup handle =
      .ok (streamOf (authority serviceName routingGroup) handle.lane, handle.rawId) := by
  obtain ⟨lane, rawId⟩ := handle
  unfold resolveEntryStream laneStreamName legacyStreamName
  cases lane with
  | none | some lane =>
    simp only [if_neg hqueue]
    rfl

/-- `resolve_entry_stream` of a text: the stream and the raw id. -/
def resolved (serviceName : String) (routingGroup : Option String) (entryId : String) :
    Except QueueError (String × String) :=
  (parseEntryHandle entryId serviceName routingGroup).map fun place => (place.1, place.2.1)

theorem resolved_text (hqueue : authority serviceName routingGroup ≠ "") (handle : Handle) :
    resolved serviceName routingGroup handle.text =
      .ok (streamOf (authority serviceName routingGroup) handle.lane, idText handle.rawId) := by
  unfold resolved
  rw [parseEntryHandle_text, resolveEntryStream_eq hqueue]
  rfl

/-- The streams of a service: those of the lanes, and the legacy one. -/
theorem streamSpecs_eq (hqueue : authority serviceName routingGroup ≠ "") :
    streamSpecs settings serviceName routingGroup = .ok
      ((if settings.priorityLanesEnabled then
        [some .interactive, some .normal, some .background, none] else [none]).map fun lane =>
          (streamOf (authority serviceName routingGroup) lane, lane)) := by
  unfold streamSpecs laneStreamName legacyStreamName
  simp only [if_neg hqueue]
  cases settings.priorityLanesEnabled <;> rfl

theorem streamSpecs_error (hqueue : authority serviceName routingGroup = "") :
    ∃ e, streamSpecs settings serviceName routingGroup = .error (.valueError e) := by
  unfold streamSpecs legacyStreamName
  rw [if_pos hqueue]
  exact ⟨_, rfl⟩

/-- The stream of a lane is not that of a shorter lane. -/
theorem streamOf_lane_ne (queue : String) (lane : Lane) :
    streamOf queue (some lane) ≠ streamOf queue none := by
  intro heq
  have hlength := congrArg (fun s => s.toList.length) heq
  simp [streamOf, String.toList_append] at hlength

theorem streamOf_injective {queue queue' : String} {lane : Option Lane}
    (h : streamOf queue lane = streamOf queue' lane) : queue = queue' := by
  have hlist := congrArg String.toList h
  cases lane with
  | none =>
    simp only [streamOf, String.toList_append, List.append_cancel_left_eq] at hlist
    exact String.toList_injective hlist
  | some lane =>
    simp only [streamOf, String.toList_append, List.append_cancel_left_eq,
      List.append_cancel_right_eq] at hlist
    exact String.toList_injective hlist

end Streams

/-! ## Round trips on any server -/

section Rules

variable {L α β : Type} {note : L → Cmd → Server → L} {l : L} {r : Except QueueError α}

variable {c : Cmd} {Q : L → Except QueueError α → Prop} {caught : QueueError → Bool} {a value : α}

theorem must_redis {Q : L → Except QueueError c.Reply → Prop}
    (hok : ∀ s r, (c.script.run s).1 = .ok r → Q (note l c s) (.ok r))
    (herror : ∀ s e, (c.script.run s).1 = .error e → Q (note l c s) (.error (.redisError e))) :
    (redis c).Must exec note Q l := by
  intro s
  cases hreply : (exec c s).1 with
  | ok r => exact hok s r hreply
  | error e => exact herror s e hreply

variable {k : c.Reply → Action α} {body : Action α}

theorem must_redis_bind
    (hok : ∀ s r, (c.script.run s).1 = .ok r → (k r).Must exec note Q (note l c s))
    (herror : ∀ s e, (c.script.run s).1 = .error e → Q (note l c s) (.error (.redisError e))) :
    (redis c >>= k).Must exec note Q l := by
  intro s
  cases hreply : (exec c s).1 with
  | ok r => exact hok s r hreply
  | error e => exact herror s e hreply

theorem may_redis_bind {P : L → Except QueueError α → Prop} (s : Server)
    {r : c.Reply} (hreply : (c.script.run s).1 = .ok r) (hk : (k r).May exec note P (note l c s)) :
    (redis c >>= k).May exec note P l := by
  refine ⟨s, ?_⟩
  rw [show (exec c s).1 = .ok r from hreply]
  exact hk

theorem may_raising_bind {k : α → Action β} {P : L → Except QueueError β → Prop} (hr : r = .ok a)
    (hk : (k a).May exec note P l) : (raising r >>= k).May exec note P l := by
  rw [hr]
  exact hk

theorem must_raising_bind {k : α → Action β}
    {Q : L → Except QueueError β → Prop} (hok : ∀ a, r = .ok a → (k a).Must exec note Q l)
    (herror : ∀ e, r = .error e → Q l (.error e)) : (raising r >>= k).Must exec note Q l := by
  cases r with
  | ok a => exact hok a rfl
  | error e => exact herror e rfl

/-- How the body of a `try` has to end: an exception may be caught, or not. -/
def Caught (Q : L → Except QueueError α → Prop) (value : α) : L → Except QueueError α → Prop
  | l, .ok a => Q l (.ok a)
  | l, .error e => Q l (.ok value) ∧ Q l (.error e)

theorem must_catching (h : body.Must exec note (Caught Q value) l) :
    (catching caught value body).Must exec note Q l := by
  refine h.attempt.bind (fun l a ha => ?_) fun l e he => ?_
  · obtain ⟨r, hr, hcaught⟩ := ha
    obtain rfl := ok.inj hr
    cases a with
    | ok a => exact hcaught
    | error e =>
      simp only
      split
      · exact hcaught.1
      · exact hcaught.2
  · obtain ⟨r, hr, -⟩ := he
    cases hr

theorem may_catching {P : L → Prop} (h : body.May exec note (fun l r => P l ∧ r = .ok a) l) :
    (catching caught value body).May exec note (fun l r => P l ∧ r = .ok a) l := by
  refine h.attempt.bind fun l r hr => ?_
  obtain ⟨r', rfl, hl, rfl⟩ := hr
  exact ⟨_, rfl, hl, rfl⟩

end Rules

/-! ## What is given out -/

def origins (reply : List (String × List Entry)) : List (String × StreamId) :=
  reply.flatMap fun delivery => delivery.2.map fun entry => (delivery.1, entry.id)

/-- What was delivered. -/
def delivered : Except String (List (String × List Entry)) → List (String × StreamId)
  | .ok reply => origins reply
  | .error _ => []

def noteClaimed (claimed : List (String × StreamId)) (c : Cmd) (s : Server) :
    List (String × StreamId) :=
  match c with
  | .xreadgroup streams consumer count =>
    delivered ((Cmd.xreadgroup streams consumer count).script.run s).1
  | _ => claimed

/-- The entry that was added, or the one of the record that was found: `recorded` is a handle that
was given out before, for the entry `place`. -/
def notePlaced (recorded : Handle) (place : String × StreamId)
    (placed : Option (String × StreamId)) (c : Cmd) (s : Server) : Option (String × StreamId) :=
  match c with
  | .xadd stream payload =>
    ((Redis.xadd stream payload).run s).1.toOption.map fun id => (stream, id)
  | .addTracked jobId stream payload _ _ _ =>
    match s.hash (jobKey jobId) with
    | some fields => if fields "entry_id" = some recorded.text then some place else none
    | none => ((Redis.xadd stream payload).run s).1.toOption.map fun id => (stream, id)
  | _ => placed

/-- The entries that were listed. -/
def noteListed (listed : List (String × StreamId)) (c : Cmd) (s : Server) :
    List (String × StreamId) :=
  match c with
  | .xpendingRange stream =>
    listed ++ (((Cmd.xpendingRange stream).script.run s).1.toOption.getD []).map fun p =>
      (stream, p.1)
  | _ => listed

/-- Each claim stands for the entry that it was made of. -/
def ClaimsResolve (serviceName : String) (routingGroup : Option String)
    (claimed : List (String × StreamId)) (r : Except QueueError (List Claim)) : Prop :=
  ∀ claims, r = .ok claims →
    claims.map (fun c => resolved serviceName routingGroup c.entryId.text) =
      claimed.map fun place => .ok (place.1, idText place.2)

/-- The text that was given out stands for the entry that was placed. -/
def PlacedResolves (serviceName : String) (routingGroup : Option String)
    (placed : Option (String × StreamId)) (r : Except QueueError (Option String)) : Prop :=
  ∀ handle place, r = .ok (some handle) → placed = some place →
    resolved serviceName routingGroup handle = .ok (place.1, idText place.2)

/-- Each row stands for an entry that was listed for its stream. -/
def ListedResolve (serviceName : String) (routingGroup : Option String)
    (listed : List (String × StreamId)) (r : Except QueueError (List PendingEntry)) : Prop :=
  ∀ entries, r = .ok entries → ∀ e ∈ entries, ∃ id, (e.stream, id) ∈ listed ∧
    resolved serviceName routingGroup e.entryId = .ok (e.stream, idText id)

/-- Each text that `dequeue`, `enqueue` and `get_pending` give out stands for the entry that it was
given out for, whatever the server holds at each round trip.  The record of a tracked job, when
there is one, has a text that `enqueue` gave out for the recorded service and group. -/
structure HandlesResolve (settings : LaneSettings) (serviceName : String)
    (routingGroup : Option String) (recordedService : String) (recordedGroup : Option String) :
    Prop where
  dequeue : ∀ consumerName count now,
    (dequeue settings serviceName routingGroup consumerName count now).Must exec
      noteClaimed (ClaimsResolve serviceName routingGroup) []
  enqueue : ∀ applyPriorityContract jobData trackedJob now recorded place,
    resolveEntryStream recordedService recordedGroup recorded = .ok place →
    (enqueue settings applyPriorityContract serviceName routingGroup jobData trackedJob
      now).Must exec (notePlaced recorded place) (PlacedResolves serviceName routingGroup) none
  pending : ∀ strict,
    (getPending settings serviceName routingGroup strict).Must exec noteListed
      (ListedResolve serviceName routingGroup) []

section Given

variable {settings : LaneSettings} {serviceName recordedService : String}
  {routingGroup recordedGroup : Option String}

/-! ### Claiming -/

variable {s : Server} {reply : List (String × List Entry)} {lanePrefix : String}

variable {consumer stream : String} {place : String × StreamId} {count : ℕ} {L : Type}

theorem readAll_keys {keys : List String} {s' : Server}
    (h : (readAll consumer count keys).run s = (.ok reply, s')) : reply.map (·.1) = keys := by
  induction keys generalizing s s' reply with
  | nil =>
    obtain ⟨hreply, -⟩ := Prod.mk.inj h
    rw [← ok.inj hreply]
    rfl
  | cons key keys ih =>
    unfold readAll at h
    rw [Script.run_bind] at h
    cases hread : (xreadgroup group consumer count key).run s with
    | mk r s₁ =>
      rw [hread] at h
      cases r with
      | error e => cases (Prod.mk.inj h).1
      | ok entries =>
        simp only [Script.run_bind] at h
        cases hrest : (readAll consumer count keys).run s₁ with
        | mk r s₂ =>
          rw [hrest] at h
          cases r with
          | error e => cases (Prod.mk.inj h).1
          | ok others =>
            obtain rfl := ok.inj (Prod.mk.inj h).1
            rw [List.map_cons, ih hrest]

/-- A delivery is of the streams that were asked for. -/
theorem xreadgroup_keys {streams : List String}
    (h : ((Cmd.xreadgroup streams consumer count).script.run s).1 = .ok reply) :
    reply.map (·.1) = streams := by
  have hrun : (requireGroups streams >>= fun _ => readAll consumer count streams).run s =
      (.ok reply, ((Cmd.xreadgroup streams consumer count).script.run s).2) := Prod.ext h rfl
  rw [Script.run_bind] at hrun
  cases hgroups : (requireGroups streams).run s with
  | mk r s₁ =>
    rw [hgroups] at hrun
    cases r with
    | error e => cases (Prod.mk.inj hrun).1
    | ok u => exact readAll_keys hrun

/-- A delivery whose streams are guessed right is decoded right. -/
theorem resolved_decoded (hqueue : authority serviceName routingGroup ≠ "")
    {selectedLane : Option Lane}
    (h : ∀ stream ∈ reply.map (·.1), streamOf (authority serviceName routingGroup)
      (selectedLane.or (laneOfStream stream)) = stream) :
    (decodeClaimedEntries selectedLane reply).map
        (fun c => resolved serviceName routingGroup c.entryId.text) =
      (origins reply).map fun place => .ok (place.1, idText place.2) := by
  unfold decodeClaimedEntries origins
  rw [List.map_flatMap, List.map_flatMap]
  refine List.flatMap_congr fun delivery hdelivery => ?_
  rw [List.map_map, List.map_map]
  refine List.map_congr_left fun entry _ => ?_
  show resolved serviceName routingGroup
    (Handle.text ⟨selectedLane.or (laneOfStream delivery.1), entry.id⟩) = _
  rw [resolved_text hqueue, h delivery.1 (List.mem_map_of_mem hdelivery)]
  rfl

theorem mem_streamSpecs {specs : List (String × Option Lane)}
    (h : streamSpecs settings serviceName routingGroup = .ok specs) :
    authority serviceName routingGroup ≠ "" ∧ ∀ spec ∈ specs,
      spec.1 = streamOf (authority serviceName routingGroup) spec.2 := by
  by_cases hqueue : authority serviceName routingGroup = ""
  · obtain ⟨e, he⟩ := @streamSpecs_error settings _ _ hqueue
    rw [he] at h
    cases h
  · refine ⟨hqueue, fun spec hspec => ?_⟩
    rw [streamSpecs_eq hqueue] at h
    rw [← ok.inj h] at hspec
    obtain ⟨lane, -, rfl⟩ := List.mem_map.mp hspec
    rfl

theorem ensureGroups_must {note : L → Cmd → Server → L} {l : L}
    (hnote : ∀ l stream s, note l (.ensureGroup stream) s = l)
    (specs : List (String × Option Lane)) :
    (ensureGroups specs).Must exec note (fun l' _ => l' = l) l := by
  induction specs with
  | nil => exact rfl
  | cons spec specs ih =>
    refine must_redis_bind (fun s _ _ => ?_) fun s _ _ => hnote l _ s
    rw [hnote]
    exact ih

theorem readyEntries_must {now : ℚ} {claimed : List (String × StreamId)}
    (specs : List (String × Option Lane)) :
    (readyEntries settings now specs).Must exec noteClaimed (fun claimed' r => claimed' = claimed ∧
      ∀ candidates, r = .ok candidates → ∀ c ∈ candidates, c.2 ∈ specs) claimed := by
  induction specs with
  | nil =>
    refine ⟨rfl, fun candidates hr c hc => ?_⟩
    obtain rfl := ok.inj hr
    cases hc
  | cons spec specs ih =>
    have hrow : (catching isRedisError none (redis (.lastDelivered spec.1) >>= fun lastId =>
        redis (.xread spec.1 lastId)) : Action (Option Entry)).Must exec noteClaimed
        (fun claimed' _ => claimed' = claimed) claimed := by
      refine must_catching (must_redis_bind (fun s lastId _ => ?_) fun s e _ => ⟨rfl, rfl⟩)
      exact @must_redis _ noteClaimed _ (.xread spec.1 lastId)
        (Caught (fun claimed' _ => claimed' = claimed) none) (fun _ _ _ => rfl)
        fun _ _ _ => ⟨rfl, rfl⟩
    refine hrow.bind (fun claimed' row hclaimed => ?_) fun claimed' e hclaimed =>
      ⟨hclaimed, fun _ hr => (by cases hr)⟩
    rw [hclaimed]
    refine ih.bind (fun claimed'' others hothers => ?_) fun _ e he =>
      ⟨he.1, fun _ hr => (by cases hr)⟩
    have hmem := hothers.2 others rfl
    cases row with
    | none =>
      refine ⟨hothers.1, fun candidates hr c hc => ?_⟩
      obtain rfl := ok.inj hr
      exact List.mem_cons_of_mem _ (hmem c hc)
    | some entry =>
      refine ⟨hothers.1, fun candidates hr c hc => ?_⟩
      obtain rfl := ok.inj hr
      rcases List.mem_cons.mp hc with rfl | hc
      · exact List.mem_cons_self
      · exact List.mem_cons_of_mem _ (hmem c hc)

/-- The lane of a stream of the service is guessed from its name, or given with it. -/
theorem streamOf_guess (hlegacy : laneOfStream (streamOf (authority serviceName routingGroup) none) =
    none) (lane : Option Lane) :
    laneOfStream (streamOf (authority serviceName routingGroup) lane) = lane := by
  cases lane with
  | none => exact hlegacy
  | some lane => exact laneOfStream_laneStream _ lane

theorem claimsResolve_error (e : QueueError) :
    Caught (ClaimsResolve serviceName routingGroup) [] [] (.error e) := by
  refine ⟨fun claims hr => ?_, fun _ hr => (by cases hr)⟩
  rw [← ok.inj hr]
  rfl

/-- When the queue is not named like a lane, what is claimed can be found again. -/
theorem dequeue_resolves
    (hlegacy : laneOfStream (streamOf (authority serviceName routingGroup) none) = none)
    (consumerName : String) (count : ℕ) (now : ℚ) :
    (dequeue settings serviceName routingGroup consumerName count now).Must exec
      noteClaimed (ClaimsResolve serviceName routingGroup) [] := by
  refine must_catching ?_
  refine must_raising_bind (fun specs hspecs => ?_) fun e _ => claimsResolve_error e
  obtain ⟨hqueue, hstreams⟩ := mem_streamSpecs hspecs
  refine (ensureGroups_must (fun _ _ _ => rfl) specs).bind (fun claimed _ hclaimed => ?_)
    fun claimed e hclaimed => hclaimed ▸ claimsResolve_error e
  subst hclaimed
  have hcandidates : (candidateEntries settings now specs).Must exec noteClaimed (fun claimed r =>
      claimed = [] ∧ ∀ candidates, r = .ok candidates → ∀ c ∈ candidates, c.2 ∈ specs) [] := by
    unfold candidateEntries
    split
    · exact readyEntries_must specs
    refine ⟨rfl, fun candidates hr c hc => ?_⟩
    obtain rfl := ok.inj hr
    cases hc
  refine hcandidates.bind (fun claimed candidates hc => ?_) fun claimed e he =>
    he.1 ▸ claimsResolve_error e
  obtain ⟨rfl, hmem⟩ := hc
  replace hmem := hmem candidates rfl
  -- A delivery is decoded with the given lane, or with the one that the name of its stream shows.
  have hdecoded : ∀ (selectedLane : Option Lane) (streams : List String),
      (∀ stream ∈ streams, streamOf (authority serviceName routingGroup)
        (selectedLane.or (laneOfStream stream)) = stream) →
      (redis (.xreadgroup streams consumerName count) >>= fun claimed =>
        pure (decodeClaimedEntries selectedLane claimed) : Action (List Claim)).Must exec
        noteClaimed (Caught (ClaimsResolve serviceName routingGroup) []) [] := by
    intro selectedLane streams hguess
    refine must_redis_bind (fun s reply hreply => ?_) fun s e hreply => ?_
    · intro claims hclaims
      have hnote : noteClaimed [] (.xreadgroup streams consumerName count) s = origins reply :=
        congrArg delivered hreply
      rw [hnote, ← ok.inj hclaims]
      exact resolved_decoded hqueue fun stream hstream => hguess stream
        (xreadgroup_keys hreply ▸ hstream)
    · have hnote : noteClaimed [] (.xreadgroup streams consumerName count) s = [] :=
        congrArg delivered hreply
      rw [hnote]
      exact claimsResolve_error _
  cases hbest : bestCandidate candidates with
  | none =>
    refine hdecoded none _ fun stream hstream => ?_
    obtain ⟨spec, hspec, rfl⟩ := List.mem_map.mp hstream
    rw [hstreams spec hspec, none_or, streamOf_guess hlegacy]
  | some best =>
    obtain ⟨score, stream, lane⟩ := best
    have hspec := hmem _ (bestCandidate_mem hbest)
    have hstream : stream = streamOf (authority serviceName routingGroup) lane :=
      hstreams _ hspec
    refine hdecoded lane _ fun other hother => ?_
    rw [List.mem_singleton.mp hother]
    cases lane with
    | none => rw [none_or, hstream, streamOf_guess hlegacy]
    | some lane => rw [some_or, hstream]

/-! ### Enqueueing -/

/-- What the script of a tracked job gives out. -/
theorem addTracked_reply {jobId requestSha256 handle : String} {payload record : Fields}
    (h : ((addTracked (jobKey jobId) stream payload record requestSha256 lanePrefix).run s).1 =
      .ok handle) :
    (∃ fields, s.hash (jobKey jobId) = some fields ∧ fields "entry_id" = some handle) ∨
      s.hash (jobKey jobId) = none ∧ ∃ id, ((Redis.xadd stream payload).run s).1 = .ok id ∧
        handle = lanePrefix ++ idText id := by
  unfold addTracked at h
  simp only [Script.run_bind, type] at h
  split at h
  · cases h
  split at h
  · cases h
  split at h
  case isTrue hhash =>
    obtain ⟨fields, hfields⟩ := Server.typeOf_eq_hash.mp hhash
    obtain ⟨ttl, hkey⟩ := Server.hash_eq_some.mp hfields
    have hget : ∀ field, (hget (jobKey jobId) field).run s = (.ok (fields field), s) := by
      intro field
      unfold hget
      simp only [hkey]
    simp only [Script.run_bind, hget] at h
    split at h
    · cases h
    cases hentry : fields "entry_id" with
    | none =>
      simp only [Script.run_bind, hget, hentry] at h
      cases h
    | some prior =>
      simp only [Script.run_bind, hget, hentry] at h
      obtain rfl := ok.inj h
      exact Or.inl ⟨fields, hfields, hentry⟩
  case isFalse hhash =>
    have hnone : s.hash (jobKey jobId) = none := by
      rw [← not_isSome_iff_eq_none]
      intro hsome
      obtain ⟨fields, hfields⟩ := isSome_iff_exists.mp hsome
      exact hhash (Server.typeOf_eq_hash.mpr ⟨fields, hfields⟩)
    refine Or.inr ⟨hnone, ?_⟩
    simp only [Script.run_bind] at h
    cases hadd : (xadd stream payload).run s with
    | mk r s₁ =>
      rw [hadd] at h
      cases r with
      | error e => cases h
      | ok id =>
        refine ⟨id, rfl, ?_⟩
        simp only at h
        cases hrecord : (hset (jobKey jobId) record).run s₁ with
        | mk r s₂ =>
          rw [hrecord] at h
          cases r with
          | error e => cases h
          | ok u =>
            simp only at h
            cases hentry : (hset (jobKey jobId)
                [("entry_id", lanePrefix ++ idText id)]).run s₂ with
            | mk r s₃ =>
              rw [hentry] at h
              cases r with
              | error e => cases h
              | ok u => exact (ok.inj h).symm

theorem placedResolves_error (placed : Option (String × StreamId)) (e : QueueError) :
    Caught (PlacedResolves serviceName routingGroup) none placed (.error e) :=
  ⟨fun _ _ hr => (by cases hr), fun _ _ hr => (by cases hr)⟩

/-- The queue that a handle was given out for has a name. -/
theorem authority_of_resolve {handle : Handle}
    (h : resolveEntryStream serviceName routingGroup handle = .ok place) :
    authority serviceName routingGroup ≠ "" := by
  intro hempty
  unfold resolveEntryStream laneStreamName legacyStreamName at h
  simp only [if_pos hempty] at h
  split at h <;> cases h

theorem enqueue_stream (hqueue : authority serviceName routingGroup ≠ "") (lane : Lane)
    {legacy : String} (hlegacy : legacyStreamName serviceName routingGroup = .ok legacy) :
    (if settings.priorityLanesEnabled then laneStreamName serviceName routingGroup lane
      else .ok legacy) = .ok (streamOf (authority serviceName routingGroup)
        (if settings.priorityLanesEnabled then some lane else none)) := by
  unfold legacyStreamName at hlegacy
  unfold laneStreamName
  simp only [if_neg hqueue] at hlegacy ⊢
  rw [← hlegacy]
  cases settings.priorityLanesEnabled <;> rfl

theorem addTracked_text (lane : Lane) (id : StreamId) :
    (if settings.priorityLanesEnabled then entryHandle lane.text "" else "") ++ idText id =
      Handle.text ⟨if settings.priorityLanesEnabled then some lane else none, id⟩ := by
  cases settings.priorityLanesEnabled with
  | false => exact String.empty_append
  | true =>
    show "lane:" ++ lane.text ++ ":" ++ "" ++ idText id = _
    rw [String.append_empty]
    rfl

/-- An entry is added, and its text is given out. -/
theorem must_xadd (hqueue : authority serviceName routingGroup ≠ "") (lane : Option Lane)
    (payload : Fields) (recorded : Handle) (place : String × StreamId) {text : StreamId → String}
    (htext : ∀ id, text id = Handle.text ⟨lane, id⟩) :
    (redis (.xadd (streamOf (authority serviceName routingGroup) lane) payload) >>= fun entryId =>
      pure (some (text entryId)) : Action (Option String)).Must exec (notePlaced recorded place)
      (Caught (PlacedResolves serviceName routingGroup) none) none := by
  refine must_redis_bind (fun s (id : StreamId) hid => ?_) fun _ e _ => placedResolves_error _ _
  intro handle placed hhandle hplaced
  have hadded : notePlaced recorded place none
      (.xadd (streamOf (authority serviceName routingGroup) lane) payload) s =
        some (streamOf (authority serviceName routingGroup) lane, id) :=
    congrArg (fun r : Except String StreamId => r.toOption.map fun id => (_, id)) hid
  rw [hadded] at hplaced
  rw [← some.inj hplaced, ← some.inj (ok.inj hhandle), htext,
    resolved_text hqueue]

/-- A tracked entry is added, or the text of its record is given out. -/
theorem must_addTracked (hqueue : authority serviceName routingGroup ≠ "") (lane : Option Lane)
    (tracked : TrackedJob) (payload : Fields) (recorded : Handle)
    (htext : ∀ id, lanePrefix ++ idText id = Handle.text ⟨lane, id⟩) :
    (redis (.addTracked tracked.jobId (streamOf (authority serviceName routingGroup) lane) payload
      tracked.record tracked.requestSha256 lanePrefix) >>= fun handle =>
        pure (some handle) : Action (Option String)).Must exec
      (notePlaced recorded (streamOf (authority serviceName routingGroup) recorded.lane,
        recorded.rawId))
      (Caught (PlacedResolves serviceName routingGroup) none) none := by
  refine must_redis_bind (fun s (text : String) hreply => ?_) fun _ e _ => placedResolves_error _ _
  intro handle placed hhandle hplaced
  rw [← some.inj (ok.inj hhandle)]
  unfold notePlaced at hplaced
  rcases addTracked_reply hreply with ⟨fields, hfields, hentry⟩ | ⟨hnone, id, hid, rfl⟩
  · simp only [hfields, hentry] at hplaced
    split at hplaced
    case isTrue hsame =>
      rw [← some.inj hplaced, some.inj hsame, resolved_text hqueue]
    case isFalse => cases hplaced
  · simp only [hnone, hid] at hplaced
    rw [← some.inj hplaced, htext, resolved_text hqueue]

theorem notePlaced_ensureGroup (recorded : Handle) (place : String × StreamId)
    (placed : Option (String × StreamId)) (stream : String) (s : Server) :
    notePlaced recorded place placed (.ensureGroup stream) s = placed := rfl

/-- What is enqueued can be found, and so can the entry of a record of the same queue. -/
theorem enqueue_resolves (hrecorded : authority recordedService recordedGroup = "" ∨
      authority recordedService recordedGroup = authority serviceName routingGroup)
    (applyPriorityContract : Fields → String → Except QueueError Fields) (jobData : Fields)
    (trackedJob : Option TrackedJob) (now : String) {recorded : Handle}
    (hplace : resolveEntryStream recordedService recordedGroup recorded = .ok place) :
    (enqueue settings applyPriorityContract serviceName routingGroup jobData trackedJob
      now).Must exec (notePlaced recorded place)
        (PlacedResolves serviceName routingGroup) none := by
  have hauthority := authority_of_resolve hplace
  have hsame := hrecorded.resolve_left hauthority
  have hqueue : authority serviceName routingGroup ≠ "" := hsame ▸ hauthority
  rw [resolveEntryStream_eq hauthority, hsame] at hplace
  obtain rfl := ok.inj hplace
  have hraised : ∀ e, Caught (PlacedResolves serviceName routingGroup) none none (.error e) :=
    placedResolves_error none
  refine must_catching ?_
  unfold enqueueEntry
  refine must_raising_bind (fun legacy hlegacy => ?_) fun e _ => hraised e
  refine must_redis_bind (fun s _ _ => ?_) fun _ e _ => hraised _
  rw [notePlaced_ensureGroup]
  refine must_raising_bind (fun contracted _ => ?_) fun e _ => hraised e
  generalize priorityLane contracted = named
  refine must_raising_bind (fun lane _ => ?_) fun e _ => hraised e
  generalize hnamed : (if settings.priorityLanesEnabled then
    laneStreamName serviceName routingGroup lane else .ok legacy) = named
  refine must_raising_bind (fun stream hstream => ?_) fun e _ => hraised e
  rw [← hnamed, enqueue_stream hqueue lane hlegacy] at hstream
  rw [← ok.inj hstream]
  cases trackedJob with
  | none =>
    refine must_xadd hqueue _ _ _ _ fun id => ?_
    cases settings.priorityLanesEnabled <;> rfl
  | some tracked => exact must_addTracked hqueue _ _ _ _ fun id => addTracked_text lane id

/-! ### Listing -/

theorem pendingOf_must {strict : Bool} (hqueue : authority serviceName routingGroup ≠ "")
    {listed : List (String × StreamId)} (specs : List (String × Option Lane))
    (hstreams : ∀ spec ∈ specs, spec.1 = streamOf (authority serviceName routingGroup) spec.2) :
    (pendingOf strict specs).Must exec noteListed (fun listed' r => listed ⊆ listed' ∧
      ListedResolve serviceName routingGroup listed' r) listed := by
  induction specs generalizing listed with
  | nil =>
    refine ⟨List.Subset.refl _, fun entries hr e he => ?_⟩
    obtain rfl := ok.inj hr
    cases he
  | cons spec specs ih =>
    have hensure : (catching (fun _ => !strict) () (redis (.ensureGroup spec.1)) :
        Action Unit).Must exec noteListed (fun listed' _ => listed' = listed) listed :=
      must_catching (@must_redis _ noteListed _ (.ensureGroup spec.1)
        (Caught (fun listed' _ => listed' = listed) ()) (fun _ _ _ => rfl)
        fun _ _ _ => ⟨rfl, rfl⟩)
    refine hensure.bind (fun listed' _ hlisted => ?_) fun listed' e hlisted =>
      ⟨hlisted ▸ List.Subset.refl _, fun _ hr => (by cases hr)⟩
    subst hlisted
    refine must_redis_bind (fun s reply hreply => ?_) fun s e hreply =>
      ⟨List.subset_append_left _ _, fun _ hr => (by cases hr)⟩
    refine (ih fun spec' hspec' => hstreams spec' (List.mem_cons_of_mem _ hspec')).bind
      (fun listed' others hothers => ?_) fun listed' e he =>
        ⟨List.Subset.trans (List.subset_append_left _ _) he.1, fun _ hr => (by cases hr)⟩
    refine ⟨List.Subset.trans (List.subset_append_left _ _) hothers.1, fun entries hr e he => ?_⟩
    obtain rfl := ok.inj hr
    rcases List.mem_append.mp he with he | he
    · obtain ⟨p, hp, rfl⟩ := List.mem_map.mp he
      have hspec := hstreams spec List.mem_cons_self
      refine ⟨p.1, hothers.1 (List.mem_append_right _ ?_), ?_⟩
      · change ((Cmd.xpendingRange spec.1).script.run s).1 = .ok reply at hreply
        rw [hreply]
        exact List.mem_map_of_mem (f := fun p => (spec.1, p.1)) hp
      · show resolved serviceName routingGroup (Handle.text ⟨spec.2, p.1⟩) = _
        rw [resolved_text hqueue, hspec]
    · exact hothers.2 others rfl e he

theorem getPending_resolves (strict : Bool) :
    (getPending settings serviceName routingGroup strict).Must exec noteListed
      (ListedResolve serviceName routingGroup) [] := by
  have hraised : ∀ (listed : List (String × StreamId)) (e : QueueError),
      Caught (ListedResolve serviceName routingGroup) [] listed (.error e) := by
    refine fun listed e => ⟨fun entries hr row hrow => ?_, fun _ hr => (by cases hr)⟩
    rw [← ok.inj hr] at hrow
    cases hrow
  refine must_catching ?_
  refine must_raising_bind (fun specs hspecs => ?_) fun e _ => hraised _ e
  obtain ⟨hqueue, hstreams⟩ := mem_streamSpecs hspecs
  refine (pendingOf_must hqueue specs hstreams).mono fun listed r hr => ?_
  cases r with
  | ok entries => exact hr.2
  | error e => exact hraised listed e

/-! ### Where it goes wrong -/

/-- A server on which every stream has one entry that waits. -/
def waitingServer : Server :=
  { keys := fun _ => some ⟨.stream ((Stream.empty.add 1 []).createGroup group), none⟩ }

/-- The entry. -/
def waitingEntry : Entry := ⟨toLex (1, 0), []⟩

theorem ensureGroups_may {note : L → Cmd → Server → L} {l : L}
    (hnote : ∀ l stream s, note l (.ensureGroup stream) s = l)
    (specs : List (String × Option Lane)) :
    (ensureGroups specs).May exec note (fun l' r => l' = l ∧ r = .ok ()) l := by
  induction specs with
  | nil => exact ⟨rfl, rfl⟩
  | cons spec specs ih =>
    refine may_redis_bind {} rfl ?_
    rw [hnote]
    exact ih

/-- Only the legacy stream has an entry that waits. -/
theorem readyEntries_may (now : ℚ) (stream : String) (specs : List (String × Option Lane)) :
    (readyEntries settings now (specs ++ [(stream, none)])).May exec noteClaimed
      (fun claimed r => claimed = [] ∧ r = .ok [(priorityAgeScore settings none waitingEntry.id now,
        stream, none)]) [] := by
  induction specs with
  | nil =>
    have hrow : (catching isRedisError none (redis (.lastDelivered stream) >>= fun lastId =>
        redis (.xread stream lastId)) : Action (Option Entry)).May exec noteClaimed
        (fun claimed r => claimed = [] ∧ r = .ok (some waitingEntry)) [] :=
      may_catching (may_redis_bind waitingServer rfl ⟨waitingServer, rfl, rfl⟩)
    refine hrow.bind fun claimed r hr => ⟨_, hr.2, ?_⟩
    rw [hr.1]
    exact ⟨rfl, rfl⟩
  | cons spec specs ih =>
    have hrow : (catching isRedisError none (redis (.lastDelivered spec.1) >>= fun lastId =>
        redis (.xread spec.1 lastId)) : Action (Option Entry)).May exec noteClaimed
        (fun claimed r => claimed = [] ∧ r = .ok none) [] :=
      may_catching (may_redis_bind {} rfl ⟨{}, rfl, rfl⟩)
    refine hrow.bind fun claimed r hr => ⟨_, hr.2, ?_⟩
    rw [hr.1]
    refine ih.bind fun claimed r hr => ⟨_, hr.2, ?_⟩
    rw [hr.1]
    exact ⟨rfl, rfl⟩

section

variable {lane : Lane} (hqueue : authority serviceName routingGroup ≠ "")
  (hlegacy : laneOfStream (streamOf (authority serviceName routingGroup) none) = some lane)
include hqueue hlegacy

/-- A queue that is named like a lane hands out a text for another stream. -/
theorem dequeue_misled :
    (dequeue settings serviceName routingGroup "worker" 1 0).May exec noteClaimed
      (fun claimed r => claimed = [(streamOf (authority serviceName routingGroup) none,
          waitingEntry.id)] ∧
        r = .ok [⟨waitingEntry.fields, some lane, waitingEntry.id⟩]) [] := by
  have hread : (redis (.xreadgroup [streamOf (authority serviceName routingGroup) none] "worker" 1)
      >>= fun claimed => pure (decodeClaimedEntries none claimed) : Action (List Claim)).May exec
      noteClaimed (fun claimed r => claimed = [(streamOf (authority serviceName routingGroup) none,
          waitingEntry.id)] ∧
        r = .ok [⟨waitingEntry.fields, some lane, waitingEntry.id⟩]) [] := by
    refine may_redis_bind waitingServer (r := [(streamOf (authority serviceName routingGroup) none,
      [waitingEntry])]) rfl ⟨rfl, ?_⟩
    show Except.ok (List.map _ [waitingEntry] ++ []) = _
    rw [none_or, hlegacy]
    rfl
  refine may_catching (may_raising_bind (streamSpecs_eq hqueue) ?_)
  refine (ensureGroups_may (fun _ _ _ => rfl) _).bind fun claimed r hr => ⟨_, hr.2, ?_⟩
  rw [hr.1]
  unfold candidateEntries
  cases settings.priorityLanesEnabled with
  | false => exact hread
  | true =>
    have hready := @readyEntries_may settings 0
      (streamOf (authority serviceName routingGroup) none)
      ([some .interactive, some .normal, some .background].map fun lane =>
        (streamOf (authority serviceName routingGroup) lane, lane))
    refine hready.bind fun claimed r hr => ⟨_, hr.2, ?_⟩
    rw [hr.1]
    exact hread

theorem dequeue_unresolved :
    ¬ (dequeue settings serviceName routingGroup "worker" 1 0).Must exec noteClaimed
      (ClaimsResolve serviceName routingGroup) [] := by
  intro hmust
  obtain ⟨claimed, r, hclaims, rfl, rfl⟩ := Prog.must_may hmust (dequeue_misled hqueue hlegacy)
  have hresolved := hclaims _ rfl
  simp only [List.map_cons, List.map_nil, List.cons.injEq, and_true] at hresolved
  rw [resolved_text hqueue] at hresolved
  exact streamOf_lane_ne _ lane (Prod.mk.inj (ok.inj hresolved)).1

end

def recordedJob : TrackedJob where
  record := [("job_id", "job"), ("request_sha256", "digest")]
  jobId := "job"
  requestSha256 := "digest"
  has_jobId := rfl
  has_requestSha256 := rfl

/-- A server with its record. -/
def recordedServer : Server :=
  { keys := fun key =>
      if key = jobKey "job" then
        some ⟨.hash fun field =>
          if field = "request_sha256" then some "digest"
          else if field = "entry_id" then some (Handle.text ⟨none, waitingEntry.id⟩)
          else none, none⟩
      else none }

theorem addTracked_recorded (hstream : IsQueue stream) (payload : Fields) :
    ((Cmd.addTracked "job" stream payload recordedJob.record "digest" lanePrefix).script.run
      recordedServer).1 = .ok (Handle.text ⟨none, waitingEntry.id⟩) := by
  have hkey : recordedServer.typeOf (jobKey "job") = .hash := rfl
  have hnone : recordedServer.typeOf stream = .none := by
    rw [Server.typeOf_eq_none]
    exact if_neg (hstream.ne_jobKey "job")
  have hget : ∀ field, (hget (jobKey "job") field).run recordedServer =
      (.ok (if field = "request_sha256" then some "digest"
        else if field = "entry_id" then some (Handle.text ⟨none, waitingEntry.id⟩)
        else none), recordedServer) := fun _ => rfl
  show ((addTracked (jobKey "job") stream payload _ "digest" lanePrefix).run recordedServer).1 = _
  unfold addTracked
  simp [Script.run_bind, type, hkey, hnone, hget]
  rfl

/-- The text of another queue is handed out for a job that is recorded for it. -/
theorem enqueue_misled (hqueue : authority serviceName routingGroup ≠ "")
    (place : String × StreamId) :
    (enqueue settings (fun _ _ => .ok []) serviceName routingGroup [] (some recordedJob)
      "").May exec (notePlaced ⟨none, waitingEntry.id⟩ place) (fun placed r => placed = some place ∧
        r = .ok (some (Handle.text ⟨none, waitingEntry.id⟩))) none := by
  have hadd : ∀ (lane : Option Lane) (payload : Fields) (lanePrefix : String),
      (redis (.addTracked recordedJob.jobId (streamOf (authority serviceName routingGroup) lane)
        payload recordedJob.record recordedJob.requestSha256 lanePrefix) >>= fun handle =>
          pure (some handle) : Action (Option String)).May exec
        (notePlaced ⟨none, waitingEntry.id⟩ place) (fun placed r => placed = some place ∧
          r = .ok (some (Handle.text ⟨none, waitingEntry.id⟩))) none := by
    intro lane payload lanePrefix
    have hstream : IsQueue (streamOf (authority serviceName routingGroup) lane) :=
      resolve_queue (resolveEntryStream_eq hqueue ⟨lane, waitingEntry.id⟩)
    exact may_redis_bind recordedServer (addTracked_recorded hstream payload) ⟨rfl, rfl⟩
  have hlegacy : legacyStreamName serviceName routingGroup =
      .ok (streamOf (authority serviceName routingGroup) none) := by
    unfold legacyStreamName
    rw [if_neg hqueue]
    rfl
  have hlane : priorityLane [] = .ok .normal := rfl
  refine may_catching ?_
  unfold enqueueEntry
  refine may_raising_bind hlegacy (may_redis_bind {} rfl ?_)
  rw [notePlaced_ensureGroup]
  refine may_raising_bind rfl ?_
  generalize hnamed : priorityLane [] = named
  refine may_raising_bind (hnamed.symm.trans hlane) ?_
  exact may_raising_bind (enqueue_stream hqueue .normal hlegacy) (hadd _ _ _)

end Given

theorem enqueue_unnamed {settings : LaneSettings} {serviceName : String}
    {routingGroup : Option String} (hqueue : authority serviceName routingGroup = "")
    (applyPriorityContract : Fields → String → Except QueueError Fields) (jobData : Fields)
    (trackedJob : Option TrackedJob) (now : String) (recorded : Handle)
    (place : String × StreamId) :
    (enqueue settings applyPriorityContract serviceName routingGroup jobData trackedJob
      now).Must exec (notePlaced recorded place)
        (PlacedResolves serviceName routingGroup) none := by
  refine must_catching ?_
  unfold enqueueEntry
  refine must_raising_bind (fun legacy hlegacy => ?_) fun e _ => placedResolves_error none e
  unfold legacyStreamName at hlegacy
  rw [if_pos hqueue] at hlegacy
  cases hlegacy

/-- Handles can be found again unless a queue is named like the lane of a queue, or a tracked job
has a record of another queue. -/
theorem handlesResolve_iff (settings : LaneSettings) (serviceName : String)
    (routingGroup : Option String) (recordedService : String) (recordedGroup : Option String) :
    HandlesResolve settings serviceName routingGroup recordedService recordedGroup ↔
      authority serviceName routingGroup = "" ∨
        laneOfStream ("queue:" ++ authority serviceName routingGroup) = none ∧
          (authority recordedService recordedGroup = "" ∨
            authority recordedService recordedGroup = authority serviceName routingGroup) := by
  constructor
  · intro h
    by_cases hqueue : authority serviceName routingGroup = ""
    · exact Or.inl hqueue
    refine Or.inr ⟨?_, ?_⟩
    · by_contra hnamed
      obtain ⟨lane, hlane⟩ := ne_none_iff_exists'.mp hnamed
      exact dequeue_unresolved hqueue hlane (h.dequeue "worker" 1 0)
    · by_cases hrecorded : authority recordedService recordedGroup = ""
      · exact Or.inl hrecorded
      have hplace := resolveEntryStream_eq hrecorded ⟨none, waitingEntry.id⟩
      obtain ⟨placed, r, hplaced, hplacedEq, rfl⟩ := Prog.must_may
        (h.enqueue (fun _ _ => .ok []) [] (some recordedJob) "" _ _ hplace)
        (enqueue_misled hqueue _)
      have hresolved := hplaced _ _ rfl hplacedEq
      rw [resolved_text hqueue] at hresolved
      exact Or.inr (streamOf_injective (Prod.mk.inj (ok.inj hresolved)).1).symm
  · rintro (hqueue | ⟨hlegacy, hrecorded⟩)
    · have hlegacy : laneOfStream (streamOf (authority serviceName routingGroup) none) = none := by
        rw [hqueue]
        decide
      exact ⟨dequeue_resolves hlegacy, fun contract jobData trackedJob now recorded place _ =>
        enqueue_unnamed hqueue contract jobData trackedJob now recorded place, getPending_resolves⟩
    · exact ⟨dequeue_resolves hlegacy, fun contract jobData trackedJob now _ _ =>
        enqueue_resolves hrecorded contract jobData trackedJob now, getPending_resolves⟩

/-- The handle of an entry of `a:lane:normal` is one of the normal lane of that queue. -/
theorem laneNamedQueue_misled : ¬ HandlesResolve {} "a:lane:normal" none "" none := fun h =>
  have hqueue : authority "a:lane:normal" none ≠ "" := by decide
  dequeue_unresolved hqueue (laneOfStream_laneStream "queue:a" .normal) (h.dequeue "worker" 1 0)

end GpuManager.Queue
