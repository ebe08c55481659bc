import GpuManager.Host.Supervisor

/-!
# One active profile, and drained means not ready

What is true of the host over every run of requests, on any instances and cancelled anywhere, while
units change by themselves and `systemctl` and the probes answer what they like.

* `Quiet` carries the first part: once the supervisor has started a unit of an instance, all the
  others of the instance are down, because a load has seen each of them down.  They stay down until
  the supervisor starts one, which takes the lock of the instance, provided that no start job is
  left queued by a call that timed out or was cancelled (`Punctual`); one that is makes a second
  profile active while the next load runs (`lateStart_not_exclusive`).
* `HostInv` carries the second part: an instance that was drained by an accepted request, with no
  load since, is in `_drained`, and every observation `ready` was made of one that is not.
-/

namespace GpuManager.Host

open AtomicProgram PyStr Contract HostProg List

def Action.drains : Action → Bool
  | .drain | .unload | .stop => true
  | _ => false

/-- The instance of an event. -/
def HostEvent.instanceId : HostEvent → PyStr
  | accepted _ instanceId => instanceId
  | loaded instanceId => instanceId
  | reported instanceId _ _ => instanceId

/-- What an event makes of "a drain, unload or stop request for the instance was accepted, and no
load has succeeded since". -/
def drainedStep (instanceId : PyStr) (drained : Bool) (event : HostEvent) : Bool :=
  if event.instanceId = instanceId then
    match event with
    | .accepted action _ => drained || action.drains
    | .loaded _ => false
    | .reported _ _ _ => drained
  else drained

/-- A drain, unload or stop request for the instance was accepted, and no load has succeeded
since. -/
def drainedSince (instanceId : PyStr) (trace : List HostEvent) : Bool :=
  trace.foldl (drainedStep instanceId) false

/-- The profiles of an instance whose unit is active, by their units. -/
def activeProfiles (overlay : Json ℚ) (instanceId : PyStr) (s : HostState) : List PyStr :=
  (unitsOf overlay instanceId).filter fun unit => (s.units unit).Active

/-- No unit of the instance was started, or all but one are down. -/
def Quiet (overlay : Json ℚ) (instanceId : PyStr) (s : HostState) : Prop :=
  (∀ unit ∈ unitsOf overlay instanceId, unit ∉ s.started) ∨
    ∃ unit, ∀ other ∈ unitsOf overlay instanceId, other ≠ unit → (s.units other).Stopped

/-- The invariant of a host. -/
structure HostInv (late : Bool) (overlay : Json ℚ) (s : HostState) : Prop where
  quiet : late = false → ∀ instanceId, Quiet overlay instanceId s
  drained : ∀ instanceId, drainedSince instanceId s.trace = true → instanceId ∈ s.drained
  reports : ∀ before instanceId profileName after,
    s.trace = before ++ .reported instanceId profileName .ready :: after →
      drainedSince instanceId before = false

structure HostRely (late : Bool) (overlay : Json ℚ) (instanceId : PyStr) (s s' : HostState) :
    Prop where
  stopped : late = false → ∀ unit ∈ unitsOf overlay instanceId,
    (s.units unit).Stopped → (s'.units unit).Stopped
  drained : instanceId ∈ s'.drained ↔ instanceId ∈ s.drained
  trace : drainedSince instanceId s'.trace = drainedSince instanceId s.trace

structure HostGuar (late : Bool) (overlay : Json ℚ) (instanceId : PyStr) (s s' : HostState) :
    Prop where
  others : ∀ other, other ≠ instanceId → HostRely late overlay other s s'
  inv : HostInv late overlay s → HostInv late overlay s'
  exclusive : late = false → HostInv late overlay s →
    ∀ other, (activeProfiles overlay other s).length ≤ 1 →
    (activeProfiles overlay other s').length ≤ 1

variable {late : Bool} {overlay : Json ℚ} {id unit : PyStr} {s s' s'' : HostState}

theorem HostRely.refl (id : PyStr) (s : HostState) : HostRely late overlay id s s :=
  ⟨fun _ _ _ h => h, Iff.rfl, rfl⟩

theorem HostRely.trans (h : HostRely late overlay id s s') (h' : HostRely late overlay id s' s'') :
    HostRely late overlay id s s'' :=
  ⟨fun hlate unit hunit hstopped =>
      h'.stopped hlate unit hunit (h.stopped hlate unit hunit hstopped),
    h'.drained.trans h.drained, h'.trace.trans h.trace⟩

theorem HostGuar.refl (id : PyStr) (s : HostState) : HostGuar late overlay id s s :=
  ⟨fun other _ => HostRely.refl other s, fun h => h, fun _ _ _ h => h⟩

theorem HostGuar.trans (h : HostGuar late overlay id s s') (h' : HostGuar late overlay id s' s'') :
    HostGuar late overlay id s s'' :=
  ⟨fun other hother => (h.others other hother).trans (h'.others other hother),
    fun hinv => h'.inv (h.inv hinv),
    fun hlate hinv other hle =>
      h'.exclusive hlate (h.inv hinv) other (h.exclusive hlate hinv other hle)⟩

/-! ## Units -/

variable {state : UnitState} {event : HostEvent} {other : PyStr} {fence : ℤ}

theorem UnitState.not_active_of_stopped (h : state.Stopped) : ¬ state.Active := by
  intro hactive
  obtain ⟨hdown, -⟩ := h
  rw [UnitState.Active] at hactive
  rw [hactive] at hdown
  revert hdown
  decide

/-- A profile is the only one that may be active. -/
theorem activeProfiles_le_one (hnodup : (unitsOf overlay id).Nodup) (unit : PyStr)
    (h : ∀ other ∈ unitsOf overlay id, other ≠ unit → ¬ (s.units other).Active) :
    (activeProfiles overlay id s).length ≤ 1 := by
  have hsub : activeProfiles overlay id s ⊆ [unit] := by
    intro other hother
    obtain ⟨hmem, hactive⟩ := mem_filter.mp hother
    rw [mem_singleton]
    by_contra hne
    exact h other hmem hne (of_decide_eq_true hactive)
  exact (subperm_of_subset (hnodup.filter _) hsub).length_le

theorem activeProfiles_mono (hnodup : (unitsOf overlay id).Nodup)
    (h : ∀ unit ∈ unitsOf overlay id, (s'.units unit).Active → (s.units unit).Active) :
    (activeProfiles overlay id s').length ≤ (activeProfiles overlay id s).length := by
  refine (subperm_of_subset (hnodup.filter _) fun unit hunit => ?_).length_le
  obtain ⟨hmem, hactive⟩ := mem_filter.mp hunit
  exact mem_filter.mpr ⟨hmem, decide_eq_true (h unit hmem (of_decide_eq_true hactive))⟩

theorem setUnit_units (s : HostState) (unit : PyStr) (state : UnitState) (other : PyStr) :
    (s.setUnit unit state).units other = if other = unit then state else s.units other := by
  unfold HostState.setUnit Function.update
  simp only [eq_rec_constant, dite_eq_ite]

theorem Quiet.drift (h : Quiet overlay id s)
    (hfollows : (s.units unit).Follows (unit ∈ s.started) state) :
    Quiet overlay id (s.setUnit unit state) := by
  rcases h with hnone | ⟨only, hothers⟩
  · exact Or.inl hnone
  refine Or.inr ⟨only, fun other hmem hne => ?_⟩
  rw [setUnit_units]
  split
  · rename_i heq
    exact hfollows.1 (heq ▸ hothers other hmem hne)
  · exact hothers other hmem hne

/-- Units that change by themselves make no second profile active. -/
theorem exclusive_drift (hnodup : (unitsOf overlay id).Nodup) (h : Quiet overlay id s)
    (hfollows : (s.units unit).Follows (unit ∈ s.started) state)
    (hle : (activeProfiles overlay id s).length ≤ 1) :
    (activeProfiles overlay id (s.setUnit unit state)).length ≤ 1 := by
  rcases h.drift hfollows with hnone | ⟨only, hothers⟩
  · refine (activeProfiles_mono hnodup fun other hmem hactive => ?_).trans hle
    rw [setUnit_units] at hactive
    split at hactive
    · rename_i heq
      subst heq
      exact (hfollows.2 hactive).resolve_right (hnone other hmem)
    · exact hactive
  · exact activeProfiles_le_one hnodup only fun other hmem hne =>
      UnitState.not_active_of_stopped (hothers other hmem hne)

/-- The holder of an instance starts a unit of it, when the others are down. -/
theorem Quiet.start (hothers : ∀ other ∈ unitsOf overlay id, other ≠ unit → (s.units other).Stopped)
    :
    Quiet overlay id (s.startUnit unit state) := by
  refine Or.inr ⟨unit, fun other hmem hne => ?_⟩
  show ((s.setUnit unit state).units other).Stopped
  rw [setUnit_units, if_neg hne]
  exact hothers other hmem hne

/-- A unit of another instance is of no concern. -/
theorem Quiet.frame (h : Quiet overlay id s) (hunit : unit ∉ unitsOf overlay id) :
    Quiet overlay id (s.startUnit unit state) := by
  rcases h with hnone | ⟨only, hothers⟩
  · refine Or.inl fun other hmem hstarted => ?_
    rcases mem_cons.mp hstarted with rfl | hstarted
    · exact hunit hmem
    · exact hnone other hmem hstarted
  · refine Or.inr ⟨only, fun other hmem hne => ?_⟩
    show ((s.setUnit unit state).units other).Stopped
    rw [setUnit_units, if_neg (by rintro rfl; exact hunit hmem)]
    exact hothers other hmem hne

/-! ## The account -/

theorem drainedSince_append (trace : List HostEvent) (event : HostEvent) :
    drainedSince id (trace ++ [event]) = drainedStep id (drainedSince id trace) event := by
  unfold drainedSince
  rw [foldl_append]
  rfl

theorem drainedSince_frame (trace : List HostEvent) (h : event.instanceId ≠ id) :
    drainedSince id (trace ++ [event]) = drainedSince id trace := by
  rw [drainedSince_append]
  exact if_neg h

theorem reports_append {trace : List HostEvent}
    (h : ∀ before id profileName after,
      trace = before ++ .reported id profileName .ready :: after → drainedSince id before = false)
    (hevent : ∀ profileName, event = .reported event.instanceId profileName .ready →
      drainedSince event.instanceId trace = false) :
    ∀ before id profileName after,
      trace ++ [event] = before ++ .reported id profileName .ready :: after →
        drainedSince id before = false := by
  intro before id profileName after heq
  rcases eq_nil_or_concat after with rfl | ⟨rest, last, rfl⟩
  · obtain ⟨rfl, hlast⟩ := append_inj' heq rfl
    obtain rfl := singleton_inj.mp hlast
    exact hevent profileName rfl
  · rw [concat_eq_append, ← cons_append, ← append_assoc] at heq
    obtain ⟨htrace, -⟩ := append_inj' heq rfl
    exact h before id profileName rest htrace

/-! ## What the holder of an instance does -/

structure Owned (overlay : Json ℚ) : Prop where
  nodup : ∀ id, (unitsOf overlay id).Nodup
  disjoint : ∀ a b unit, unit ∈ unitsOf overlay a → unit ∈ unitsOf overlay b → a = b

theorem guar_ledger (id : PyStr) (s : HostState) (ledger : FenceLedger ℚ) :
    HostGuar late overlay id s { s with ledger := ledger } :=
  ⟨fun _ _ => ⟨fun _ _ _ h => h, Iff.rfl, rfl⟩, fun h => ⟨h.quiet, h.drained, h.reports⟩,
    fun _ _ _ h => h⟩

/-- Something is noted down about the instance, and it may be drained or not. -/
theorem guar_note {drained : List PyStr} (hid : event.instanceId = id)
    (hothers : ∀ other, other ≠ id → (other ∈ drained ↔ other ∈ s.drained))
    (hdrained : HostInv late overlay s → drainedSince id (s.trace ++ [event]) = true → id ∈ drained)
    (hreports : HostInv late overlay s → ∀ profileName, event = .reported id profileName .ready →
      drainedSince id s.trace = false) :
    HostGuar late overlay id s { s with drained := drained, trace := s.trace ++ [event] } := by
  have hframe : ∀ other, other ≠ id →
      drainedSince other (s.trace ++ [event]) = drainedSince other s.trace :=
    fun other hother => drainedSince_frame s.trace (by rw [hid]; exact hother.symm)
  refine ⟨fun other hother => ⟨fun _ _ _ h => h, hothers other hother, hframe other hother⟩,
    fun h => ⟨h.quiet, fun other hsince => ?_, ?_⟩, fun _ _ _ h => h⟩
  · by_cases hother : other = id
    · subst hother
      exact hdrained h hsince
    refine (hothers other hother).mpr (h.drained other ?_)
    rw [← hframe other hother]
    exact hsince
  · refine reports_append h.reports fun profileName hevent => ?_
    rw [hid] at hevent ⊢
    exact hreports h profileName hevent

theorem mem_drain : other ∈ (s.drain id).drained ↔ other = id ∨ other ∈ s.drained := by
  unfold HostState.drain
  simp only [mem_cons, mem_filter, decide_eq_true_eq, ne_eq]
  by_cases h : other = id <;> simp [h]

theorem mem_undrain : other ∈ (s.undrain id).drained ↔ other ≠ id ∧ other ∈ s.drained := by
  unfold HostState.undrain
  simp only [mem_filter, decide_eq_true_eq, ne_eq]
  exact and_comm

/-- The ledger accepts a request, and the instance is drained before anything else. -/
theorem guar_accepted_drain (action : Action) (id : PyStr) (s : HostState) :
    HostGuar late overlay id s ((s.note (.accepted action id)).drain id) :=
  guar_note rfl (fun _ hother => mem_drain.trans (or_iff_right hother))
    (fun _ _ => mem_drain.mpr (Or.inl rfl)) fun _ _ h => (by cases h)

/-- The ledger accepts a request that does not drain. -/
theorem guar_accepted {action : Action} (hdrains : action.drains = false) (id : PyStr)
    (s : HostState) : HostGuar late overlay id s (s.note (.accepted action id)) := by
  refine guar_note rfl (fun _ _ => Iff.rfl) (fun h hsince => h.drained id ?_)
    fun _ _ h => (by cases h)
  rw [drainedSince_append] at hsince
  simpa [drainedStep, HostEvent.instanceId, hdrains] using hsince

theorem guar_loaded (id : PyStr) (s : HostState) :
    HostGuar late overlay id s ((s.undrain id).note (.loaded id)) := by
  refine guar_note rfl (fun _ hother => mem_undrain.trans (and_iff_right hother))
    (fun _ hsince => ?_) fun _ _ h => (by cases h)
  rw [drainedSince_append] at hsince
  simp [drainedStep, HostEvent.instanceId] at hsince

/-- An observation is reported, which is `ready` only for an instance that is not drained. -/
theorem guar_reported {profileName : Json ℚ} {state : ObservedState} (id : PyStr) (s : HostState)
    (hready : state = .ready → id ∉ s.drained) :
    HostGuar late overlay id s (s.note (.reported id profileName state)) := by
  refine guar_note rfl (fun _ _ => Iff.rfl) (fun h hsince => h.drained id ?_)
    fun h _ hevent => ?_
  · rw [drainedSince_append] at hsince
    simpa [drainedStep, HostEvent.instanceId] using hsince
  · cases hevent
    by_contra hnot
    exact hready rfl (h.drained id (by simpa using hnot))

section

variable (howned : Owned overlay) (hunit : unit ∈ unitsOf overlay id)
include howned hunit

theorem rely_setUnit (state : UnitState) (hother : other ≠ id) :
    HostRely late overlay other s (s.setUnit unit state) := by
  refine ⟨fun _ other' hmem hstopped => ?_, Iff.rfl, rfl⟩
  rw [setUnit_units, if_neg]
  · exact hstopped
  · rintro rfl
    exact hother (howned.disjoint _ _ _ hmem hunit)

/-- A unit that changes by itself, or is stopped. -/
theorem guar_setUnit (hfollows : (s.units unit).Follows (unit ∈ s.started) state) :
    HostGuar late overlay id s (s.setUnit unit state) :=
  ⟨fun _ hother => rely_setUnit howned hunit state hother,
    fun h => ⟨fun hlate other => (h.quiet hlate other).drift hfollows, h.drained, h.reports⟩,
    fun hlate h other hle =>
      exclusive_drift (howned.nodup other) (h.quiet hlate other) hfollows hle⟩

/-- A unit of the instance is started, when its other units are down. -/
theorem guar_startUnit (state : UnitState)
    (hothers : late = false → ∀ other ∈ unitsOf overlay id, other ≠ unit → (s.units other).Stopped) :
    HostGuar late overlay id s (s.startUnit unit state) := by
  have hforeign : ∀ other, other ≠ id → unit ∉ unitsOf overlay other :=
    fun other hother hmem => hother (howned.disjoint _ _ _ hmem hunit)
  refine ⟨fun other hother => ?_, fun h => ⟨fun hlate other => ?_, h.drained, h.reports⟩,
    fun hlate h other hle => ?_⟩
  · have hrely : HostRely late overlay other s _ := rely_setUnit howned hunit state hother
    exact ⟨hrely.stopped, hrely.drained, hrely.trace⟩
  · by_cases hother : other = id
    · exact hother ▸ Quiet.start (hothers hlate)
    · exact (h.quiet hlate other).frame (hforeign other hother)
  · by_cases hother : other = id
    · subst hother
      refine activeProfiles_le_one (howned.nodup other) unit fun unit' hmem hne => ?_
      show ¬ ((s.setUnit unit state).units unit').Active
      rw [setUnit_units, if_neg hne]
      exact UnitState.not_active_of_stopped (hothers hlate unit' hmem hne)
    · refine (activeProfiles_mono (howned.nodup other) fun unit' hmem hactive => ?_).trans hle
      have hactive : ((s.setUnit unit state).units unit').Active := hactive
      rw [setUnit_units, if_neg (by rintro rfl; exact hforeign other hother hmem)] at hactive
      exact hactive

end

/-- A unit that changes by itself has been started by the supervisor, or follows its old state. -/
theorem unitEnv_cases {e : PyStr × UnitState} (h : unitEnv late e s = some s') :
    s' = s.setUnit e.1 e.2 ∧ (late = false → (s.units e.1).Follows (e.1 ∈ s.started) e.2) := by
  unfold unitEnv at h
  split at h
  next hallowed =>
    refine ⟨(Option.some.inj h).symm, fun hlate => hallowed.resolve_left fun hqueued => ?_⟩
    exact Bool.false_ne_true (hlate.symm.trans hqueued.1)
  · cases h

def hostContract (late : Bool) (equal : Json ℚ → Json ℚ → Bool) (overlay : Json ℚ) :
    Contract (hostSystem late equal overlay) where
  Inv := HostInv late overlay
  rely := HostRely late overlay
  guar := HostGuar late overlay
  rely_refl := HostRely.refl
  rely_trans := HostRely.trans
  guar_inv hinv hguar := hguar.inv hinv
  guar_rely hne _ hguar := hguar.others _ hne.symm
  env_inv := by
    intro e s s' henv hinv
    obtain ⟨rfl, hfollows⟩ := unitEnv_cases henv
    exact ⟨fun hlate other => (hinv.quiet hlate other).drift (hfollows hlate), hinv.drained,
      hinv.reports⟩
  env_rely := by
    intro e s s' id henv _
    obtain ⟨rfl, hfollows⟩ := unitEnv_cases henv
    refine ⟨fun hlate unit _ hstopped => ?_, Iff.rfl, rfl⟩
    rw [setUnit_units]
    split
    next heq => exact (hfollows hlate).1 (heq ▸ hstopped)
    · exact hstopped

/-! ## The programs -/

section Programs

variable {equal : Json ℚ → Json ℚ → Bool} {start : HostState} {α : Type}
  {post : Except SupervisorError α → HostState → HostState → Prop}

/-- The step that has begun in `start` is so far one of the holder, and the invariant holds. -/
structure Safe (late : Bool) (overlay : Json ℚ) (id : PyStr) (start s : HostState) : Prop where
  guar : HostGuar late overlay id start s
  inv : HostInv late overlay s

/-- A later point of the same request, or of the same step of it. -/
structure Later (late : Bool) (overlay : Json ℚ) (id : PyStr) (s start' s' : HostState) : Prop where
  safe : Safe late overlay id start' s'
  rely : HostRely late overlay id s s'

theorem Later.trans {start' start'' : HostState} (h : Later late overlay id s start' s')
    (h' : Later late overlay id s' start'' s'') : Later late overlay id s start'' s'' :=
  ⟨h'.safe, h.rely.trans h'.rely⟩

theorem Safe.later (h : Safe late overlay id start s) : Later late overlay id s start s :=
  ⟨h, HostRely.refl id s⟩

/-- The state in which a command that awaits is answered. -/
theorem later_of_rely (hinv : HostInv late overlay s') (hrely : HostRely late overlay id s s') :
    Later late overlay id s s' s' :=
  ⟨⟨HostGuar.refl id s', hinv⟩, hrely⟩

theorem Outcome.reply_cases {β : Type} (o : Outcome) (b : β) :
    o.reply b = .ok b ∨ ∃ e, o.reply b = .error e := by
  unfold Outcome.reply
  cases o.raises with
  | none => exact Or.inl rfl
  | some e => exact Or.inr ⟨e, rfl⟩

/-- `_unit_state` returns what the unit is at a later point. -/
theorem wp_unitState (hsafe : Safe late overlay id start s)
    {post : Except SupervisorError UnitState → HostState → HostState → Prop}
    (herror : ∀ e start' s', Later late overlay id s start' s' → post (.error e) start' s')
    (hok : ∀ start' s', Later late overlay id s start' s' → post (.ok (s'.units unit)) start' s') :
    (hostContract late equal overlay).wp id post (unitState unit) start s := by
  unfold unitState
  refine wp_bind _ (wp_awaits _ rfl hsafe.guar fun s' hinv hrely o => ?_)
  have hlater := later_of_rely hinv hrely
  refine wp_bind _ ?_
  have hreply : ((hostSystem late equal overlay).exec (.unitState unit) o s').1 =
      o.reply (if o.code ≠ 0 then none else some (s'.units unit)) := rfl
  rw [hreply]
  rcases o.reply_cases (if o.code ≠ 0 then none else some (s'.units unit)) with heq | ⟨e, heq⟩
  · rw [heq]
    by_cases hcode : o.code ≠ 0
    · rw [if_pos hcode]
      exact herror _ _ _ hlater
    · rw [if_neg hcode]
      exact hok _ _ hlater
  · rw [heq]
    exact herror _ _ _ hlater

theorem wp_probe (hsafe : Safe late overlay id start s) (probe : Json ℚ)
    {post : Except SupervisorError Bool → HostState → HostState → Prop}
    (hpost : ∀ r start' s', Later late overlay id s start' s' → post r start' s') :
    (hostContract late equal overlay).wp id post (HostProg.probe probe) start s := by
  unfold HostProg.probe
  split
  · exact hpost _ _ _ hsafe.later
  refine wp_bind _ ?_
  refine wp_awaits _ rfl hsafe.guar fun s' hinv hrely o => ?_
  exact hpost _ _ _ (later_of_rely hinv hrely)

theorem wp_stop (howned : Owned overlay) (hunit : unit ∈ unitsOf overlay id)
    (hsafe : Safe late overlay id start s)
    {post : Except SupervisorError ℤ → HostState → HostState → Prop}
    (hpost : ∀ r start' s', Later late overlay id s start' s' → post r start' s') :
    (hostContract late equal overlay).wp id post (systemctl .stop unit) start s := by
  unfold systemctl
  refine wp_bind _ ?_
  refine wp_awaits _ rfl hsafe.guar fun s' hinv hrely o => ?_
  refine hpost _ _ _ ?_
  show Later late overlay id s s' (if (s'.units unit).Follows (unit ∈ s'.started) o.unit then
    s'.setUnit unit o.unit else s')
  split
  · rename_i hfollows
    have hguar : HostGuar late overlay id s' _ := guar_setUnit howned hunit hfollows
    refine ⟨⟨hguar, hguar.inv hinv⟩, hrely.trans ⟨fun _ other _ hstopped => ?_, Iff.rfl, rfl⟩⟩
    rw [setUnit_units]
    split
    · rename_i heq
      exact hfollows.1 (heq ▸ hstopped)
    · exact hstopped
  · exact later_of_rely hinv hrely

/-- Stopping a profile ends with its unit stopped, or raises. -/
theorem wp_stopProfile (howned : Owned overlay) {sibling : Json ℚ}
    (hunit : unitOf sibling ∈ unitsOf overlay id) (hsafe : Safe late overlay id start s)
    {post : Except SupervisorError Unit → HostState → HostState → Prop}
    (herror : ∀ e start' s', Later late overlay id s start' s' → post (.error e) start' s')
    (hok : ∀ start' s', Later late overlay id s start' s' → (s'.units (unitOf sibling)).Stopped →
      post (.ok ()) start' s') :
    (hostContract late equal overlay).wp id post (stopProfile sibling) start s := by
  unfold stopProfile
  refine wp_bind _ (wp_unitState hsafe herror fun start₁ s₁ h₁ => ?_)
  simp only
  split
  · rename_i hstopped
    exact hok _ _ h₁ hstopped
  split
  · exact herror _ _ _ h₁
  refine wp_bind _ (wp_probe h₁.safe _ fun r start₂ s₂ h₂ => ?_)
  have h₂ := h₁.trans h₂
  cases r with
  | error e => exact herror _ _ _ h₂
  | ok drains =>
    simp only
    split
    · exact herror _ _ _ h₂
    refine wp_bind _ (wp_probe h₂.safe _ fun r start₃ s₃ h₃ => ?_)
    have h₃ := h₂.trans h₃
    cases r with
    | error e => exact herror _ _ _ h₃
    | ok unloads =>
      simp only
      split
      · exact herror _ _ _ h₃
      refine wp_bind _ (wp_stop howned hunit h₃.safe fun r start₄ s₄ h₄ => ?_)
      have h₄ := h₃.trans h₄
      cases r with
      | error e => exact herror _ _ _ h₄
      | ok code =>
        simp only
        split
        · exact herror _ _ _ h₄
        refine wp_bind _ (wp_unitState h₄.safe
          (fun e start₅ s₅ h₅ => herror _ _ _ (h₄.trans h₅)) fun start₅ s₅ h₅ => ?_)
        simp only
        split
        · rename_i hstopped
          exact hok _ _ (h₄.trans h₅) hstopped
        · exact herror _ _ _ (h₄.trans h₅)

/-- The siblings are down after the loop, but for the unit that it skips. -/
theorem wp_stopProfiles (howned : Owned overlay) (exceptUnit : Option PyStr)
    {siblings : List (Json ℚ)} (hunits : ∀ sibling ∈ siblings, unitOf sibling ∈ unitsOf overlay id)
    (hsafe : Safe late overlay id start s)
    {post : Except SupervisorError Unit → HostState → HostState → Prop}
    (herror : ∀ e start' s', Later late overlay id s start' s' → post (.error e) start' s')
    (hok : ∀ start' s', Later late overlay id s start' s' →
      (late = false → ∀ sibling ∈ siblings, exceptUnit ≠ some (unitOf sibling) →
        (s'.units (unitOf sibling)).Stopped) → post (.ok ()) start' s') :
    (hostContract late equal overlay).wp id post (stopProfiles exceptUnit siblings) start s := by
  induction siblings generalizing start s with
  | nil => exact hok _ _ hsafe.later fun _ _ h => absurd h not_mem_nil
  | cons sibling rest ih =>
    rw [forall_mem_cons] at hunits
    unfold stopProfiles
    split
    · rename_i hskip
      refine ih hunits.2 hsafe herror fun start' s' hlater hrest => hok _ _ hlater ?_
      exact fun hlate => forall_mem_cons.mpr ⟨fun hne => absurd hskip hne, hrest hlate⟩
    · refine wp_bind _ (wp_stopProfile howned hunits.1 hsafe herror
        fun start₁ s₁ h₁ hstopped => ?_)
      refine ih hunits.2 h₁.safe (fun e start' s' h₂ => herror _ _ _ (h₁.trans h₂))
        fun start' s' h₂ hrest => hok _ _ (h₁.trans h₂) ?_
      exact fun hlate => forall_mem_cons.mpr
        ⟨fun _ => h₂.rely.stopped hlate _ hunits.1 hstopped, hrest hlate⟩

/-- `_stop_active_profiles` drains the instance first. -/
theorem wp_stopActiveProfiles (howned : Owned overlay) (exceptUnit : Option PyStr)
    (hsafe : Safe late overlay id start (s.drain id))
    {post : Except SupervisorError Unit → HostState → HostState → Prop}
    (herror : ∀ e start' s', Safe late overlay id start' s' → post (.error e) start' s')
    (hok : ∀ start' s', Safe late overlay id start' s' →
      (late = false → ∀ unit ∈ unitsOf overlay id, exceptUnit ≠ some unit →
        (s'.units unit).Stopped) → post (.ok ()) start' s') :
    (hostContract late equal overlay).wp id post (stopActiveProfiles overlay id exceptUnit)
      start s := by
  unfold stopActiveProfiles
  refine wp_bind _ (wp_immediate _ rfl fun o => ?_)
  refine wp_bind _ ?_
  cases hbindings : profileBindings overlay id with
  | error e => exact herror _ _ _ hsafe
  | ok siblings =>
    have hunits : unitsOf overlay id = siblings.map unitOf := by
      unfold unitsOf
      rw [hbindings]
    refine wp_stopProfiles howned exceptUnit (fun sibling hmem => ?_) hsafe
      (fun e start' s' h => herror _ _ _ h.safe) fun start' s' h hstopped => ?_
    · rw [hunits]
      exact mem_map_of_mem hmem
    · refine hok _ _ h.safe fun hlate unit hunit hne => ?_
      rw [hunits] at hunit
      obtain ⟨sibling, hmem, rfl⟩ := mem_map.mp hunit
      exact hstopped hlate sibling hmem hne

theorem hostExec_start {verb : Verb} (hverb : verb ≠ .stop) (unit : PyStr) (o : Outcome)
    (s : HostState) :
    hostExec (.systemctl verb unit) o s = (o.reply o.code, s.startUnit unit o.unit) := by
  cases verb with
  | start | restart => rfl
  | stop => exact absurd rfl hverb

theorem loadVerb_ne_stop (binding : Json ℚ) : loadVerb binding ≠ .stop := by
  unfold loadVerb
  split <;> exact fun h => (by cases h)

/-- The action of a request, in a step in which the ledger has accepted it. -/
theorem wp_act (howned : Owned overlay) (action : Action) {binding : Json ℚ}
    (hunit : unitOf binding ∈ unitsOf overlay id)
    (hplain : action.drains = false → Safe late overlay id start s)
    (hdrained : Safe late overlay id start (s.drain id))
    {post : Except SupervisorError Unit → HostState → HostState → Prop}
    (herror : ∀ e start' s', Safe late overlay id start' s' → post (.error e) start' s')
    (hok : ∀ start' s', action ≠ .load → Safe late overlay id start' s' → post (.ok ()) start' s')
    (hload : ∀ start' s', action = .load → Safe late overlay id start' s' →
      post (.ok ()) start' (s'.undrain id)) :
    (hostContract late equal overlay).wp id post (act overlay action id binding) start s := by
  unfold act
  cases action with
  | inspect | health | reconcile => exact hok _ _ (by decide) (hplain rfl)
  | prepare =>
    refine wp_bind _ (wp_unitState (hplain rfl) (fun e start' s' h => herror _ _ _ h.safe)
      fun start' s' h => ?_)
    exact hok _ _ (by decide) h.safe
  | load =>
    refine wp_bind _ (wp_stopActiveProfiles howned _ hdrained herror
      fun start₁ s₁ h₁ hstopped => ?_)
    refine wp_bind _ (wp_bind _ (wp_awaits _ rfl h₁.guar
      fun s₂ hinv hrely o => ?_))
    -- The others are still down when the unit is started.
    have hguar := guar_startUnit howned hunit o.unit fun hlate other hmem hne =>
      hrely.stopped hlate other hmem
        (hstopped hlate other hmem fun heq => hne (Option.some.inj heq).symm)
    have hsafe : Safe late overlay id s₂ (s₂.startUnit (unitOf binding) o.unit) :=
      ⟨hguar, hguar.inv hinv⟩
    have hexec : (hostSystem late equal overlay).exec
        (.systemctl (loadVerb binding) (unitOf binding)) o s₂ =
          (o.reply o.code, s₂.startUnit (unitOf binding) o.unit) :=
      hostExec_start (loadVerb_ne_stop binding) _ o s₂
    rw [hexec]
    rcases o.reply_cases o.code with heq | ⟨e, heq⟩
    · simp only [heq]
      show (hostContract late equal overlay).wp id post
        (if o.code ≠ 0 then fail "systemd start failed"
          else Prog.perform (HostCommand.undrain id)) s₂ _
      split
      · exact herror _ _ _ hsafe
      · exact wp_immediate _ rfl fun _ => hload _ _ rfl hsafe
    · simp only [heq]
      exact herror _ _ _ hsafe
  | drain =>
    refine wp_bind _ (wp_immediate _ rfl fun _ => ?_)
    split
    · refine wp_bind _ (wp_probe hdrained _ fun r start' s' h => ?_)
      cases r with
      | error e => exact herror _ _ _ h.safe
      | ok drains =>
        simp only
        split
        · exact herror _ _ _ h.safe
        · exact hok _ _ (by decide) h.safe
    · exact hok _ _ (by decide) hdrained
  | unload =>
    refine wp_bind _ (wp_immediate _ rfl fun _ => ?_)
    refine wp_bind _ (wp_probe hdrained _ fun r start' s' h => ?_)
    cases r with
    | error e => exact herror _ _ _ h.safe
    | ok unloads =>
      simp only
      split
      · exact herror _ _ _ h.safe
      · exact hok _ _ (by decide) h.safe
  | stop =>
    exact wp_stopActiveProfiles howned _ hdrained herror fun start' s' h _ =>
      hok _ _ (by decide) h

theorem wp_andThen {p : Bool} {q : HostProg Bool}
    {post : Except SupervisorError Bool → HostState → HostState → Prop}
    (hfalse : p = false → post (.ok false) start s)
    (htrue : (hostContract late equal overlay).wp id post q start s) :
    (hostContract late equal overlay).wp id post (andThen p q) start s := by
  unfold andThen
  split
  · exact htrue
  · rename_i hp
    exact hfalse (by simpa using hp)

theorem HostProg.not_drained_of_ready {binding : Json ℚ}
    {modelReady drained : Bool} {stat : Option String}
    (h : (observationOf binding fence state modelReady drained stat).state = .ready) :
    drained = false := by
  unfold observationOf at h
  cases drained with
  | false => rfl
  | true =>
    simp only [Bool.not_true, Bool.and_false, Bool.false_eq_true, if_false] at h
    split at h
    · cases h
    · split at h <;> cases h

/-- `_observation` is `ready` only for an instance that is not drained. -/
theorem wp_observation {binding : Json ℚ} (hsafe : Safe late overlay id start s)
    {post : Except SupervisorError Observation → HostState → HostState → Prop}
    (herror : ∀ e start' s', Safe late overlay id start' s' → post (.error e) start' s')
    (hok : ∀ observed start' s', Safe late overlay id start' s' →
      (observed.state = .ready → id ∉ s'.drained) → post (.ok observed) start' s') :
    (hostContract late equal overlay).wp id post (observation id binding fence) start s := by
  unfold observation
  refine wp_bind _ (wp_unitState hsafe (fun e start' s' h => herror _ _ _ h.safe)
    fun start₁ s₁ h₁ => ?_)
  -- What the two probes answer does not matter.
  have hlast : ∀ (modelReady : Bool) start₃ s₃, Safe late overlay id start₃ s₃ →
      (hostContract late equal overlay).wp id post (do
        let drained ← Prog.perform (HostCommand.drained id)
        let stat ← Prog.perform (HostCommand.stat (s₁.units (unitOf binding)).pid)
        pure (observationOf binding fence (s₁.units (unitOf binding)) modelReady drained
          stat)) start₃ s₃ := by
    intro modelReady start₃ s₃ h₃
    refine wp_immediate _ rfl fun _ => wp_immediate _ rfl fun o => ?_
    refine hok _ _ _ h₃ fun hready hdrained => ?_
    have hreply : (hostExec (.drained id) o s₃).1 = true := decide_eq_true hdrained
    have hstate := not_drained_of_ready hready
    exact absurd (hstate.symm.trans hreply) Bool.false_ne_true
  refine wp_bind _ (wp_andThen (fun _ => ?_) (wp_probe h₁.safe _ fun r start₂ s₂ h₂ => ?_))
  · exact wp_bind _ (wp_andThen (fun _ => hlast _ _ _ h₁.safe)
      (wp_probe h₁.safe _ fun r start₃ s₃ h₃ => by
        cases r with
        | error e => exact herror _ _ _ h₃.safe
        | ok modelReady => exact hlast _ _ _ h₃.safe))
  · cases r with
    | error e => exact herror _ _ _ h₂.safe
    | ok healthReady =>
      exact wp_bind _ (wp_andThen (fun _ => hlast _ _ _ h₂.safe)
        (wp_probe h₂.safe _ fun r start₃ s₃ h₃ => by
          cases r with
          | error e => exact herror _ _ _ h₃.safe
          | ok modelReady => exact hlast _ _ _ h₃.safe))

theorem binding_of_checkRequest {req : Json ℚ} {request : HostRequest}
    (h : checkRequest equal overlay req = .ok request) :
    ∃ profileName, binding overlay request.instanceId profileName = .ok request.binding := by
  unfold checkRequest at h
  simp only at h
  split at h
  · cases h
  split at h
  · cases h
  split at h
  swap
  · cases h
  split at h
  · cases h
  rename_i hbinding
  split at h
  · cases h
  split at h
  · cases h
  split at h
  swap
  · cases h
  split at h
  · cases h
  cases h
  exact ⟨_, hbinding⟩

/-- **A request keeps the contract.** -/
theorem wp_body (howned : Owned overlay) (request : HostRequest)
    (hunit : unitOf request.binding ∈ unitsOf overlay request.instanceId)
    (s : HostState) (req : Json ℚ) :
    (hostContract late equal overlay).wp request.instanceId
      ((hostContract late equal overlay).ends request.instanceId req) (request.body overlay) s s := by
  unfold HostRequest.body
  refine wp_bind _ (wp_awaits _ rfl (HostGuar.refl _ s) fun s₁ hinv₁ _ o => ?_)
  refine wp_bind _ ?_
  have hexec : ∀ r s₂, (hostSystem late equal overlay).exec (.accept request.action request.instanceId
      request.owner request.fence) o s₁ = (r, s₂) →
      (∃ e, r = .error e ∧ HostGuar late overlay request.instanceId s₁ s₂) ∨
        r = .ok () ∧ (request.action.drains = false → Safe late overlay request.instanceId s₁ s₂) ∧
          Safe late overlay request.instanceId s₁ (s₂.drain request.instanceId) := by
    intro r s₂ heq
    change hostExec (.accept request.action request.instanceId request.owner request.fence) o s₁ =
      (r, s₂) at heq
    unfold hostExec at heq
    simp only at heq
    split at heq
    · cases heq
      exact Or.inl ⟨_, rfl, HostGuar.refl _ _⟩
    split at heq
    · cases heq
      exact Or.inl ⟨_, rfl, guar_ledger _ _ _⟩
    rename_i ledger _
    cases heq
    have hledger : HostGuar late overlay request.instanceId s₁ { s₁ with ledger := ledger } :=
      guar_ledger _ _ _
    refine Or.inr ⟨rfl, fun hdrains => ?_, ?_⟩
    · have hguar := hledger.trans (guar_accepted hdrains request.instanceId _)
      exact ⟨hguar, hguar.inv hinv₁⟩
    · have hguar := hledger.trans (guar_accepted_drain request.action request.instanceId _)
      exact ⟨hguar, hguar.inv hinv₁⟩
  generalize hanswer : (hostSystem late equal overlay).exec (.accept request.action request.instanceId
    request.owner request.fence) o s₁ = answered
  obtain ⟨r, s₂⟩ := answered
  rcases hexec r s₂ hanswer with ⟨e, rfl, hguar⟩ | ⟨rfl, hplain, hdrained⟩
  · exact hguar
  refine wp_bind _ (wp_act howned request.action hunit hplain hdrained
    (fun e start' s' h => h.guar) (fun start' s' hload h => ?_) fun start' s' hload h => ?_)
  · -- Any action but `load`: what is reported is safe to report.
    simp only
    split
    · refine wp_bind _ (wp_observation h (fun e start' s' h => h.guar)
        fun observed start₃ s₃ h₃ hready => ?_)
      have hreported : HostGuar late overlay request.instanceId start₃
          (s₃.note (.reported request.instanceId observed.profileName observed.state)) :=
        h₃.guar.trans (guar_reported request.instanceId s₃ hready)
      show HostGuar late overlay request.instanceId start₃ (if request.action = .load then _ else _)
      rw [if_neg hload]
      exact hreported
    · show HostGuar late overlay request.instanceId start' (if request.action = .load then _ else s')
      rw [if_neg hload]
      exact h.guar
  · simp only [hload]
    exact h.guar.trans (guar_loaded request.instanceId s')

variable {urlsplit : PyStr → Option SplitUrl}

theorem launches (howned : Owned overlay) (hvalid : validateOverlay urlsplit overlay = some []) :
    (hostContract late equal overlay).Launches := by
  intro req id p hlaunch s _
  change (checkRequest equal overlay req).map (fun r => (r.instanceId, r.body overlay)) =
    .ok (id, p) at hlaunch
  cases hchecked : checkRequest equal overlay req with
  | error e =>
    rw [hchecked] at hlaunch
    cases hlaunch
  | ok request =>
    rw [hchecked] at hlaunch
    obtain ⟨rfl, rfl⟩ := Prod.mk.inj (Except.ok.inj hlaunch)
    obtain ⟨profileName, hbinding⟩ := binding_of_checkRequest hchecked
    exact wp_body howned request (unitOf_mem_unitsOf hvalid hbinding) s req

end Programs

theorem owned_of_validate (hvalid : validateOverlay urlsplit overlay = some []) : Owned overlay :=
  ⟨unitsOf_nodup hvalid, fun _ _ _ ha hb => unitsOf_disjoint hvalid ha hb⟩

/-- The supervisor starts with everything drained, and has started nothing. -/
theorem sound_hostInit (late : Bool) (equal : Json ℚ → Json ℚ → Bool) (overlay : Json ℚ)
    (units : PyStr → UnitState) (ledger : FenceLedger ℚ) :
    (hostContract late equal overlay).Sound (hostInit overlay units ledger) :=
  ⟨⟨fun _ _ => Or.inl fun _ _ => not_mem_nil, fun _ h => (by cases h),
      fun before _ _ _ h => by simp [hostInit] at h⟩,
    fun _ h => absurd h not_mem_nil, fun _ h => absurd h not_mem_nil,
    fun i _ _ _ _ h => by simp [hostInit] at h⟩

/-- A unit that changes by itself stays down if it is down. -/
def StaysDown (w : HostWorld) : LockLabel (Json ℚ) Outcome (PyStr × UnitState) → Prop
  | .env e => (w.state.units e.1).Stopped → e.2.Stopped
  | _ => True

instance (w : HostWorld) (label : LockLabel (Json ℚ) Outcome (PyStr × UnitState)) :
    Decidable (StaysDown w label) := by
  unfold StaysDown
  split <;> infer_instance

/-- In the run no unit that is down comes up by itself: no start job outlives the `systemctl` call
that has queued it. -/
def Punctual (equal : Json ℚ → Json ℚ → Bool) (overlay : Json ℚ) :
    List (LockLabel (Json ℚ) Outcome (PyStr × UnitState)) → HostWorld → Prop
  | [], _ => True
  | label :: labels, w =>
    StaysDown w label ∧
      ∀ w' ∈ (hostSystem true equal overlay).step label w, Punctual equal overlay labels w'

instance decidablePunctual (equal : Json ℚ → Json ℚ → Bool) (overlay : Json ℚ) :
    (labels : List (LockLabel (Json ℚ) Outcome (PyStr × UnitState))) → (w : HostWorld) →
    Decidable (Punctual equal overlay labels w)
  | [], _ => inferInstanceAs (Decidable True)
  | label :: labels, w =>
    have := decidablePunctual equal overlay labels
    inferInstanceAs (Decidable (StaysDown w label ∧ ∀ w' ∈ _, _))

/-- A run in which no unit is late is one of a host on which no unit can be. -/
theorem Punctual.run {equal : Json ℚ → Json ℚ → Bool}
    {labels : List (LockLabel (Json ℚ) Outcome (PyStr × UnitState))} {w w' : HostWorld}
    (h : Punctual equal overlay labels w)
    (hrun : (hostSystem true equal overlay).run labels w = some w') :
    (hostSystem false equal overlay).run labels w = some w' := by
  induction labels generalizing w with
  | nil => exact hrun
  | cons label labels ih =>
    obtain ⟨next, hstep, hrest⟩ := Option.bind_eq_some_iff.mp hrun
    refine Option.bind_eq_some_iff.mpr ⟨next, ?_, ih (h.2 next hstep) hrest⟩
    rw [← hstep]
    refine @LockSystem.step_withEnv _ _ _ _ _ _ _ _ _ (hostSystem true equal overlay) _ _ _ _
      fun e he => ?_
    subst he
    show unitEnv false e w.state = unitEnv true e w.state
    unfold unitEnv
    refine if_congr ⟨?_, ?_⟩ rfl rfl
    · rintro (⟨hlate, -⟩ | hfollows)
      · cases hlate
      · exact Or.inr hfollows
    · rintro (⟨-, hstarted⟩ | hfollows)
      · exact Or.inr ⟨h.1, fun _ => Or.inr hstarted⟩
      · exact Or.inr hfollows

/-- **One active profile.**  On a host on which no start job stays queued, no second profile of an
instance becomes active between any two moments of a run. -/
theorem activeProfiles_run {urlsplit : PyStr → Option SplitUrl} {equal : Json ℚ → Json ℚ → Bool}
    (hvalid : validateOverlay urlsplit overlay = some []) {units : PyStr → UnitState}
    {ledger : FenceLedger ℚ} {earlier later : List (LockLabel (Json ℚ) Outcome (PyStr × UnitState))}
    {before after : HostWorld}
    (hearlier : (hostSystem false equal overlay).run earlier (hostInit overlay units ledger) =
      some before)
    (hlater : (hostSystem false equal overlay).run later before = some after) (instanceId : PyStr)
    (hle : (activeProfiles overlay instanceId before.state).length ≤ 1) :
    (activeProfiles overlay instanceId after.state).length ≤ 1 := by
  have howned := owned_of_validate hvalid
  have hlaunches : (hostContract false equal overlay).Launches := launches howned hvalid
  have hsound := (run_keeps _ hlaunches (fun _ => True) (fun _ _ _ _ _ => trivial)
    (sound_hostInit false equal overlay units ledger) hearlier).1
  refine (run_keeps _ hlaunches
    (fun s => (activeProfiles overlay instanceId s).length ≤ 1)
    (fun s s' hinv hsteps hle => ?_) hsound hlater).2 hle
  cases hsteps with
  | refl => exact hle
  | guar id hguar => exact hguar.exclusive rfl hinv instanceId hle
  | env e henv =>
    obtain ⟨rfl, hfollows⟩ := unitEnv_cases henv
    exact exclusive_drift (howned.nodup instanceId) (hinv.quiet rfl instanceId) (hfollows rfl) hle

/-- **One active profile, and drained means not ready.**  In every run an observation `ready` is
reported only for an instance that no request has drained since its last load.  In a run without a
late unit, no second profile of an instance becomes active between any two moments, such as those
at which a request comes in and returns. -/
theorem exclusive_and_drained (urlsplit : PyStr → Option SplitUrl)
    (equal : Json ℚ → Json ℚ → Bool) (overlay : Json ℚ)
    (hvalid : validateOverlay urlsplit overlay = some []) (units : PyStr → UnitState)
    (ledger : FenceLedger ℚ) (earlier later : List (LockLabel (Json ℚ) Outcome (PyStr × UnitState)))
    (before after : HostWorld)
    (hearlier : (hostSystem true equal overlay).run earlier (hostInit overlay units ledger) =
      some before)
    (hlater : (hostSystem true equal overlay).run later before = some after) :
    (Punctual equal overlay earlier (hostInit overlay units ledger) →
      Punctual equal overlay later before →
      ∀ instanceId, (activeProfiles overlay instanceId before.state).length ≤ 1 →
        (activeProfiles overlay instanceId after.state).length ≤ 1) ∧
      ∀ past instanceId profileName future,
        after.state.trace = past ++ .reported instanceId profileName .ready :: future →
          drainedSince instanceId past = false := by
  have hlaunches : (hostContract true equal overlay).Launches :=
    launches (owned_of_validate hvalid) hvalid
  have hsound := (run_keeps _ hlaunches (fun _ => True) (fun _ _ _ _ _ => trivial)
    (sound_hostInit true equal overlay units ledger) hearlier).1
  exact ⟨fun hpast hpunctual => activeProfiles_run hvalid (hpast.run hearlier)
      (hpunctual.run hlater),
    (run_keeps _ hlaunches (fun _ => True) (fun _ _ _ _ _ => trivial) hsound hlater).1.inv.reports⟩

/-- The text of a string, or `null`. -/
def jsonText (s : String) : Json ℚ := .str (text s)

/-- An overlay with one instance, which has two profiles. -/
def pairOverlay : Json ℚ :=
  let profile := fun (unit : String) => Json.obj
    [(text "profile_fingerprint", .str (List.replicate 64 0x61)),
      (text "engine", jsonText "e"), (text "adapter", jsonText "a"),
      (text "model_set", jsonText "m"), (text "unit", jsonText unit)]
  .obj [(text "schema_version", jsonText overlaySchema),
    (text "instances", .obj [(text "gpu", .obj
      [(text "actions", .arr [jsonText "load", jsonText "inspect"]),
        (text "profiles", .obj [(text "a", profile "a.service"), (text "b", profile "b.service")])])])]

/-- A request for a profile of it. -/
def requestFor (profile action : String) (fence : ℤ) : Json ℚ :=
  .obj [(text "schema_version", jsonText actionSchema), (text "action", jsonText action),
    (text "instance_id", jsonText "gpu"), (text "profile_name", jsonText profile),
    (text "profile_fingerprint", .str (List.replicate 64 0x61)),
    (text "engine", jsonText "e"), (text "adapter", jsonText "a"),
    (text "model_set", jsonText "m"), (text "transition_owner", jsonText "owner"),
    (text "transition_fence", .int fence)]

/-- Two strings are equal, and nothing else is told apart. -/
def textEqual (a b : Json ℚ) : Bool := a.str? = b.str?

/-- Everything goes well, and the unit becomes active. -/
def fine : Outcome := ⟨none, 0, ⟨"active", 7⟩, true, none, .none⟩

def cancelled : Outcome := { fine with raises := some .python, unit := ⟨"inactive", 0⟩ }

/-- A supervisor over `pairOverlay` whose two units are down. -/
def pairHost : HostWorld := hostInit pairOverlay (fun _ => ⟨"inactive", 0⟩) {}

/-- `b` is loaded and inspected, and its unit fails by itself. -/
def loadB : List (LockLabel (Json ℚ) Outcome (PyStr × UnitState)) :=
  [.request (requestFor "b" "load" 1), .acquire 0 fine, .act 0 fine, .act 0 fine, .act 0 fine,
    .request (requestFor "b" "inspect" 1), .acquire 1 fine, .act 1 fine, .act 1 fine,
    .env (text "b.service", ⟨"failed", 0⟩)]

/-- The load of `a` is cancelled while its start job is queued, and the job takes effect while the
load of `b` starts the unit of `b`. -/
def lateStart : List (LockLabel (Json ℚ) Outcome (PyStr × UnitState)) :=
  [.request (requestFor "a" "load" 1), .acquire 0 fine, .act 0 fine, .act 0 fine, .act 0 cancelled,
    .request (requestFor "b" "load" 2), .acquire 1 fine, .act 1 fine, .act 1 fine,
    .env (text "a.service", ⟨"active", 8⟩), .act 1 fine]

/-- No second profile of the instance is active after `loadB`. -/
theorem exclusive_and_drained_loadB :
    ∃ after, (hostSystem true textEqual pairOverlay).run loadB pairHost = some after ∧
      ∀ instanceId, (activeProfiles pairOverlay instanceId pairHost.state).length ≤ 1 →
        (activeProfiles pairOverlay instanceId after.state).length ≤ 1 := by
  have hruns : ((hostSystem true textEqual pairOverlay).run loadB pairHost).isSome = true := by
    decide +kernel
  have hvalid : validateOverlay (fun _ => none) pairOverlay = some [] := by decide +kernel
  have hpunctual : Punctual textEqual pairOverlay loadB pairHost := by decide +kernel
  obtain ⟨after, hrun⟩ := Option.isSome_iff_exists.mp hruns
  exact ⟨after, hrun, (exclusive_and_drained _ textEqual pairOverlay hvalid _ _ [] loadB _ after rfl
    hrun).1 trivial hpunctual⟩

/-- The call has returned normally. -/
def returned (w : HostWorld) (i : ℕ) : Bool :=
  match w.calls[i]? with
  | some ⟨_, .finished (.ok _)⟩ => true
  | _ => false

/-- The load of `b` returns normally and finds no active profile before it, and leaves both. -/
theorem lateStart_not_exclusive :
    ∃ before after, (hostSystem true textEqual pairOverlay).run (lateStart.take 5) pairHost =
        some before ∧
      (hostSystem true textEqual pairOverlay).run (lateStart.drop 5) before = some after ∧
      activeProfiles pairOverlay (text "gpu") before.state = [] ∧ returned after 1 = true ∧
      activeProfiles pairOverlay (text "gpu") after.state =
        [text "a.service", text "b.service"] := by
  have hbefore : ((hostSystem true textEqual pairOverlay).run (lateStart.take 5) pairHost).map
      (fun w => activeProfiles pairOverlay (text "gpu") w.state) = some [] := by decide +kernel
  have hafter : (((hostSystem true textEqual pairOverlay).run (lateStart.take 5) pairHost).bind
      ((hostSystem true textEqual pairOverlay).run (lateStart.drop 5))).map
        (fun w => (returned w 1, activeProfiles pairOverlay (text "gpu") w.state)) =
      some (true, [text "a.service", text "b.service"]) := by decide +kernel
  obtain ⟨before, hrun, hnone⟩ := Option.map_eq_some_iff.mp hbefore
  rw [hrun] at hafter
  obtain ⟨after, hrun', hboth⟩ := Option.map_eq_some_iff.mp hafter
  obtain ⟨hreturned, hactive⟩ := Prod.mk.inj hboth
  exact ⟨before, after, hrun, hrun', hnone, hreturned, hactive⟩

end GpuManager.Host
