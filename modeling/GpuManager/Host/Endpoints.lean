import GpuManager.Host.Overlay

/-!
# Endpoints of the host

The probes of an accepted overlay reach ports of the loopback host.  `validate_overlay` records
which instance owns an endpoint under the text `hostname:port` of the URL, and the host has three
names.  Two instances are told apart just if they use the same one (`apart_iff`); the check of the
registry, `checked_runtime_authority_errors`, counts all three as one host.
-/

namespace GpuManager.Host

open PyStr Option List

variable {urlsplit : PyStr → Option SplitUrl} {overlay : Json ℚ} {names : List String}

/-- `port or 80`. -/
def portNumber : Option ℤ → ℤ
  | some n => if n = 0 then 80 else n
  | none => 80

/-- A probe of a binding reaches a port of a host, which the URL spells in some way. -/
def Probes (urlsplit : PyStr → Option SplitUrl) (binding : Json ℚ) (host : Option PyStr)
    (port : ℤ) : Prop :=
  ∃ name ∈ probeNames, ∃ url parsed written, (binding.get name).get "url" = .str url ∧
    urlsplit url = some parsed ∧ parsed.port = some written ∧ parsed.hostname = host ∧
    portNumber written = port

/-- A probe of an instance, its own or inherited by one of its profiles, reaches a port. -/
def Reaches (urlsplit : PyStr → Option SplitUrl) (overlay : Json ℚ) (instanceId : PyStr)
    (host : Option PyStr) (port : ℤ) : Prop :=
  ∃ entries, overlay.get "instances" = .obj entries ∧ ∃ entry ∈ entries, entry.1 = instanceId ∧
    ∃ binding ∈ entryBindings entry, Probes urlsplit binding host port

/-- No unit is used by two profiles, and no port of the host by two instances. -/
structure Apart (urlsplit : PyStr → Option SplitUrl) (overlay : Json ℚ) : Prop where
  units : ∀ entries, overlay.get "instances" = .obj entries →
    (entries.flatMap fun entry => (entryBindings entry).map unitOf).Nodup
  ports : ∀ a b, a ≠ b → ∀ host host' port, Reaches urlsplit overlay a host port →
    ¬ Reaches urlsplit overlay b host' port

/-- Instances whose probes reach one port spell the host in the same way. -/
def SpeltAlike (urlsplit : PyStr → Option SplitUrl) (overlay : Json ℚ) : Prop :=
  ∀ a b, a ≠ b → ∀ host host' port, Reaches urlsplit overlay a host port →
    Reaches urlsplit overlay b host' port → host = host'

/-- The key of an endpoint. -/
def endpointKey (host : Option PyStr) (port : ℤ) : PyStr :=
  host.getD (text "None") ++ text (":" ++ toString port)

/-! ## Owners -/

/-- The probes of an instance are recorded: owners stay, and what they reach is its own. -/
structure Recorded (urlsplit : PyStr → Option SplitUrl) (instanceId : PyStr) (binding : Json ℚ)
    (names : List String) (owners owners' : PyDict PyStr PyStr) : Prop where
  kept : ∀ key owner, owners.get? key = some owner → owners'.get? key = some owner
  own : ∀ name ∈ names, ∀ url parsed written, (binding.get name).get "url" = .str url →
    urlsplit url = some parsed → parsed.port = some written →
    owners'.get? (endpointKey parsed.hostname (portNumber written)) = some instanceId

variable {binding : Json ℚ} {owners owners' : PyDict PyStr PyStr} {instanceId : PyStr}

/-- One more probe, for whose endpoint, if it has one, the instance is entered. -/
theorem Recorded.probe {name : String} {owners₁ : PyDict PyStr PyStr}
    (h : Recorded urlsplit instanceId binding names owners₁ owners')
    (hkept : ∀ key owner, owners.get? key = some owner → owners₁.get? key = some owner)
    (hown : ∀ url parsed written, (binding.get name).get "url" = .str url →
      urlsplit url = some parsed → parsed.port = some written →
      owners₁.get? (endpointKey parsed.hostname (portNumber written)) = some instanceId) :
    Recorded urlsplit instanceId binding (name :: names) owners owners' where
  kept key owner hkey := h.kept key owner (hkept key owner hkey)
  own := forall_mem_cons.mpr ⟨fun url parsed written hurl hsplit hport =>
    h.kept _ _ (hown url parsed written hurl hsplit hport), h.own⟩

theorem recorded_of_recordEndpoints {pre : PyStr}
    (h : recordEndpoints urlsplit pre instanceId binding names owners = some ([], owners')) :
    Recorded urlsplit instanceId binding names owners owners' := by
  induction names generalizing owners with
  | nil =>
    obtain ⟨-, rfl⟩ := Prod.mk.inj (some.inj h)
    exact ⟨fun _ _ hkey => hkey, fun _ hname => absurd hname not_mem_nil⟩
  | cons name names ih =>
    unfold recordEndpoints at h
    simp only [bind_eq_bind] at h
    split at h
    · rename_i url hurl
      obtain ⟨parsed, hparsed, h⟩ := bind_eq_some_iff.mp h
      have hprobe : ∀ p : PyStr → Prop, (∀ written, parsed.port = some written →
            p (endpointKey parsed.hostname (portNumber written))) →
          ∀ url' parsed' written, (binding.get name).get "url" = .str url' →
            urlsplit url' = some parsed' → parsed'.port = some written →
            p (endpointKey parsed'.hostname (portNumber written)) := by
        intro p hp url' parsed' written hurl' hsplit hport
        cases hurl.symm.trans hurl'
        cases hparsed.symm.trans hsplit
        exact hp written hport
      split at h
      · rename_i hport
        refine (ih h).probe (fun _ _ hkey => hkey) (hprobe (fun key => _ = _) ?_)
        intro written hwritten
        cases hport.symm.trans hwritten
      · rename_i written hport
        split at h
        · rename_i prior hprior
          split at h
          · obtain ⟨rest, -, h⟩ := bind_eq_some_iff.mp h
            exact absurd (Prod.mk.inj (some.inj h)).1 (cons_ne_nil _ _)
          rename_i hsame
          refine (ih h).probe (fun _ _ hkey => hkey) (hprobe (fun key => _ = _) ?_)
          intro written' hwritten
          cases hport.symm.trans hwritten
          exact hprior.trans (congrArg some (not_not.mp hsame))
        · rename_i hprior
          refine (ih h).probe (fun key owner hkey => ?_) (hprobe (fun key => _ = _) ?_)
          · rw [PyDict.get?_set, if_neg]
            · exact hkey
            · rintro rfl
              exact absurd (hprior.symm.trans hkey) (by simp)
          · intro written' hwritten
            cases hport.symm.trans hwritten
            exact PyDict.get?_set_self _ _ _
    · rename_i hother
      exact (ih h).probe (fun _ _ hkey => hkey) fun url _ _ hurl => absurd hurl (hother url)

variable {bindings : List (PyStr × PyStr × Json ℚ)}

/-- Bindings without a conflict: each endpoint has the instance that probes it as its owner. -/
theorem owned_of_recordOwnership {units endpoints : PyDict PyStr PyStr}
    (h : recordOwnership urlsplit bindings units endpoints = some []) :
    ∃ owners : PyDict PyStr PyStr,
      (∀ key owner, endpoints.get? key = some owner → owners.get? key = some owner) ∧
      ∀ b ∈ bindings, ∀ host port, Probes urlsplit b.2.2 host port →
        owners.get? (endpointKey host port) = some b.1 := by
  induction bindings generalizing units endpoints with
  | nil => exact ⟨endpoints, fun _ _ hkey => hkey, fun _ h => absurd h not_mem_nil⟩
  | cons b bindings ih =>
    obtain ⟨instanceId, pre, binding⟩ := b
    have hstep : ∃ units' recorded, recordEndpoints urlsplit pre instanceId binding probeNames
        endpoints = some ([], recorded) ∧
        recordOwnership urlsplit bindings units' recorded = some [] := by
      unfold recordOwnership at h
      simp only [bind_eq_bind] at h
      obtain ⟨⟨errors, recorded⟩, hrecorded, h⟩ := bind_eq_some_iff.mp h
      have hrest : ∀ {units'}, ((recordOwnership urlsplit bindings units' recorded).bind
          fun rest => some (errors ++ rest)) = some [] →
          errors = [] ∧ recordOwnership urlsplit bindings units' recorded = some [] := by
        intro units' h
        obtain ⟨rest, hrest, h⟩ := bind_eq_some_iff.mp h
        obtain ⟨herrors, hnil⟩ := append_eq_nil_iff.mp (some.inj h)
        exact ⟨herrors, hnil ▸ hrest⟩
      split at h
      · split at h
        · obtain ⟨rfl, hnext⟩ := hrest h
          exact ⟨_, _, hrecorded, hnext⟩
        split at h
        · obtain ⟨rest, -, h⟩ := bind_eq_some_iff.mp h
          exact absurd (some.inj h) (by simp)
        · obtain ⟨rfl, hnext⟩ := hrest h
          exact ⟨_, _, hrecorded, hnext⟩
      · obtain ⟨rfl, hnext⟩ := hrest h
        exact ⟨_, _, hrecorded, hnext⟩
    obtain ⟨units', recorded, hrecorded, hnext⟩ := hstep
    have hprobes := recorded_of_recordEndpoints hrecorded
    obtain ⟨owners, hlater, howners⟩ := ih hnext
    refine ⟨owners, fun key owner hkey => hlater _ _ (hprobes.kept _ _ hkey),
      forall_mem_cons.mpr ⟨?_, howners⟩⟩
    rintro host port ⟨name, hname, url, parsed, written, hurl, hsplit, hport, rfl, rfl⟩
    exact hlater _ _ (hprobes.own name hname url parsed written hurl hsplit hport)

/-- The bindings of an instance are recorded as its own. -/
theorem owner_of_checkInstance {entry : PyStr × Json ℚ} {errors : List PyStr}
    (h : checkInstance urlsplit entry = some (errors, bindings)) :
    ∀ b ∈ bindings, b.1 = entry.1 := by
  unfold checkInstance at h
  simp only [bind_eq_bind] at h
  split at h
  · obtain ⟨-, rfl⟩ := Prod.mk.inj (some.inj h)
    exact fun _ hb => absurd hb not_mem_nil
  split at h
  · split at h
    · obtain ⟨checked, -, h⟩ := bind_eq_some_iff.mp h
      obtain ⟨-, rfl⟩ := Prod.mk.inj (some.inj h)
      exact fun b hb => congrArg Prod.fst (mem_singleton.mp hb)
    · split at h
      · obtain ⟨checked, -, h⟩ := bind_eq_some_iff.mp h
        obtain ⟨-, rfl⟩ := Prod.mk.inj (some.inj h)
        intro b hb
        obtain ⟨_, -, rfl⟩ := mem_map.mp hb
        rfl
      · obtain ⟨-, rfl⟩ := Prod.mk.inj (some.inj h)
        exact fun _ hb => absurd hb not_mem_nil
  · obtain ⟨-, rfl⟩ := Prod.mk.inj (some.inj h)
    exact fun _ hb => absurd hb not_mem_nil

theorem exists_of_forall₂ {α β : Type} {R : α → β → Prop} {l : List α} {l' : List β}
    (h : List.Forall₂ R l l') {a : α} (ha : a ∈ l) : ∃ b ∈ l', R a b := by
  induction h with
  | nil => cases ha
  | cons hab _ ih =>
    rcases mem_cons.mp ha with rfl | ha
    · exact ⟨_, mem_cons_self, hab⟩
    · obtain ⟨b, hb, hR⟩ := ih ha
      exact ⟨b, mem_cons_of_mem _ hb, hR⟩

/-- In an accepted overlay an endpoint, as it is written, has one instance. -/
theorem owner_unique (h : validateOverlay urlsplit overlay = some []) {a b : PyStr}
    {host : Option PyStr} {port : ℤ} (ha : Reaches urlsplit overlay a host port)
    (hb : Reaches urlsplit overlay b host port) : a = b := by
  unfold validateOverlay at h
  simp only [bind_eq_bind] at h
  split at h
  · rename_i entry rest hinstances
    obtain ⟨checked, hchecked, h⟩ := bind_eq_some_iff.mp h
    obtain ⟨owned, howned, h⟩ := bind_eq_some_iff.mp h
    have hnil := sortedErrors_eq_nil.mp (some.inj h)
    rw [append_eq_nil_iff, append_eq_nil_iff] at hnil
    obtain ⟨owners, -, howners⟩ := owned_of_recordOwnership (hnil.2 ▸ howned)
    have hforall := forall₂_of_mapM hchecked
    have howner : ∀ c, Reaches urlsplit overlay c host port →
        owners.get? (endpointKey host port) = some c := by
      rintro c ⟨entries, hentries, e, he, rfl, binding, hbinding, hprobes⟩
      cases hinstances.symm.trans hentries
      obtain ⟨⟨errors, bindings⟩, hr, hcheck⟩ := exists_of_forall₂ hforall he
      obtain rfl : errors = [] := flatMap_eq_nil_iff.mp hnil.1.2 _ hr
      rw [← (checkInstance_accepts hcheck).1] at hbinding
      obtain ⟨b, hb, rfl⟩ := mem_map.mp hbinding
      rw [← owner_of_checkInstance hcheck b hb]
      exact howners b (mem_flatMap.mpr ⟨_, hr, hb⟩) host port hprobes
    exact some.inj ((howner a ha).symm.trans (howner b hb))
  · exact absurd (some.inj h) (by simp)

/-- **Apart.**  An accepted overlay keeps its instances apart just if those that reach one port
spell the host alike. -/
theorem apart_iff (h : validateOverlay urlsplit overlay = some []) :
    Apart urlsplit overlay ↔ SpeltAlike urlsplit overlay := by
  constructor
  · intro hapart a b hne host host' port ha hb
    exact absurd hb (hapart.ports a b hne host host' port ha)
  · intro halike
    refine ⟨fun entries hentries => ?_, fun a b hne host host' port ha hb => ?_⟩
    · obtain ⟨entries', hbound⟩ := bound_of_validateOverlay h
      cases hentries.symm.trans hbound.instances
      exact hbound.nodup
    · obtain rfl := halike a b hne host host' port ha hb
      exact hne (owner_unique h ha hb)

/-- Two instances with a health probe each, which answers only that the host is up. -/
def twoInstances (url url' : String) : Json ℚ :=
  let jsonText := fun (s : String) => Json.str (text s)
  let entry := fun (id unit url : String) => (text id, Json.obj
    [(text "profile_name", jsonText id), (text "engine", jsonText "e"),
      (text "adapter", jsonText "a"), (text "model_set", jsonText "m"),
      (text "profile_fingerprint", .str (List.replicate 64 0x61)),
      (text "unit", jsonText unit), (text "actions", .arr [jsonText "inspect"]),
      (text "health_probe", .obj [(text "url", jsonText url)])])
  .obj [(text "schema_version", jsonText overlaySchema), (text "instances",
    .obj [entry "a" "a.service" url, entry "b" "b.service" url'])]

/-- `urlsplit` of three URLs. -/
def splitLoopback (url : PyStr) : Option SplitUrl :=
  let parts := fun (host : String) (port : Option ℤ) =>
    some ⟨text "http", some (text host), some port, false, false⟩
  if url = text "http://localhost:8188/" then parts "localhost" (some 8188)
  else if url = text "http://127.0.0.1:8188/" then parts "127.0.0.1" (some 8188)
  else if url = text "http://localhost/" then parts "localhost" none
  else none

/-- One host under two names: the overlay is accepted, and both instances probe port 8188. -/
theorem not_apart_renamed :
    let overlay := twoInstances "http://localhost:8188/" "http://127.0.0.1:8188/"
    validateOverlay splitLoopback overlay = some [] ∧ ¬ Apart splitLoopback overlay := by
  refine ⟨by decide +kernel, fun hapart => ?_⟩
  refine hapart.ports (text "a") (text "b") (by decide) (some (text "localhost"))
    (some (text "127.0.0.1")) 8188 ?_ ?_
  · exact ⟨_, rfl, _, mem_cons_self, rfl, _, mem_singleton_self _, "health_probe",
      by decide, text "http://localhost:8188/", _, some 8188, rfl, rfl, rfl, rfl, rfl⟩
  · exact ⟨_, rfl, _, mem_cons_of_mem _ mem_cons_self, rfl, _, mem_singleton_self _,
      "health_probe", by decide, text "http://127.0.0.1:8188/", _, some 8188, rfl, rfl, rfl, rfl,
      rfl⟩

/-- Two ports of one name. -/
theorem apart_iff_two_ports :
    Apart splitLoopback (twoInstances "http://localhost:8188/" "http://localhost/") ↔
      SpeltAlike splitLoopback (twoInstances "http://localhost:8188/" "http://localhost/") :=
  apart_iff (by decide +kernel)

end GpuManager.Host
