import GpuManager.Lib.JsonRoundTrip
import GpuManager.Services.Loader

/-!
# The priority contract

`apply_priority_contract` of `gpu_manager_contracts.py` writes four fields into a payload: the
priority as it was given, its class, what the broker makes of it, and the convention that it is
given in.  The fields that it writes are read as the envelope that they were written for
(`envelopeOf_of_fields`), also after the queue made texts of them.  A payload that was contracted
is therefore contracted again to the same effect (`contract_stable`).
-/

namespace GpuManager.Contracts

open PyStr Services Json Option List PyDict

variable {F : Type}

/-- A JSON object. -/
abbrev Fields (F : Type) := PyDict PyStr (Json F)

/-- `PriorityConvention`. -/
inductive PriorityConvention where
  | generationHigherIsUrgent
  | legacyLowerIsUrgent
  | brokerLowerIsUrgent
  deriving DecidableEq

/-- The value of a convention. -/
def PriorityConvention.value : PriorityConvention → PyStr
  | generationHigherIsUrgent => text "generation_higher_is_urgent"
  | legacyLowerIsUrgent => text "legacy_lower_is_urgent"
  | brokerLowerIsUrgent => text "broker_lower_is_urgent"

/-- `PriorityConvention(value)`; `none` when it raises. -/
def PriorityConvention.ofValue? (value : Json F) : Option PriorityConvention :=
  [generationHigherIsUrgent, legacyLowerIsUrgent, brokerLowerIsUrgent].find? fun c =>
    value.str? = some c.value

/-- `PriorityClass`. -/
inductive PriorityClass where
  | interactive
  | normal
  | background
  deriving DecidableEq

namespace PriorityClass

/-- The value of a class. -/
def value : PriorityClass → PyStr
  | interactive => text "interactive"
  | normal => text "normal"
  | background => text "background"

/-- `_PRIORITY_RANK`. -/
def rank : PriorityClass → ℕ
  | interactive => 0
  | normal => 1
  | background => 2

/-- `_BROKER_VALUE`. -/
def brokerValue : PriorityClass → ℤ
  | interactive => 0
  | normal => 10
  | background => 20

end PriorityClass

/-- `_PRIORITY_NAMES`, the values of the classes among them. -/
def priorityNames : PyDict PyStr PriorityClass :=
  [("interactive", .interactive), ("high", .interactive), ("urgent", .interactive),
    ("normal", .normal), ("medium", .normal), ("med", .normal), ("background", .background),
    ("low", .background)].map fun e : String × PriorityClass => (text e.1, e.2)

/-- `PriorityEnvelope`. -/
structure PriorityEnvelope where
  raw : ℤ
  priorityClass : PriorityClass
  brokerPriority : ℤ
  convention : PriorityConvention

/-- `rank`. -/
def PriorityEnvelope.rank (env : PriorityEnvelope) : ℕ := env.priorityClass.rank

/-- `to_fields`. -/
def PriorityEnvelope.toFields (env : PriorityEnvelope) : Fields F :=
  [(text "priority", .int env.raw), (text "priority_class", .str env.priorityClass.value),
    (text "broker_priority", .int env.brokerPriority),
    (text "priority_convention", .str env.convention.value)]

/-- What is raised: a `ValueError` with its message, or with a message that shows a value, or the
`OverflowError` of an infinite float. -/
inductive PriorityError (F : Type) where
  | value (message : PyStr)
  | unknownClass (value : Json F)
  | convention (value : Json F)
  | overflow

section Contract

variable (py : PyValues F) (other : CodePoint → PyStr)

/-- `_coerce_int`. -/
def coerceInt (value : Json F) : Except (PriorityError F) ℤ :=
  let refused := PriorityError.value (text "priority must be an integer")
  match value with
  | .bool _ => .error (.value (text "priority must be an integer, not boolean"))
  | value =>
    match py.int value with
    | .error .overflowError => .error .overflow
    | .error _ => .error refused
    | .ok number =>
      match value with
      | .float x => if py.integer x = some number then .ok number else .error refused
      | _ => .ok number

/-- `_class_for_numeric`. -/
def classForNumeric (value : ℤ) (convention : PriorityConvention) : PriorityClass :=
  match convention with
  | .generationHigherIsUrgent =>
    if 60 ≤ value then .interactive else if 10 ≤ value then .normal else .background
  | _ => if value ≤ 3 then .interactive else if value ≤ 10 then .normal else .background

/-- `default if value is None else _coerce_int(value)`. -/
def rawOf (value : Json F) (default : ℤ) : Except (PriorityError F) ℤ :=
  if value.isNull then .ok default else coerceInt py value

/-- `priority_envelope`. -/
def priorityEnvelope (value priorityClass convention : Json F) :
    Except (PriorityError F) PriorityEnvelope :=
  match PriorityConvention.ofValue? convention with
  | none => .error (.convention convention)
  | some convention =>
    if priorityClass.isNull = false then
      match priorityNames.get? (lower other (py.strOf priorityClass)) with
      | none => .error (.unknownClass priorityClass)
      | some cls => do
          let raw ← rawOf py value cls.brokerValue
          return ⟨raw, cls, cls.brokerValue, convention⟩
    else do
      let raw ← rawOf py value (if convention = .generationHigherIsUrgent then 50 else 10)
      let cls := classForNumeric raw convention
      return ⟨raw, cls, cls.brokerValue, convention⟩

def envelopeOf (fields : Fields F) (convention : Json F) :
    Except (PriorityError F) PriorityEnvelope :=
  priorityEnvelope py other ((fields.get? (text "priority")).getD .null)
    ((fields.get? (text "priority_class")).getD .null)
    ((fields.get? (text "priority_convention")).getD convention)

/-- `result.update(fields)`. -/
def update (fields more : Fields F) : Fields F := more.foldl (fun d e => PyDict.set d e.1 e.2) fields

def parentEnvelope (parent : Fields F) (convention : Json F) :
    Except (PriorityError F) (Option PriorityEnvelope) :=
  match parent with
  | [] => .ok none
  | _ :: _ => (envelopeOf py other parent convention).map some

/-- `has_child_priority`. -/
def hasChildPriority (payload : Fields F) : Bool :=
  (payload.get? (text "priority")).isSome || (payload.get? (text "priority_class")).isSome

/-- The result where the priority of the parent is not inherited. -/
def contractOwn (payload : Fields F) (parentEnv : Option PriorityEnvelope) (convention : Json F)
    (allowElevation : Bool) : Except (PriorityError F) (Fields F) := do
  let env ← envelopeOf py other payload convention
  if (parentEnv.any fun p => env.rank < p.rank) && !allowElevation then
    .error (.value (text "priority elevation requires explicit authorization"))
  else
    let result := update payload env.toFields
    return if (result.get? (text "priority_source")).isSome then result
      else result.set (text "priority_source") (.str (text "request"))

/-- `apply_priority_contract`. -/
def applyPriorityContract (payload parent : Fields F) (convention : Json F)
    (allowElevation : Bool) : Except (PriorityError F) (Fields F) := do
  let parentEnv ← parentEnvelope py other parent convention
  match parentEnv, hasChildPriority payload with
  | some env, false =>
    return (update payload env.toFields).set (text "priority_source") (.str (text "parent"))
  | _, _ => contractOwn py other payload parentEnv convention allowElevation

end Contract

/-! ## What is written is read -/

structure Carries (fields : Fields F) (env : PriorityEnvelope) : Prop where
  priority : fields.get? (text "priority") = some (.int env.raw)
  priorityClass : fields.get? (text "priority_class") = some (.str env.priorityClass.value)
  brokerPriority : fields.get? (text "broker_priority") = some (.int env.brokerPriority)
  convention : fields.get? (text "priority_convention") = some (.str env.convention.value)

variable {fields : Fields F} {value : Json F} {fields' : Fields F} {key : PyStr}

theorem get?_update {more : Fields F} (hnodup : (more.map (·.1)).Nodup)
    (hmem : (key, value) ∈ more) : (update fields more).get? key = some value := by
  unfold update
  induction more generalizing fields with
  | nil => cases hmem
  | cons e more ih =>
    rw [map_cons, nodup_cons] at hnodup
    rw [foldl_cons]
    rcases mem_cons.mp hmem with rfl | hmem
    · have hkeep : ∀ (l : Fields F) (d : Fields F), key ∉ l.map (·.1) →
          (l.foldl (fun d e => PyDict.set d e.1 e.2) d).get? key = d.get? key := by
        intro l
        induction l with
        | nil => intro d _; rfl
        | cons e l ih =>
          intro d hout
          rw [map_cons, mem_cons, not_or] at hout
          rw [foldl_cons, ih _ hout.2, PyDict.get?_set, if_neg hout.1]
      rw [hkeep more _ hnodup.1, PyDict.get?_set_self]
    · exact ih hnodup.2 hmem

theorem carries_update (fields : Fields F) (env : PriorityEnvelope) :
    Carries (update fields env.toFields) env := by
  have hnodup : ((env.toFields : Fields F).map (·.1)).Nodup := by
    show [text "priority", text "priority_class", text "broker_priority",
      text "priority_convention"].Nodup
    decide
  constructor <;> exact get?_update hnodup (by simp [PriorityEnvelope.toFields])

theorem Carries.set {env : PriorityEnvelope} (h : Carries fields env) (value : Json F) :
    Carries (fields.set (text "priority_source") value) env := by
  constructor
  · rw [get?_set, if_neg (by decide), h.priority]
  · rw [get?_set, if_neg (by decide), h.priorityClass]
  · rw [get?_set, if_neg (by decide), h.brokerPriority]
  · rw [get?_set, if_neg (by decide), h.convention]

section Reading

variable {py : PyValues F} {other : CodePoint → PyStr} {env : PriorityEnvelope}

/-- The value of a class names it. -/
theorem priorityNames_value (cls : PriorityClass) :
    priorityNames.get? (lower other cls.value) = some cls := by
  have hlower : lower other cls.value = cls.value := by cases cls <;> rfl
  rw [hlower]
  cases cls <;> decide

theorem ofValue?_value (convention : PriorityConvention) :
    PriorityConvention.ofValue? (str convention.value : Json F) = some convention := by
  cases convention <;> rfl

theorem bind_eq_ok {ε α β : Type} {x : Except ε α} {f : α → Except ε β} {b : β} :
    (x >>= f) = .ok b ↔ ∃ a, x = .ok a ∧ f a = .ok b := by
  cases x with
  | error e => exact ⟨fun h => (by cases h), fun ⟨_, h, _⟩ => (by cases h)⟩
  | ok a => exact ⟨fun h => ⟨a, rfl, h⟩, fun ⟨_, ha, h⟩ => Except.ok.inj ha ▸ h⟩

variable {convention : Json F} {fields parent : Fields F}

theorem brokerPriority_of_envelope {priorityClass : Json F}
    (h : priorityEnvelope py other value priorityClass convention = .ok env) :
    env.brokerPriority = env.priorityClass.brokerValue := by
  unfold priorityEnvelope at h
  split at h
  · cases h
  split at h
  · split at h
    · cases h
    obtain ⟨raw, -, h⟩ := bind_eq_ok.mp h
    obtain rfl := Except.ok.inj h
    rfl
  · obtain ⟨raw, -, h⟩ := bind_eq_ok.mp h
    obtain rfl := Except.ok.inj h
    rfl

/-- Fields that name a class, a convention and a number denote their envelope. -/
theorem envelopeOf_of_fields {priority : Json F} (convention : Json F)
    (hbroker : env.brokerPriority = env.priorityClass.brokerValue)
    (hpriority : fields.get? (text "priority") = some priority)
    (hraw : priority.isNull = false ∧ coerceInt py priority = .ok env.raw)
    (hclass : fields.get? (text "priority_class") = some (.str env.priorityClass.value))
    (hconvention : fields.get? (text "priority_convention") = some (.str env.convention.value)) :
    envelopeOf py other fields convention = .ok env := by
  unfold envelopeOf
  rw [hpriority, hclass, hconvention]
  unfold priorityEnvelope
  have hnamed : (str env.priorityClass.value : Json F).isNull = false := rfl
  simp only [getD_some, ofValue?_value, if_pos hnamed, PyValues.strOf,
    priorityNames_value, rawOf, hraw.1, hraw.2]
  rw [← hbroker]
  rfl

theorem Carries.envelopeOf (h : Carries fields env)
    (hbroker : env.brokerPriority = env.priorityClass.brokerValue) (convention : Json F) :
    envelopeOf py other fields convention = .ok env :=
  envelopeOf_of_fields convention hbroker h.priority ⟨rfl, rfl⟩ h.priorityClass h.convention

theorem parentEnvelope_eq_some {p : PriorityEnvelope}
    (h : parentEnvelope py other parent convention = .ok (some p)) :
    Contracts.envelopeOf py other parent convention = .ok p := by
  cases parent with
  | nil => cases h
  | cons e parent =>
    cases henv : Contracts.envelopeOf py other (e :: parent) convention with
    | error e' =>
      rw [parentEnvelope, henv] at h
      cases h
    | ok p' =>
      rw [parentEnvelope, henv] at h
      cases h
      rfl

/-- What a contracted payload carries, and what its parent allowed. -/
theorem carries_of_contract {payload result : Fields F}
    (h : applyPriorityContract py other payload parent convention false = .ok result) :
    ∃ env parentEnv, parentEnvelope py other parent convention = .ok parentEnv ∧
      Carries result env ∧ env.brokerPriority = env.priorityClass.brokerValue ∧
      ∀ p ∈ parentEnv, p.rank ≤ env.rank := by
  unfold applyPriorityContract at h
  obtain ⟨parentEnv, hparent, h⟩ := bind_eq_ok.mp h
  split at h
  · rename_i env _
    obtain rfl := Except.ok.inj h
    refine ⟨env, some env, hparent, (carries_update payload env).set _,
      brokerPriority_of_envelope (parentEnvelope_eq_some hparent), fun p hp => ?_⟩
    obtain rfl := some.inj hp
    exact le_rfl
  · obtain ⟨env, henv, h⟩ := bind_eq_ok.mp h
    split at h
    · cases h
    rename_i hrank
    refine ⟨env, _, hparent, ?_, brokerPriority_of_envelope henv, fun p hp => ?_⟩
    · obtain rfl := Except.ok.inj h
      split
      · exact carries_update payload env
      · exact (carries_update payload env).set _
    · rw [Bool.not_false, Bool.and_true, mem_def.mp hp] at hrank
      simpa using hrank

/-- A payload that denotes an envelope which its parent allows is contracted to it. -/
theorem contract_of_envelope {parentEnv : Option PriorityEnvelope}
    (hparent : parentEnvelope py other parent convention = .ok parentEnv)
    (hown : (fields.get? (text "priority")).isSome = true)
    (henv : Contracts.envelopeOf py other fields convention = .ok env)
    (hrank : ∀ p ∈ parentEnv, p.rank ≤ env.rank) :
    ∃ again, applyPriorityContract py other fields parent convention false = .ok again ∧
      Carries again env := by
  have hallowed : ((parentEnv.any fun p => env.rank < p.rank) && !false) = false := by
    cases parentEnv with
    | none => rfl
    | some p => simpa using hrank p rfl
  have hhas : hasChildPriority fields = true := by rw [hasChildPriority, hown, Bool.true_or]
  have hcontract : applyPriorityContract py other fields parent convention false =
      contractOwn py other fields parentEnv convention false := by
    unfold applyPriorityContract
    rw [hparent, hhas]
    cases parentEnv <;> rfl
  rw [hcontract, contractOwn, henv]
  simp only [bind, Except.bind, hallowed, Bool.false_eq_true, if_false]
  refine ⟨_, rfl, ?_⟩
  split
  · exact carries_update fields env
  · exact (carries_update fields env).set _

end Reading

/-! ## The contract -/

/-- What the queue stores of a value: `json.dumps(v)` of a list or a dictionary, and `str(v)`;
`none` when that raises. -/
def storedText (texts : Json F → Option PyStr) : Json F → Option PyStr
  | .str s => some s
  | .int n => if n.natAbs < intLimit then some (intText n) else none
  | value => texts value

def stored (texts : Json F → Option PyStr) (fields : Fields F) : Option (Fields F) :=
  fields.mapM fun e => (storedText texts e.2).map fun t => (e.1, .str t)

theorem get?_stored {texts : Json F → Option PyStr}
    (h : stored texts fields = some fields') (hget : fields.get? key = some value) :
    ∃ t, storedText texts value = some t ∧ fields'.get? key = some (.str t) := by
  induction fields generalizing fields' with
  | nil => cases hget
  | cons e fields ih =>
    unfold stored at h
    rw [mapM_cons] at h
    obtain ⟨e', he, h⟩ := bind_eq_some_iff.mp h
    obtain ⟨rest, hrest, h⟩ := bind_eq_some_iff.mp h
    obtain rfl := some.inj h
    obtain ⟨t, ht, rfl⟩ := map_eq_some_iff.mp he
    rw [get?_cons] at hget ⊢
    split at hget
    · obtain rfl := some.inj hget
      exact ⟨t, ht, if_pos ‹_›⟩
    · obtain ⟨t', ht', hget'⟩ := ih hrest hget
      exact ⟨t', ht', (if_neg ‹_›).trans hget'⟩

def AsUrgent (convention : PriorityConvention) (a b : ℤ) : Prop :=
  if convention = .generationHigherIsUrgent then b ≤ a else a ≤ b

theorem classForNumeric_mono {convention : PriorityConvention} {a b : ℤ}
    (h : AsUrgent convention a b) :
    (classForNumeric a convention).rank ≤ (classForNumeric b convention).rank := by
  cases convention <;> simp only [AsUrgent, reduceCtorEq, if_false, if_true] at h <;>
    unfold classForNumeric <;> split_ifs <;> simp only [PriorityClass.rank] <;> omega

/-- Two payloads agree on the class, the priority for the broker and the convention. -/
def SamePriority (fields fields' : Fields F) : Prop :=
  ∀ key ∈ ["priority_class", "broker_priority", "priority_convention"],
    fields'.get? (text key) = fields.get? (text key)

theorem Carries.same {env : PriorityEnvelope} (h : Carries fields env)
    (h' : Carries fields' env) : SamePriority fields fields' := by
  intro key hkey
  simp only [mem_cons, not_mem_nil, or_false] at hkey
  rcases hkey with rfl | rfl | rfl
  · exact h'.priorityClass.trans h.priorityClass.symm
  · exact h'.brokerPriority.trans h.brokerPriority.symm
  · exact h'.convention.trans h.convention.symm

/-- **The contract is stable.**  A child is at most as urgent as what its parent's fields denote;
the result is contracted again to the same priority, as it is or as the queue stores it; and a
more urgent number never has a less urgent class.  `int` reads what `str` prints. -/
theorem contract_stable (py : PyValues F) (other : CodePoint → PyStr)
    (hparse : ∀ n : ℤ, n.natAbs < intLimit → py.parse (intText n) = some n)
    {payload parent result : Fields F} {convention : Json F} (hparent : parent ≠ [])
    (h : applyPriorityContract py other payload parent convention false = .ok result) :
    (∃ env parentEnv, Carries result env ∧ envelopeOf py other parent convention = .ok parentEnv ∧
        parentEnv.rank ≤ env.rank) ∧
      (∃ again, applyPriorityContract py other result parent convention false = .ok again ∧
        SamePriority result again) ∧
      (∀ texts fields, stored texts result = some fields →
        ∃ again, applyPriorityContract py other fields parent convention false = .ok again ∧
          SamePriority result again) ∧
      ∀ scale a b, AsUrgent scale a b →
        (classForNumeric a scale).rank ≤ (classForNumeric b scale).rank := by
  obtain ⟨env, parentEnv, hparentEnv, hcarries, hbroker, hrank⟩ := carries_of_contract h
  refine ⟨?_, ?_, fun texts fields hstored => ?_, fun _ _ _ => classForNumeric_mono⟩
  · cases parentEnv with
    | none =>
      cases parent with
      | nil => exact absurd rfl hparent
      | cons e parent =>
        unfold parentEnvelope at hparentEnv
        cases hof : envelopeOf py other (e :: parent) convention <;>
          rw [hof] at hparentEnv <;> cases hparentEnv
    | some p => exact ⟨env, p, hcarries, parentEnvelope_eq_some hparentEnv, hrank p rfl⟩
  · obtain ⟨again, hagain, hsame⟩ := contract_of_envelope hparentEnv
      (by rw [hcarries.priority]; rfl) (hcarries.envelopeOf hbroker convention) hrank
    exact ⟨again, hagain, hcarries.same hsame⟩
  · obtain ⟨raw, hraw, hpriority⟩ := get?_stored hstored hcarries.priority
    obtain ⟨_, hsame, hclass⟩ := get?_stored hstored hcarries.priorityClass
    obtain rfl := some.inj hsame
    obtain ⟨_, hsame, hconvention⟩ := get?_stored hstored hcarries.convention
    obtain rfl := some.inj hsame
    have hread : coerceInt py (.str raw) = .ok env.raw := by
      simp only [storedText] at hraw
      split at hraw
      · rename_i hsmall
        obtain rfl := some.inj hraw
        simp only [coerceInt, PyValues.int, hparse _ hsmall]
      · cases hraw
    obtain ⟨again, hagain, hsame⟩ := contract_of_envelope hparentEnv
      (by rw [hpriority]; rfl)
      (envelopeOf_of_fields convention hbroker hpriority ⟨rfl, hread⟩ hclass hconvention) hrank
    exact ⟨again, hagain, hcarries.same hsame⟩

/-- The integer of its decimal text. -/
def decimal : PyStr → Option ℤ
  | [] => none
  | c :: digits =>
    if c = code '-' then some (-(natOfDigits digits : ℤ))
    else some (natOfDigits (c :: digits))

theorem decimal_intText (n : ℤ) : decimal (intText n) = some n := by
  unfold intText
  by_cases hn : n < 0
  · rw [if_pos hn, singleton_append, decimal, if_pos rfl, natOfDigits_natText]
    exact congrArg some (by omega)
  rw [if_neg hn, nil_append]
  have hread := natOfDigits_natText n.natAbs
  cases htext : natText n.natAbs with
  | nil => exact absurd (map_eq_nil_iff.mp htext) Nat.toDigits_ne_nil
  | cons c digits =>
    have hdigit : isDigit c = true :=
      isDigit_natText (htext ▸ mem_cons_self : c ∈ natText n.natAbs)
    have hminus : c ≠ code '-' := by
      rintro rfl
      revert hdigit
      decide
    rw [htext] at hread
    rw [decimal, if_neg hminus, hread]
    exact congrArg some (by omega)

def decimalValues : PyValues Unit where
  integer _ := none
  trunc _ := .error .valueError
  parse := decimal
  str _ := []
  alnum _ := false

def lowChild : Fields Unit :=
  [(text "priority_class", .str (text "background")), (text "priority", .int 20),
    (text "broker_priority", .int 20),
    (text "priority_convention", .str (text "generation_higher_is_urgent")),
    (text "priority_source", .str (text "request"))]

/-- It is contracted again, below a parent of the normal priority. -/
theorem contract_stable_low : ∃ again, applyPriorityContract decimalValues (fun c => [c]) lowChild
    [(text "priority", .int 50)] (.str (text "generation_higher_is_urgent")) false = .ok again ∧
      SamePriority lowChild again := by
  have hresult : applyPriorityContract decimalValues (fun c => [c])
      [(text "priority_class", .str (text "Low"))] [(text "priority", .int 50)]
      (.str (text "generation_higher_is_urgent")) false = .ok lowChild := rfl
  exact (contract_stable decimalValues (fun c => [c]) (fun n _ => decimal_intText n)
    (cons_ne_nil _ _) hresult).2.1

end GpuManager.Contracts
