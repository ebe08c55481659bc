import GpuManager.Revisions.Catalog
import GpuManager.Revisions.Definitions

/-!
# Published values

`publish` takes any Python mapping.  `_freeze` keeps a copy of it in which every key is a text;
`_thaw`, which comes before the canonical text, makes texts of the keys down to the first list and
leaves what is below a list as it is, so that `json.dumps` writes those keys itself.

* `Value.freeze`: the copy.
* `Value.canonical`: what the fingerprint is the digest of.
* `Value.Textual`: the fingerprint is the one that the frozen copy has.

A definition consists of dictionaries, lists and JSON scalars, and a key is a text, an integer, a
truth value or `None`.
-/

namespace GpuManager.Revisions

open PyStr Json

variable {F A : Type}

/-- A key of a Python dictionary. -/
inductive PyKey where
  | str (s : PyStr)
  | int (n : ℤ)
  | bool (b : Bool)
  | none
  deriving DecidableEq

namespace PyKey

/-- `str(key)`. -/
def toStr : PyKey → PyStr
  | str s => s
  | int n => text (toString n)
  | bool b => text (if b then "True" else "False")
  | none => text "None"

def jsonText : PyKey → PyStr
  | bool b => text (if b then "true" else "false")
  | none => text "null"
  | key => key.toStr

/-- The text of an integer exists. -/
def writable : PyKey → Bool
  | int n => n.natAbs < intLimit
  | _ => true

/-- `isinstance(key, str)`. -/
def isStr : PyKey → Bool
  | str _ => true
  | _ => false

def number? : PyKey → Option ℤ
  | int n => some n
  | bool b => some (if b then 1 else 0)
  | _ => Option.none

end PyKey

def sortTexts (members : List (PyStr × A)) : List (PyStr × A) :=
  members.insertionSort fun a b => PyStr.le a.1 b.1 = true

/-- `sorted(members.items())`; `none` when it raises, because two keys cannot be compared. -/
def sortItems? (members : List (PyKey × A)) : Option (List (PyKey × A)) :=
  if members.length ≤ 1 then some members
  else if members.all fun m => m.1.isStr then
    some (members.insertionSort fun a b => PyStr.le a.1.toStr b.1.toStr = true)
  else if members.all fun m => m.1.number?.isSome then
    some (members.insertionSort fun a b => a.1.number?.getD 0 ≤ b.1.number?.getD 0)
  else none

/-- The members of a dictionary as they are written, below a list or not. -/
def writtenMembers (nested : Bool) (members : List (PyKey × A)) : Option (List (PyStr × A)) :=
  if members.all fun m => m.1.writable then
    if nested then (sortItems? members).map fun ms => ms.map fun m => (m.1.jsonText, m.2)
    else
      -- a comprehension over the items: of two keys with one text the last counts
      some (sortTexts (members.foldl (fun d m => PyDict.set d m.1.toStr m.2) []))
  else none

/-- What a definition consists of. -/
inductive Value (F : Type) where
  | null
  | bool (b : Bool)
  | int (n : ℤ)
  | float (x : F)
  | str (s : PyStr)
  | arr (items : List (Value F))
  | dict (members : List (PyKey × Value F))

namespace Value

mutual

/-- `_freeze`, with the tuples that it makes of lists written as lists. -/
def freeze : Value F → Json F
  | null => .null
  | bool b => .bool b
  | int n => .int n
  | float x => .float x
  | str s => .str s
  | arr items => .arr (freezeItems items)
  | dict members => .obj ((freezeMembers members).foldl (fun d m => PyDict.set d m.1 m.2) [])

def freezeItems : List (Value F) → List (Json F)
  | [] => []
  | item :: items => freeze item :: freezeItems items

def freezeMembers : List (PyKey × Value F) → List (PyStr × Json F)
  | [] => []
  | (key, value) :: members => (key.toStr, freeze value) :: freezeMembers members

end

mutual

/-- What `json.dumps(_thaw(value), sort_keys=True)` writes, with the members of each dictionary in
the order in which they are written; `none` when it raises.  `nested` is below a list. -/
def document (nested : Bool) : Value F → Option (Json F)
  | null => some .null
  | bool b => some (.bool b)
  | int n => some (.int n)
  | float x => some (.float x)
  | str s => some (.str s)
  | arr items => (documentItems items).map .arr
  | dict members =>
    (writtenMembers nested (documentMembers nested members)).bind fun ms =>
      (ms.mapM fun m : PyStr × Option (Json F) => m.2.map fun value => (m.1, value)).map .obj

def documentItems : List (Value F) → Option (List (Json F))
  | [] => some []
  | item :: items =>
    match document true item, documentItems items with
    | some item, some items => some (item :: items)
    | _, _ => none

def documentMembers (nested : Bool) :
    List (PyKey × Value F) → List (PyKey × Option (Json F))
  | [] => []
  | (key, value) :: members => (key, document nested value) :: documentMembers nested members

end

/-- The document that `service_revision_fingerprint` encodes, in the order of its text; `none` when
it raises. -/
def canonical (name : PyStr) (value : Value F) : Option (Json F) :=
  (document false value).bind fun definition =>
    let identity := Json.obj [(text "definition", definition), (text "name", .str name)]
    if identity.Plain ∧ ∀ s ∈ strings identity, s.any isSurrogate = false then some identity
    else none

/-- What `validate_service_definition` looks at: it finds the fields of the frozen copy, and
`env_overrides` is wrong if one of its keys is no text. -/
def checked (value : Value F) : Json F :=
  match value, value.freeze with
  | dict members, .obj frozen =>
    match PyDict.get? members (.str (text "env_overrides")) with
    | some (dict overrides) =>
      if overrides.all fun m => m.1.isStr then .obj frozen
      else .obj (PyDict.set frozen (text "env_overrides") .null)
    | _ => .obj frozen
  | _, frozen => frozen

end Value

def identity (name : PyStr) (definition : Json F) : Json F :=
  .obj [(text "name", .str name), (text "definition", definition)]

/-- What `service_revision.py` calls; `digest` is SHA-256 of the text of a value. -/
def catalogContract (digest : Json F → List (Fin 16)) : Contract F (Json F) where
  validate name definition := (validateServiceDefinition name definition).toOption
  fingerprint name definition :=
    (encode (identity name definition)).map fun value => hexdigest (digest value)
  loads := some
  dumps := reread

namespace Value

def fingerprint (digest : Json F → List (Fin 16)) (name : PyStr) (value : Value F) :
    Option PyStr := (value.canonical name).map fun document => hexdigest (digest document)

/-- What the catalog calls on a value that is being published. -/
def contract (digest : Json F → List (Fin 16)) (value : Value F) : Contract F (Json F) :=
  { catalogContract digest with
    validate := fun name _ => (validateServiceDefinition name value.checked).toOption
    fingerprint := fun name _ => value.fingerprint digest name }

/-- The canonical text of the value, if it has one and is accepted, is that of its frozen copy. -/
def Textual (name : PyStr) (value : Value F) : Prop :=
  ∀ document, value.canonical name = some document →
    validateServiceDefinition name value.checked = .ok [] →
    encode (identity name value.freeze) = some document

end Value

end GpuManager.Revisions
