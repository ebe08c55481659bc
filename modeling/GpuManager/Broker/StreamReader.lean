import Mathlib.Data.List.Sort
import GpuManager.Lib.JsonText
import GpuManager.Lib.LineBuffer
import GpuManager.Lib.Utf8

/-!
# The streamed chat response

`BufferedAiohttpTransport._read_streamed_chat_response`: the bytes of a response body are cut
into lines, the lines into events, and the events are assembled into one chat completion.  The
buffer is the one of `LineBuffer`, so that the completion depends on the bytes alone
(`readStreamedChatResponse_chunks`).

* `PyCalls`: what the built-in calls do to values that the model does not compute with.
* `Assembly.event`: `consume_event`.
* `readLine`: one line of the body, decoded.
* `result`: the completion, from what was assembled.

An event may raise beside `TRANSPORT_STREAM_EMPTY`: a `TypeError` for a list that is a number,
the `ValueError` of too long an integer and the `OverflowError` of an infinite index.
-/

namespace PyStr

/-- `s.lstrip()`. -/
def lstrip (s : PyStr) : PyStr := s.dropWhile isSpace

/-- `s.rstrip("\r")`. -/
def rstripCr (s : PyStr) : PyStr := s.rdropWhile fun c => c.val = 0x0d

/-- `sep.join(parts)`. -/
def joinWith (sep : PyStr) (parts : List PyStr) : PyStr := List.intercalate sep parts

/-- `s.find(word)`, as the parts before and after the first occurrence. -/
def splitAt? (word : PyStr) : PyStr → Option (PyStr × PyStr)
  | [] => if word = [] then some ([], []) else none
  | c :: s =>
    if word.isPrefixOf (c :: s) then some ([], (c :: s).drop word.length)
    else (splitAt? word s).map fun r => (c :: r.1, r.2)

end PyStr

namespace GpuManager.Broker

open PyStr

/-! ## Built-in calls -/

/-- Why `int(value)` raises: a `TypeError` or `ValueError`, or an `OverflowError`. -/
inductive IntError where
  | invalid
  | overflow
  deriving DecidableEq

/-- The calls whose outcome on floats, or on the texts of numbers, stays a parameter. -/
structure PyCalls (F : Type) where
  floats : Json.Floats F
  /-- `str(value)` of a value that is no string. -/
  str : Json F → PyStr
  /-- `int(text)`; `none` when it raises. -/
  intOfStr : PyStr → Option ℤ
  /-- `int(x)`. -/
  intOfFloat : F → Except IntError ℤ
  /-- `x == 0.0`. -/
  isZero : F → Bool

inductive StreamError where
  /-- `RuntimeError("TRANSPORT_STREAM_EMPTY")`. -/
  | transportStreamEmpty
  | typeError
  | valueError
  | overflowError
  deriving DecidableEq

variable {F : Type}

namespace PyCalls

variable (py : PyCalls F)

/-- `str(value)`. -/
def strOf : Json F → PyStr
  | .str s => s
  | value => py.str value

/-- `int(value)`. -/
def int : Json F → Except IntError ℤ
  | .int n => .ok n
  | .bool b => .ok (if b then 1 else 0)
  | .float x => py.intOfFloat x
  | .str s =>
    match py.intOfStr s with
    | some n => .ok n
    | none => .error .invalid
  | _ => .error .invalid

/-- `int(value)`, or `fallback` after a `TypeError` or a `ValueError`. -/
def indexOr (fallback : ℤ) (value : Json F) : Except StreamError ℤ :=
  match py.int value with
  | .ok n => .ok n
  | .error .invalid => .ok fallback
  | .error .overflow => .error .overflowError

/-- `bool(value)`. -/
def truthy : Json F → Bool
  | .null => false
  | .bool b => b
  | .int n => n ≠ 0
  | .float x => !py.isZero x
  | .str s => s ≠ []
  | .arr values => !values.isEmpty
  | .obj pairs => !pairs.isEmpty

/-- `value or {}`. -/
def orDict (value : Json F) : Json F := if py.truthy value then value else .obj []

/-- `for item in value or []`: a string has its characters and a dictionary its keys. -/
def iterate (value : Json F) : Except StreamError (List (Json F)) :=
  if py.truthy value then
    match value with
    | .arr values => .ok values
    | .obj pairs => .ok (pairs.map fun m => .str m.1)
    | .str s => .ok (s.map fun c => .str [c])
    | _ => .error .typeError
  else .ok []

end PyCalls

/-! ## Assembly -/

/-- A value of `choices`. -/
structure ChoiceAcc (F : Type) where
  role : Json F := .str (text "assistant")
  content : List PyStr := []
  reasoningContent : List PyStr := []
  toolCalls : PyDict ℤ (PyDict PyStr (Json F)) := []
  finishReason : Json F := .null

structure Assembly (F : Type) where
  firstChunk : Option (Json F) := none
  usage : Option (Json F) := none
  choices : PyDict ℤ (ChoiceAcc F) := []

/-- `fold` of a step that may raise. -/
def eachOf {S A : Type} (step : S → A → Except StreamError S) : S → List A → Except StreamError S
  | s, [] => .ok s
  | s, a :: rest =>
    match step s a with
    | .ok s' => eachOf step s' rest
    | .error e => .error e

def setUnlessNone (target : PyDict PyStr (Json F)) (key : String) (value : Json F) :
    PyDict PyStr (Json F) :=
  if value.isNull then target else target.set (text key) value

def functionOf (target : PyDict PyStr (Json F)) : PyDict PyStr (Json F) :=
  match target.get? (text "function") with
  | some (.obj fn) => fn
  | _ => []

/-- The text under `"arguments"`. -/
def argumentsOf (fn : PyDict PyStr (Json F)) : PyStr :=
  match fn.get? (text "arguments") with
  | some (.str s) => s
  | _ => []

/-- `fn` after the `name` and the `arguments` of one delta. -/
def mergeFunction (py : PyCalls F) (fn : PyDict PyStr (Json F)) (function : Json F) :
    PyDict PyStr (Json F) :=
  let fn := setUnlessNone fn "name" (function.get "name")
  if (function.get "arguments").isNull then fn
  else
    fn.set (text "arguments") (.str (argumentsOf fn ++ py.strOf (function.get "arguments")))

/-- `target` after one element of `delta["tool_calls"]`. -/
def mergeCall (py : PyCalls F) (target : PyDict PyStr (Json F)) (call : Json F) :
    PyDict PyStr (Json F) :=
  let target := setUnlessNone target "id" (call.get "id")
  let target := setUnlessNone target "type" (call.get "type")
  let function := py.orDict (call.get "function")
  if function.isObj then
    target.set (text "function") (.obj (mergeFunction py (functionOf target) function))
  else target

def toolCall (py : PyCalls F) (calls : PyDict ℤ (PyDict PyStr (Json F))) (call : Json F) :
    Except StreamError (PyDict ℤ (PyDict PyStr (Json F))) :=
  if call.isObj then
    match py.indexOr calls.length ((call.get? "index").getD (.int 0)) with
    | .ok index => .ok (calls.set index (mergeCall py ((calls.get? index).getD []) call))
    | .error e => .error e
  else .ok calls

/-- `parts.append(str(value))` unless the value is `None`. -/
def appendUnlessNone (py : PyCalls F) (parts : List PyStr) (value : Json F) : List PyStr :=
  if value.isNull then parts else parts ++ [py.strOf value]

/-- `acc` after `delta`. -/
def ChoiceAcc.delta (py : PyCalls F) (acc : ChoiceAcc F) (delta : Json F) :
    Except StreamError (ChoiceAcc F) :=
  if delta.isObj then
    match py.iterate (delta.get "tool_calls") with
    | .error e => .error e
    | .ok calls =>
      match eachOf (toolCall py) acc.toolCalls calls with
      | .error e => .error e
      | .ok toolCalls =>
        .ok { acc with
          role := if py.truthy (delta.get "role") then delta.get "role" else acc.role
          content := appendUnlessNone py acc.content (delta.get "content")
          reasoningContent :=
            appendUnlessNone py acc.reasoningContent (delta.get "reasoning_content")
          toolCalls }
  else .ok acc

def choice (py : PyCalls F) (choices : PyDict ℤ (ChoiceAcc F)) (value : Json F) :
    Except StreamError (PyDict ℤ (ChoiceAcc F)) :=
  if value.isObj then
    match py.indexOr 0 ((value.get? "index").getD (.int 0)) with
    | .error e => .error e
    | .ok index =>
      match ((choices.get? index).getD {}).delta py (py.orDict (value.get "delta")) with
      | .error e => .error e
      | .ok acc =>
        .ok (choices.set index
          { acc with
            finishReason :=
              if (value.get "finish_reason").isNull then acc.finishReason
              else value.get "finish_reason" })
  else .ok choices

def Assembly.chunk (py : PyCalls F) (a : Assembly F) (chunk : Json F) :
    Except StreamError (Assembly F) :=
  match py.iterate (chunk.get "choices") with
  | .error e => .error e
  | .ok values =>
    match eachOf (choice py) a.choices values with
    | .error e => .error e
    | .ok choices =>
      .ok {
        firstChunk := a.firstChunk.or (some chunk)
        usage := if (chunk.get "usage").isObj then some (chunk.get "usage") else a.usage
        choices }

/-- `consume_event`. -/
def Assembly.event (py : PyCalls F) (a : Assembly F) (event : PyStr) :
    Except StreamError (Assembly F) :=
  if event = [] ∨ event = text "[DONE]" then .ok a
  else
    match Json.loads py.floats event with
    | .error .decode => .ok a
    | .error .tooManyDigits => .error .valueError
    | .ok chunk => if chunk.isObj then a.chunk py chunk else .ok a

/-! ## Lines -/

/-- What is known after some lines: the assembly and `data_lines`. -/
structure ReaderState (F : Type) where
  assembly : Assembly F := {}
  dataLines : List PyStr := []

def consumeData (py : PyCalls F) (s : ReaderState F) : Except StreamError (Assembly F) :=
  s.assembly.event py (joinWith (text "\n") s.dataLines).strip

/-- One line of the body. -/
def readLine (py : PyCalls F) (s : ReaderState F) (rawLine : List Byte) :
    Except StreamError (ReaderState F) :=
  let line := (Utf8.decode rawLine).rstripCr
  if line = [] then
    match consumeData py s with
    | .ok assembly => .ok ⟨assembly, []⟩
    | .error e => .error e
  else if (text "data:").isPrefixOf line then
    .ok { s with dataLines := s.dataLines ++ [lstrip (line.drop 5)] }
  else .ok s

/-- `b"\n"`. -/
def lf : Byte := 10

def readRest (py : PyCalls F) (s : ReaderState F) (buffer : List Byte) :
    Except StreamError (Assembly F) :=
  match (if buffer = [] then .ok s else readLine py s buffer) with
  | .error e => .error e
  | .ok s => if s.dataLines = [] then .ok s.assembly else consumeData py s

/-! ## The result -/

/-- `_split_leading_think`. -/
def splitLeadingThink (content : PyStr) : Option PyStr × PyStr :=
  let stripped := content.lstrip
  if (text "<think>").isPrefixOf stripped then
    match splitAt? (text "</think>") (stripped.drop 7) with
    | some (reasoning, final) => (some (strip reasoning), strip final)
    | none => (some (strip (stripped.drop 7)), [])
  else (none, content)

def ChoiceAcc.texts (acc : ChoiceAcc F) (split : Bool) : PyStr × PyStr :=
  let content := acc.content.flatten
  let reasoning := acc.reasoningContent.flatten
  if split then
    match splitLeadingThink content with
    | (some extracted, content) =>
      (content, joinWith (text "\n\n") ([strip reasoning, extracted].filter (· ≠ [])))
    | (none, content) => (content, reasoning)
  else (content, reasoning)

/-- `[acc["tool_calls"][i] for i in sorted(acc["tool_calls"])]`. -/
def sortedCalls (calls : PyDict ℤ (PyDict PyStr (Json F))) : List (Json F) :=
  (calls.insertionSort fun a b => a.1 ≤ b.1).map fun c => .obj c.2

/-- `message`. -/
def ChoiceAcc.message (acc : ChoiceAcc F) (split : Bool) : Json F :=
  let (content, reasoning) := acc.texts split
  .obj ([(text "role", acc.role), (text "content", .str content)] ++
    (if reasoning = [] then [] else [(text "reasoning_content", .str reasoning)]) ++
    if acc.toolCalls = [] then [] else [(text "tool_calls", .arr (sortedCalls acc.toolCalls))])

def outputChoice (split : Bool) (c : ℤ × ChoiceAcc F) : Json F :=
  .obj [(text "index", .int c.1), (text "message", c.2.message split),
    (text "finish_reason", c.2.finishReason)]

/-- `output`. -/
def Assembly.result (a : Assembly F) (split : Bool) : Except StreamError (Json F) :=
  match a.firstChunk with
  | none => .error .transportStreamEmpty
  | some chunk =>
    .ok (.obj ([(text "id", chunk.get "id"), (text "object", .str (text "chat.completion")),
      (text "created", chunk.get "created"), (text "model", chunk.get "model"),
      (text "choices", .arr
        ((a.choices.insertionSort fun a b => a.1 ≤ b.1).map (outputChoice split)))] ++
      match a.usage with
      | some usage => [(text "usage", usage)]
      | none => []))

/-- `_read_streamed_chat_response(response, split_leading_think=split)`, of a body that arrives
in chunks. -/
def readStreamedChatResponse (py : PyCalls F) (split : Bool) (chunks : List (List Byte)) :
    Except StreamError (Json F) :=
  match LineBuffer.feedAll lf (readLine py) ({}, []) chunks with
  | .error e => .error e
  | .ok (s, buffer) =>
    match readRest py s buffer with
    | .error e => .error e
    | .ok a => a.result split

/-! ## Chunks -/

/-- A body of chunks is read like the body of their concatenation. -/
theorem readStreamedChatResponse_flatten (py : PyCalls F) (split : Bool)
    (chunks : List (List Byte)) :
    readStreamedChatResponse py split chunks =
      readStreamedChatResponse py split [chunks.flatten] := by
  have hempty : lf ∉ ([] : List Byte) := List.not_mem_nil
  unfold readStreamedChatResponse
  rw [LineBuffer.feedAll_eq hempty, LineBuffer.feedAll_eq hempty, List.flatten_singleton]

/-- **Chunks do not matter.**  Two ways of cutting one body give the same result, or the same
exception, whatever the cuts go through: a character, a line end or an event. -/
theorem readStreamedChatResponse_chunks (py : PyCalls F) (split : Bool)
    {chunks chunks' : List (List Byte)} (h : chunks.flatten = chunks'.flatten) :
    readStreamedChatResponse py split chunks = readStreamedChatResponse py split chunks' := by
  rw [readStreamedChatResponse_flatten, h, ← readStreamedChatResponse_flatten]

def halfCalls : PyCalls Unit where
  floats := ⟨fun _ => text "0.5", fun _ => (), (), (), ()⟩
  str _ := text "0.5"
  intOfStr _ := none
  intOfFloat _ := .ok 0
  isZero _ := false

/-- The bytes of a text. -/
def bytes (s : String) : List Byte := (text s).flatMap Utf8.encodePoint

/-- `result` is the exception `e`. -/
def raises (e : StreamError) : Except StreamError (Json F) → Bool
  | .ok _ => false
  | .error e' => e' = e

/-- **Not always a result or `TRANSPORT_STREAM_EMPTY`.**  A chunk whose `choices` is a number makes
the loop over them raise a `TypeError`, which nothing catches. -/
theorem readStreamedChatResponse_raises :
    ¬ ∀ chunks chunks' : List (List Byte), chunks.flatten = chunks'.flatten →
      (∃ result, readStreamedChatResponse halfCalls false chunks = .ok result ∧
        readStreamedChatResponse halfCalls false chunks' = .ok result) ∨
      readStreamedChatResponse halfCalls false chunks = .error .transportStreamEmpty ∧
        readStreamedChatResponse halfCalls false chunks' = .error .transportStreamEmpty := by
  intro h
  have hraises : raises .typeError (readStreamedChatResponse halfCalls false
      [bytes "data: \x7b\"choices\": 5\x7d\n\n"]) = true := by decide +kernel
  rcases h [bytes "data: \x7b\"choices\": 5\x7d\n\n"] _ rfl with ⟨result, hresult, -⟩ | ⟨hempty, -⟩
  · rw [hresult] at hraises
    cases hraises
  · rw [hempty] at hraises
    cases hraises

/-- A body that is cut inside an event. -/
theorem readStreamedChatResponse_cut :
    readStreamedChatResponse halfCalls false
        [bytes "data: \x7b\"id\"", [], bytes ":1\x7d\r", bytes "\n\n"] =
      readStreamedChatResponse halfCalls false [bytes "data: \x7b\"id\":1\x7d\r\n\n"] :=
  readStreamedChatResponse_chunks halfCalls false (by decide)

end GpuManager.Broker
