import GpuManager.Broker.StreamReader
import GpuManager.Lib.JsonCharacters

/-!
# The synthesized stream

`_CandidateCompatAdapter.stream_result` turns the buffered result of a job into server-sent
events: a frame for the role, one for the content, one for the finish reason, and `[DONE]`.  Fed
back into `_read_streamed_chat_response`, these give the first choice of the result with its
content and its finish reason; the other choices, the reasoning and the tool calls are not
written, and a surrogate makes a frame raise.

* `streamResult`: the frames, and whether the generator raised.
* `readFrames`: what the reader makes of frames.
* `Carries`: an object has what the buffered result shows a client.
* `Carried`: when the stream carries the result, which is exactly then
  (`streamCompleted_carries_iff`).
-/

namespace GpuManager.Broker

open PyStr Json LineBuffer List Except Option

variable {F : Type} {delta result v : Json F} {values : List (Json F)} {parts texts : List PyStr}

/-! ## The generator -/

def sseFrame (py : PyCalls F) (payload : Json F) : Option (List Byte) :=
  match dumps py.floats payload with
  | none => none
  | some t =>
    match Utf8.encode t with
    | none => none
    | some b => some (bytes "data: " ++ b ++ bytes "\n\n")

/-- `b"data: [DONE]\n\n"`. -/
def doneFrame : List Byte := bytes "data: [DONE]\n\n"

/-- What a generator yielded, and whether it raised after that. -/
structure Streamed where
  chunks : List (List Byte)
  raised : Bool

def yieldAll : List (Option (List Byte)) → Streamed
  | [] => ⟨[], false⟩
  | none :: _ => ⟨[], true⟩
  | some frame :: frames => ⟨frame :: (yieldAll frames).chunks, (yieldAll frames).raised⟩

def invalidResult : Json F := .obj [(text "error", .str (text "invalid durable result"))]

/-- `payload`; `none` when `json.loads` raises what is not caught. -/
def payloadOf (py : PyCalls F) (rawBody : Json F) : Option (Json F) :=
  match rawBody with
  | .obj pairs => some (.obj pairs)
  | .str s =>
    match loads py.floats s with
    | .ok v => if v.isObj then some v else some invalidResult
    | .error .decode => some (.obj [(text "error", .str s)])
    | .error .tooManyDigits => none
  | _ => some invalidResult

/-- `choices[0] if isinstance(choices, list) and choices else {}`. -/
def firstChoice (payload : Json F) : Json F :=
  match payload.get "choices" with
  | .arr (choice :: _) => choice
  | _ => .obj []

/-- `value.get(key, default) if isinstance(value, dict) else default`. -/
def getOr (value : Json F) (key : String) (default : Json F) : Json F :=
  (value.get? key).getD default

/-- `base`. -/
def baseOf (jobId : PyStr) (now : ℤ) (payload : Json F) : List (PyStr × Json F) :=
  [(text "id", getOr payload "id" (.str (text "chatcmpl-" ++ jobId))),
    (text "created", getOr payload "created" (.int now)),
    (text "model", getOr payload "model" (.str (text "gemma"))),
    (text "object", .str (text "chat.completion.chunk"))]

/-- A chunk with one choice. -/
def chunkOf (base : List (PyStr × Json F)) (delta finishReason : Json F) : Json F :=
  .obj (base ++ [(text "choices", .arr [.obj [(text "index", .int 0), (text "delta", delta),
    (text "finish_reason", finishReason)]])])

/-- `stream_result`, of a terminal result with this status and body. -/
def streamResult (py : PyCalls F) (jobId : PyStr) (now status : ℤ) (rawBody : Json F) : Streamed :=
  match payloadOf py rawBody with
  | none => ⟨[], true⟩
  | some payload =>
    if 400 ≤ (if status = 0 then 200 else status) ∨ (payload.get? "error").isSome then
      yieldAll [sseFrame py payload, some doneFrame]
    else
      let choice := firstChoice payload
      let content := getOr (getOr choice "message" (.obj [])) "content" (.str [])
      let base := baseOf jobId now payload
      yieldAll [
        sseFrame py (chunkOf base (.obj [(text "role", .str (text "assistant"))]) .null),
        sseFrame py (chunkOf base (.obj [(text "content", content)]) .null),
        -- the first choice may be no dictionary, and then it has no `get`
        if choice.isObj then
          sseFrame py (chunkOf base (.obj []) (getOr choice "finish_reason" (.str (text "stop"))))
        else none,
        some doneFrame]

/-- `stream_result` of a completed job: the status and the body of `_terminal_payload`. -/
def streamCompleted (py : PyCalls F) (jobId : PyStr) (now : ℤ) (result : Json F) : Streamed :=
  streamResult py jobId now 200 (py.orDict result)

/-! ## What the clients compare -/

/-- `output["choices"]`. -/
def choicesOf (output : Json F) : List (Json F) :=
  match output.get "choices" with
  | .arr choices => choices
  | _ => []

/-- Two choices show the same message and finish reason. -/
def SameChoice (choice choice' : Json F) : Prop :=
  (∀ key ∈ ["content", "reasoning_content", "tool_calls"],
    (choice'.get "message").get? key = (choice.get "message").get? key) ∧
    choice'.get "finish_reason" = choice.get "finish_reason"

/-- `object` has the id, creation time and model of `result`, and each of its choices. -/
def Carries (result object : Json F) : Prop :=
  (∀ key ∈ ["id", "created", "model"], object.get key = result.get key) ∧
    ∀ (k : ℕ) (choice : Json F), (choicesOf result)[k]? = some choice →
      ∃ choice', (choicesOf object)[k]? = some choice' ∧ SameChoice choice choice'

/-- The result has one choice, without reasoning and tool calls, and no surrogates. -/
def Carried (result : Json F) : Prop :=
  (∀ key ∈ ["id", "created", "model"], (result.get key).Encodable) ∧
    ∃ choice, choicesOf result = [choice] ∧
      (choice.get "message").get? "reasoning_content" = none ∧
      (choice.get "message").get? "tool_calls" = none ∧
      ((choice.get "message").get "content").Encodable ∧ (choice.get "finish_reason").Encodable

/-! ## Frames are read back -/

/-- The text of a frame: an object without control characters or surrogates. -/
structure FrameText (py : PyCalls F) (v : Json F) (t : PyStr) : Prop where
  loads : Json.loads py.floats t = .ok v
  object : v.isObj = true
  bracketed : ∃ inner, t = code '{' :: inner ++ [code '}']
  control : ∀ c ∈ t, 0x20 ≤ c.val
  plain : ∀ c ∈ t, isSurrogate c = false

/-- The frame of a text. -/
def frameBytes (t : PyStr) : List Byte :=
  bytes "data: " ++ t.flatMap Utf8.encodePoint ++ bytes "\n\n"

variable {pairs : List (PyStr × Json F)} {a a' : Assembly F} {tail : List (List Byte)}

theorem frameText_of_dumps {py : PyCalls F} (hfloats : py.floats.Faithful)
    (hregular : (Json.obj pairs).Regular) {t : PyStr}
    (ht : dumps py.floats (.obj pairs) = some t) (hplain : ∀ c ∈ t, isSurrogate c = false) :
    FrameText py (.obj pairs) t where
  loads := loads_dumps hfloats hregular ht
  object := rfl
  bracketed := by
    obtain ⟨inner, -, hinner⟩ := map_eq_some_iff.mp ht
    exact ⟨inner, hinner.symm⟩
  control := fun c hc => control_not_mem_dumps hfloats ht hc
  plain := hplain

/-- A value without surrogates has a frame. -/
theorem sseFrame_of_encodable {py : PyCalls F} (hfloats : py.floats.Faithful)
    (hregular : (Json.obj pairs).Regular) (hencodable : (Json.obj pairs).Encodable) :
    ∃ t, FrameText py (.obj pairs) t ∧ sseFrame py (.obj pairs) = some (frameBytes t) := by
  have hdumps : (dumps py.floats (.obj pairs)).isSome := dumps_isSome (.obj pairs) hregular
  obtain ⟨t, ht⟩ := isSome_iff_exists.mp hdumps
  have hplain := (encodable_iff hfloats ht).mpr hencodable
  refine ⟨t, frameText_of_dumps hfloats hregular ht hplain, ?_⟩
  unfold sseFrame
  rw [ht]
  simp only [Utf8.encode_eq_some.mpr ⟨hplain, rfl⟩]
  rfl

theorem sseFrame_eq_none {py : PyCalls F} (hfloats : py.floats.Faithful)
    (h : ¬ v.Encodable) : sseFrame py v = none := by
  unfold sseFrame
  cases ht : dumps py.floats v with
  | none => rfl
  | some t =>
    have hencode : Utf8.encode t = none := by
      by_contra hne
      obtain ⟨b, hb⟩ := ne_none_iff_exists'.mp hne
      exact h ((encodable_iff hfloats ht).mp (Utf8.encode_eq_some.mp hb).1)
    simp only [hencode]

/-- The line of a frame. -/
def frameLine (t : PyStr) : List Byte := bytes "data: " ++ t.flatMap Utf8.encodePoint

theorem lf_not_mem_frameLine {t : PyStr} (h : ∀ c ∈ t, 0x20 ≤ c.val) : lf ∉ frameLine t := by
  intro hmem
  rcases mem_append.mp hmem with hmem | hmem
  · exact absurd hmem (by decide)
  obtain ⟨c, hc, hlf⟩ := mem_flatMap.mp hmem
  have hcontrol := h c hc
  rw [Utf8.lf_mem_encodePoint hlf] at hcontrol
  exact absurd hcontrol (by decide)

/-- A frame is two lines: its data, and an empty one. -/
theorem splitAll_frame {t : PyStr} (h : ∀ c ∈ t, 0x20 ≤ c.val) (rest : List Byte) :
    splitAll lf (frameBytes t ++ rest) =
      (frameLine t :: [] :: (splitAll lf rest).1, (splitAll lf rest).2) := by
  have hframe : frameBytes t ++ rest = frameLine t ++ lf :: (lf :: rest) := by
    have hend : bytes "\n\n" = [lf, lf] := by decide
    unfold frameBytes frameLine
    rw [hend]
    simp
  rw [hframe, splitAll_line (lf_not_mem_frameLine h), splitAll_sep]

theorem decode_frameLine {t : PyStr} (h : ∀ c ∈ t, isSurrogate c = false) :
    Utf8.decode (frameLine t) = text "data: " ++ t := by
  have hflat : frameLine t = (text "data: " ++ t).flatMap Utf8.encodePoint :=
    flatMap_append.symm
  have hprefix : ((text "data: ").all fun c => !isSurrogate c) = true := by decide
  rw [hflat, Utf8.decode_flatMap]
  intro c hc
  rcases mem_append.mp hc with hc | hc
  · simpa using all_eq_true.mp hprefix c hc
  · exact h c hc

/-- The line of a bracketed text adds the text to `data_lines`. -/
theorem readLine_frame {py : PyCalls F} {t inner : PyStr} {first last : CodePoint}
    (ht : t = first :: inner ++ [last]) (hfirst : isSpace first = false)
    (hlast : last.val ≠ 0x0d) (hplain : ∀ c ∈ t, isSurrogate c = false) (s : ReaderState F) :
    readLine py s (frameLine t) = .ok { s with dataLines := s.dataLines ++ [t] } := by
  have hline : rstripCr (text "data: " ++ t) = text "data: " ++ t := by
    unfold rstripCr
    rw [ht, ← append_assoc]
    exact rdropWhile_concat_neg _ _ _ (by simpa using hlast)
  have hdrop : (text "data: " ++ t).drop 5 = code ' ' :: t := rfl
  have hstrip : lstrip (code ' ' :: t) = t := by
    have hspace : isSpace (code ' ') = true := by decide
    unfold lstrip
    rw [ht, cons_append, dropWhile_cons_of_pos hspace,
      dropWhile_cons_of_neg (by simp [hfirst])]
  unfold readLine
  rw [decode_frameLine hplain]
  simp only [hline, hdrop, hstrip]
  rw [if_neg (by exact cons_ne_nil _ _), if_pos (by rfl)]

/-- An empty line hands `data_lines` to the assembly. -/
theorem readLine_empty (py : PyCalls F) (s : ReaderState F) :
    readLine py s [] =
      match consumeData py s with
      | .ok assembly => .ok ⟨assembly, []⟩
      | .error e => .error e := rfl

theorem strip_bracketed {t inner : PyStr} {first last : CodePoint}
    (ht : t = first :: inner ++ [last]) (hfirst : isSpace first = false)
    (hlast : isSpace last = false) : strip t = t := by
  unfold strip trim
  rw [ht, cons_append, dropWhile_cons_of_neg (by simp [hfirst]), ← cons_append]
  exact rdropWhile_concat_neg _ _ _ (by simp [hlast])

/-- The event of a frame is the value of its text. -/
theorem event_frame {py : PyCalls F} {t : PyStr} (h : FrameText py v t)
    (a : Assembly F) : a.event py t = a.chunk py v := by
  obtain ⟨inner, hinner⟩ := h.bracketed
  have hne : ¬ (t = [] ∨ t = text "[DONE]") := by
    rw [hinner]
    rintro (h | h)
    · exact absurd h (cons_ne_nil _ _)
    · exact absurd (List.cons.inj h).1 (by decide)
  unfold Assembly.event
  rw [if_neg hne, h.loads]
  simp only [h.object, if_true]

theorem handle_frame {py : PyCalls F} {t : PyStr} (h : FrameText py v t)
    (a : Assembly F) (lines : List (List Byte)) :
    handleAll (readLine py) ⟨a, []⟩ (frameLine t :: [] :: lines) =
      match a.chunk py v with
      | .ok a' => handleAll (readLine py) ⟨a', []⟩ lines
      | .error e => .error e := by
  obtain ⟨inner, hinner⟩ := h.bracketed
  have hread := @readLine_frame F py _ _ _ _ hinner (by decide) (by decide) h.plain ⟨a, []⟩
  have hdata : consumeData py ⟨a, [t]⟩ = a.chunk py v := by
    unfold consumeData
    show a.event py (strip (joinWith (text "\n") [t])) = _
    rw [joinWith, intercalate_singleton, strip_bracketed hinner (by decide) (by decide),
      event_frame h]
  rw [handleAll, hread]
  simp only [nil_append]
  rw [handleAll, readLine_empty, hdata]
  cases a.chunk py v <;> rfl

theorem feed_frame {py : PyCalls F} {t : PyStr} (h : FrameText py v t)
    (a : Assembly F) (rest : List Byte) :
    feed lf (readLine py) (⟨a, []⟩, []) (frameBytes t ++ rest) =
      match a.chunk py v with
      | .ok a' => feed lf (readLine py) (⟨a', []⟩, []) rest
      | .error e => .error e := by
  unfold feed
  rw [nil_append, splitAll_frame h.control]
  simp only [handle_frame h]
  cases a.chunk py v <;> rfl

theorem feed_done (py : PyCalls F) (a : Assembly F) :
    feed lf (readLine py) (⟨a, []⟩, []) doneFrame = .ok (⟨a, []⟩, []) := by
  have hplain : ((text "[DONE]").all fun c => !isSurrogate c) = true := by decide
  have hdone : doneFrame = frameBytes (text "[DONE]") ++ [] := by decide
  have hcontrol : ∀ c ∈ text "[DONE]", 0x20 ≤ c.val := by
    intro c hc
    have hall : ((text "[DONE]").all fun c => decide (0x20 ≤ c.val)) = true := by decide
    exact of_decide_eq_true (all_eq_true.mp hall c hc)
  have hbracketed : text "[DONE]" = code '[' :: text "DONE" ++ [code ']'] := by decide
  have hread := @readLine_frame F py _ _ _ _ hbracketed (by decide) (by decide)
    (fun c hc => by simpa using all_eq_true.mp hplain c hc) ⟨a, []⟩
  have hdata : consumeData py ⟨a, [text "[DONE]"]⟩ = .ok a := by
    have hstrip : strip (joinWith (text "\n") [text "[DONE]"]) = text "[DONE]" := by decide
    unfold consumeData Assembly.event
    rw [hstrip]
    exact if_pos (Or.inr rfl)
  unfold feed
  rw [hdone, nil_append, splitAll_frame hcontrol]
  simp only [handleAll, hread, nil_append, readLine_empty, hdata]
  rfl

/-- What follows the frames of a stream: nothing, or `[DONE]`. -/
theorem readFrames {py : PyCalls F} (h : List.Forall₂ (FrameText py) values texts)
    (htail : tail = [] ∨ tail = [doneFrame]) (split : Bool) :
    readStreamedChatResponse py split (texts.map frameBytes ++ tail) =
      match eachOf (Assembly.chunk py) {} values with
      | .ok a => a.result split
      | .error e => .error e := by
  have hfeed : ∀ (values : List (Json F)) (texts : List PyStr),
      List.Forall₂ (FrameText py) values texts → ∀ a : Assembly F,
        feed lf (readLine py) (⟨a, []⟩, []) (texts.map frameBytes ++ tail).flatten =
          match eachOf (Assembly.chunk py) a values with
          | .ok a' => .ok (⟨a', []⟩, [])
          | .error e => .error e := by
    intro values texts h
    induction h with
    | nil =>
      intro a
      rcases htail with rfl | rfl
      · rfl
      · rw [map_nil, nil_append, flatten_singleton, feed_done]
        rfl
    | cons hframe _ ih =>
      intro a
      rw [map_cons, cons_append, flatten_cons, feed_frame hframe, eachOf]
      cases a.chunk py _ with
      | error e => rfl
      | ok a' => exact ih a'
  unfold readStreamedChatResponse
  rw [feedAll_eq not_mem_nil, hfeed values texts h]
  cases eachOf (Assembly.chunk py) {} values <;> rfl

/-! ## The frames of a result -/

def streamedChoice (parts : List PyStr) (finishReason : Json F) : ChoiceAcc F where
  content := parts
  finishReason := finishReason

section Frames

variable (py : PyCalls F) (base : List (PyStr × Json F)) (content : PyStr) (finishReason : Json F)

/-- The frame of the role. -/
def roleChunk : Json F := chunkOf base (.obj [(text "role", .str (text "assistant"))]) .null

/-- The frame of the content. -/
def contentChunk : Json F := chunkOf base (.obj [(text "content", .str content)]) .null

/-- The frame of the finish reason. -/
def finishChunk : Json F := chunkOf base (.obj []) finishReason

/-- The assembly of a stream: its first frame, and one choice. -/
def streamed (acc : ChoiceAcc F) : Assembly F where
  firstChunk := some (roleChunk base)
  choices := [(0, acc)]

variable {base} (jobId : PyStr) (now : ℤ) (payload : Json F)

theorem chunk_role (hbase : base = baseOf jobId now payload) :
    ({} : Assembly F).chunk py (roleChunk base) =
      .ok (streamed base (streamedChoice [] .null)) := by
  subst hbase
  rfl

theorem chunk_content (hbase : base = baseOf jobId now payload) :
    (streamed base (streamedChoice [] .null)).chunk py (contentChunk base content) =
      .ok (streamed base (streamedChoice [content] .null)) := by
  subst hbase
  rfl

theorem chunk_finish (hbase : base = baseOf jobId now payload) (parts : List PyStr) :
    (streamed base (streamedChoice parts .null)).chunk py (finishChunk base finishReason) =
      .ok (streamed base (streamedChoice parts finishReason)) := by
  subst hbase
  cases finishReason <;> rfl

end Frames

/-! ## The shape of a result -/

/-- The object that `_read_streamed_chat_response` returns. -/
def completion (chunk : Json F) (choices : List (Json F)) (usage : Option (Json F)) : Json F :=
  .obj ([(text "id", chunk.get "id"), (text "object", .str (text "chat.completion")),
    (text "created", chunk.get "created"), (text "model", chunk.get "model"),
    (text "choices", .arr choices)] ++
    match usage with
    | some usage => [(text "usage", usage)]
    | none => [])

/-- The accumulated choices in the order of their indices. -/
def Assembly.sorted (a : Assembly F) : List (ℤ × ChoiceAcc F) :=
  a.choices.insertionSort fun a b => a.1 ≤ b.1

theorem Assembly.result_eq_ok {split : Bool} :
    a.result split = .ok result ↔ ∃ chunk, a.firstChunk = some chunk ∧
      result = completion chunk (a.sorted.map (outputChoice split)) a.usage := by
  unfold Assembly.result
  cases a.firstChunk with
  | none => simp
  | some chunk =>
    constructor
    · intro h
      exact ⟨chunk, rfl, (ok.inj h).symm⟩
    · rintro ⟨_, h, rfl⟩
      obtain rfl := some.inj h
      rfl

section Shape

variable (chunk : Json F) (choices : List (Json F)) (usage : Option (Json F))

variable {key : String}

theorem completion_get (h : key ∈ ["id", "created", "model"]) :
    (completion chunk choices usage).get? key = some (chunk.get key) := by
  simp only [mem_cons, not_mem_nil, or_false] at h
  rcases h with rfl | rfl | rfl <;> rfl

@[simp]
theorem choicesOf_completion : choicesOf (completion chunk choices usage) = choices := rfl

theorem completion_error : (completion chunk choices usage).get? "error" = none := by
  cases usage <;> rfl

theorem payloadOf_completion (py : PyCalls F) :
    payloadOf py (py.orDict (completion chunk choices usage)) =
      some (completion chunk choices usage) := rfl

end Shape

section Message

variable (acc : ChoiceAcc F) (split : Bool)

theorem message_reasoning :
    (acc.message split).get? "reasoning_content" =
      if (acc.texts split).2 = [] then none else some (.str (acc.texts split).2) := by
  unfold ChoiceAcc.message
  by_cases h : (acc.texts split).2 = [] <;> by_cases hc : acc.toolCalls = [] <;>
    simp only [h, hc, if_true, if_false] <;> rfl

theorem message_toolCalls :
    (acc.message split).get? "tool_calls" =
      if acc.toolCalls = [] then none else some (.arr (sortedCalls acc.toolCalls)) := by
  unfold ChoiceAcc.message
  by_cases h : (acc.texts split).2 = [] <;> by_cases hc : acc.toolCalls = [] <;>
    simp only [h, hc, if_true, if_false] <;> rfl

end Message

/-- The choice of a stream shows a choice without reasoning and tool calls. -/
theorem sameChoice_output {c : ℤ × ChoiceAcc F} {split : Bool} {finishReason : Json F} :
    SameChoice (outputChoice split c)
        (outputChoice false (0, streamedChoice parts finishReason)) ↔
      parts.flatten = (c.2.texts split).1 ∧ (c.2.texts split).2 = [] ∧ c.2.toolCalls = [] ∧
        finishReason = c.2.finishReason := by
  have hmessage : ((outputChoice split c).get "message") = c.2.message split := rfl
  have hcontent : ((outputChoice false (0, streamedChoice parts finishReason)).get "message") =
      (streamedChoice parts finishReason).message false := rfl
  unfold SameChoice
  rw [hmessage, hcontent]
  simp only [forall_mem_cons, message_reasoning, message_toolCalls]
  have hnone : ∀ {p : Prop} [Decidable p] (v : Json F), (none = if p then none else some v) ↔ p := by
    intro p _ v
    by_cases hp : p <;> simp [hp]
  constructor
  · rintro ⟨⟨htexts, hreasoning, hcalls, -⟩, hfinish⟩
    refine ⟨?_, (hnone _).mp hreasoning, (hnone _).mp hcalls, hfinish⟩
    exact Json.str.inj (some.inj htexts)
  · rintro ⟨htexts, hreasoning, hcalls, hfinish⟩
    refine ⟨⟨?_, (hnone _).mpr hreasoning, (hnone _).mpr hcalls,
      fun key hkey => absurd hkey not_mem_nil⟩, hfinish⟩
    exact congrArg (fun t => some (Json.str t)) htexts

/-- What the object of a stream shows of a result. -/
theorem carries_completion {chunk chunk' : Json F} {c : ℤ × ChoiceAcc F}
    {cs : List (ℤ × ChoiceAcc F)} {usage : Option (Json F)} {split : Bool} {finishReason : Json F} :
    Carries (completion chunk ((c :: cs).map (outputChoice split)) usage)
        (completion chunk' [outputChoice false (0, streamedChoice parts finishReason)] none) ↔
      (∀ key ∈ ["id", "created", "model"], chunk'.get key = chunk.get key) ∧ cs = [] ∧
        parts.flatten = (c.2.texts split).1 ∧ (c.2.texts split).2 = [] ∧ c.2.toolCalls = [] ∧
        finishReason = c.2.finishReason := by
  have hkeys : ∀ {key : String}, key ∈ ["id", "created", "model"] →
      ∀ (chunk : Json F) (choices : List (Json F)) (usage : Option (Json F)),
        (completion chunk choices usage).get key = chunk.get key := by
    intro key hkey chunk choices usage
    unfold Json.get
    rw [completion_get chunk choices usage hkey]
    rfl
  unfold Carries
  rw [choicesOf_completion, choicesOf_completion]
  constructor
  · rintro ⟨hsame, hchoices⟩
    refine ⟨fun key hkey => ?_, ?_, ?_⟩
    · have := hsame key hkey
      rwa [hkeys hkey, hkeys hkey] at this
    · cases cs with
      | nil => rfl
      | cons d cs =>
        obtain ⟨choice', hchoice', -⟩ := hchoices 1 (outputChoice split d) rfl
        exact absurd hchoice' (by simp)
    · obtain ⟨choice', hchoice', hshown⟩ := hchoices 0 (outputChoice split c) rfl
      obtain rfl := some.inj hchoice'
      exact sameChoice_output.mp hshown
  · rintro ⟨hsame, rfl, hshown⟩
    refine ⟨fun key hkey => ?_, fun k choice hk => ?_⟩
    · rw [hkeys hkey, hkeys hkey, hsame key hkey]
    · cases k with
      | zero =>
        obtain rfl := some.inj hk
        exact ⟨_, rfl, sameChoice_output.mpr hshown⟩
      | succ k => exact absurd hk (by simp)

/-! ## Frames that can be written -/

theorem encodable_obj :
    (Json.obj pairs).Encodable ↔
      ∀ m ∈ pairs, (∀ c ∈ m.1, isSurrogate c = false) ∧ m.2.Encodable := by
  have hmembers : (∀ s ∈ stringsOfMembers pairs, ∀ c ∈ s, isSurrogate c = false) ↔
      ∀ m ∈ pairs, (∀ c ∈ m.1, isSurrogate c = false) ∧ m.2.Encodable := by
    induction pairs with
    | nil => exact ⟨fun _ m hm => absurd hm not_mem_nil, fun _ s hs => absurd hs not_mem_nil⟩
    | cons m pairs ih =>
      rw [stringsOfMembers, forall_mem_cons, ← ih, forall_mem_append,
        forall_mem_cons]
      rfl
  exact hmembers

theorem encodable_arr_singleton : (Json.arr [v]).Encodable ↔ v.Encodable := by
  show (∀ s ∈ strings v ++ [], ∀ c ∈ s, isSurrogate c = false) ↔ v.Encodable
  rw [append_nil]
  rfl

theorem encodable_str {s : PyStr} :
    (Json.str s : Json F).Encodable ↔ ∀ c ∈ s, isSurrogate c = false := by
  show (∀ t ∈ [s], ∀ c ∈ t, isSurrogate c = false) ↔ _
  simp

theorem encodable_text {s : String} (h : ((text s).all fun c => !isSurrogate c) = true) :
    ∀ c ∈ text s, isSurrogate c = false := fun c hc => by
  simpa using all_eq_true.mp h c hc

theorem encodable_null : (Json.null : Json F).Encodable := fun _ hs => absurd hs not_mem_nil

/-- A chunk can be encoded when its base, delta and finish reason can. -/
theorem encodable_chunkOf {jobId : PyStr} {now : ℤ} {payload finishReason : Json F} :
    (chunkOf (baseOf jobId now payload) delta finishReason).Encodable ↔
      ((getOr payload "id" (.str (text "chatcmpl-" ++ jobId))).Encodable ∧
        (getOr payload "created" (.int now)).Encodable ∧
        (getOr payload "model" (.str (text "gemma"))).Encodable) ∧
      delta.Encodable ∧ finishReason.Encodable := by
  have hzero : (Json.int 0 : Json F).Encodable := fun _ hs => absurd hs not_mem_nil
  have hwords : ∀ word ∈ ["id", "created", "model", "object", "chat.completion.chunk", "choices",
      "index", "delta", "finish_reason"], ∀ c ∈ text word, isSurrogate c = false := by
    simp only [forall_mem_cons]
    exact ⟨encodable_text (by decide), encodable_text (by decide), encodable_text (by decide),
      encodable_text (by decide), encodable_text (by decide), encodable_text (by decide),
      encodable_text (by decide), encodable_text (by decide), encodable_text (by decide),
      fun word hword => absurd hword not_mem_nil⟩
  simp only [forall_mem_cons] at hwords
  obtain ⟨hid, hcreated, hmodel, hobject, hkind, hchoices, hindex, hdelta, hfinish, -⟩ := hwords
  unfold chunkOf baseOf
  rw [encodable_obj]
  simp only [cons_append, nil_append, forall_mem_cons, encodable_arr_singleton,
    encodable_obj, encodable_str]
  constructor
  · rintro ⟨⟨-, h1⟩, ⟨-, h2⟩, ⟨-, h3⟩, -, ⟨-, -, ⟨-, h4⟩, ⟨-, h5⟩, -⟩, -⟩
    exact ⟨⟨h1, h2, h3⟩, h4, h5⟩
  · rintro ⟨⟨h1, h2, h3⟩, h4, h5⟩
    exact ⟨⟨hid, h1⟩, ⟨hcreated, h2⟩, ⟨hmodel, h3⟩, ⟨hobject, hkind⟩,
      ⟨hchoices, ⟨hindex, hzero⟩, ⟨hdelta, h4⟩, ⟨hfinish, h5⟩,
        fun m hm => absurd hm not_mem_nil⟩, fun m hm => absurd hm not_mem_nil⟩

/-! ## What the reader keeps is regular -/

theorem regular_get? {w : Json F} (hv : v.Regular) (h : v.get? key = some w) :
    w.Regular := by
  cases v with
  | obj pairs =>
    obtain ⟨m, hm, rfl⟩ := map_eq_some_iff.mp h
    exact regularMembers_iff.mp hv.2 m (mem_of_find?_eq_some hm)
  | null | bool b | int n | float x | str s | arr values => exact absurd h (by simp [Json.get?])

theorem regular_get (hv : v.Regular) (key : String) : (v.get key).Regular := by
  unfold Json.get
  cases h : v.get? key with
  | none => exact trivial
  | some w => exact regular_get? hv h

theorem regularItems_iff :
    RegularItems values ↔ ∀ v ∈ values, v.Regular := by
  induction values with
  | nil => simp [RegularItems]
  | cons v values ih => simp [RegularItems, ih]

theorem regular_iterate {py : PyCalls F} (hv : v.Regular)
    (h : py.iterate v = .ok values) : ∀ w ∈ values, w.Regular := by
  unfold PyCalls.iterate at h
  split at h
  · split at h
    · obtain rfl := ok.inj h
      exact regularItems_iff.mp hv
    · obtain rfl := ok.inj h
      intro w hw
      obtain ⟨m, -, rfl⟩ := mem_map.mp hw
      exact trivial
    · obtain rfl := ok.inj h
      intro w hw
      obtain ⟨c, -, rfl⟩ := mem_map.mp hw
      exact trivial
    · exact absurd h (by simp)
  · obtain rfl := ok.inj h
    exact fun w hw => absurd hw not_mem_nil

def Assembly.Regular (a : Assembly F) : Prop :=
  (∀ chunk ∈ a.firstChunk, chunk.Regular) ∧ ∀ c ∈ a.choices, c.2.finishReason.Regular

theorem mem_setChoice {choices : PyDict ℤ (ChoiceAcc F)} {index : ℤ} {acc : ChoiceAcc F}
    {c : ℤ × ChoiceAcc F} (h : c ∈ choices.set index acc) : c ∈ choices ∨ c = (index, acc) := by
  unfold PyDict.set at h
  split at h
  · obtain ⟨e, he, rfl⟩ := mem_map.mp h
    split
    · exact Or.inr rfl
    · exact Or.inl he
  · simpa using h

/-- A delta leaves the finish reason. -/
theorem ChoiceAcc.delta_finishReason {py : PyCalls F} {acc acc' : ChoiceAcc F}
    (h : acc.delta py delta = .ok acc') : acc'.finishReason = acc.finishReason := by
  unfold ChoiceAcc.delta at h
  split at h
  · split at h
    · exact absurd h (by simp)
    split at h
    · exact absurd h (by simp)
    · obtain rfl := ok.inj h
      rfl
  · obtain rfl := ok.inj h
    rfl

theorem regular_choice {py : PyCalls F} {choices choices' : PyDict ℤ (ChoiceAcc F)}
    (hv : v.Regular) (hchoices : ∀ c ∈ choices, c.2.finishReason.Regular)
    (h : choice py choices v = .ok choices') : ∀ c ∈ choices', c.2.finishReason.Regular := by
  unfold choice at h
  split at h
  · split at h
    · exact absurd h (by simp)
    next index hindex =>
      split at h
      · exact absurd h (by simp)
      next acc hacc =>
        obtain rfl := ok.inj h
        intro c hc
        rcases mem_setChoice hc with hc | rfl
        · exact hchoices c hc
        show (if _ then _ else _ : Json F).Regular
        split
        · rw [ChoiceAcc.delta_finishReason hacc]
          cases hget : choices.get? index with
          | none => exact trivial
          | some acc => exact hchoices _ (PyDict.mem_of_get? hget)
        · exact regular_get hv _
  · obtain rfl := ok.inj h
    exact hchoices

/-- What each step preserves, the loop preserves. -/
theorem eachOf_invariant {S A : Type} {step : S → A → Except StreamError S} {P : S → Prop}
    {values : List A} (hstep : ∀ s a s', a ∈ values → P s → step s a = .ok s' → P s') {s s' : S}
    (hs : P s) (h : eachOf step s values = .ok s') : P s' := by
  induction values generalizing s with
  | nil =>
    obtain rfl := ok.inj h
    exact hs
  | cons a values ih =>
    rw [eachOf] at h
    cases ha : step s a with
    | ok t =>
      rw [ha] at h
      exact ih (fun s b s' hb => hstep s b s' (mem_cons_of_mem _ hb))
        (hstep s a t mem_cons_self hs ha) h
    | error e =>
      rw [ha] at h
      exact absurd h (by simp)

theorem Assembly.Regular.chunk {py : PyCalls F} (ha : a.Regular)
    (hv : v.Regular) (h : a.chunk py v = .ok a') : a'.Regular := by
  unfold Assembly.chunk at h
  split at h
  · exact absurd h (by simp)
  next values hvalues =>
    split at h
    · exact absurd h (by simp)
    next choices hchoices =>
      obtain rfl := ok.inj h
      constructor
      · intro chunk hchunk
        cases hfirst : a.firstChunk with
        | none =>
          rw [hfirst] at hchunk
          obtain rfl : v = chunk := some.inj hchunk
          exact hv
        | some first =>
          rw [hfirst] at hchunk
          obtain rfl : first = chunk := some.inj hchunk
          exact ha.1 first hfirst
      · have hregular := regular_iterate (regular_get hv "choices") hvalues
        exact eachOf_invariant (P := fun choices => ∀ c ∈ choices, c.2.finishReason.Regular)
          (fun s w s' hw hs h => regular_choice (hregular w hw) hs h) ha.2 hchoices

theorem Assembly.Regular.event {py : PyCalls F} (ha : a.Regular)
    {event : PyStr} (h : a.event py event = .ok a') : a'.Regular := by
  unfold Assembly.event at h
  split at h
  · obtain rfl := ok.inj h
    exact ha
  split at h
  · obtain rfl := ok.inj h
    exact ha
  · exact absurd h (by simp)
  next chunk hchunk =>
    split at h
    · exact ha.chunk (regular_of_loads hchunk) h
    · obtain rfl := ok.inj h
      exact ha

theorem regular_readLine {py : PyCalls F} (s : ReaderState F) (line : List Byte)
    (s' : ReaderState F) (hs : s.assembly.Regular) (h : readLine py s line = .ok s') :
    s'.assembly.Regular := by
  unfold readLine at h
  simp only at h
  split at h
  · split at h
    · next a ha =>
        obtain rfl := ok.inj h
        exact Assembly.Regular.event hs ha
    · exact absurd h (by simp)
  · split at h
    · obtain rfl := ok.inj h
      exact hs
    · obtain rfl := ok.inj h
      exact hs

/-- A result comes from an assembly of values that can be written again. -/
theorem readStreamedChatResponse_eq_ok {py : PyCalls F} {split : Bool} {chunks : List (List Byte)}
    (h : readStreamedChatResponse py split chunks = .ok result) :
    ∃ a : Assembly F, a.Regular ∧ a.result split = .ok result := by
  unfold readStreamedChatResponse at h
  split at h
  · exact absurd h (by simp)
  next s buffer hfeed =>
    have hempty : (ReaderState.assembly (F := F) {}).Regular :=
      ⟨fun chunk hchunk => absurd hchunk (by simp), fun c hc => absurd hc not_mem_nil⟩
    have hs : s.assembly.Regular := feedAll_invariant
      (P := fun s : ReaderState F => s.assembly.Regular) regular_readLine hempty
      not_mem_nil hfeed
    split at h
    · exact absurd h (by simp)
    next a ha =>
      refine ⟨a, ?_, h⟩
      unfold readRest at ha
      split at ha
      · exact absurd ha (by simp)
      next t ht =>
        have hrest : t.assembly.Regular := by
          split at ht
          · obtain rfl := ok.inj ht
            exact hs
          · exact regular_readLine s buffer t hs ht
        split at ha
        · obtain rfl := ok.inj ha
          exact hrest
        · exact hrest.event ha

/-! ## The stream of a result -/

section Stream

variable {py : PyCalls F} {chunk : Json F} {c : ℤ × ChoiceAcc F} {cs : List (ℤ × ChoiceAcc F)}
  {usage : Option (Json F)} {split : Bool} (jobId : PyStr) (now : ℤ)

/-- The result with these choices. -/
abbrev resultOf (chunk : Json F) (choices : List (ℤ × ChoiceAcc F)) (usage : Option (Json F))
    (split : Bool) : Json F :=
  completion chunk (choices.map (outputChoice split)) usage

theorem getOr_completion (h : key ∈ ["id", "created", "model"])
    (choices : List (Json F)) (default : Json F) :
    getOr (completion chunk choices usage) key default = chunk.get key := by
  unfold getOr
  rw [completion_get chunk choices usage h]
  rfl

/-- The three frames and `[DONE]`. -/
theorem streamCompleted_resultOf (base : List (PyStr × Json F))
    (hbase : base = baseOf jobId now (resultOf chunk (c :: cs) usage split)) :
    streamCompleted py jobId now (resultOf chunk (c :: cs) usage split) =
      yieldAll [sseFrame py (roleChunk base), sseFrame py (contentChunk base (c.2.texts split).1),
        sseFrame py (finishChunk base c.2.finishReason), some doneFrame] := by
  subst hbase
  unfold streamCompleted streamResult
  rw [payloadOf_completion]
  simp only
  rw [if_neg]
  · rfl
  · rw [completion_error]
    rintro (h | h)
    · exact absurd h (by decide)
    · exact absurd h (by simp)

def BaseEncodable (chunk : Json F) : Prop :=
  (chunk.get "id").Encodable ∧ (chunk.get "created").Encodable ∧ (chunk.get "model").Encodable

variable {base : List (PyStr × Json F)}

/-- A frame of the stream: it is written as a frame, or it raises. -/
theorem frame_cases (hfloats : py.floats.Faithful) (hchunk : chunk.Regular)
    (hbase : base = baseOf jobId now (resultOf chunk (c :: cs) usage split))
    (delta finishReason : Json F) (hdelta : delta.Regular) (hfinish : finishReason.Regular) :
    (BaseEncodable chunk ∧ delta.Encodable ∧ finishReason.Encodable ∧
      ∃ t, FrameText py (chunkOf base delta finishReason) t ∧
        sseFrame py (chunkOf base delta finishReason) = some (frameBytes t)) ∨
      ¬ (BaseEncodable chunk ∧ delta.Encodable ∧ finishReason.Encodable) ∧
        sseFrame py (chunkOf base delta finishReason) = none := by
  have hencodable : (chunkOf base delta finishReason).Encodable ↔
      BaseEncodable chunk ∧ delta.Encodable ∧ finishReason.Encodable := by
    rw [hbase, encodable_chunkOf, getOr_completion (by simp), getOr_completion (by simp),
      getOr_completion (by simp)]
    rfl
  have hregular : (chunkOf base delta finishReason).Regular := by
    subst hbase
    have hget : ∀ (key : String) (default : Json F), key ∈ ["id", "created", "model"] →
        (getOr (resultOf chunk (c :: cs) usage split) key default).Regular := by
      intro key default hkey
      rw [getOr_completion hkey]
      exact regular_get hchunk key
    have hkeys : [text "id", text "created", text "model", text "object", text "choices"].Nodup := by
      decide
    have hinner : [text "index", text "delta", text "finish_reason"].Nodup := by decide
    have hzero : (0 : ℤ).natAbs < intLimit := by
      rw [Int.natAbs_zero, intLimit]
      exact Nat.pow_pos (by decide)
    exact ⟨hkeys, hget _ _ (by simp), hget _ _ (by simp), hget _ _ (by simp), trivial,
      ⟨⟨hinner, hzero, hdelta, hfinish, trivial⟩, trivial⟩, trivial⟩
  by_cases h : BaseEncodable chunk ∧ delta.Encodable ∧ finishReason.Encodable
  · obtain ⟨t, ht, hframe⟩ := sseFrame_of_encodable hfloats hregular (hencodable.mpr h)
    exact Or.inl ⟨h.1, h.2.1, h.2.2, t, ht, hframe⟩
  · exact Or.inr ⟨h, sseFrame_eq_none hfloats fun he => h (hencodable.mp he)⟩

/-- The first frame has the id, the creation time and the model of the result. -/
theorem roleChunk_get (hbase : base = baseOf jobId now (resultOf chunk (c :: cs) usage split)) :
    ∀ key ∈ ["id", "created", "model"], (roleChunk base).get key = chunk.get key := by
  subst hbase
  intro key hkey
  have hget : ∀ default, getOr (completion chunk ((c :: cs).map (outputChoice split)) usage) key
      default = chunk.get key :=
    getOr_completion hkey _
  simp only [mem_cons, not_mem_nil, or_false] at hkey
  rcases hkey with rfl | rfl | rfl <;> exact hget _

theorem carried_resultOf :
    Carried (resultOf chunk (c :: cs) usage split) ↔
      BaseEncodable chunk ∧ cs = [] ∧ (c.2.texts split).2 = [] ∧ c.2.toolCalls = [] ∧
        (Json.str (c.2.texts split).1 : Json F).Encodable ∧ c.2.finishReason.Encodable := by
  have hkeys : (∀ key ∈ ["id", "created", "model"],
      ((resultOf chunk (c :: cs) usage split).get key).Encodable) ↔ BaseEncodable chunk := by
    have hget : ∀ key ∈ ["id", "created", "model"],
        (resultOf chunk (c :: cs) usage split).get key = chunk.get key := fun key hkey =>
      getOr_completion hkey _ .null
    simp only [forall_mem_cons] at hget ⊢
    rw [hget.1, hget.2.1, hget.2.2.1]
    exact ⟨fun h => ⟨h.1, h.2.1, h.2.2.1⟩, fun h => ⟨h.1, h.2.1, h.2.2,
      fun key hkey => absurd hkey not_mem_nil⟩⟩
  have hnone : ∀ {p : Prop} [Decidable p] (v : Json F), (if p then none else some v) = none ↔ p := by
    intro p _ v
    by_cases hp : p <;> simp [hp]
  unfold Carried
  rw [hkeys, choicesOf_completion]
  refine and_congr_right fun _ => ?_
  constructor
  · rintro ⟨choice, hchoice, hreasoning, hcalls, hcontent, hfinish⟩
    obtain ⟨rfl, hcs⟩ := List.cons.inj hchoice
    exact ⟨map_eq_nil_iff.mp hcs, (hnone _).mp ((message_reasoning _ _).symm.trans hreasoning),
      (hnone _).mp ((message_toolCalls _ _).symm.trans hcalls), hcontent, hfinish⟩
  · rintro ⟨rfl, hreasoning, hcalls, hcontent, hfinish⟩
    exact ⟨outputChoice split c, rfl, (message_reasoning _ _).trans ((hnone _).mpr hreasoning),
      (message_toolCalls _ _).trans ((hnone _).mpr hcalls), hcontent, hfinish⟩

/-- The object that the reader returns for a stream. -/
theorem read_stream (h : List.Forall₂ (FrameText py) values texts)
    (htail : tail = [] ∨ tail = [doneFrame]) {acc : ChoiceAcc F}
    (heach : eachOf (Assembly.chunk py) {} values = .ok (streamed base acc)) :
    readStreamedChatResponse py false (texts.map frameBytes ++ tail) =
      .ok (completion (roleChunk base) [outputChoice false (0, acc)] none) := by
  rw [readFrames h htail, heach]
  rfl

/-- **The synthesized stream carries the buffered answer** when the result has one choice, without
reasoning, tool calls and surrogates; of any other result something is lost. -/
theorem streamResultOf_carries_iff (hfloats : py.floats.Faithful) (hchunk : chunk.Regular)
    (hfinish : c.2.finishReason.Regular) :
    (∃ object, readStreamedChatResponse py false
        (streamCompleted py jobId now (resultOf chunk (c :: cs) usage split)).chunks =
          .ok object ∧ Carries (resultOf chunk (c :: cs) usage split) object) ↔
      Carried (resultOf chunk (c :: cs) usage split) := by
  obtain ⟨base, hbase⟩ :
      ∃ base, base = baseOf jobId now (resultOf chunk (c :: cs) usage split) := ⟨_, rfl⟩
  have hrole : (Json.obj [(text "role", .str (text "assistant"))] : Json F).Encodable :=
    encodable_obj.mpr (by
      simp only [forall_mem_cons, encodable_str]
      exact ⟨⟨encodable_text (by decide), encodable_text (by decide)⟩,
        fun m hm => absurd hm not_mem_nil⟩)
  have hcontent : (Json.obj [(text "content", .str (c.2.texts split).1)] : Json F).Encodable ↔
      (Json.str (c.2.texts split).1 : Json F).Encodable := by
    rw [encodable_obj, forall_mem_cons]
    exact ⟨fun h => h.1.2, fun h => ⟨⟨encodable_text (by decide), h⟩,
      fun m hm => absurd hm not_mem_nil⟩⟩
  have hsingle : ∀ key : PyStr, [key].Nodup := fun key => nodup_singleton key
  -- what the reader returns for the frames that were yielded decides the question
  have hcarries : ∀ {read : Except StreamError (Json F)} {parts : List PyStr} {finishReason},
      read = .ok (completion (roleChunk base)
        [outputChoice false (0, streamedChoice parts finishReason)] none) →
      ((∃ object, read = .ok object ∧ Carries (resultOf chunk (c :: cs) usage split) object) ↔
        cs = [] ∧ parts.flatten = (c.2.texts split).1 ∧ (c.2.texts split).2 = [] ∧
          c.2.toolCalls = [] ∧ finishReason = c.2.finishReason) := by
    rintro read parts finishReason rfl
    constructor
    · rintro ⟨object, hobject, h⟩
      obtain rfl := ok.inj hobject
      exact (carries_completion.mp h).2
    · intro h
      exact ⟨_, rfl, carries_completion.mpr ⟨roleChunk_get jobId now hbase, h⟩⟩
  rw [streamCompleted_resultOf jobId now base hbase, carried_resultOf]
  have heach₁ : eachOf (Assembly.chunk py) {} [roleChunk base] =
      .ok (streamed base (streamedChoice [] .null)) := by
    simp only [eachOf, chunk_role py jobId now _ hbase]
  have heach₂ : eachOf (Assembly.chunk py) {}
      [roleChunk base, contentChunk base (c.2.texts split).1] =
        .ok (streamed base (streamedChoice [(c.2.texts split).1] .null)) := by
    simp only [eachOf, chunk_role py jobId now _ hbase, chunk_content py _ jobId now _ hbase]
  have heach₃ : eachOf (Assembly.chunk py) {}
      [roleChunk base, contentChunk base (c.2.texts split).1,
        finishChunk base c.2.finishReason] =
        .ok (streamed base (streamedChoice [(c.2.texts split).1] c.2.finishReason)) := by
    simp only [eachOf, chunk_role py jobId now _ hbase, chunk_content py _ jobId now _ hbase,
      chunk_finish py _ jobId now _ hbase]
  rcases frame_cases jobId now hfloats hchunk hbase
    (.obj [(text "role", .str (text "assistant"))]) .null ⟨hsingle _, trivial, trivial⟩ trivial
    with ⟨hE, -, -, t₁, ht₁, hf₁⟩ | ⟨hE, hf₁⟩
  · replace hf₁ : sseFrame py (roleChunk base) = some (frameBytes t₁) := hf₁
    rcases frame_cases jobId now hfloats hchunk hbase
      (.obj [(text "content", .str (c.2.texts split).1)]) .null ⟨hsingle _, trivial, trivial⟩ trivial
      with ⟨-, hC, -, t₂, ht₂, hf₂⟩ | ⟨hC, hf₂⟩
    · replace hf₂ : sseFrame py (contentChunk base (c.2.texts split).1) = some (frameBytes t₂) := hf₂
      rcases frame_cases jobId now hfloats hchunk hbase (.obj []) c.2.finishReason
        ⟨nodup_nil, trivial⟩ hfinish with ⟨-, -, hF, t₃, ht₃, hf₃⟩ | ⟨hF, hf₃⟩
      · replace hf₃ : sseFrame py (finishChunk base c.2.finishReason) = some (frameBytes t₃) := hf₃
        have hread := read_stream (.cons ht₁ (.cons ht₂ (.cons ht₃ .nil))) (Or.inr rfl) heach₃
        rw [hf₁, hf₂, hf₃]
        refine (hcarries hread).trans ?_
        rw [flatten_singleton]
        exact ⟨fun h => ⟨hE, h.1, h.2.2.1, h.2.2.2.1, hcontent.mp hC, hF⟩,
          fun h => ⟨h.2.1, rfl, h.2.2.1, h.2.2.2.1, rfl⟩⟩
      · -- the last frame raises: the reader sees no finish reason
        replace hf₃ : sseFrame py (finishChunk base c.2.finishReason) = none := hf₃
        have hread := read_stream (.cons ht₁ (.cons ht₂ .nil)) (Or.inl rfl) heach₂
        have hnot : ¬ c.2.finishReason.Encodable := fun h => hF ⟨hE, encodable_obj.mpr
          fun m hm => absurd hm not_mem_nil, h⟩
        rw [hf₁, hf₂, hf₃]
        refine (hcarries hread).trans ⟨fun h => absurd ?_ hnot, fun h => absurd h.2.2.2.2.2 hnot⟩
        rw [← h.2.2.2.2]
        exact encodable_null
    · -- the frame of the content raises: the reader sees no content
      replace hf₂ : sseFrame py (contentChunk base (c.2.texts split).1) = none := hf₂
      have hread := read_stream (.cons ht₁ .nil) (Or.inl rfl) heach₁
      have hnot : ¬ (Json.str (c.2.texts split).1 : Json F).Encodable := fun h =>
        hC ⟨hE, hcontent.mpr h, encodable_null⟩
      rw [hf₁, hf₂]
      refine (hcarries hread).trans ⟨fun h => absurd ?_ hnot, fun h => absurd h.2.2.2.2.1 hnot⟩
      rw [← h.2.1]
      exact encodable_str.mpr fun d hd => absurd hd not_mem_nil
  · -- the first frame raises: nothing is yielded
    replace hf₁ : sseFrame py (roleChunk base) = none := hf₁
    rw [hf₁]
    constructor
    · rintro ⟨object, hobject, -⟩
      exact absurd hobject (by simp [yieldAll, readStreamedChatResponse, feedAll,
        readRest, Assembly.result])
    · exact fun h => absurd ⟨h.1, hrole, encodable_null⟩ hE

end Stream

/-- **The synthesized stream carries the buffered answer** exactly when the result has one choice,
without reasoning, tool calls and surrogates.  Of any other result something is lost. -/
theorem streamCompleted_carries_iff {py : PyCalls F} (hfloats : py.floats.Faithful) {split : Bool}
    {chunks : List (List Byte)} {result : Json F}
    (hresult : readStreamedChatResponse py split chunks = .ok result)
    (hchoices : choicesOf result ≠ []) (jobId : PyStr) (now : ℤ) :
    (∃ object, readStreamedChatResponse py false (streamCompleted py jobId now result).chunks =
        .ok object ∧ Carries result object) ↔ Carried result := by
  obtain ⟨a, hregular, ha⟩ := readStreamedChatResponse_eq_ok hresult
  obtain ⟨chunk, hfirst, rfl⟩ := Assembly.result_eq_ok.mp ha
  rw [choicesOf_completion] at hchoices
  cases hsorted : a.sorted with
  | nil =>
    rw [hsorted] at hchoices
    exact absurd rfl hchoices
  | cons c cs =>
    have hmem : c ∈ a.choices :=
      (perm_insertionSort _ a.choices).mem_iff.mp (hsorted ▸ mem_cons_self)
    exact streamResultOf_carries_iff jobId now hfloats (hregular.1 chunk hfirst)
      (hregular.2 c hmem)

/-! ## Two results -/

theorem halfCalls_faithful : halfCalls.floats.Faithful := fun _ =>
  Or.inr (Or.inr (Or.inr ⟨⟨false, [code '0'], text ".5", [], Or.inl rfl,
    Or.inr ⟨code '5', [], rfl, by simp; decide⟩, Or.inl rfl, Or.inl (by decide), rfl⟩, rfl⟩))

theorem read_frame {pairs : List (PyStr × Json Unit)} {t : PyStr}
    (ht : dumps halfCalls.floats (.obj pairs) = some t) (hregular : (Json.obj pairs).Regular)
    (hplain : (t.all fun c => !isSurrogate c) = true) {a : Assembly Unit}
    (hchunk : ({} : Assembly Unit).chunk halfCalls (.obj pairs) = .ok a) :
    readStreamedChatResponse halfCalls false [frameBytes t] = a.result false := by
  have hframe := frameText_of_dumps halfCalls_faithful hregular ht
    fun c hc => by simpa using all_eq_true.mp hplain c hc
  have hread := readFrames (.cons hframe .nil) (Or.inl rfl) false
  rw [eachOf, hchunk] at hread
  exact hread

/-- A chunk with an answer. -/
def answerChunk : List (PyStr × Json Unit) :=
  [(text "id", .str (text "c1")), (text "choices", .arr [.obj [
    (text "delta", .obj [(text "content", .str (text "hi"))]),
    (text "finish_reason", .str (text "stop"))]])]

/-- The text of `answerChunk`. -/
def answerText : PyStr :=
  text "\x7b\"id\":\"c1\",\"choices\":[\x7b\"delta\":\x7b\"content\":\"hi\"\x7d," ++
    text "\"finish_reason\":\"stop\"\x7d]\x7d"

theorem regular_answerChunk : (Json.obj answerChunk).Regular := by
  have hkeys : [text "id", text "choices"].Nodup := by decide
  have hinner : [text "delta", text "finish_reason"].Nodup := by decide
  exact ⟨hkeys, trivial, ⟨⟨hinner, ⟨nodup_singleton _, trivial, trivial⟩, trivial, trivial⟩,
    trivial⟩, trivial⟩

/-- An answer without reasoning is carried. -/
theorem streamCompleted_carries_answer :
    ∃ result, readStreamedChatResponse halfCalls false [frameBytes answerText] = .ok result ∧
      ((∃ object, readStreamedChatResponse halfCalls false
          (streamCompleted halfCalls (text "j") 0 result).chunks = .ok object ∧
            Carries result object) ↔ Carried result) := by
  have hread : readStreamedChatResponse halfCalls false [frameBytes answerText] =
      .ok (completion (.obj answerChunk)
        [outputChoice false (0, streamedChoice [text "hi"] (.str (text "stop")))] none) :=
    read_frame (by decide) regular_answerChunk (by decide) rfl
  exact ⟨_, hread, streamCompleted_carries_iff halfCalls_faithful hread (cons_ne_nil _ _)
    (text "j") 0⟩

/-- A chunk with reasoning. -/
def reasoningChunk : List (PyStr × Json Unit) :=
  [(text "choices", .arr [.obj [(text "delta", .obj [
    (text "content", .str (text "hi")), (text "reasoning_content", .str (text "so"))])]])]

/-- The text of `reasoningChunk`. -/
def reasoningText : PyStr :=
  text "\x7b\"choices\":[\x7b\"delta\":\x7b\"content\":\"hi\"," ++
    text "\"reasoning_content\":\"so\"\x7d\x7d]\x7d"

theorem regular_reasoningChunk : (Json.obj reasoningChunk).Regular := by
  have hkeys : [text "content", text "reasoning_content"].Nodup := by decide
  exact ⟨nodup_singleton _, ⟨⟨nodup_singleton _, ⟨hkeys, trivial, trivial, trivial⟩,
    trivial⟩, trivial⟩, trivial⟩

/-- The stream of a result with reasoning does not carry the reasoning. -/
theorem streamCompleted_loses_reasoning :
    ∃ result, readStreamedChatResponse halfCalls false [frameBytes reasoningText] = .ok result ∧
      choicesOf result ≠ [] ∧
      ¬ ∃ object, readStreamedChatResponse halfCalls false
          (streamCompleted halfCalls (text "j") 0 result).chunks = .ok object ∧
            Carries result object := by
  have hread : readStreamedChatResponse halfCalls false [frameBytes reasoningText] =
      .ok (resultOf (.obj reasoningChunk)
        [(0, { content := [text "hi"], reasoningContent := [text "so"] })] none false) :=
    read_frame (by decide) regular_reasoningChunk (by decide) rfl
  refine ⟨_, hread, cons_ne_nil _ _, fun h => ?_⟩
  have hcarried := (streamResultOf_carries_iff (text "j") 0 halfCalls_faithful
    regular_reasoningChunk (by exact trivial)).mp h
  exact absurd (carried_resultOf.mp hcarried).2.2.1 (by decide)

end GpuManager.Broker
