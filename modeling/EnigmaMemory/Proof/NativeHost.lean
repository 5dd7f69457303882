import EnigmaMemory.Lib.Framing
import EnigmaMemory.Proof.Reference
import EnigmaMemory.Spec.NativeHost

/-!
# What the native host writes, whatever the chunks

* `stdout_eq`: the frames on `stdout` answer the events of a receiver of frames.
* `replies_independent_iff`: they do not depend on how the input is cut into chunks exactly if no frame of the
  input is bad, or the first one is and no later part of the input can be read.
-/

namespace EnigmaMemory.NativeHost

open Framing

variable {P : Platform} {W : Type} (H : Host P W) {maxBytes : ℕ}

/-! ## Frames -/

theorem readUInt32LE_append {buffer : Bytes} (h : 4 ≤ buffer.length) (more : Bytes) :
    readUInt32LE (buffer ++ more) = readUInt32LE buffer := by
  rw [readUInt32LE, List.take_append_of_le_length h, readUInt32LE]

/-- The payload of a frame whose length has been read. -/
def payload (buffer : Bytes) : Bytes := (buffer.drop 4).take (readUInt32LE buffer)

theorem payload_append {buffer : Bytes} (h : 4 + readUInt32LE buffer ≤ buffer.length) (more : Bytes) :
    payload (buffer ++ more) = payload buffer := by
  rw [payload, readUInt32LE_append (by omega), List.drop_append_of_le_length (by omega),
    List.take_append_of_le_length (by rw [List.length_drop]; omega), payload]

variable (P) in
/-- What stands at the front of the input: nothing complete, a length above the limit or a text that is no JSON, or a
message. -/
def nextFrame (maxBytes : ℕ) (buffer : Bytes) : Front (Fin 256) Json :=
  if buffer.length < 4 then .wait
  else if maxBytes < readUInt32LE buffer then .bad
  else if buffer.length < 4 + readUInt32LE buffer then .wait
  else
    match P.parseJson (P.ofUtf8 (payload buffer)) with
    | .ok message => .frame message (buffer.drop (4 + readUInt32LE buffer))
    | .error _ => .bad

theorem nextFrame_eq_frame {buffer rest : Bytes} {message : Json} : nextFrame P maxBytes buffer = .frame message rest ↔
    4 + readUInt32LE buffer ≤ buffer.length ∧ readUInt32LE buffer ≤ maxBytes ∧
      P.parseJson (P.ofUtf8 (payload buffer)) = .ok message ∧ rest = buffer.drop (4 + readUInt32LE buffer) := by
  unfold nextFrame
  split
  · exact iff_of_false (fun h => nomatch h) fun h => by omega
  · split
    · exact iff_of_false (fun h => nomatch h) fun h => by omega
    · split
      · exact iff_of_false (fun h => nomatch h) fun h => by omega
      · have hlength : 4 + readUInt32LE buffer ≤ buffer.length := by omega
        have hsize : readUInt32LE buffer ≤ maxBytes := by omega
        cases P.parseJson (P.ofUtf8 (payload buffer)) <;> simp [hlength, hsize, eq_comm]

theorem nextFrame_eq_bad {buffer : Bytes} : nextFrame P maxBytes buffer = .bad ↔
    4 ≤ buffer.length ∧ (maxBytes < readUInt32LE buffer ∨
      (4 + readUInt32LE buffer ≤ buffer.length ∧ ∃ e, P.parseJson (P.ofUtf8 (payload buffer)) = .error e)) := by
  unfold nextFrame
  split
  · exact iff_of_false (fun h => nomatch h) fun h => by omega
  · rename_i hprefix
    split
    · rename_i hlarge
      exact iff_of_true rfl ⟨by omega, .inl hlarge⟩
    · rename_i hsize
      split
      · exact iff_of_false (fun h => nomatch h) fun h => by omega
      · have hlength : 4 + readUInt32LE buffer ≤ buffer.length := by omega
        have hprefix : 4 ≤ buffer.length := by omega
        cases P.parseJson (P.ofUtf8 (payload buffer)) <;> simp [hlength, hsize, hprefix]

variable (P maxBytes) in
/-- The reader of frames. -/
def reader : Reader (Fin 256) Json where
  read := nextFrame P maxBytes
  read_nil := rfl
  frame_front {xs b rest} h := by
    obtain ⟨hlength, hsize, hparse, rfl⟩ := nextFrame_eq_frame.1 h
    refine ⟨xs.take (4 + readUInt32LE xs), (List.take_append_drop _ _).symm, ?_⟩
    have htaken : (xs.take (4 + readUInt32LE xs)).length = 4 + readUInt32LE xs := by
      rw [List.length_take]
      omega
    have hread : readUInt32LE (xs.take (4 + readUInt32LE xs)) = readUInt32LE xs := by
      rw [readUInt32LE, List.take_take, Nat.min_eq_left (by omega), readUInt32LE]
    have hpayload : payload (xs.take (4 + readUInt32LE xs)) = payload xs := by
      rw [payload, hread, List.drop_take, List.take_take, Nat.add_sub_cancel_left, Nat.min_self, payload]
    rw [nextFrame_eq_frame, hread, hpayload, htaken]
    exact ⟨le_refl _, hsize, hparse, (List.drop_eq_nil_of_le htaken.le).symm⟩
  frame_append {xs b} h ys := by
    obtain ⟨hlength, hsize, hparse, hrest⟩ := nextFrame_eq_frame.1 h
    have hread := readUInt32LE_append (show 4 ≤ xs.length by omega) ys
    rw [nextFrame_eq_frame, hread, payload_append hlength, List.length_append]
    refine ⟨by omega, hsize, hparse, ?_⟩
    rw [List.drop_append_of_le_length hlength, ← hrest, List.nil_append]
  bad_append {xs} h ys := by
    obtain ⟨hbefore, hbad⟩ := nextFrame_eq_bad.1 h
    rw [nextFrame_eq_bad, readUInt32LE_append hbefore, List.length_append]
    refine ⟨by omega, hbad.imp id ?_⟩
    rintro ⟨hlength, hparse⟩
    exact ⟨by omega, by rwa [payload_append hlength]⟩

theorem decode_of_wait {buffer : Bytes} (h : nextFrame P maxBytes buffer = .wait) :
    decodeNativeMessageFrames P maxBytes buffer = .ok ([], buffer) := by
  rw [decodeNativeMessageFrames]
  unfold nextFrame at h
  split at h
  · rename_i hshort
    rw [if_pos hshort]
  · rename_i hshort
    rw [if_neg hshort]
    split at h
    · cases h
    · rename_i hsize
      rw [if_neg hsize]
      split at h
      · rename_i hpart
        rw [if_pos hpart]
      · split at h <;> cases h

theorem decode_of_bad {buffer : Bytes} (h : nextFrame P maxBytes buffer = .bad) :
    ∃ e, decodeNativeMessageFrames P maxBytes buffer = .error e := by
  obtain ⟨hbefore, hbad⟩ := nextFrame_eq_bad.1 h
  rw [decodeNativeMessageFrames, if_neg (by omega)]
  by_cases hsize : maxBytes < readUInt32LE buffer
  · rw [if_pos hsize]
    exact ⟨_, rfl⟩
  · obtain ⟨hlength, e, he⟩ := hbad.resolve_left hsize
    rw [if_neg hsize, if_neg (by omega)]
    exact ⟨e, by rw [show (buffer.drop 4).take (readUInt32LE buffer) = payload buffer from rfl, he]; rfl⟩

theorem decode_of_frame {buffer rest : Bytes} {message : Json} (h : nextFrame P maxBytes buffer = .frame message rest) :
    decodeNativeMessageFrames P maxBytes buffer = (do
      let decoded ← decodeNativeMessageFrames P maxBytes rest
      return (message :: decoded.1, decoded.2)) := by
  obtain ⟨hlength, hsize, hparse, rfl⟩ := nextFrame_eq_frame.1 h
  rw [decodeNativeMessageFrames, if_neg (by omega), if_neg (by omega), if_neg (by omega),
    show (buffer.drop 4).take (readUInt32LE buffer) = payload buffer from rfl, hparse]
  rfl

/-- The loop of the decoder takes the frames off one by one, and loses them if it meets a bad one. -/
theorem decode_eq (buffer : Bytes) :
    (∀ messages rest, scan (reader P maxBytes) buffer = (messages, some rest) →
      decodeNativeMessageFrames P maxBytes buffer = .ok (messages, rest)) ∧
    (∀ messages, scan (reader P maxBytes) buffer = (messages, none) →
      ∃ e, decodeNativeMessageFrames P maxBytes buffer = .error e) := by
  induction hn : buffer.length using Nat.strong_induction_on generalizing buffer with
  | _ n ih =>
    cases hread : (reader P maxBytes).read buffer with
    | wait =>
      rw [scan_wait hread]
      refine ⟨fun messages rest h => ?_, fun messages h => nomatch h⟩
      cases h
      exact decode_of_wait hread
    | bad =>
      rw [scan_bad hread]
      exact ⟨fun messages rest h => (nomatch h), fun messages _ => decode_of_bad hread⟩
    | frame message rest =>
      obtain ⟨hok, herror⟩ := ih _ (hn ▸ Reader.shorter hread) rest rfl
      rw [scan_frame hread, decode_of_frame hread]
      constructor
      · intro messages rest' h
        obtain ⟨rfl, hrest⟩ := Prod.mk.inj h
        rw [hok _ _ (Prod.ext rfl hrest)]
        rfl
      · intro messages h
        obtain ⟨rfl, hrest⟩ := Prod.mk.inj h
        obtain ⟨e, he⟩ := herror _ (Prod.ext rfl hrest)
        rw [he]
        exact ⟨e, rfl⟩

/-! ## Replies that fit into a frame -/

theorem length_utf8Char_le (n : ℕ) : (utf8Char n).length ≤ 4 := by
  unfold utf8Char
  split
  · simp
  · split
    · simp
    · split <;> simp

/-- Four bytes for each unit are enough. -/
theorem length_utf8From_le (s : JsString) : ∀ high, (utf8From high s).length ≤ 4 * s.length := by
  induction s with
  | nil =>
    intro high
    cases high <;> simp [utf8From]
  | cons c rest ih =>
    have hchar : ∀ n, (utf8Char n ++ utf8From none rest).length ≤ 4 * (c :: rest).length := by
      intro n
      have h1 := length_utf8Char_le n
      have h2 := ih none
      rw [List.length_append, List.length_cons]
      omega
    intro high
    cases high with
    | some h => exact hchar _
    | none =>
      rw [utf8From]
      split
      · have h := ih (some c)
        rw [List.length_cons]
        omega
      · split
        · exact hchar _
        · exact hchar _

theorem length_quoteFrom_le (s : JsString) : ∀ paired, (quoteFrom paired s).length ≤ 6 * s.length := by
  induction s with
  | nil =>
    intro paired
    cases paired <;> simp [quoteFrom]
  | cons c rest ih =>
    intro paired
    have hfalse := ih false
    have htrue := ih true
    cases paired with
    | true =>
      rw [quoteFrom, List.length_cons, List.length_cons]
      omega
    | false =>
      rw [quoteFrom]
      split
      · rw [List.length_cons, List.length_cons]
        omega
      · split
        · rw [List.length_cons, List.length_cons]
          omega
        · have hseq : (escapeSeq c).length ≤ 6 := by
            unfold escapeSeq
            split <;> simp
          rw [List.length_append, List.length_cons]
          omega

theorem length_jsonQuote_le (s : JsString) : (jsonQuote s).length ≤ 6 * s.length + 2 := by
  have h := length_quoteFrom_le s false
  rw [jsonQuote, List.length_cons, List.length_append, List.length_singleton]
  omega

/-- A field whose key and text are short. -/
theorem length_renderField_le {key text : JsString} (hkey : key.length ≤ 8) (htext : text.length ≤ 602) :
    (renderField (key, text)).length ≤ 653 := by
  have h1 := length_jsonQuote_le key
  change (jsonQuote key ++ 0x3A :: text).length ≤ 653
  rw [List.length_append, List.length_cons]
  omega

theorem length_joinComma_le {n : ℕ} : ∀ {xs : List JsString}, (∀ x ∈ xs, x.length ≤ n) →
    (joinComma xs).length ≤ xs.length * (n + 1)
  | [], _ => by simp [joinComma]
  | [x], h => by
    have hx := h x List.mem_cons_self
    rw [joinComma, List.length_singleton]
    omega
  | x :: y :: rest, h => by
    have hx := h x List.mem_cons_self
    have hrest := length_joinComma_le fun z hz => h z (List.mem_cons_of_mem _ hz)
    have hcount : (x :: y :: rest).length * (n + 1) = (y :: rest).length * (n + 1) + (n + 1) := Nat.succ_mul _ _
    rw [joinComma, List.length_append, List.length_cons, hcount]
    omega

/-- The errors of the host fit into a frame. -/
theorem safeError_fits {id : Option JsString} {type code message : JsString} (hid : ∀ s, id = some s → s.length ≤ 100)
    (htype : type.length ≤ 100) (hcode : code.length ≤ 100) (hmessage : message.length ≤ 100) :
    (payloadOf P (safeError id type code message)).length ≤ 0xffffffff := by
  have htext : ∀ s : JsString, s.length ≤ 100 → ((Json.str s).stringify P.toNumberFormat).length ≤ 602 := by
    intro s hs
    have h := length_jsonQuote_le s
    rw [Json.stringify]
    omega
  have hfields : ∀ f ∈ (safeError id type code message).fields,
      (renderField (f.1, f.2.stringify P.toNumberFormat)).length ≤ 653 := by
    intro f hf
    rcases List.mem_append.1 hf with hf | hf
    · cases id with
      | none => cases hf
      | some s =>
        rw [List.mem_singleton.1 hf]
        exact length_renderField_le (Nat.le_of_ble_eq_true rfl) (htext s (hid s rfl))
    · simp only [List.mem_cons, List.not_mem_nil, or_false] at hf
      rcases hf with rfl | rfl | rfl | rfl | rfl
      · exact length_renderField_le (Nat.le_of_ble_eq_true rfl) (htext _ (by decide))
      · exact length_renderField_le (Nat.le_of_ble_eq_true rfl) (htext _ htype)
      · exact length_renderField_le (by decide) (by rw [Json.stringify]; decide)
      · exact length_renderField_le (Nat.le_of_ble_eq_true rfl) (htext _ hcode)
      · exact length_renderField_le (Nat.le_of_ble_eq_true rfl) (htext _ hmessage)
  have hcount : (safeError id type code message).fields.length ≤ 6 := by
    cases id <;> exact Nat.le_of_ble_eq_true rfl
  have hbytes := length_utf8From_le ((safeError id type code message).stringify P.toNumberFormat) none
  have hrendered : ∀ x ∈ ((safeError id type code message).fields.map fun f => (f.1, f.2.stringify P.toNumberFormat)).map
      renderField, x.length ≤ 653 := by
    intro x hx
    obtain ⟨g, hg, rfl⟩ := List.mem_map.1 hx
    obtain ⟨f, hf, rfl⟩ := List.mem_map.1 hg
    exact hfields f hf
  have hjoined := length_joinComma_le hrendered
  have htext : ((safeError id type code message).stringify P.toNumberFormat).length =
      2 + (joinComma (((safeError id type code message).fields.map fun f => (f.1, f.2.stringify P.toNumberFormat)).map
        renderField)).length := by
    change (0x7B :: (joinComma ((Json.stringifyFields P.toNumberFormat (safeError id type code message).fields).map renderField)
      ++ [0x7D])).length = _
    rw [Json.stringifyFields_eq, List.length_cons, List.length_append, List.length_singleton]
    omega
  rw [List.length_map, List.length_map] at hjoined
  rw [payloadOf, utf8]
  omega

theorem safeMessageId_length {id : Option Json} : ∀ s, safeMessageId id = some s → s.length ≤ 100 := by
  intro s h
  unfold safeMessageId at h
  split at h
  · split at h
    · rename_i hid
      cases h
      omega
    · cases h
  · cases h

theorem responseTypeFor_length (type : Option Json) : (responseTypeFor type).length ≤ 100 := by
  unfold responseTypeFor
  split
  · decide
  · split <;> decide

theorem orFailure_fits {id : Option JsString} {type : JsString} {result : Except JsError Json × W}
    (hid : ∀ s, id = some s → s.length ≤ 100) (htype : type.length ≤ 100)
    (h : ∀ reply, result.1 = .ok reply → (payloadOf P reply).length ≤ 0xffffffff) :
    (payloadOf P (orFailure id type result).1).length ≤ 0xffffffff := by
  unfold orFailure
  split
  · exact h _ rfl
  · exact safeError_fits hid htype (by decide) (by decide)

/-- Every reply fits into a frame. -/
theorem reply_fits (w : W) (message : Json) :
    (payloadOf P (handleNativeBrowserMessage H w message).1).length ≤ 0xffffffff := by
  have hid : ∀ s, safeMessageId (message.get (js "id")) = some s → s.length ≤ 100 := safeMessageId_length
  have htype := responseTypeFor_length (message.get (js "type"))
  unfold handleNativeBrowserMessage
  split
  · exact safeError_fits hid htype (by decide) (by decide)
  · split
    · exact safeError_fits hid htype (by decide) (by decide)
    · split
      · exact orFailure_fits hid htype fun reply => H.context_fits w message reply
      · split
        · exact orFailure_fits hid htype fun reply => H.insertion_fits w message reply
        · exact safeError_fits hid htype (by decide) (by decide)

/-! ## The frames on `stdout` -/

variable (P) in
/-- A message in its frame. -/
def frameOf (message : Json) : Bytes := writeUInt32LE (payloadOf P message).length ++ payloadOf P message

theorem encode_of_fits {message : Json} (h : (payloadOf P message).length ≤ 0xffffffff) :
    encodeNativeMessage P message = .ok (frameOf P message) := by
  rw [encodeNativeMessage, if_neg (by omega), frameOf]

/-- The answers to what a receiver of frames sees. -/
def answers : W → List (Option Json) → List Bytes
  | _, [] => []
  | w, some message :: rest =>
    frameOf P (handleNativeBrowserMessage H w message).1 :: answers (handleNativeBrowserMessage H w message).2 rest
  | w, none :: rest => frameOf P badFrame :: answers w rest

/-- The world after these answers. -/
def worldAfter : W → List (Option Json) → W
  | w, [] => w
  | w, some message :: rest => worldAfter (handleNativeBrowserMessage H w message).2 rest
  | w, none :: rest => worldAfter w rest

theorem answers_append (w : W) (es es' : List (Option Json)) :
    answers H w (es ++ es') = answers H w es ++ answers H (worldAfter H w es) es' := by
  induction es generalizing w with
  | nil => rfl
  | cons e es ih =>
    cases e with
    | none => rw [List.cons_append, answers, answers, worldAfter, ih, List.cons_append]
    | some message => rw [List.cons_append, answers, answers, worldAfter, ih, List.cons_append]

theorem length_answers (w : W) (es : List (Option Json)) : (answers H w es).length = es.length := by
  induction es generalizing w with
  | nil => rfl
  | cons e es ih => cases e <;> rw [answers, List.length_cons, ih, List.length_cons]

theorem answerAll_eq (s : State W) (messages : List Json) : answerAll H s messages =
    ⟨answers H s.world (messages.map some), ⟨s.pending, worldAfter H s.world (messages.map some)⟩, false⟩ := by
  induction messages generalizing s with
  | nil => rfl
  | cons message messages ih =>
    simp only [answerAll, encode_of_fits (reply_fits H s.world message), ih, List.map_cons, answers, worldAfter]

theorem badFrame_fits : (payloadOf P badFrame).length ≤ 0xffffffff :=
  safeError_fits (fun _ h => nomatch h) (by decide) (by decide) (by decide)

/-- A chunk is answered as a receiver of frames sees it. -/
theorem onData_eq (s : State W) (chunk : Bytes) : onData H maxBytes s chunk =
    ⟨answers H s.world (feed (reader P maxBytes) s.pending chunk).1,
      ⟨(feed (reader P maxBytes) s.pending chunk).2, worldAfter H s.world (feed (reader P maxBytes) s.pending chunk).1⟩,
      false⟩ := by
  obtain ⟨hok, herror⟩ : _ ∧ ∀ messages, scan (reader P maxBytes) (s.pending ++ chunk) = (messages, none) → _ :=
    decode_eq (s.pending ++ chunk)
  cases hscan : scan (reader P maxBytes) (s.pending ++ chunk) with
  | mk messages rest =>
    cases rest with
    | some rest =>
      have hchunk : handleChunk H maxBytes s chunk = answerAll H { s with pending := rest } messages := by
        rw [handleChunk, hok messages rest hscan]
      rw [onData, hchunk, answerAll_eq, feed_of_scan hscan]
      rfl
    | none =>
      obtain ⟨e, he⟩ := herror messages hscan
      have hchunk : handleChunk H maxBytes s chunk = ⟨[frameOf P badFrame], { s with pending := [] }, false⟩ := by
        rw [handleChunk, he, write, encode_of_fits badFrame_fits]
      rw [onData, hchunk, feed_of_bad hscan]
      rfl

/-- **The frames on `stdout`** answer the events of the input. -/
theorem stdout_eq (s : State W) (chunks : List Bytes) :
    stdout H maxBytes s chunks = answers H s.world (events (reader P maxBytes) s.pending chunks) := by
  induction chunks generalizing s with
  | nil => rfl
  | cons chunk chunks ih => rw [stdout, events, onData_eq, ih, answers_append]

/-! ## Ways to cut the input -/

/-- **Only the bytes matter**: every way to cut the input into chunks gives the same frames, and these begin with the
answers to the frames before the first bad one. -/
def ChunkingIndependent (maxBytes : ℕ) (w : W) (stream : Bytes) : Prop :=
  ∀ chunks chunks', chunks.flatten = stream → chunks'.flatten = stream →
    stdout H maxBytes ⟨[], w⟩ chunks = stdout H maxBytes ⟨[], w⟩ chunks' ∧
    answers H w ((scan (reader P maxBytes) stream).1.map some) <+: stdout H maxBytes ⟨[], w⟩ chunks

theorem steady_of_independent {w : W} {stream : Bytes} (h : ChunkingIndependent H maxBytes w stream) :
    Steady (reader P maxBytes) stream := by
  by_contra hsteady
  obtain ⟨chunks, chunks', hcut, hcut', hlength⟩ := exists_of_not_steady hsteady
  have hequal := congrArg List.length (h chunks chunks' hcut hcut').1
  rw [stdout_eq, stdout_eq, length_answers, length_answers] at hequal
  exact hlength hequal

/-- **When the chunks do not matter.** The replies to an input do not depend on how it is cut exactly if no frame of the
input is bad, or the first one is and no later part of the input can be read. -/
theorem replies_independent_iff (maxBytes : ℕ) (w : W) (stream : Bytes) :
    ChunkingIndependent H maxBytes w stream ↔ Steady (reader P maxBytes) stream := by
  refine ⟨steady_of_independent H, fun hsteady chunks chunks' hcut hcut' => ?_⟩
  have hevents := events_of_steady hsteady hcut
  constructor
  · rw [stdout_eq, stdout_eq, hevents, events_of_steady hsteady hcut']
  · rw [stdout_eq, hevents, answers_append]
    exact List.prefix_append _ _

/-- A host that has no vault. -/
def idleHost : Host reference Unit where
  handleContextRequest _ _ := (.error nodeError, ())
  handleInsertionRecord _ _ := (.error nodeError, ())
  context_fits _ _ _ h := nomatch h
  insertion_fits _ _ _ h := nomatch h
where
  nodeError : JsError := ⟨.error, js "no vault"⟩

/-- `{}` in its frame, and a length of `0xffffffff`. -/
def lostStream : Bytes := [2, 0, 0, 0, 123, 125, 255, 255, 255, 255]

/-- The reply to a frame depends on whether a bad one comes with it. -/
theorem lost_reply : ¬ ∀ stream, ChunkingIndependent idleHost MAX_NATIVE_MESSAGE_BYTES () stream := by
  intro hsame
  have hsteady := steady_of_independent idleHost (hsame lostStream)
  have hframe : nextFrame reference MAX_NATIVE_MESSAGE_BYTES lostStream = .frame (.obj []) [255, 255, 255, 255] :=
    nextFrame_eq_frame.2 ⟨by decide, by decide, rfl, rfl⟩
  have hbad : nextFrame reference MAX_NATIVE_MESSAGE_BYTES [255, 255, 255, 255] = .bad :=
    nextFrame_eq_bad.2 ⟨by decide, .inl (by decide)⟩
  rcases hsteady with hsound | ⟨hfirst, -⟩
  · rw [scan_frame hframe, scan_bad hbad] at hsound
    exact hsound rfl
  · cases hfirst.symm.trans hframe

end EnigmaMemory.NativeHost
