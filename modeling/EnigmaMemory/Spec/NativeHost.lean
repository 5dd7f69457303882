import EnigmaMemory.Spec.Sanitize

/-!
# The native messaging host

`apps/native-host`: the browser sends frames, a length in four little-endian bytes and a JSON text
each, and gets a frame back for every one. Chunks of the input are handled one after another. What
the two kinds of requests do with the local bundle is a parameter (`Host`), with the world they
read and change passed along.
-/

namespace EnigmaMemory.NativeHost

open Json

variable (P : Platform)

def NATIVE_BROWSER_PROTOCOL : JsString := js "enigma.native.browser.v1"

def MAX_NATIVE_MESSAGE_BYTES : ℕ := 1024 * 1024

def CONTEXT_REQUEST : JsString := js "enigma.browser.context.request"

def CONTEXT_RESPONSE : JsString := js "enigma.browser.context.response"

def INSERTION_RECORD : JsString := js "enigma.browser.insertion.record"

def INSERTION_RECORDED : JsString := js "enigma.browser.insertion.recorded"

def GENERIC_ERROR : JsString := js "enigma.native.error"

/-! ## Frames -/

/-- The number in little-endian bytes. -/
def ofLE : Bytes → ℕ
  | [] => 0
  | b :: rest => b.val + 256 * ofLE rest

/-- `buffer.readUInt32LE(0)` of a buffer of four bytes or more. -/
def readUInt32LE (buffer : Bytes) : ℕ := ofLE (buffer.take 4)

/-- `frame.writeUInt32LE(n, 0)`. -/
def writeUInt32LE (n : ℕ) : Bytes :=
  [Fin.ofNat 256 n, Fin.ofNat 256 (n / 256), Fin.ofNat 256 (n / 65536), Fin.ofNat 256 (n / 16777216)]

/-- `Buffer.from(JSON.stringify(message), 'utf8')`. -/
def payloadOf (message : Json) : Bytes := utf8 (message.stringify P.toNumberFormat)

def encodeNativeMessage (message : Json) : Except JsError Bytes :=
  if 0xffffffff < (payloadOf P message).length then .error ⟨.rangeError, js "Native message is too large."⟩
  else .ok (writeUInt32LE (payloadOf P message).length ++ payloadOf P message)

def frameTooLarge : JsError := ⟨.error, js "Native message frame exceeds the configured maximum size."⟩

/-- The messages at the front of the input, and what remains of it. -/
def decodeNativeMessageFrames (maxBytes : ℕ) (buffer : Bytes) : Except JsError (List Json × Bytes) :=
  if buffer.length < 4 then .ok ([], buffer)
  else if maxBytes < readUInt32LE buffer then .error frameTooLarge
  else if buffer.length < 4 + readUInt32LE buffer then .ok ([], buffer)
  else do
    let message ← P.parseJson (P.ofUtf8 ((buffer.drop 4).take (readUInt32LE buffer)))
    let decoded ← decodeNativeMessageFrames maxBytes (buffer.drop (4 + readUInt32LE buffer))
    return (message :: decoded.1, decoded.2)
termination_by buffer.length
decreasing_by
  rw [List.length_drop]
  omega

/-! ## Messages -/

def isMessageIdUnit (c : CodeUnit) : Bool :=
  isLowerUnit c || isUpperUnit c || isDigitUnit c || decide (c ∈ js "._:-")

/-- `safeMessageId(id)`; `SAFE_MESSAGE_ID_RE` is `/^[A-Za-z0-9._:-]{1,80}$/`. -/
def safeMessageId (id : Option Json) : Option JsString :=
  match id with
  | some (.str s) => if 1 ≤ s.length ∧ s.length ≤ 80 ∧ s.all isMessageIdUnit then some s else none
  | _ => none

def responseTypeFor (type : Option Json) : JsString :=
  if Json.isStr type CONTEXT_REQUEST then CONTEXT_RESPONSE
  else if Json.isStr type INSERTION_RECORD then INSERTION_RECORDED
  else GENERIC_ERROR

/-- `safeError` without an action. A field that is `undefined` is not written. -/
def safeError (id : Option JsString) (type code message : JsString) : Json :=
  .obj (Json.field (js "id") (id.map .str) ++ [(js "protocol", .str NATIVE_BROWSER_PROTOCOL), (js "type", .str type),
    (js "ok", .bool false), (js "code", .str code), (js "message", .str message)])

def hostFailure (id : Option JsString) (type : JsString) : Json :=
  safeError id type (js "ENIGMA_NATIVE_HOST_ERROR") (js "Enigma native host failed without exposing local memory.")

def badFrame : Json :=
  safeError none GENERIC_ERROR (js "ENIGMA_BAD_FRAME") (js "Native host received an invalid message frame.")

/-- What the host does with its two kinds of requests, in the world `W` of files, clocks and random numbers.
A string of the engine is shorter than 2^30 units, so the text of a reply has less than 2^32 bytes. -/
structure Host (W : Type) where
  handleContextRequest : W → Json → Except JsError Json × W
  handleInsertionRecord : W → Json → Except JsError Json × W
  context_fits : ∀ w m r, (handleContextRequest w m).1 = .ok r → (payloadOf P r).length ≤ 0xffffffff
  insertion_fits : ∀ w m r, (handleInsertionRecord w m).1 = .ok r → (payloadOf P r).length ≤ 0xffffffff

variable {P} {W : Type} (H : Host P W)

/-- The reply to a request, or to an exception. -/
def orFailure (id : Option JsString) (type : JsString) (result : Except JsError Json × W) : Json × W :=
  match result with
  | (.ok reply, w) => (reply, w)
  | (.error _, w) => (hostFailure id type, w)

def handleNativeBrowserMessage (w : W) (message : Json) : Json × W :=
  let id := safeMessageId (message.get (js "id"))
  let type := responseTypeFor (message.get (js "type"))
  if !message.isPlainRecord then
    (safeError id type (js "ENIGMA_BAD_REQUEST") (js "Native host received an invalid browser request."), w)
  else if !Json.isStr (message.get (js "protocol")) NATIVE_BROWSER_PROTOCOL then
    (safeError id type (js "ENIGMA_BAD_PROTOCOL") (js "Native host received an unsupported protocol."), w)
  else if Json.isStr (message.get (js "type")) CONTEXT_REQUEST then orFailure id type (H.handleContextRequest w message)
  else if Json.isStr (message.get (js "type")) INSERTION_RECORD then orFailure id type (H.handleInsertionRecord w message)
  else (safeError id type (js "ENIGMA_UNSUPPORTED_REQUEST") (js "Native host received an unsupported request type."), w)

/-! ## The runtime -/

structure State (W : Type) where
  pending : Bytes
  world : W

/-- The frames that have been written, the state, and whether an exception has ended the chunk. -/
structure Handled (W : Type) where
  written : List Bytes
  state : State W
  rejected : Bool

/-- The loop over the decoded messages. -/
def answerAll (s : State W) : List Json → Handled W
  | [] => ⟨[], s, false⟩
  | message :: rest =>
    let answered := handleNativeBrowserMessage H s.world message
    match encodeNativeMessage P answered.1 with
    | .ok frame =>
      let handled := answerAll { s with world := answered.2 } rest
      { handled with written := frame :: handled.written }
    | .error _ => ⟨[], { s with world := answered.2 }, true⟩

/-- `stdout.write(encodeNativeMessage(message))`. -/
def write (s : State W) (message : Json) : Handled W :=
  match encodeNativeMessage P message with
  | .ok frame => ⟨[frame], s, false⟩
  | .error _ => ⟨[], s, true⟩

def handleChunk (maxBytes : ℕ) (s : State W) (chunk : Bytes) : Handled W :=
  match decodeNativeMessageFrames P maxBytes (s.pending ++ chunk) with
  | .error _ => write (P := P) { s with pending := [] } badFrame
  | .ok decoded => answerAll H { s with pending := decoded.2 } decoded.1

/-- A chunk of the queue; an exception is answered with an error. -/
def onData (maxBytes : ℕ) (s : State W) (chunk : Bytes) : Handled W :=
  let handled := handleChunk H maxBytes s chunk
  if handled.rejected then
    let failed := write (P := P) handled.state (hostFailure none GENERIC_ERROR)
    { failed with written := handled.written ++ failed.written }
  else handled

/-- The frames written to `stdout` for the chunks that arrive. -/
def stdout (maxBytes : ℕ) (s : State W) : List Bytes → List Bytes
  | [] => []
  | chunk :: rest => (onData H maxBytes s chunk).written ++ stdout maxBytes (onData H maxBytes s chunk).state rest

end EnigmaMemory.NativeHost
