import EnigmaMemory.Spec.Mesh
import EnigmaMemory.Spec.OAuthServer

/-!
# The relay

The relay service (`apps/relay`): records pushed by paired clients, the witness log, pairing by
challenge and completion, and the snapshot of a relay that is written to a file and read back. A
request is served in one go once its body has been read. The probes `/livez` and `/readyz` have no
part in the state and are left out; a JSON value copies to itself.
-/

namespace EnigmaMemory.Relay

open Json Mesh

def PAIRING_CHALLENGE_SCHEMA : JsString := js "enigma.pairing_challenge.v1"

def PAIRING_COMPLETION_SCHEMA : JsString := js "enigma.pairing_completion.v1"

def CLIENT_AUTH_SCHEMA : JsString := js "enigma.relay_client_authorization.v1"

def RELAY_STATE_SCHEMA : JsString := js "enigma.relay_state.v1"

/-! ## Keys of the requests and of the snapshot -/

def FORBIDDEN_PLAINTEXT_KEYS : List JsString :=
  [js "plaintext", js "plaintextmemory", js "plainmemory", js "cleartext", js "rawmemory", js "memoryplaintext", js "memory",
    js "memories", js "text", js "content", js "body", js "rawbody", js "requestbody", js "rawrequestbody", js "prompt",
    js "prompttext", js "completion", js "message", js "messagetext", js "conversation", js "conversationtext", js "transcript",
    js "transcripttext"]

def RELAY_RECORD_KEYS : List JsString := Mesh.RELAY_INPUT_KEYS

def WITNESS_CHECKPOINT_KEYS : List JsString :=
  [js "subject_node_id", js "subjectNodeId", js "subject", js "epoch", js "checkpoint_root", js "checkpointRoot",
    js "receipt_log_root", js "receiptLogRoot", js "active_set_root", js "activeSetRoot", js "active_memory_root",
    js "activeMemoryRoot", js "previous_witness_hash", js "previousWitnessHash", js "issued_at", js "issuedAt"]

def PAIRING_CHALLENGE_KEYS : List JsString :=
  [js "public_key", js "publicKey", js "client_public_key", js "clientPublicKey", js "device_public_key", js "devicePublicKey",
    js "account_public_key", js "accountPublicKey"]

def PAIRING_COMPLETE_KEYS : List JsString :=
  [js "challenge_id", js "challengeId", js "public_key", js "publicKey", js "client_public_key", js "clientPublicKey",
    js "signature", js "client_signature", js "clientSignature"]

def RELAY_STATE_KEYS : List JsString :=
  [js "schema", js "version", js "generated_at", js "node", js "relay_store", js "relay_records", js "witness_log",
    js "completed_pairings", js "authorization"]

def RELAY_STATE_NODE_KEYS : List JsString :=
  [js "schema", js "node_id", js "signer", js "publicKey", js "privateKey", js "trust_descriptor", js "public_descriptor"]

def RELAY_STATE_STORE_KEYS : List JsString := [js "schema", js "store_id", js "node_id", js "created_at", js "metadata"]

def RELAY_STATE_STORE_METADATA_KEYS : List JsString := [js "record_count"]

def RELAY_STATE_AUTHORIZATION_KEYS : List JsString := [js "mode", js "allow_unauthenticated"]

def RELAY_STATE_RECORD_KEYS : List JsString :=
  [js "schema", js "record_id", js "store_id", js "capsule_id", js "encrypted_payload_hash", js "payload_storage",
    js "received_at", js "expires_at", js "signature"]

def RELAY_STATE_PAIRING_KEYS : List JsString :=
  [js "schema", js "pairing_id", js "challenge_id", js "relay_node_id", js "client_public_key", js "client_public_key_hash",
    js "issued_at", js "signature"]

def SIGNATURE_KEYS : List JsString := [js "alg", js "key_id", js "value"]

/-! ## Checks -/

def assertPlainRecord (value : Option Json) (context : String) : Except JsError Json :=
  match value with
  | some (.obj fs) => .ok (.obj fs)
  | _ => .error (typeError (js (context ++ " must be a JSON object")))

def assertNoPlaintextLookingFields (value : Json) (context : String) : Except JsError Unit :=
  failIf (hasPlaintextLeak FORBIDDEN_PLAINTEXT_KEYS value = true)
    (plainError (js (context ++ " contains plaintext-looking memory fields")))

def assertOnlyKeys (value : Json) (allowed : List JsString) (context : String) : Except JsError Unit :=
  match value.keys.find? (· ∉ allowed) with
  | some key => .error (plainError (js (context ++ " field ") ++ key ++ js " is not allowed"))
  | none => .ok ()

def assertRoot (value : Option Json) (field : String) : Except JsError JsString :=
  match value with
  | some (.str s) => if isRoot s then .ok s else .error (typeError (js (field ++ " must be a sha256 root")))
  | _ => .error (typeError (js (field ++ " must be a sha256 root")))

def assertString (value : Option Json) (field : String) : Except JsError JsString :=
  match value with
  | some (.str s) => if s = [] then .error (typeError (js (field ++ " must be a non-empty string"))) else .ok s
  | _ => .error (typeError (js (field ++ " must be a non-empty string")))

variable (P : Platform)

def assertIsoDate (value : Option Json) (field : String) : Except JsError JsString := do
  let string ← assertString value field
  failIf ((P.parseDate string).isNone = true) (typeError (js (field ++ " must be an ISO date string")))
  return string

/-- `cloneJson(value)`: only `undefined` has no copy. -/
def cloneJson (value : Option Json) (context : String) : Except JsError Json :=
  match value with
  | some value => .ok value
  | none => .error (typeError (js (context ++ " must be JSON serializable")))

def signaturePayload (record : Json) : Json :=
  withoutAll record
    [js "signature", js "descriptor_hash", js "capsule_hash", js "witness_hash", js "grant_hash", js "relay_record_id"]

def assertSignature (signature : Option Json) (context : String) : Except JsError Json := do
  let record ← assertPlainRecord signature (context ++ " signature")
  assertOnlyKeys record SIGNATURE_KEYS (context ++ " signature")
  failIf (isStr (record.get (js "alg")) (js "Ed25519") = false)
    (plainError (js (context ++ " signature algorithm is not supported")))
  let _ ← assertString (record.get (js "key_id")) (context ++ " signature key_id")
  let _ ← assertString (record.get (js "value")) (context ++ " signature value")
  return record

def assertSignedBy (record : Json) (publicKey : JsString) (context : String) : Except JsError Unit := do
  let signature ← assertSignature (record.get (js "signature")) context
  failIf (verifySignature P (signaturePayload record) (some signature) publicKey = false)
    (plainError (js (context ++ " signature mismatch")))

/-- `signedRecordHash(record, hashField)`. -/
def signedRecordHash (record : Json) (hashField : JsString) : JsString := rootFromValue P (record.without hashField)

/-! ## The state -/

/-- A challenge that has not been completed. -/
structure PendingChallenge where
  challenge : Json
  publicKey : JsString

structure RelayState where
  node : Node
  relayStore : RelayStore
  witnessLog : List Json
  pairingChallenges : OrdMap JsString PendingChallenge
  pairings : OrdMap JsString Json
  challengeTtlMs : ℤ
  allowUnauthenticated : Bool

/-- What one request sees: what `nowIso` gives, call by call, the system's clock and the random bytes. -/
structure RelayEnv where
  now : ℕ → JsString
  time : ℤ
  nonce : Bytes

structure RelayOptions where
  /-- The public and the private key (PEM) that the node is given. -/
  keyPair : JsString × JsString
  role : JsString
  endpoints : List JsString
  /-- `now` or `created_at`, when it is a text. -/
  created_at : Option JsString
  challengeTtlMs : ℤ
  allowUnauthenticated : Bool

def createRelayState (o : RelayOptions) : Except JsError RelayState := do
  let created_at := o.created_at.getD DEFAULT_NOW
  let node ← createMeshNode P { keyPair := o.keyPair, role := o.role,
                                capabilities := [js "relay_store", js "witness_checkpoint", js "pairing_challenge"],
                                endpoints := o.endpoints, created_at }
  let relayStore ← createRelayStore P node none none created_at
  return { node, relayStore, witnessLog := [], pairingChallenges := OrdMap.empty, pairings := OrdMap.empty,
           challengeTtlMs := o.challengeTtlMs, allowUnauthenticated := o.allowUnauthenticated }

/-! ## Requests -/

structure RelayRequest where
  method : JsString
  pathname : JsString
  /-- `url.searchParams.entries()`. -/
  query : List (JsString × JsString)
  /-- The header `x-enigma-pairing-id`. -/
  pairingId : Option JsString
  /-- The header `x-enigma-client-signature`. -/
  clientSignature : Option JsString
  /-- What `readJsonBody` gives. -/
  body : Except JsError Json

/-- The order of two query entries. -/
def entryLe (a b : JsString × JsString) : Bool :=
  P.localeLe a.1 b.1 && (!P.localeLe b.1 a.1 || P.localeLe a.2 b.2)

def sortedQueryEntries (query : List (JsString × JsString)) : Json :=
  .arr ((query.insertionSort fun a b => entryLe P a b = true).map fun entry => .arr [.str entry.1, .str entry.2])

def relayRequestHash (req : RelayRequest) (body : Option Json) : JsString :=
  rootFromValue P (.obj ([(js "method", .str req.method), (js "path", .str req.pathname),
    (js "query", sortedQueryEntries P req.query)] ++ Json.field (js "body") body))

def relayAuthorizationPayload (node_id pairingId operation requestHash : JsString) : Json :=
  .obj [(js "schema", .str CLIENT_AUTH_SCHEMA), (js "relay_node_id", .str node_id), (js "pairing_id", .str pairingId),
    (js "operation", .str operation), (js "request_hash", .str requestHash)]

def requireRelayAuthorization (state : RelayState) (req : RelayRequest) (operation : String) (requestHash : JsString) :
    Except JsError Json := do
  if state.allowUnauthenticated then
    return .obj [(js "mode", .str (js "unauthenticated_local_demo")), (js "authenticated", .bool false),
      (js "request_hash", .str requestHash)]
  else
    match req.pairingId.filter (· ≠ []), req.clientSignature.filter (· ≠ []) with
    | some pairingId, some signature =>
      match state.pairings.get pairingId with
      | none => .error (plainError (js "unknown relay pairing"))
      | some pairing =>
        let payload := relayAuthorizationPayload state.node.node_id pairingId (js operation) requestHash
        let verified := match pairing.get (js "client_public_key") with
          | some (.str publicKey) => verifySignature P payload (some (.str signature)) publicKey
          | _ => false
        failIf (verified = false) (plainError (js "relay client authorization signature mismatch"))
        return .obj ([(js "mode", .str (js "paired_client_signature")), (js "authenticated", .bool true),
          (js "pairing_id", .str pairingId)] ++
          Json.field (js "client_public_key_hash") (pairing.get (js "client_public_key_hash")) ++
          [(js "request_hash", .str requestHash)])
    | _, _ => .error (plainError (js "relay client authorization required"))

/-! ## Pushes -/

/-- The value in an envelope with one field, or the value itself. -/
def openEnvelope (request : Json) (name context : String) : Except JsError Json :=
  match request.get (js name) with
  | none => .ok request
  | some inner =>
    if request.keys.length ≠ 1 then .error (plainError (js (context ++ " request envelope only allows " ++ name)))
    else .ok inner

def normalizeRelayRecordInput (input : Json) : Except JsError Json := do
  let request ← assertPlainRecord (some input) "relay request"
  assertNoPlaintextLookingFields request "relay request"
  let body ← assertPlainRecord (some (← openEnvelope request "record" "relay")) "relay record"
  assertOnlyKeys body RELAY_RECORD_KEYS "relay record"
  return body

/-- The record that a push stores. -/
def pushed (state : RelayState) (body : Json) : Except JsError Json := do
  relayRecord P state.relayStore (← normalizeRelayRecordInput body)

/-! ## Witness checkpoints -/

/-- `value !== undefined` makes it a root. -/
def assertRootIfDefined (value : Option Json) (field : String) : Except JsError Unit :=
  match value with
  | none => .ok ()
  | some value => (assertRoot (some value) field).map fun _ => ()

def normalizeWitnessInput (input : Json) : Except JsError Json := do
  let request ← assertPlainRecord (some input) "witness request"
  assertNoPlaintextLookingFields request "witness request"
  let body ← assertPlainRecord (some (← openEnvelope request "checkpoint" "witness")) "witness checkpoint"
  assertOnlyKeys body WITNESS_CHECKPOINT_KEYS "witness checkpoint"
  assertRootIfDefined (orElse (body.get (js "checkpoint_root")) (body.get (js "checkpointRoot"))) "checkpoint_root"
  assertRootIfDefined (orElse (body.get (js "receipt_log_root")) (body.get (js "receiptLogRoot"))) "receipt_log_root"
  assertRootIfDefined (firstOf [body.get (js "active_set_root"), body.get (js "activeSetRoot"),
    body.get (js "active_memory_root"), body.get (js "activeMemoryRoot")]) "active_set_root"
  return body

/-- The epoch of a checkpoint, which is a number. -/
def epochOf (checkpoint : Json) : ℚ := numberOf (checkpoint.get (js "epoch"))

/-- The epoch of a request: the supplied one, or the next. -/
def requestEpoch (lastCheckpoint : Option Json) (body : Json) : Json :=
  match body.get (js "epoch") with
  | some supplied => supplied
  | none => .num ((lastCheckpoint.map (epochOf · + 1)).getD 0)

/-- `!Number.isInteger(epoch) || epoch <= lastCheckpoint.epoch`. -/
def epochStalls (lastCheckpoint : Option Json) (epoch : Json) : Bool :=
  match lastCheckpoint, epoch with
  | none, _ => false
  | some last, .num q => q.den != 1 || decide (q ≤ epochOf last)
  | some _, _ => true

/-- `lastCheckpoint?.witness_hash ?? EMPTY_MERKLE_ROOT`. -/
def previousWitnessHash (log : List Json) : JsString :=
  match log.getLast?.bind (·.get (js "witness_hash")) with
  | some (.str hash) => hash
  | _ => emptyMerkleRoot

/-- The options that the handler gives to `createWitnessCheckpoint`. -/
def checkpointOptions (state : RelayState) (env : RelayEnv) (body epoch : Json) (previous : JsString) : Json :=
  body.spread (.obj [(js "witness_node_id", .str state.node.node_id), (js "epoch", epoch),
    (js "previous_witness_hash", .str previous),
    (js "receipt_log_root", (firstOf [body.get (js "receipt_log_root"), body.get (js "receiptLogRoot"),
      some (.str emptyMerkleRoot)]).getD .null),
    (js "active_set_root", (firstOf [body.get (js "active_set_root"), body.get (js "activeSetRoot"),
      body.get (js "active_memory_root"), body.get (js "activeMemoryRoot"), some (.str emptyMerkleRoot)]).getD .null),
    (js "issued_at", (firstOf [body.get (js "issued_at"), body.get (js "issuedAt"), some (.str (env.now 0))]).getD .null)])

/-- What a checkpoint that follows on `previous` is checked against. -/
def expectation (node : Node) (checkpoint : Json) (previous : JsString) (minimumEpoch : ℚ) : WitnessExpectation where
  trustDescriptor := node.trust_descriptor
  expectedWitnessNodeId := node.node_id
  expectedReceiptLogRoot := checkpoint.get (js "receipt_log_root")
  expectedActiveSetRoot := checkpoint.get (js "active_set_root")
  expectedCheckpointRoot := checkpoint.get (js "checkpoint_root")
  expectedPreviousWitnessHash := previous
  minimumEpoch

/-- A supplied `previous_witness_hash` has to be the hash of the last checkpoint. -/
def checkSuppliedPrevious (supplied : Option Json) (expected : JsString) : Except JsError Unit :=
  match supplied with
  | none => .ok ()
  | some supplied => do
    let supplied ← assertRoot (some supplied) "previous_witness_hash"
    failIf (supplied ≠ expected) (plainError (js "previous_witness_hash continuity mismatch"))

/-- The checkpoint that a request appends to the log. -/
def witnessed (state : RelayState) (env : RelayEnv) (body : Json) : Except JsError Json := do
  let witnessBody ← normalizeWitnessInput body
  let lastCheckpoint := state.witnessLog.getLast?
  let epoch := requestEpoch lastCheckpoint witnessBody
  failIf (epochStalls lastCheckpoint epoch = true) (plainError (js "witness epoch must increase monotonically"))
  let expected := previousWitnessHash state.witnessLog
  checkSuppliedPrevious (orElse (witnessBody.get (js "previous_witness_hash")) (witnessBody.get (js "previousWitnessHash"))) expected
  let checkpoint ← createWitnessCheckpoint P (checkpointOptions state env witnessBody epoch expected) state.node
  let errors := verifyWitnessCheckpoint P checkpoint (expectation state.node checkpoint expected (numberOf (some epoch)))
  failIf (errors ≠ []) (plainError (js "witness checkpoint verification failed"))
  return checkpoint

/-! ## Pairing -/

def publicKeyFromPairingInput (body : Json) : Except JsError JsString :=
  match firstOf [body.get (js "public_key"), body.get (js "publicKey"), body.get (js "client_public_key"),
    body.get (js "clientPublicKey"), body.get (js "device_public_key"), body.get (js "devicePublicKey"),
    body.get (js "account_public_key"), body.get (js "accountPublicKey")] with
  | some (.str s) => if s = [] then .error (typeError (js "public_key is required")) else .ok s
  | _ => .error (typeError (js "public_key is required"))

/-- `futureIso(baseIso, ttlMs)`; a base that is no date gives way to the clock. -/
def futureIso (time : ℤ) (base : JsString) (ttlMs : ℤ) : JsString := P.isoText ((P.parseDate base).getD time + ttlMs)

def challengeJson (state : RelayState) (env : RelayEnv) (clientPublicKey : JsString) : Json :=
  let nonce := base64url env.nonce
  .obj [(js "schema", .str PAIRING_CHALLENGE_SCHEMA),
    (js "challenge_id", .str (idFromValue P "pch_" (.obj [(js "clientPublicKey", .str clientPublicKey), (js "nonce", .str nonce)]))),
    (js "relay_node_id", .str state.node.node_id), (js "client_public_key", .str clientPublicKey),
    (js "client_public_key_hash", .str (prefixedSha256 clientPublicKey)), (js "nonce", .str nonce),
    (js "issued_at", .str (env.now 0)), (js "expires_at", .str (futureIso P env.time (env.now 0) state.challengeTtlMs))]

/-- A text field. -/
def textOf (value : Json) (key : String) : JsString :=
  match value.get (js key) with
  | some (.str s) => s
  | _ => []

/-- `createPairingChallenge(state, input)`: the signed challenge, and the state that knows it. -/
def createPairingChallenge (state : RelayState) (env : RelayEnv) (input : Json) : Except JsError (Json × RelayState) := do
  let body ← assertPlainRecord (some input) "pairing challenge"
  assertNoPlaintextLookingFields body "pairing challenge"
  assertOnlyKeys body PAIRING_CHALLENGE_KEYS "pairing challenge"
  let clientPublicKey ← publicKeyFromPairingInput body
  let challenge := challengeJson P state env clientPublicKey
  let signature ← createSignature P challenge state.node
  return (signed challenge signature, { state with
    pairingChallenges := state.pairingChallenges.set (textOf challenge "challenge_id") ⟨challenge, clientPublicKey⟩ })

/-- `Date.parse(a) <= Date.parse(b)`; an invalid date compares with nothing. -/
def dateLe (a b : JsString) : Bool :=
  match P.parseDate a, P.parseDate b with
  | some a, some b => decide (a ≤ b)
  | _, _ => false

def pairingJson (node_id challengeId publicKey issuedAt : JsString) : Json :=
  .obj [(js "schema", .str PAIRING_COMPLETION_SCHEMA),
    (js "pairing_id", .str (idFromValue P "pair_" (.obj [(js "challengeId", .str challengeId), (js "publicKey", .str publicKey),
      (js "issuedAt", .str issuedAt)]))),
    (js "challenge_id", .str challengeId), (js "relay_node_id", .str node_id), (js "client_public_key", .str publicKey),
    (js "client_public_key_hash", .str (prefixedSha256 publicKey)), (js "issued_at", .str issuedAt)]

/-- The checks of `completePairing`: the challenge that the request names and its key. -/
def checkCompletion (state : RelayState) (env : RelayEnv) (input : Json) : Except JsError (JsString × PendingChallenge) := do
  let body ← assertPlainRecord (some input) "pairing completion"
  assertNoPlaintextLookingFields body "pairing completion"
  assertOnlyKeys body PAIRING_COMPLETE_KEYS "pairing completion"
  let challengeId ← requiredString (orElse (body.get (js "challenge_id")) (body.get (js "challengeId"))) (js "challenge_id")
  match state.pairingChallenges.get challengeId with
  | none => .error (plainError (js "unknown pairing challenge"))
  | some pending =>
    failIf (dateLe P (textOf pending.challenge "expires_at") (env.now 0) = true) (plainError (js "pairing challenge expired"))
    let publicKey ← publicKeyFromPairingInput body
    failIf (publicKey ≠ pending.publicKey) (plainError (js "pairing public key mismatch"))
    let signature := firstOf [body.get (js "client_signature"), body.get (js "clientSignature"), body.get (js "signature")]
    failIf (verifySignature P pending.challenge signature publicKey = false) (plainError (js "pairing challenge signature mismatch"))
    return (challengeId, pending)

/-- `completePairing(state, input)`: the signed pairing, and the state that knows it. -/
def completePairing (state : RelayState) (env : RelayEnv) (input : Json) : Except JsError (Json × RelayState) := do
  let (challengeId, pending) ← checkCompletion P state env input
  let pairing := pairingJson P state.node.node_id challengeId pending.publicKey (env.now 1)
  let pairing := signed pairing (← createSignature P pairing state.node)
  return (pairing, { state with pairings := state.pairings.set (textOf pairing "pairing_id") pairing,
                                pairingChallenges := state.pairingChallenges.delete challengeId })

/-! ## Requests at the server -/

inductive RelayReply where
  | json (status : ℕ) (body : Json)
  /-- The reply of `/livez` or of `/readyz`. -/
  | probe

def ok (payload : List (JsString × Json)) : Json := .obj ((js "ok", .bool true) :: payload)

def fail (message : JsString) : Json := .obj [(js "ok", .bool false), (js "error", .str message)]

def relayAuthorizationMode (state : RelayState) : JsString :=
  if state.allowUnauthenticated then js "unauthenticated_local_demo" else js "paired_client_signature_required"

def serviceHealth (state : RelayState) : Json :=
  .obj [(js "schema", .str (js "enigma.relay_service.v1")),
    (js "node", .obj [(js "node_id", .str state.node.node_id), (js "trust_descriptor", state.node.trust_descriptor)]),
    (js "relay", .obj [(js "store_id", .str state.relayStore.store_id), (js "records", .num state.relayStore.records.size)]),
    (js "witness", .obj [(js "checkpoints", .num state.witnessLog.length)]),
    (js "pairing", .obj [(js "pending_challenges", .num state.pairingChallenges.size),
      (js "completed_pairings", .num state.pairings.size)]),
    (js "authorization", .obj [(js "mode", .str (relayAuthorizationMode state)),
      (js "endpoints", .arr [.str (js "/relay/push"), .str (js "/relay/pull"), .str (js "/witness/checkpoint")])])]

/-- `POST /relay/push`. -/
def handlePush (state : RelayState) (req : RelayRequest) : Except JsError (RelayReply × RelayState) := do
  let body ← req.body
  let authorization ← requireRelayAuthorization P state req "relay.push" (relayRequestHash P req (some body))
  let record ← pushed P state body
  return (.json 201 (ok [(js "record", handedOut record), (js "authorization", authorization)]),
    { state with relayStore := state.relayStore.file record })

/-- `GET /relay/pull`. -/
def handlePull (state : RelayState) (req : RelayRequest) : Except JsError RelayReply :=
  match (req.query.lookup (js "id")).filter (· ≠ []) with
  | none => .ok (.json 400 (fail (js "id is required")))
  | some id => do
    let authorization ← requireRelayAuthorization P state req "relay.pull" (relayRequestHash P req none)
    match ← pullRelayRecord state.relayStore id with
    | none => return .json 404 (fail (js "relay record not found"))
    | some record => return .json 200 (ok [(js "record", record), (js "authorization", authorization)])

/-- `POST /witness/checkpoint`. -/
def handleWitness (state : RelayState) (env : RelayEnv) (req : RelayRequest) : Except JsError (RelayReply × RelayState) := do
  let body ← req.body
  let authorization ← requireRelayAuthorization P state req "witness.checkpoint" (relayRequestHash P req (some body))
  let checkpoint ← witnessed P state env body
  return (.json 201 (ok [(js "checkpoint", checkpoint),
      (js "verification", .obj [(js "ok", .bool true), (js "valid", .bool true), (js "errors", .arr []),
        (js "witness_hash", .str (rootFromValue P checkpoint))]), (js "authorization", authorization)]),
    { state with witnessLog := state.witnessLog ++ [checkpoint] })

/-- The routes of `handleRelayRequest`. -/
def route (state : RelayState) (env : RelayEnv) (req : RelayRequest) : Except JsError (RelayReply × RelayState) :=
  if req.method = js "GET" ∧ req.pathname = js "/health" then
    .ok (.json 200 (ok [(js "health", serviceHealth state)]), state)
  else if req.method = js "GET" ∧ (req.pathname = js "/livez" ∨ req.pathname = js "/readyz") then .ok (.probe, state)
  else if req.method = js "POST" ∧ req.pathname = js "/relay/push" then handlePush P state req
  else if req.method = js "GET" ∧ req.pathname = js "/relay/pull" then (handlePull P state req).map fun reply => (reply, state)
  else if req.method = js "POST" ∧ req.pathname = js "/witness/checkpoint" then handleWitness P state env req
  else if req.method = js "GET" ∧ req.pathname = js "/witness/log" then
    .ok (.json 200 (ok [(js "checkpoints", .arr state.witnessLog)]), state)
  else if req.method = js "POST" ∧ req.pathname = js "/pairing/challenge" then do
    let (challenge, state) ← createPairingChallenge P state env (← req.body)
    return (.json 201 (ok [(js "challenge", challenge)]), state)
  else if req.method = js "POST" ∧ req.pathname = js "/pairing/complete" then do
    let (pairing, state) ← completePairing P state env (← req.body)
    return (.json 201 (ok [(js "pairing", pairing)]), state)
  else .ok (.json 404 (fail (js "unknown relay path")), state)

/-- `handleRelayRequest(state, req, res)`: an exception is the reply to a bad request. -/
def handleRelayRequest (state : RelayState) (env : RelayEnv) (req : RelayRequest) : RelayReply × RelayState :=
  match route P state env req with
  | .ok served => served
  | .error e => (.json 400 (fail e.message), state)

/-- One request after the other. -/
def step (state : RelayState) (input : RelayEnv × RelayRequest) : Option RelayState :=
  some (handleRelayRequest P state input.1 input.2).2

end EnigmaMemory.Relay
