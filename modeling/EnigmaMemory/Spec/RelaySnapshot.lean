import EnigmaMemory.Spec.Relay

/-!
# Snapshots of a relay

`serializeRelayState` and `hydrateRelayState`: what is written to the state file, and the checks that
it has to pass when it is read. Challenges that wait for their completion are not kept.
-/

namespace EnigmaMemory.Relay

open Json Mesh

variable (P : Platform)

/-! ## Writing -/

def storeJson (store : RelayStore) : Json :=
  .obj [(js "schema", .str (js "enigma.relay_store.v1")), (js "store_id", .str store.store_id),
    (js "node_id", .str store.node_id), (js "created_at", .str store.created_at),
    (js "metadata", .obj [(js "record_count", .num store.records.values.length)])]

def authorizationJson (state : RelayState) : Json :=
  .obj [(js "mode", .str (relayAuthorizationMode state)), (js "allow_unauthenticated", .bool state.allowUnauthenticated)]

/-- The snapshot, `generated_at` being the clock. -/
def snapshotJson (state : RelayState) (generated_at : JsString) : Json :=
  .obj [(js "schema", .str RELAY_STATE_SCHEMA), (js "version", .num 1), (js "generated_at", .str generated_at),
    (js "node", state.node.toJson), (js "relay_store", storeJson state.relayStore),
    (js "relay_records", .arr state.relayStore.records.values), (js "witness_log", .arr state.witnessLog),
    (js "completed_pairings", .arr state.pairings.values), (js "authorization", authorizationJson state)]

def serializeRelayState (state : RelayState) (env : RelayEnv) : Except JsError Json := do
  let snapshot := snapshotJson state (env.now 0)
  assertNoPlaintextLookingFields snapshot "relay state snapshot"
  return snapshot

/-! ## Reading -/

def keyCheckPayload : Json :=
  .obj [(js "schema", .str RELAY_STATE_SCHEMA), (js "purpose", .str (js "relay_state_key_check"))]

/-- The checks on the descriptor of a node. -/
def checkDescriptor (descriptor : Json) (node_id publicKey key_id : JsString) : Except JsError Unit := do
  failIf (isStr (descriptor.get (js "schema")) NODE_SCHEMA = false)
    (plainError (js "relay node trust descriptor schema mismatch"))
  failIf (isStr (descriptor.get (js "node_id")) node_id = false)
    (plainError (js "relay node trust descriptor node_id mismatch"))
  let descriptorKey ← assertPlainRecord (descriptor.get (js "key")) "relay node trust descriptor key"
  failIf (isStr (descriptorKey.get (js "alg")) (js "Ed25519") = false)
    (plainError (js "relay node trust descriptor key algorithm is not supported"))
  failIf (isStr (descriptorKey.get (js "key_id")) key_id = false) (plainError (js "relay node signer key_id mismatch"))
  failIf ((isStr (descriptorKey.get (js "public_key")) publicKey && isStr (descriptor.get (js "public_key")) publicKey) = false)
    (plainError (js "relay node public key mismatch"))
  assertSignedBy P descriptor publicKey "relay node trust descriptor"
  let descriptorHash ← assertRoot (descriptor.get (js "descriptor_hash")) "relay node trust descriptor descriptor_hash"
  failIf (descriptorHash ≠ signedRecordHash P descriptor (js "descriptor_hash"))
    (plainError (js "relay node trust descriptor hash mismatch"))

def hydrateNodeState (nodeState : Option Json) : Except JsError Node := do
  let node ← assertPlainRecord (some (← cloneJson nodeState "relay node state")) "relay node state"
  assertNoPlaintextLookingFields node "relay node state"
  assertOnlyKeys node RELAY_STATE_NODE_KEYS "relay node state"
  failIf (isStr (node.get (js "schema")) NODE_SCHEMA = false) (plainError (js "relay node schema mismatch"))
  let node_id ← assertString (node.get (js "node_id")) "relay node node_id"
  let publicKey ← assertString (node.get (js "publicKey")) "relay node publicKey"
  let privateKey ← assertString (node.get (js "privateKey")) "relay node privateKey"
  let signer ← assertPlainRecord (node.get (js "signer")) "relay node signer"
  assertOnlyKeys signer [js "alg", js "key_id"] "relay node signer"
  failIf (isStr (signer.get (js "alg")) (js "Ed25519") = false)
    (plainError (js "relay node signer algorithm is not supported"))
  let key_id ← assertString (signer.get (js "key_id")) "relay node signer key_id"
  let descriptor ← assertPlainRecord (node.get (js "trust_descriptor")) "relay node trust descriptor"
  checkDescriptor P descriptor node_id publicKey key_id
  let keyCheckSignature ← signPayload P keyCheckPayload (some privateKey)
  failIf (verifySignature P keyCheckPayload (some (.str keyCheckSignature)) publicKey = false)
    (plainError (js "relay node signing material mismatch"))
  return ⟨node_id, key_id, publicKey, privateKey, descriptor,
    (orElse (node.get (js "public_descriptor")) (some descriptor)).getD descriptor⟩

/-- `expires_at` is `null` or a date. -/
def assertExpiry (expires_at : Option Json) : Except JsError Unit :=
  match expires_at with
  | some .null => .ok ()
  | expires_at => (assertIsoDate P expires_at "relay record expires_at").map fun _ => ()

def validateRelayRecord (record : Json) (store_id : JsString) (node : Node) : Except JsError Json := do
  let relayRecord ← assertPlainRecord (some record) "relay record state"
  assertNoPlaintextLookingFields relayRecord "relay record state"
  assertOnlyKeys relayRecord RELAY_STATE_RECORD_KEYS "relay record state"
  failIf (isStr (relayRecord.get (js "schema")) RELAY_RECORD_SCHEMA = false) (plainError (js "relay record schema mismatch"))
  let _ ← assertString (relayRecord.get (js "record_id")) "relay record record_id"
  failIf (isStr (relayRecord.get (js "store_id")) store_id = false) (plainError (js "relay record store_id mismatch"))
  let _ ← assertRoot (relayRecord.get (js "encrypted_payload_hash")) "relay record encrypted_payload_hash"
  failIf (isStr (relayRecord.get (js "payload_storage")) (js "hash_only") = false)
    (plainError (js "relay record payload_storage must be hash_only"))
  let _ ← assertIsoDate P (relayRecord.get (js "received_at")) "relay record received_at"
  assertExpiry P (relayRecord.get (js "expires_at"))
  assertSignedBy P relayRecord node.publicKey "relay record"
  return relayRecord

def validatePairing (pairing : Json) (node : Node) : Except JsError Json := do
  let record ← assertPlainRecord (some pairing) "completed pairing state"
  assertNoPlaintextLookingFields record "completed pairing state"
  assertOnlyKeys record RELAY_STATE_PAIRING_KEYS "completed pairing state"
  failIf (isStr (record.get (js "schema")) PAIRING_COMPLETION_SCHEMA = false) (plainError (js "completed pairing schema mismatch"))
  let _ ← assertString (record.get (js "pairing_id")) "completed pairing pairing_id"
  let _ ← assertString (record.get (js "challenge_id")) "completed pairing challenge_id"
  failIf (isStr (record.get (js "relay_node_id")) node.node_id = false)
    (plainError (js "completed pairing relay_node_id mismatch"))
  let clientPublicKey ← assertString (record.get (js "client_public_key")) "completed pairing client_public_key"
  failIf (isStr (record.get (js "client_public_key_hash")) (prefixedSha256 clientPublicKey) = false)
    (plainError (js "completed pairing client_public_key_hash mismatch"))
  let _ ← assertIsoDate P (record.get (js "issued_at")) "completed pairing issued_at"
  assertSignedBy P record node.publicKey "completed pairing"
  return record

/-- One checkpoint of the log that follows on a hash and an epoch. -/
def validateCheckpoint (checkpointState : Json) (node : Node) (previousWitnessHash : JsString) (previousEpoch : ℚ) :
    Except JsError Json := do
  let checkpoint ← assertPlainRecord (some checkpointState) "witness checkpoint state"
  assertNoPlaintextLookingFields checkpoint "witness checkpoint state"
  let witnessHash ← assertRoot (checkpoint.get (js "witness_hash")) "witness checkpoint witness_hash"
  failIf (witnessHash ≠ signedRecordHash P checkpoint (js "witness_hash")) (plainError (js "witness checkpoint hash mismatch"))
  let errors := verifyWitnessCheckpoint P checkpoint (expectation node checkpoint previousWitnessHash (previousEpoch + 1))
  failIf (errors ≠ []) (plainError (js "witness checkpoint state invalid: " ++ (js ", ").intercalate errors))
  failIf (epochOf checkpoint ≤ previousEpoch) (plainError (js "witness checkpoint epochs must increase monotonically"))
  return checkpoint

/-- The loop of `validateWitnessLog`. -/
def validateCheckpoints (node : Node) : List Json → JsString → ℚ → Except JsError (List Json)
  | [], _, _ => .ok []
  | checkpointState :: rest, previousWitnessHash, previousEpoch => do
    let checkpoint ← validateCheckpoint P checkpointState node previousWitnessHash previousEpoch
    let checkpoints ← validateCheckpoints node rest (textOf checkpoint "witness_hash") (epochOf checkpoint)
    return checkpoint :: checkpoints

def validateWitnessLog (witnessLog : Option Json) (node : Node) : Except JsError (List Json) :=
  match witnessLog with
  | some (.arr checkpoints) => validateCheckpoints P node checkpoints emptyMerkleRoot (-1)
  | _ => .error (typeError (js "relay witness_log must be an array"))

/-- The loop over the records of the snapshot. -/
def fileRecords (node : Node) : List Json → RelayStore → Except JsError RelayStore
  | [], store => .ok store
  | recordState :: rest, store => do
    let record ← validateRelayRecord P recordState store.store_id node
    failIf (store.records.has (recordKey store.records.size (idOf record)) = true)
      (plainError (js "duplicate relay record_id in state"))
    fileRecords node rest (store.file record)

def hydrateRelayStoreState (storeState recordsState : Option Json) (node : Node) : Except JsError RelayStore := do
  let store ← assertPlainRecord (some (← cloneJson storeState "relay store state")) "relay store state"
  assertNoPlaintextLookingFields store "relay store state"
  assertOnlyKeys store RELAY_STATE_STORE_KEYS "relay store state"
  failIf (isStr (store.get (js "schema")) (js "enigma.relay_store.v1") = false) (plainError (js "relay store schema mismatch"))
  let store_id ← assertString (store.get (js "store_id")) "relay store store_id"
  failIf (isStr (store.get (js "node_id")) node.node_id = false) (plainError (js "relay store node_id mismatch"))
  let created_at ← assertIsoDate P (store.get (js "created_at")) "relay store created_at"
  let metadata ← assertPlainRecord (store.get (js "metadata")) "relay store metadata"
  assertOnlyKeys metadata RELAY_STATE_STORE_METADATA_KEYS "relay store metadata"
  match natural? (metadata.get (js "record_count")), recordsState with
  | none, _ => .error (typeError (js "relay store metadata record_count must be a non-negative integer"))
  | some count, some (.arr records) =>
    failIf (records.length ≠ count) (plainError (js "relay record_count mismatch"))
    let relayStore ← createRelayStore P node (some store_id) (some node.node_id) created_at
    fileRecords P node records relayStore
  | some _, _ => .error (typeError (js "relay_records must be an array"))

def authorizationFromSnapshot (authorization : Option Json) : Except JsError Bool := do
  let record ← assertPlainRecord authorization "relay authorization state"
  assertOnlyKeys record RELAY_STATE_AUTHORIZATION_KEYS "relay authorization state"
  let paired := isStr (record.get (js "mode")) (js "paired_client_signature_required")
  let demo := isStr (record.get (js "mode")) (js "unauthenticated_local_demo")
  failIf ((paired || demo) = false) (plainError (js "relay authorization mode is not supported"))
  match record.get (js "allow_unauthenticated") with
  | some (.bool allow) =>
    failIf (demo ≠ allow) (plainError (js "relay authorization mode mismatch"))
    return allow
  | _ => .error (typeError (js "relay authorization allow_unauthenticated must be boolean"))

/-- The loop over the completed pairings. -/
def filePairings (node : Node) : List Json → OrdMap JsString Json → Except JsError (OrdMap JsString Json)
  | [], pairings => .ok pairings
  | pairingState :: rest, pairings => do
    let pairing ← validatePairing P pairingState node
    failIf (pairings.has (textOf pairing "pairing_id") = true) (plainError (js "duplicate completed pairing_id in state"))
    filePairings node rest (pairings.set (textOf pairing "pairing_id") pairing)

/-- `hydrateRelayState(snapshot, { challengeTtlMs })`. -/
def hydrateRelayState (snapshot : Json) (challengeTtlMs : ℤ) : Except JsError RelayState := do
  let record ← assertPlainRecord (some snapshot) "relay state snapshot"
  assertNoPlaintextLookingFields record "relay state snapshot"
  assertOnlyKeys record RELAY_STATE_KEYS "relay state snapshot"
  failIf (isStr (record.get (js "schema")) RELAY_STATE_SCHEMA = false) (plainError (js "relay state schema mismatch"))
  failIf (isNum (record.get (js "version")) 1 = false) (plainError (js "relay state version mismatch"))
  let _ ← assertIsoDate P (record.get (js "generated_at")) "relay state generated_at"
  let allowUnauthenticated ← authorizationFromSnapshot (record.get (js "authorization"))
  let node ← hydrateNodeState P (record.get (js "node"))
  let relayStore ← hydrateRelayStoreState P (record.get (js "relay_store")) (record.get (js "relay_records")) node
  let witnessLog ← validateWitnessLog P (record.get (js "witness_log")) node
  match record.get (js "completed_pairings") with
  | some (.arr completed) =>
    let pairings ← filePairings P node completed OrdMap.empty
    return { node, relayStore, witnessLog, pairingChallenges := OrdMap.empty, pairings, challengeTtlMs, allowUnauthenticated }
  | _ => .error (typeError (js "completed_pairings must be an array"))

end EnigmaMemory.Relay
