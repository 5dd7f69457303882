import EnigmaMemory.Spec.ImportReports
import EnigmaMemory.Spec.MeshArtifacts

/-!
# Capsules of imports

`packages/importers/src/index.js`: `exportEnigmaCapsule`, with the custody that vault writes give the candidates of some reports. A
vault write names a candidate, an address and the hash of a receipt; it counts if the receipt is embedded in it and verifies.
-/

namespace EnigmaMemory.Importers

open Json

variable (P : Platform)

def CAPSULE_SCHEMA : JsString := js "enigma.import_capsule.v1"

def CAPSULE_PAYLOAD_SCHEMA : JsString := js "enigma.import_capsule_payload.v1"

def VERIFIER_METADATA_SCHEMA : JsString := js "enigma.import_capsule_verifier_metadata.v1"

def DEFAULT_EXPIRY : JsString := js "2100-01-01T00:00:00.000Z"

/-! ## Candidates -/

def candidateKey (candidate : Json) : Json := given (candidate.get (js "candidate_id")) (.str (rootOf P candidate))

/-- The candidates, each key once. -/
def uniqueCandidates (candidates : List Json) : List Json :=
  (candidates.filter isRecord).foldl (fun out candidate =>
    if hasValue (out.map (candidateKey P)) (candidateKey P candidate) then out else out ++ [candidate]) []

def reportCandidates (reports : List Json) : List Json :=
  reports.flatMap fun report => (asArray (report.get (js "memory_candidates"))).filter isRecord

/-- `new Set(memoryCandidates.map((candidate) => candidate.candidate_id).filter(Boolean))`. -/
def candidateIds (memoryCandidates : List Json) : List Json :=
  distinctValues (memoryCandidates.filterMap fun candidate => (candidate.get (js "candidate_id")).filter fun id => truthy (some id))

/-! ## Vault writes -/

/-- `Number.isInteger(value)`. -/
def isInteger : Option Json → Bool
  | some (.num q) => q.den == 1
  | _ => false

/-- `isRecord(value) && value.alg === 'Ed25519' && typeof value[name] === 'string'`. -/
def isEd25519 (value : Option Json) (name : String) : Bool :=
  match value with
  | some (.obj fs) => isStr ((Json.obj fs).get (js "alg")) (js "Ed25519") && isText ((Json.obj fs).get (js name))
  | _ => false

/-- The vault writes that reports list. -/
def listedWrites (reports : List Json) : List Json :=
  reports.flatMap fun report => (asArray (report.get (js "vault_writes"))).filter isRecord

/-- What `canonicalVaultWriteReceipt` reads of a receipt before it verifies it. -/
def receiptMatches (write receipt : Json) : Bool :=
  isStr (receipt.get (js "schema")) (js "enigma.receipt.v1") &&
    isStr (receipt.get (js "operation")) (js "create") &&
    strictEq (receipt.get (js "memory_addr")) (write.get (js "memory_addr")) &&
    isText (receipt.get (js "receipt_id")) &&
    isText (receipt.get (js "event_hash")) &&
    isText (receipt.get (js "active_set_root")) &&
    isText (receipt.get (js "receipt_log_root")) &&
    isText (receipt.get (js "previous_receipt_hash")) &&
    isText (receipt.get (js "timestamp")) &&
    isInteger (receipt.get (js "sequence")) &&
    isEd25519 (receipt.get (js "signer")) "key_id" &&
    isEd25519 (receipt.get (js "signature")) "value" &&
    isStr (write.get (js "receipt_hash")) (rootOf P receipt)

def canonicalVaultWriteReceipt (write : Json) : Bool :=
  match write.get (js "receipt"), write.get (js "receipt_public_key") with
  | some (.obj fs), some (.str publicKey) =>
    receiptMatches P write (.obj fs) &&
      (verifyReceipt P (.obj fs) { publicKey := some publicKey, expectedSigner := text? (signerKeyId (.obj fs)) }).isEmpty
  | _, _ => false

structure VaultWrite where
  candidate_id : JsString
  memory_addr : JsString
  receipt_hash : JsString
  event_id : Option JsString

def VaultWrite.toJson (write : VaultWrite) : Json :=
  .obj ([(js "candidate_id", .str write.candidate_id), (js "memory_addr", .str write.memory_addr),
    (js "receipt_hash", .str write.receipt_hash)] ++ field (js "event_id") (write.event_id.map .str))

/-- `${write.candidate_id}\0${write.memory_addr}\0${write.receipt_hash}`. -/
def VaultWrite.key (write : VaultWrite) : JsString := write.candidate_id ++ 0 :: write.memory_addr ++ 0 :: write.receipt_hash

/-- What is kept of a listed write that names its texts and whose receipt verifies. -/
def vaultWriteOf (write : Json) : Option VaultWrite :=
  match write.get (js "candidate_id"), write.get (js "memory_addr"), write.get (js "receipt_hash") with
  | some (.str candidate_id), some (.str memory_addr), some (.str receipt_hash) =>
    if canonicalVaultWriteReceipt P write then some ⟨candidate_id, memory_addr, receipt_hash, text? (write.get (js "event_id"))⟩ else none
  | _, _, _ => none

def collectReportVaultWrites (reports : List Json) : List VaultWrite :=
  ((listedWrites reports).filterMap (vaultWriteOf P)).foldl (fun out write =>
    if write.key ∈ out.map VaultWrite.key then out else out ++ [write]) []

def mappedVaultWrites (memoryCandidates reports : List Json) : List VaultWrite :=
  (collectReportVaultWrites P reports).filter fun write => hasValue (candidateIds memoryCandidates) (.str write.candidate_id)

/-! ## Custody -/

structure WriteCounts where
  canonical_candidate_count : ℕ
  candidate_only_count : ℕ
  vault_write_count : ℕ

/-- The candidates that a vault write names, each once. -/
def canonicalIds (memoryCandidates : List Json) (vaultWrites : List VaultWrite) : OrdSet JsString :=
  OrdSet.ofList ((vaultWrites.map VaultWrite.candidate_id).filter fun id => hasValue (candidateIds memoryCandidates) (.str id))

def vaultWriteCounts (memoryCandidates : List Json) (vaultWrites : List VaultWrite) : WriteCounts where
  canonical_candidate_count := (canonicalIds memoryCandidates vaultWrites).size
  candidate_only_count := (candidateIds memoryCandidates).length - (canonicalIds memoryCandidates vaultWrites).size
  vault_write_count := vaultWrites.length

inductive CustodyStatus where
  | candidate_only_noncanonical
  | vault_write_backed
  | empty
  deriving DecidableEq, Repr

def CustodyStatus.text : CustodyStatus → JsString
  | candidate_only_noncanonical => js "candidate_only_noncanonical"
  | vault_write_backed => js "vault_write_backed"
  | empty => js "empty"

def custodyStatus (counts : WriteCounts) : CustodyStatus :=
  if 0 < counts.candidate_only_count then .candidate_only_noncanonical
  else if 0 < counts.canonical_candidate_count then .vault_write_backed
  else .empty

/-- The listed writes that name a candidate, an address and a receipt. -/
def candidateReportVaultWrites (memoryCandidates reports : List Json) : List Json :=
  (listedWrites reports).filter fun write =>
    ((write.get (js "candidate_id")).map (hasValue (candidateIds memoryCandidates))).getD false &&
      isText (write.get (js "memory_addr")) && isText (write.get (js "receipt_hash"))

def receiptCode (write : Json) : List JsString :=
  match write.get (js "receipt") with
  | some (.obj _) => errorIf (!canonicalVaultWriteReceipt P write) "vault_write_receipt_unverified"
  | _ => [js "vault_write_receipt_missing"]

def collectCustodyLimitationCodes (memoryCandidates reports : List Json) (vaultWrites : List VaultWrite) : List JsString :=
  uniqueStrings P ((errorIf (decide (0 < (vaultWriteCounts memoryCandidates vaultWrites).candidate_only_count))
    "candidate_only_without_vault_write" ++
      (candidateReportVaultWrites memoryCandidates reports).flatMap (receiptCode P)).map .str)

def custodyLimitationTexts (codes : List JsString) : List JsString :=
  errorIf (decide (js "candidate_only_without_vault_write" ∈ codes))
      "candidate-only memories are noncanonical until written to a vault; active_set_root commits only vault memory_addr values" ++
    errorIf (decide (js "vault_write_receipt_missing" ∈ codes))
      "vault_writes without embedded receipt objects are unverified; canonical roots ignore receipt_hash-only claims" ++
    errorIf (decide (js "vault_write_receipt_unverified" ∈ codes))
      "vault_writes with mismatched receipt evidence are unverified; canonical roots ignore unproven custody claims"

/-! ## Roots -/

def sourceRefRoot (memoryCandidates : List Json) : JsString :=
  MerkleSet.root (OrdSet.ofList ((memoryCandidates.flatMap fun candidate => asArray (candidate.get (js "source_refs"))).map (rootOf P)))

def sourceLimitationsRoot (reports memoryCandidates : List Json) (extraLimitations : List JsString) : JsString :=
  rootOf P (.arr ((uniqueStrings P (extraLimitations.map .str ++
    (reports.flatMap fun report => asArray (report.get (js "limitations"))) ++
    memoryCandidates.flatMap fun candidate => asArray (candidate.get (js "limitations")))).map .str))

/-- `report.complete === true && report.completeness === 'explicit_complete'`. -/
def isExplicitlyComplete (report : Json) : Bool :=
  strictEq (report.get (js "complete")) (some (.bool true)) && isStr (report.get (js "completeness")) (js "explicit_complete")

def completenessSummary (reports : List Json) : JsString :=
  if !reports.isEmpty && reports.all isExplicitlyComplete then js "explicit_complete" else js "partial_or_unknown"

/-- The scope of a capsule. Where an id is missing the text is written by `JSON.stringify`, with `null` in its place. -/
def ownerScopeHash (holder : Json) (reports memoryCandidates : List Json) : JsString :=
  let reportIds := reports.map (·.get (js "report_id"))
  let ids := memoryCandidates.map (·.get (js "candidate_id"))
  let scope := Json.obj [(js "holder", holder), (js "importer_reports", .arr (reportIds.map (·.getD .null))),
    (js "candidates", .arr (ids.map (·.getD .null)))]
  if (reportIds ++ ids).all Option.isSome then rootOf P scope else prefixedSha256 (scope.stringify P.toNumberFormat)

/-! ## Export -/

def exportReports (args : Json) : List Json :=
  (asArray (orElse (args.get (js "reports")) (args.get (js "report")))).filter isRecord

def exportCandidates (args : Json) (reports : List Json) : List Json :=
  uniqueCandidates P ((asArray (firstOf [args.get (js "memory_candidates"), args.get (js "memoryCandidates"),
    args.get (js "candidates")])).filter isRecord ++ reportCandidates reports)

def capsulePayload (reports memoryCandidates : List Json) (exportedAt : JsString) : Json :=
  .obj [(js "schema", .str CAPSULE_PAYLOAD_SCHEMA), (js "exported_at", .str exportedAt),
    (js "private_plaintext_boundary", .obj [(js "contains_private_plaintext", .bool (!memoryCandidates.isEmpty)),
      (js "private_fields", .arr [.str (js "memory_candidates.content"), .str (js "reports.memory_candidates.content")]),
      (js "public_artifact_policy", .str (js "manifest_and_verifier_metadata_only"))]),
    (js "reports", .arr reports), (js "memory_candidates", .arr memoryCandidates)]

/-- The node given, or a new one. -/
def exportNode (keyPair : JsString × JsString) (args : Json) (exportedAt : JsString) : Except JsError Json :=
  match orElse (args.get (js "node")) none with
  | some node => .ok node
  | none => do
    let node ← Mesh.createMeshNode P
      { keyPair, role := js "mesh_node",
        capabilities := [js "capsule_manifest", js "witness_checkpoint", js "relay_store", js "federation_grant"], endpoints := []
        created_at := exportedAt }
    return node.toJson

def manifestOptions (args node : Json) (reports memoryCandidates : List Json) (vaultWrites : List VaultWrite)
    (payloadHash exportedAt : JsString) : Json :=
  let holder := given (firstOf [args.get (js "holder"), args.get (js "holder_id"), args.get (js "holderId")])
    (.str (js "holder:importer"))
  .obj ([(js "node", node)] ++ field (js "issuer") (orElse (args.get (js "issuer")) (node.get (js "node_id"))) ++
    [(js "holder", holder), (js "encrypted_payload_hash", .str payloadHash),
      (js "receipt_log_root", .str (MerkleSet.root (OrdSet.ofList (vaultWrites.map VaultWrite.receipt_hash)))),
      (js "active_set_root", .str (MerkleSet.root (OrdSet.ofList (vaultWrites.map VaultWrite.memory_addr)))),
      (js "owner_scope_hash", .str (ownerScopeHash P holder reports memoryCandidates)), (js "issued_at", .str exportedAt),
      (js "expires_at", given (orElse (args.get (js "expires_at")) (args.get (js "expiresAt"))) (.str DEFAULT_EXPIRY))])

def verifierMetadata (manifest node : Json) (reports memoryCandidates : List Json) (vaultWrites : List VaultWrite)
    (payloadHash : JsString) : Json :=
  let counts := vaultWriteCounts memoryCandidates vaultWrites
  let codes := collectCustodyLimitationCodes P memoryCandidates reports vaultWrites
  .obj ([(js "schema", .str VERIFIER_METADATA_SCHEMA)] ++ field (js "capsule_id") (manifest.get (js "capsule_id")) ++
    [(js "payload_schema", .str CAPSULE_PAYLOAD_SCHEMA), (js "payload_hash", .str payloadHash),
      (js "import_report_hashes", .arr (reports.map fun report => .str (rootOf P report))),
      (js "candidate_count", .num memoryCandidates.length), (js "source_ref_root", .str (sourceRefRoot P memoryCandidates)),
      (js "limitations_root", .str (sourceLimitationsRoot P reports memoryCandidates (custodyLimitationTexts codes))),
      (js "completeness", .str (completenessSummary reports)), (js "custody_status", .str (custodyStatus counts).text),
      (js "custody_limitation_codes", .arr (codes.map .str)),
      (js "canonical_candidate_count", .num counts.canonical_candidate_count),
      (js "candidate_only_count", .num counts.candidate_only_count), (js "vault_write_count", .num counts.vault_write_count),
      (js "vault_writes", .arr (vaultWrites.map VaultWrite.toJson)),
      (js "private_plaintext_boundary", .obj [(js "payload_contains_private_plaintext", .bool (!memoryCandidates.isEmpty)),
        (js "public_artifacts_contain_plaintext", .bool false),
        (js "public_artifact_policy", .str (js "hashes_roots_counts_and_trusted_descriptor_only"))]),
      (js "active_set_root", .str (MerkleSet.root (OrdSet.ofList (vaultWrites.map VaultWrite.memory_addr)))),
      (js "receipt_log_root", .str (MerkleSet.root (OrdSet.ofList (vaultWrites.map VaultWrite.receipt_hash))))] ++
    field (js "trust_descriptor") (node.get (js "trust_descriptor")))

/-- `exportEnigmaCapsule(args)`; `keyPair` is what a new node is given. -/
def exportEnigmaCapsule (keyPair : JsString × JsString) (now : Now) (args : Json) : Except JsError Json := do
  let reports := exportReports args
  let memoryCandidates := exportCandidates P args reports
  let exportedAt ← nowFrom P now
  let vaultWrites := mappedVaultWrites P memoryCandidates reports
  let payload := capsulePayload reports memoryCandidates exportedAt
  let payloadHash := rootOf P payload
  let node ← exportNode P keyPair args exportedAt
  let manifest ← Mesh.Artifacts.createCapsuleManifest P
    (manifestOptions P args node reports memoryCandidates vaultWrites payloadHash exportedAt)
  let metadata := verifierMetadata P manifest node reports memoryCandidates vaultWrites payloadHash
  return .obj ([(js "schema", .str CAPSULE_SCHEMA)] ++ field (js "capsule_id") (manifest.get (js "capsule_id")) ++
    [(js "exported_at", .str exportedAt), (js "manifest", manifest), (js "verifier_metadata", metadata),
      (js "payload_hash", .str payloadHash), (js "payload", payload),
      (js "public_artifacts", .obj [(js "manifest", manifest), (js "verifier_metadata", metadata)])])

end EnigmaMemory.Importers
