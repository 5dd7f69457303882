import EnigmaMemory.Spec.Settlement

/-!
# The proof network

`packages/proof-network`: public artifacts about a private memory (anchored roots, capability
grants and their revocations, benchmark attestations, registry entries, and packets and batches
of these). Each constructor normalizes the fields of its input and names the artifact by a
digest of its body; each validator checks an artifact that may come from anywhere.

Inputs are JSON values. A validator is a list of checks in the order of the source: a check
gives the errors that it pushes, or it throws, and then the checks behind it are not made.
-/

namespace EnigmaMemory

namespace ProofNetwork

open Json Regex
open Settlement (litU letterClass charRanges)

variable (P : Platform)

/-! ## Kinds of artifacts -/

inductive Kind where
  | anchorBatch
  | capabilityGrant
  | capabilityRevocation
  | benchmarkAttestation
  | packet
  | registryEntry
  | registryBatch
  deriving DecidableEq, Repr

namespace Kind

def schema : Kind → JsString
  | anchorBatch => js "enigma.proof_network.anchor_batch.v1"
  | capabilityGrant => js "enigma.proof_network.capability_grant.v1"
  | capabilityRevocation => js "enigma.proof_network.capability_revocation.v1"
  | benchmarkAttestation => js "enigma.proof_network.benchmark_attestation.v1"
  | packet => js "enigma.proof_network.packet.v1"
  | registryEntry => js "enigma.proof_network.registry_entry.v1"
  | registryBatch => js "enigma.proof_network.registry_batch.v1"

/-- The field of the identifier, the field of the hash, and how the identifier begins. -/
def idField : Kind → String
  | anchorBatch => "anchor_batch_id"
  | capabilityGrant => "capability_grant_id"
  | capabilityRevocation => "capability_revocation_id"
  | benchmarkAttestation => "benchmark_attestation_id"
  | packet => "proof_network_packet_id"
  | registryEntry => "registry_entry_id"
  | registryBatch => "registry_batch_id"

def hashField : Kind → String
  | anchorBatch => "anchor_batch_hash"
  | capabilityGrant => "capability_grant_hash"
  | capabilityRevocation => "capability_revocation_hash"
  | benchmarkAttestation => "benchmark_attestation_hash"
  | packet => "proof_network_packet_hash"
  | registryEntry => "registry_entry_hash"
  | registryBatch => "registry_batch_hash"

def prefixText : Kind → String
  | anchorBatch => "pna"
  | capabilityGrant => "png"
  | capabilityRevocation => "pnr"
  | benchmarkAttestation => "pnb"
  | packet => "pnp"
  | registryEntry => "pnrg"
  | registryBatch => "pnrb"

end Kind

/-- `SUPPORTED_ARTIFACT_SCHEMAS`, with the kind of each. -/
def supportedKinds : List Kind :=
  [.anchorBatch, .capabilityGrant, .capabilityRevocation, .benchmarkAttestation, .packet, .registryEntry, .registryBatch]

/-- The kind of an artifact, by its schema. -/
def kindOf (artifact : Json) : Option Kind := supportedKinds.find? fun kind => isStr (artifact.get (js "schema")) kind.schema

def registryEntryTypes : List JsString :=
  [js "anchor_batch", js "benchmark_attestation", js "connector_conformance", js "health_report", js "operator_receipt",
    js "settlement_job"]

/-- `SAFE_BOOLEAN_BOUNDARIES`: all of them are false. -/
def safeFieldNames : List String :=
  ["transaction_submitted", "raw_memory_on_chain", "provider_deletion_claim", "model_forgetting_claim", "hosted_saas_claim"]

def safeBooleanBoundaries : List (JsString × Json) := safeFieldNames.map fun name => (js name, .bool false)

/-! ## Patterns -/

/-- `[a-z0-9._:/@+-]`. -/
def isRefUnit (c : CodeUnit) : Bool := isLowerUnit c || isDigitUnit c || decide (c ∈ js "._:/@+-")

/-- `REF_RE`. -/
def refTest : JsString → Bool
  | [] => false
  | c :: rest => (isLowerUnit c || isDigitUnit c) && decide (2 ≤ rest.length ∧ rest.length ≤ 191) && rest.all isRefUnit

/-- `ROOT_RE`. -/
def rootTest (s : JsString) : Bool := (js "sha256:").isPrefixOf s && isHash (s.drop 7)

/-- `[A-Za-z0-9._~+/=-]`. -/
def isSignatureUnit (c : CodeUnit) : Bool :=
  isLowerUnit c || isUpperUnit c || isDigitUnit c || decide (c ∈ js "._~+/=-")

/-- `SIGNATURE_REF_RE`. -/
def signatureRefTest (s : JsString) : Bool :=
  [js "ed25519:", js "secp256k1:", js "signature:"].any fun scheme =>
    let rest := s.drop scheme.length
    scheme.isPrefixOf s && decide (16 ≤ rest.length ∧ rest.length ≤ 256) && rest.all isSignatureUnit

/-- `[a-z0-9._:-]`. -/
def isScopeUnit (c : CodeUnit) : Bool := isLowerUnit c || isDigitUnit c || decide (c ∈ js "._:-")

/-- `SCOPE_RE`. -/
def scopeTest : JsString → Bool
  | [] => false
  | c :: rest => isLowerUnit c && decide (1 ≤ rest.length ∧ rest.length ≤ 63) && rest.all isScopeUnit

def forbiddenWords : List String :=
  ["raw", "plaintext", "plain_text", "prompt", "prompts", "message", "messages", "text", "content", "document",
    "documents", "transcript", "transcripts", "completion", "completions", "embedding", "embeddings", "acl", "acl_body",
    "access_control_list", "provider_response", "provider_responses", "response_body", "credential", "credentials",
    "api_key", "secret", "password", "private_key", "seed", "seed_phrase", "mnemonic", "tenant_name", "customer_name",
    "organization_name", "org_name"]

def forbiddenKeyRe : Regex := cat [any [start, litU "_"], any (forbiddenWords.map litU), any [stop, litU "_"]]

def secretValueRe : Regex :=
  any [cat [litU "Bearer", plus space, atLeast (letterClass ((48, 57) :: charRanges "._~+/=-")) 12],
    cat [litU "Basic", plus space, atLeast (letterClass ((48, 57) :: charRanges "+/=-")) 12],
    cat [litU "-----BEGIN ", star (letterClass (charRanges " ")), litU "PRIVATE KEY-----"],
    cat [litU "http", opt (litU "s"), litU "://", plus (cls ⟨whiteRanges ++ charRanges "/:@", true⟩), litU ":",
      plus (cls ⟨whiteRanges ++ charRanges "/@", true⟩), litU "@"],
    cat [litU "sk-", atLeast (letterClass ((48, 57) :: charRanges "_-")) 16],
    cat [litU "AKIA", times (letterClass [(48, 57)]) 16],
    litU "seed phrase", litU "mnemonic phrase", litU "raw memory", litU "private prompt", litU "full transcript",
    litU "provider response", litU "embedding vector"]

/-! ## Digests -/

/-- The value with the keys of every object added in increasing order, as in the settlement package. -/
def canonicalize (value : Json) : Json := Settlement.canonicalize value

/-- `value === false`. -/
def isFalse : Json → Bool
  | .bool false => true
  | _ => false

mutual
def assertNoPrivateProofPayload : Json → JsString → Except JsError Unit
  | .str s, path =>
    if regexTest secretValueRe s then .error (typeError (path ++ js " contains private or secret-looking data")) else .ok ()
  | .arr xs, path => assertItems xs path 0
  | .obj fs, path => assertFields fs path
  | _, _ => .ok ()

def assertItems : List Json → JsString → ℕ → Except JsError Unit
  | [], _, _ => .ok ()
  | x :: xs, path, index => do
    assertNoPrivateProofPayload x (indexPath P.toNumberFormat path index)
    assertItems xs path (index + 1)

def assertFields : List (JsString × Json) → JsString → Except JsError Unit
  | [], _ => .ok ()
  | (key, child) :: fs, path =>
    if regexTest forbiddenKeyRe key && decide (key ∉ safeFieldNames.map js) then
      .error (typeError (keyPath path key ++ js " is not allowed in proof-network artifacts"))
    else if decide (key ∈ safeFieldNames.map js) && !isFalse child then
      .error (typeError (keyPath path key ++ js " must be false"))
    else do
      assertNoPrivateProofPayload child (keyPath path key)
      assertFields fs path
end

def sha256Json (value : Json) : Except JsError JsString := do
  assertNoPrivateProofPayload P value (js "proof")
  return js "sha256:" ++ sha256Hex ((canonicalize value).stringify P.toNumberFormat)

/-- `digest.slice(SHA256_PREFIX.length, SHA256_PREFIX.length + 32)`. -/
def shortDigest (digest : JsString) : JsString := (digest.drop 7).take 32

def refFromDigest (kind : String) (digest : JsString) : JsString := js kind ++ js ":" ++ shortDigest digest

/-! ## Checks on values -/

def requiredObject (value : Json) (field : JsString) : Except JsError Unit :=
  if value.isPlainRecord then .ok () else .error (typeError (field ++ js " must be an object"))

def requiredString (value : Option Json) (field : JsString) : Except JsError JsString :=
  match value with
  | some (.str s) => if trim s = [] then .error (typeError (field ++ js " must be a non-empty string")) else .ok (trim s)
  | _ => .error (typeError (field ++ js " must be a non-empty string"))

/-- Nothing is given: `undefined`, `null` or the empty string. -/
def isBlank : Option Json → Bool
  | none | some .null | some (.str []) => true
  | _ => false

/-- A check for a field that may be left out. -/
def optionally (check : Option Json → JsString → Except JsError JsString) (value : Option Json) (fallback field : JsString) :
    Except JsError JsString := if isBlank value then .ok fallback else check value field

def optionalString := optionally requiredString

/-- A required string that passes a test. -/
def testedString (test : JsString → Bool) (message : String) (value : Option Json) (field : JsString) :
    Except JsError JsString := do
  let string ← requiredString value field
  if test string then .ok string else .error (typeError (field ++ js message))

def publicRef := testedString refTest " must be an opaque public ref"

def optionalPublicRef := optionally publicRef

def digestRef := testedString rootTest " must be a sha256-prefixed digest"

def optionalDigestRef := optionally digestRef

def signatureRef := testedString signatureRefTest " must be an opaque signature ref"

/-- `Date.parse(value)` for a field that is a string or missing. -/
def parsedDate (value : Option Json) : Option ℤ :=
  match value with
  | some (.str s) => P.parseDate s
  | _ => none

def isoTimestampOr (value : Option Json) (field fallback : JsString) : Except JsError JsString := do
  let timestamp ← optionalString value fallback field
  if (P.parseDate timestamp).isNone then .error (typeError (field ++ js " must be ISO-parseable")) else .ok timestamp

/-- With the default fallback. -/
def isoTimestamp (value : Option Json) (field : JsString) : Except JsError JsString :=
  isoTimestampOr P value field (js "1970-01-01T00:00:00.000Z")

/-- `Number(value)`, an integer that passes a test. -/
def testedInteger (test : ℚ → Bool) (message : String) (value : Option Json) (field : JsString) : Except JsError ℚ :=
  match toNumeric P.toNumberFormat value with
  | .finite q => if q.den == 1 && test q then .ok q else .error (typeError (field ++ js message))
  | _ => .error (typeError (field ++ js message))

def nonNegativeInteger (value : Option Json) (field : JsString) (fallback : ℚ) : Except JsError ℚ :=
  testedInteger P (fun q => decide (0 ≤ q)) " must be a non-negative integer" (orElse value (some (.num fallback))) field

def positiveInteger (value : Option Json) (field : JsString) : Except JsError ℚ :=
  testedInteger P (fun q => decide (0 < q)) " must be a positive integer" value field

/-- `Array.isArray(value) ? value : [value]`. -/
def listOf : Option Json → List (Option Json)
  | some (.arr xs) => xs.map some
  | value => [value]

/-- `${field}[${index}]`. -/
def itemField (field : JsString) (index : ℕ) : JsString := indexPath P.toNumberFormat field index

/-- Each item of a list through a check. -/
def checkItems (check : Option Json → JsString → Except JsError JsString) (list : List (Option Json)) (field : JsString) :
    Except JsError (List JsString) := list.zipIdx.mapM fun x => check x.1 (itemField P field x.2)

def scope := testedString scopeTest " must be a public scope token"

def publicScopes (value : Option Json) (field : JsString) : Except JsError (List JsString) := do
  let scopes := listOf value
  if scopes.length = 0 ∨ 32 < scopes.length then throw (typeError (field ++ js " must contain 1-32 scopes"))
  let checked ← checkItems P scope scopes field
  return sortStrings (OrdSet.ofList checked).elems

def digestArray (value : Option Json) (field : JsString) : Except JsError (List JsString) := do
  let list := listOf value
  if list.length < 1 ∨ 64 < list.length then throw (typeError (field ++ js " must contain 1-64 digest refs"))
  checkItems P digestRef list field

def publicRefArray (value : Option Json) (field : JsString) : Except JsError (List JsString) := do
  let list := match value with
    | none | some .null => []
    | value => listOf value
  if 64 < list.length then throw (typeError (field ++ js " must contain 0-64 refs"))
  let refs ← checkItems P publicRef list field
  return sortStrings refs

def arrayInput : Option Json → List Json
  | none | some .null => []
  | some (.arr xs) => xs
  | some value => [value]

def strings (xs : List JsString) : Json := .arr (xs.map .str)

/-! ## Commitments -/

def commitmentKind (value : Option Json) : Except JsError JsString := do
  let kind ← optionalString value (js "memory_root") (js "kind")
  if scopeTest kind then .ok kind else .error (typeError (js "kind must be a public scope token"))

/-- A field of a commitment that is left out unless it is given. -/
def givenRef (value : Option Json) (field : JsString) : Except JsError (Option Json) :=
  if isBlank value then .ok none else (publicRef value field).map fun ref => some (.str ref)

def givenCount (value : Option Json) (field : JsString) : Except JsError (Option Json) :=
  match value with
  | none | some .null => .ok none
  | value => (positiveInteger P value field).map fun count => some (.num count)

def commitmentObject (item : Json) (index : ℕ) : Except JsError Json := do
  let name := itemField P (js "commitments") index
  requiredObject item name
  let kind ← commitmentKind (item.get (js "kind"))
  let root ← digestRef (firstOf [item.get (js "root"), item.get (js "commitment_root"), item.get (js "commitmentRoot")])
    (name ++ js ".root")
  let ref ← givenRef (firstOf [item.get (js "ref"), item.get (js "public_ref"), item.get (js "publicRef")]) (name ++ js ".ref")
  let count ← givenCount P (firstOf [item.get (js "count"), item.get (js "leaf_count"), item.get (js "leafCount")])
    (name ++ js ".count")
  return .obj ([(js "kind", .str kind), (js "root", .str root)] ++ field (js "ref") ref ++ field (js "count") count)

def normalizeCommitment (item : Json) (index : ℕ) : Except JsError Json :=
  match item with
  | .str s => (digestRef (some (.str s)) (itemField P (js "roots") index)).map fun root =>
    .obj [(js "kind", .str (js "memory_root")), (js "root", .str root)]
  | item => commitmentObject P item index

/-- The text of a field of a commitment that was normalized; a missing one is empty. -/
def textField (item : Json) (key : String) : JsString :=
  match item.get (js key) with
  | some (.str s) => s
  | _ => []

/-- `${a.kind}:${a.root}:${a.ref ?? ''}`. -/
def commitmentText (item : Json) : JsString :=
  textField item "kind" ++ js ":" ++ textField item "root" ++ js ":" ++ textField item "ref"

def sortCommitments (items : List Json) : List Json :=
  items.insertionSort fun a b => P.localeLe (commitmentText a) (commitmentText b)

/-- A root that is given as a text takes the reference at its place. -/
def withRef (refs : List JsString) (item : Json) (index : ℕ) : Json :=
  match item, refs[index]? with
  | .str s, some ref => .obj [(js "kind", .str (js "memory_root")), (js "root", .str s), (js "ref", .str ref)]
  | item, _ => item

/-- The first of these fields that is given. -/
def fieldOf (input : Json) (keys : List String) : Option Json := firstOf (keys.map fun key => input.get (js key))

def normalizeCommitments (input : Json) : Except JsError (List Json) := do
  let raw := fieldOf input
    ["commitments", "memory_roots", "memoryRoots", "roots", "commitment_roots", "commitmentRoots", "event_roots", "eventRoots"]
  let refs ← publicRefArray P (fieldOf input ["refs", "artifact_refs", "artifactRefs"]) (js "refs")
  let list := (arrayInput raw).zipIdx.map fun x => withRef refs x.1 x.2
  if list.isEmpty then throw (typeError (js "commitments must be non-empty"))
  let normalized ← list.zipIdx.mapM fun x => normalizeCommitment P x.1 x.2
  return sortCommitments P normalized

/-! ## Identities -/

/-- An artifact from its body; the body has neither of the two fields. -/
def freezeArtifact (kind : Kind) (body : Json) : Except JsError Json := do
  let hash ← sha256Json P body
  let artifact : Json := .obj (body.fields ++
    [(js kind.idField, .str (js kind.prefixText ++ js "_" ++ shortDigest hash)), (js kind.hashField, .str hash)])
  assertNoPrivateProofPayload P artifact (js "proof")
  return artifact

def bodyWithoutIdentity (kind : Kind) (artifact : Json) : Json :=
  (artifact.without (js kind.idField)).without (js kind.hashField)

/-- The errors of one check, or what it throws. -/
abbrev Check := Except JsError (List JsString)

/-- `validate(errors)` and the message of what it throws. -/
def collectValidation : List Check → List JsString
  | [] => []
  | .ok errors :: rest => errors ++ collectValidation rest
  | .error e :: _ => [e.message]

/-- A check that only throws. -/
def required {α : Type} (x : Except JsError α) : Check := x.map fun _ => []

def validateIdentity (kind : Kind) (artifact : Json) : Check := do
  let expectedHash ← sha256Json P (bodyWithoutIdentity kind artifact)
  let expectedId := js kind.prefixText ++ js "_" ++ shortDigest expectedHash
  return errorIf (!isStr (artifact.get (js kind.hashField)) expectedHash) (kind.hashField ++ " mismatch")
    ++ errorIf (!isStr (artifact.get (js kind.idField)) expectedId) (kind.idField ++ " mismatch")

def requireSafeBoundaries (artifact : Json) (path : String) : Check :=
  .ok (safeFieldNames.flatMap fun key =>
    errorIf (!((artifact.get (js key)).map isFalse).getD false) (path ++ "." ++ key ++ " must be false"))

/-- What every validator checks first. -/
def header (kind : Kind) (artifact : Json) (name : String) : List Check :=
  [required (requiredObject artifact (js name)),
    required (assertNoPrivateProofPayload P artifact (js name)),
    .ok (if isStr (artifact.get (js "schema")) kind.schema then [] else [js "schema must be " ++ kind.schema]),
    requireSafeBoundaries artifact name]

/-- `if (value !== undefined) signatureRef(value)`. -/
def signatureCheck (artifact : Json) : Check :=
  match artifact.get (js "signature_ref") with
  | none => .ok []
  | value => required (signatureRef value (js "signature_ref"))

/-- The signature reference of a constructor's input, if it has one. -/
def signatureField (input : Json) : Except JsError (List (JsString × Json)) :=
  let value := fieldOf input ["signature_ref", "signatureRef"]
  if truthy value then (signatureRef value (js "signature_ref")).map fun ref => [(js "signature_ref", .str ref)] else .ok []

/-- The root of a list of digests or references, against a field. -/
def rootCheck (artifact : Json) (key : String) (list : Except JsError Json) : Check := do
  let list ← list
  let expected ← sha256Json P list
  return errorIf (!isStr (artifact.get (js key)) expected) (key ++ " mismatch")

/-- What every constructor does first. -/
def checkInput (input : Json) : Except JsError Unit := do
  requiredObject input (js "input")
  assertNoPrivateProofPayload P input (js "input")

/-! ## Anchor batches -/

def createProofNetworkAnchorBatch (input : Json) : Except JsError Json := do
  checkInput P input
  let commitments ← normalizeCommitments P input
  let commitmentRoot ← sha256Json P (.arr commitments)
  let generatedAt ← isoTimestamp P (fieldOf input ["generated_at", "generatedAt", "created_at", "createdAt"]) (js "generated_at")
  let anchorRef ← optionalPublicRef (fieldOf input ["anchor_ref", "anchorRef", "batch_ref", "batchRef"])
    (refFromDigest "anchor" commitmentRoot) (js "anchor_ref")
  let chain ← optionalPublicRef (fieldOf input ["chain", "network", "public_chain_ref", "publicChainRef"]) (js "solana") (js "chain")
  let clusterRef ← optionalPublicRef (fieldOf input ["cluster_ref", "clusterRef", "cluster"]) (js "solana:mainnet-ready")
    (js "cluster_ref")
  let instructionRef ← optionalPublicRef (fieldOf input ["instruction_ref", "instructionRef"])
    (js "proof-network-anchor-batch-v1") (js "instruction_ref")
  freezeArtifact P .anchorBatch (.obj ([(js "schema", .str Kind.anchorBatch.schema), (js "generated_at", .str generatedAt),
    (js "anchor_ref", .str anchorRef), (js "chain", .str chain), (js "cluster_ref", .str clusterRef),
    (js "commitment_count", .num commitments.length), (js "root_count", .num commitments.length),
    (js "commitment_root", .str commitmentRoot), (js "commitments", .arr commitments),
    (js "solana_ready_anchor", .obj [(js "payload_hash", .str commitmentRoot),
      (js "account_derivation_ref", .str (js "proofnet:" ++ shortDigest commitmentRoot)),
      (js "instruction_ref", .str instructionRef), (js "opaque_payload_only", .bool true)])] ++ safeBooleanBoundaries))

/-- The commitments of a batch. -/
def batchCommitments (batch : Json) : Except JsError (List Json) :=
  normalizeCommitments P (.obj (field (js "commitments") (batch.get (js "commitments"))))

def validateProofNetworkAnchorBatch (batch : Json) : List JsString :=
  let anchor (key : String) := path (batch.get (js "solana_ready_anchor")) [key]
  collectValidation (header P .anchorBatch batch "batch" ++
    [required (isoTimestamp P (batch.get (js "generated_at")) (js "generated_at")),
      required (publicRef (batch.get (js "anchor_ref")) (js "anchor_ref")),
      required (publicRef (batch.get (js "chain")) (js "chain")),
      required (publicRef (batch.get (js "cluster_ref")) (js "cluster_ref")),
      (do
        let commitments ← batchCommitments P batch
        return errorIf (!isNum (batch.get (js "commitment_count")) commitments.length) "commitment_count mismatch"
          ++ errorIf ((batch.get (js "root_count")).isSome && !isNum (batch.get (js "root_count")) commitments.length)
            "root_count mismatch"),
      rootCheck P batch "commitment_root" ((batchCommitments P batch).map .arr),
      (do
        let commitments ← batchCommitments P batch
        let expectedRoot ← sha256Json P (.arr commitments)
        return errorIf (!isStr (anchor "payload_hash") expectedRoot) "solana_ready_anchor.payload_hash mismatch"),
      .ok (errorIf (!isTrue (anchor "opaque_payload_only")) "solana_ready_anchor.opaque_payload_only must be true"),
      required (publicRef (anchor "instruction_ref") (js "solana_ready_anchor.instruction_ref")),
      validateIdentity P .anchorBatch batch])
where
  isTrue : Option Json → Bool
    | some (.bool b) => b
    | _ => false

/-! ## Capability grants -/

/-- `Date.parse(a) <= Date.parse(b)`. -/
def notAfter (a b : Option Json) : Bool :=
  match parsedDate P a, parsedDate P b with
  | some t, some u => decide (t ≤ u)
  | _, _ => false

def expiryMessage : String := "expires_at must be after issued_at"

def createCapabilityGrant (input : Json) : Except JsError Json := do
  checkInput P input
  let resourceRoots ← digestArray P (fieldOf input ["resource_roots", "resourceRoots", "scope_hashes", "scopeHashes", "scope_roots",
    "scopeRoots", "policy_hash", "policyHash", "policy_root", "policyRoot", "proof_root", "proofRoot", "roots"])
    (js "resource_roots")
  let resourceRoot ← sha256Json P (strings resourceRoots)
  let grantRef ← optionalPublicRef (fieldOf input ["grant_ref", "grantRef"]) (refFromDigest "grant" resourceRoot) (js "grant_ref")
  let issuedAt ← isoTimestamp P (fieldOf input ["issued_at", "issuedAt"]) (js "issued_at")
  let expiresAt ← isoTimestampOr P (fieldOf input ["expires_at", "expiresAt"]) (js "expires_at") (js "2100-01-01T00:00:00.000Z")
  let issuerRef ← publicRef (fieldOf input ["issuer_ref", "issuerRef"]) (js "issuer_ref")
  let subjectRef ← publicRef (fieldOf input ["subject_ref", "subjectRef"]) (js "subject_ref")
  let audienceRef ← optionalPublicRef (fieldOf input ["audience_ref", "audienceRef"]) (js "audience:proof-network")
    (js "audience_ref")
  let scopes ← publicScopes P (fieldOf input ["scopes", "scope", "capability_scope", "capabilityScope", "capability"]) (js "scopes")
  let maxUses ← nonNegativeInteger P (fieldOf input ["max_uses", "maxUses"]) (js "max_uses") 0
  let defaultNonce ← sha256Json P (.obj [(js "grant_ref", .str grantRef), (js "resource_roots", strings resourceRoots)])
  let nonceHash ← optionalDigestRef (fieldOf input ["nonce_hash", "nonceHash"]) defaultNonce (js "nonce_hash")
  let signature ← signatureField input
  if notAfter P (some (.str expiresAt)) (some (.str issuedAt)) then throw ⟨.rangeError, js expiryMessage⟩
  freezeArtifact P .capabilityGrant (.obj ([(js "schema", .str Kind.capabilityGrant.schema), (js "issued_at", .str issuedAt),
    (js "expires_at", .str expiresAt), (js "grant_ref", .str grantRef), (js "issuer_ref", .str issuerRef),
    (js "subject_ref", .str subjectRef), (js "audience_ref", .str audienceRef), (js "scopes", strings scopes),
    (js "resource_root", .str resourceRoot), (js "resource_roots", strings resourceRoots), (js "max_uses", .num maxUses),
    (js "nonce_hash", .str nonceHash)] ++ signature ++ safeBooleanBoundaries))

def validateCapabilityGrant (grant : Json) : List JsString :=
  collectValidation (header P .capabilityGrant grant "grant" ++
    [required (isoTimestamp P (grant.get (js "issued_at")) (js "issued_at")),
      required (isoTimestamp P (grant.get (js "expires_at")) (js "expires_at")),
      .ok (errorIf (notAfter P (grant.get (js "expires_at")) (grant.get (js "issued_at"))) expiryMessage),
      required (publicRef (grant.get (js "grant_ref")) (js "grant_ref")),
      required (publicRef (grant.get (js "issuer_ref")) (js "issuer_ref")),
      required (publicRef (grant.get (js "subject_ref")) (js "subject_ref")),
      required (publicRef (grant.get (js "audience_ref")) (js "audience_ref")),
      rootCheck P grant "resource_root" ((digestArray P (grant.get (js "resource_roots")) (js "resource_roots")).map strings),
      required (publicScopes P (grant.get (js "scopes")) (js "scopes")),
      required (nonNegativeInteger P (grant.get (js "max_uses")) (js "max_uses") 0),
      required (digestRef (grant.get (js "nonce_hash")) (js "nonce_hash")),
      signatureCheck grant,
      validateIdentity P .capabilityGrant grant])

/-! ## Capability revocations -/

def createCapabilityRevocation (input : Json) : Except JsError Json := do
  checkInput P input
  let grantHash ← digestRef (fieldOf input ["grant_hash", "grantHash"]) (js "grant_hash")
  let reason := fieldOf input ["reason_ref", "reasonRef", "revocation_reason", "revocationReason"]
  let defaultRoot ← sha256Json P (.obj ([(js "grant_hash", .str grantHash)]
    ++ field (js "reason_ref") (orElse reason (some (.str (js "reason:unspecified"))))))
  let nullifierRoot ← optionalDigestRef (fieldOf input ["nullifier_root", "nullifierRoot", "nullifier_hash", "nullifierHash"])
    defaultRoot (js "nullifier_root")
  let revocationRef ← optionalPublicRef (fieldOf input ["revocation_ref", "revocationRef"]) (refFromDigest "revocation" grantHash)
    (js "revocation_ref")
  let grantId ← optionalPublicRef (fieldOf input ["grant_id", "grantId"]) (refFromDigest "grant" grantHash) (js "grant_id")
  let nullifierRef ← optionalPublicRef (fieldOf input ["nullifier_ref", "nullifierRef"]) (refFromDigest "nullifier" nullifierRoot)
    (js "nullifier_ref")
  let revokedAt ← isoTimestamp P (fieldOf input ["revoked_at", "revokedAt"]) (js "revoked_at")
  let issuerRef ← optionalPublicRef (fieldOf input ["issuer_ref", "issuerRef"]) (js "issuer:proof-network") (js "issuer_ref")
  let reasonRef ← optionalPublicRef reason (js "reason:unspecified") (js "reason_ref")
  let signature ← signatureField input
  freezeArtifact P .capabilityRevocation (.obj ([(js "schema", .str Kind.capabilityRevocation.schema),
    (js "revoked_at", .str revokedAt), (js "revocation_ref", .str revocationRef), (js "grant_id", .str grantId),
    (js "grant_hash", .str grantHash), (js "issuer_ref", .str issuerRef), (js "reason_ref", .str reasonRef),
    (js "nullifier_ref", .str nullifierRef), (js "nullifier_root", .str nullifierRoot)] ++ signature ++ safeBooleanBoundaries))

def validateCapabilityRevocation (revocation : Json) : List JsString :=
  collectValidation (header P .capabilityRevocation revocation "revocation" ++
    [required (isoTimestamp P (revocation.get (js "revoked_at")) (js "revoked_at")),
      required (publicRef (revocation.get (js "revocation_ref")) (js "revocation_ref")),
      required (publicRef (revocation.get (js "grant_id")) (js "grant_id")),
      required (digestRef (revocation.get (js "grant_hash")) (js "grant_hash")),
      required (publicRef (revocation.get (js "issuer_ref")) (js "issuer_ref")),
      required (publicRef (revocation.get (js "reason_ref")) (js "reason_ref")),
      required (publicRef (revocation.get (js "nullifier_ref")) (js "nullifier_ref")),
      required (digestRef (revocation.get (js "nullifier_root")) (js "nullifier_root")),
      signatureCheck revocation,
      validateIdentity P .capabilityRevocation revocation])

/-! ## Benchmark attestations -/

def createBenchmarkAttestation (input : Json) : Except JsError Json := do
  checkInput P input
  let reportHash ← digestRef (fieldOf input ["report_hash", "reportHash", "report_file_hash", "reportFileHash"]) (js "report_hash")
  let metricRoots ← digestArray P (orElse (fieldOf input ["metric_roots", "metricRoots", "metrics_hash", "metricsHash",
    "result_roots", "resultRoots", "score_refs", "scoreRefs"]) (some (.str reportHash))) (js "metric_roots")
  let attestedAt ← isoTimestamp P
    (fieldOf input ["attested_at", "attestedAt", "generated_at", "generatedAt", "created_at", "createdAt"]) (js "attested_at")
  let benchmarkRef ← optionalPublicRef (fieldOf input ["benchmark_ref", "benchmarkRef"]) (js "benchmark:memory-v1")
    (js "benchmark_ref")
  let datasetRef ← publicRef (fieldOf input ["dataset_ref", "datasetRef"]) (js "dataset_ref")
  let runnerRef ← publicRef (fieldOf input ["runner_ref", "runnerRef"]) (js "runner_ref")
  let packageRef ← publicRef (fieldOf input ["package_ref", "packageRef"]) (js "package_ref")
  let metricRoot ← sha256Json P (strings metricRoots)
  let sampleCount ← nonNegativeInteger P (fieldOf input ["sample_count", "sampleCount"]) (js "sample_count") 0
  let runCount ← positiveInteger P (orElse (fieldOf input ["run_count", "runCount"]) (some (.num 1))) (js "run_count")
  let signature ← signatureField input
  freezeArtifact P .benchmarkAttestation (.obj ([(js "schema", .str Kind.benchmarkAttestation.schema),
    (js "attested_at", .str attestedAt), (js "benchmark_ref", .str benchmarkRef), (js "dataset_ref", .str datasetRef),
    (js "runner_ref", .str runnerRef), (js "package_ref", .str packageRef), (js "report_hash", .str reportHash),
    (js "metric_root", .str metricRoot), (js "metric_roots", strings metricRoots), (js "sample_count", .num sampleCount),
    (js "run_count", .num runCount)] ++ signature ++ safeBooleanBoundaries))

def validateBenchmarkAttestation (attestation : Json) : List JsString :=
  collectValidation (header P .benchmarkAttestation attestation "attestation" ++
    [required (isoTimestamp P (attestation.get (js "attested_at")) (js "attested_at")),
      required (publicRef (attestation.get (js "benchmark_ref")) (js "benchmark_ref")),
      required (publicRef (attestation.get (js "dataset_ref")) (js "dataset_ref")),
      required (publicRef (attestation.get (js "runner_ref")) (js "runner_ref")),
      required (publicRef (attestation.get (js "package_ref")) (js "package_ref")),
      required (digestRef (attestation.get (js "report_hash")) (js "report_hash")),
      rootCheck P attestation "metric_root" ((digestArray P (attestation.get (js "metric_roots")) (js "metric_roots")).map strings),
      required (nonNegativeInteger P (attestation.get (js "sample_count")) (js "sample_count") 0),
      required (positiveInteger P (attestation.get (js "run_count")) (js "run_count")),
      signatureCheck attestation,
      validateIdentity P .benchmarkAttestation attestation])

/-! ## Registry entries -/

def entryTypeMessage (field : JsString) : JsString := field ++ js (" must be one of anchor_batch, benchmark_attestation, " ++
  "connector_conformance, health_report, operator_receipt, settlement_job")

def registryEntryType (value : Option Json) (field : JsString) : Except JsError JsString :=
  if isBlank value then .error (typeError (entryTypeMessage field))
  else do
    let type ← requiredString value field
    if type ∈ registryEntryTypes then .ok type else .error (typeError (entryTypeMessage field))

def createRegistryEntry (input : Json) : Except JsError Json := do
  checkInput P input
  let entryType ← registryEntryType (fieldOf input ["entry_type", "entryType", "type"]) (js "entry_type")
  let artifactHash ← digestRef (fieldOf input ["artifact_hash", "artifactHash", "digest_ref", "digestRef"]) (js "artifact_hash")
  let artifactSchemaRef ← publicRef (fieldOf input ["artifact_schema_ref", "artifactSchemaRef", "schema_ref", "schemaRef"])
    (js "artifact_schema_ref")
  let digestRefs ← digestArray P (orElse (fieldOf input ["digest_refs", "digestRefs", "digest_roots", "digestRoots", "roots"])
    (some (.str artifactHash))) (js "digest_refs")
  let signerRefs ← publicRefArray P (fieldOf input ["signer_refs", "signerRefs", "signer_ref", "signerRef"]) (js "signer_refs")
  let entryRef ← optionalPublicRef (fieldOf input ["entry_ref", "entryRef"]) (refFromDigest "registry-entry" artifactHash)
    (js "entry_ref")
  let registeredAt ← isoTimestamp P
    (fieldOf input ["registered_at", "registeredAt", "created_at", "createdAt", "generated_at", "generatedAt"]) (js "registered_at")
  let registryRef ← optionalPublicRef (fieldOf input ["registry_ref", "registryRef", "marketplace_ref", "marketplaceRef"])
    (js "registry:memory-drive-marketplace") (js "registry_ref")
  let digestRoot ← sha256Json P (strings digestRefs)
  let entryCount ← nonNegativeInteger P (fieldOf input ["entry_count", "entryCount", "count"]) (js "entry_count") 1
  let signature ← signatureField input
  freezeArtifact P .registryEntry (.obj ([(js "schema", .str Kind.registryEntry.schema), (js "registered_at", .str registeredAt),
    (js "entry_type", .str entryType), (js "entry_ref", .str entryRef), (js "registry_ref", .str registryRef),
    (js "artifact_schema_ref", .str artifactSchemaRef), (js "artifact_hash", .str artifactHash), (js "digest_root", .str digestRoot),
    (js "digest_refs", strings digestRefs), (js "signer_refs", strings signerRefs), (js "entry_count", .num entryCount)]
    ++ signature ++ safeBooleanBoundaries))

def validateRegistryEntry (entry : Json) : List JsString :=
  collectValidation (header P .registryEntry entry "entry" ++
    [required (isoTimestamp P (entry.get (js "registered_at")) (js "registered_at")),
      .ok (if registryEntryTypes.any (isStr (entry.get (js "entry_type"))) then [] else [entryTypeMessage (js "entry_type")]),
      required (publicRef (entry.get (js "entry_ref")) (js "entry_ref")),
      required (publicRef (entry.get (js "registry_ref")) (js "registry_ref")),
      required (publicRef (entry.get (js "artifact_schema_ref")) (js "artifact_schema_ref")),
      required (digestRef (entry.get (js "artifact_hash")) (js "artifact_hash")),
      rootCheck P entry "digest_root" ((digestArray P (entry.get (js "digest_refs")) (js "digest_refs")).map strings),
      required (publicRefArray P (entry.get (js "signer_refs")) (js "signer_refs")),
      required (nonNegativeInteger P (entry.get (js "entry_count")) (js "entry_count") 0),
      signatureCheck entry,
      validateIdentity P .registryEntry entry])

/-! ## Artifacts of artifacts -/

/-- `errors.join('; ')`. -/
def joinErrors : List JsString → JsString
  | [] => []
  | [e] => e
  | e :: rest => e ++ js "; " ++ joinErrors rest

/-- What an artifact demands of the artifacts in it: the message for one of another schema, and the validator. -/
structure Membership where
  refused : Json → Option JsString
  validate : Json → List JsString

/-- The checks of a validator on one member. -/
def Membership.checks (M : Membership) (hash : Json → JsString → Except JsError JsString) (item : Json) (name : JsString) :
    List Check :=
  [(requiredObject item name).map fun _ =>
      match M.refused item with
      | some message => [name ++ message]
      | none => if (M.validate item).isEmpty then [] else [name ++ js " is invalid: " ++ joinErrors (M.validate item)],
    match M.refused item with
    | some _ => .ok []
    | none => required (hash item name)]

/-- What a constructor demands of one member. -/
def Membership.admitItem (M : Membership) (item : Json) (name : JsString) : Except JsError Unit := do
  requiredObject item name
  match M.refused item with
  | some message => throw (typeError (name ++ message))
  | none =>
    if (M.validate item).isEmpty then return ()
    else throw (typeError (name ++ js " is invalid: " ++ joinErrors (M.validate item)))

/-- The hashes of the members that are not refused, in increasing order. -/
def Membership.hashes (M : Membership) (hash : Json → JsString → Except JsError JsString) (field : String) (items : List Json) :
    Except JsError (List JsString) := do
  let hashes ← (items.zipIdx.filter fun x => (M.refused x.1).isNone).mapM fun x => hash x.1 (itemField P (js field) x.2)
  return sortStrings hashes

/-- `Array.isArray(value) ? value : []`. -/
def listed : Option Json → List Json
  | some (.arr xs) => xs
  | _ => []

/-- What a validator checks of the list of members: their number, each of them, and what the artifact says of them. -/
def memberChecks (M : Membership) (hash : Json → JsString → Except JsError JsString) (field countKey rootKey hashesKey : String)
    (artifact : Json) (items : List Json) : List Check :=
  [.ok (errorIf (items.length = 0 ∨ 128 < items.length) (field ++ " must contain 1-128 entries"))]
    ++ (items.zipIdx.flatMap fun x => M.checks hash x.1 (itemField P (js field) x.2))
    ++ [.ok (errorIf (!isNum (artifact.get (js countKey)) items.length) (countKey ++ " mismatch")),
      rootCheck P artifact rootKey ((M.hashes P hash field items).map strings),
      (M.hashes P hash field items).map fun hashes =>
        errorIf ((artifact.get (js hashesKey)).map (stringify P.toNumberFormat) ≠
          some ((strings hashes).stringify P.toNumberFormat)) (hashesKey ++ " mismatch")]

def listChecks (M : Membership) (hash : Json → JsString → Except JsError JsString) (field countKey rootKey hashesKey : String)
    (artifact : Json) : List Check :=
  memberChecks P M hash field countKey rootKey hashesKey artifact (listed (artifact.get (js field)))

/-! ## Registry batches -/

def entryMembership : Membership where
  refused entry :=
    if isStr (entry.get (js "schema")) Kind.registryEntry.schema then none
    else some (js " must be a " ++ Kind.registryEntry.schema)
  validate := validateRegistryEntry P

def entryHash (entry : Json) (name : JsString) : Except JsError JsString :=
  requiredString (entry.get (js "registry_entry_hash")) (name ++ js ".registry_entry_hash")

def createRegistryBatch (input : Json) : Except JsError Json := do
  checkInput P input
  let entries := arrayInput (fieldOf input ["entries", "registry_entries", "registryEntries"])
  let _ ← entries.zipIdx.mapM fun x => (entryMembership P).admitItem x.1 (itemField P (js "entries") x.2)
  if entries.length = 0 then throw (typeError (js "entries must be non-empty"))
  if 128 < entries.length then throw (typeError (js "entries must contain at most 128 entries"))
  let hashes ← entries.mapM fun entry => entryHash entry (js "entries")
  let entryHashes := sortStrings hashes
  let registryRoot ← sha256Json P (strings entryHashes)
  let createdAt ← isoTimestamp P (fieldOf input ["created_at", "createdAt", "generated_at", "generatedAt"]) (js "created_at")
  let registryRef ← optionalPublicRef (fieldOf input ["registry_ref", "registryRef", "marketplace_ref", "marketplaceRef"])
    (refFromDigest "registry-batch" registryRoot) (js "registry_ref")
  freezeArtifact P .registryBatch (.obj ([(js "schema", .str Kind.registryBatch.schema), (js "created_at", .str createdAt),
    (js "registry_ref", .str registryRef), (js "entry_count", .num entries.length), (js "registry_root", .str registryRoot),
    (js "entry_hashes", strings entryHashes), (js "entries", .arr entries)] ++ safeBooleanBoundaries))

def validateRegistryBatch (batch : Json) : List JsString :=
  collectValidation (header P .registryBatch batch "batch" ++
    [required (isoTimestamp P (batch.get (js "created_at")) (js "created_at")),
      required (publicRef (batch.get (js "registry_ref")) (js "registry_ref"))] ++
    listChecks P (entryMembership P) entryHash "entries" "entry_count" "registry_root" "entry_hashes" batch ++
    [validateIdentity P .registryBatch batch])

/-! ## Packets -/

/-- The validator for the schema of an artifact in a packet; a packet in a packet is refused before. -/
def validateSupportedArtifact (artifact : Json) : List JsString :=
  match kindOf artifact with
  | some .anchorBatch => validateProofNetworkAnchorBatch P artifact
  | some .capabilityGrant => validateCapabilityGrant P artifact
  | some .capabilityRevocation => validateCapabilityRevocation P artifact
  | some .benchmarkAttestation => validateBenchmarkAttestation P artifact
  | some .registryEntry => validateRegistryEntry P artifact
  | some .registryBatch => validateRegistryBatch P artifact
  | some .packet | none => [js "unsupported artifact schema"]

/-- A constructor takes artifacts of the supported schemas only. -/
def artifactAdmission : Membership where
  refused artifact :=
    match kindOf artifact with
    | none | some .packet => some (js " has unsupported schema")
    | some _ => none
  validate := validateSupportedArtifact P

/-- The validator names a packet in a packet, and finds the other schemas unsupported. -/
def artifactMembership : Membership where
  refused artifact :=
    if isStr (artifact.get (js "schema")) Kind.packet.schema then some (js " must not be a nested packet") else none
  validate := validateSupportedArtifact P

def artifactHash (artifact : Json) (name : JsString) : Except JsError JsString :=
  match kindOf artifact with
  | some kind => requiredString (artifact.get (js kind.hashField)) (name ++ js "." ++ js kind.hashField)
  | none => .error (typeError (name ++ js " has unsupported schema"))

def createProofNetworkPacket (input : Json) : Except JsError Json := do
  checkInput P input
  let artifacts := arrayInput (input.get (js "artifacts")) ++ arrayInput (fieldOf input ["anchor_batch", "anchorBatch"])
    ++ arrayInput (fieldOf input ["anchor_batches", "anchorBatches"])
    ++ arrayInput (fieldOf input ["capability_grants", "capabilityGrants"]) ++ arrayInput (input.get (js "grants"))
    ++ arrayInput (fieldOf input ["capability_revocations", "capabilityRevocations"]) ++ arrayInput (input.get (js "revocations"))
    ++ arrayInput (fieldOf input ["benchmark_attestations", "benchmarkAttestations"]) ++ arrayInput (input.get (js "attestations"))
  if artifacts.length = 0 then throw (typeError (js "artifacts must be non-empty"))
  if 128 < artifacts.length then throw (typeError (js "artifacts must contain at most 128 entries"))
  let _ ← artifacts.zipIdx.mapM fun x => (artifactAdmission P).admitItem x.1 (itemField P (js "artifacts") x.2)
  let hashes ← artifacts.zipIdx.mapM fun x => artifactHash x.1 (itemField P (js "artifacts") x.2)
  let artifactHashes := sortStrings hashes
  let artifactRoot ← sha256Json P (strings artifactHashes)
  let createdAt ← isoTimestamp P (fieldOf input ["created_at", "createdAt", "generated_at", "generatedAt"]) (js "created_at")
  let packetRef ← optionalPublicRef (fieldOf input ["packet_ref", "packetRef"]) (refFromDigest "packet" artifactRoot)
    (js "packet_ref")
  freezeArtifact P .packet (.obj ([(js "schema", .str Kind.packet.schema), (js "created_at", .str createdAt),
    (js "packet_ref", .str packetRef), (js "artifact_count", .num artifacts.length), (js "artifact_root", .str artifactRoot),
    (js "artifact_hashes", strings artifactHashes), (js "artifacts", .arr artifacts)] ++ safeBooleanBoundaries))

def validateProofNetworkPacket (packet : Json) : List JsString :=
  collectValidation (header P .packet packet "packet" ++
    [required (isoTimestamp P (packet.get (js "created_at")) (js "created_at")),
      required (publicRef (packet.get (js "packet_ref")) (js "packet_ref"))] ++
    listChecks P (artifactMembership P) artifactHash "artifacts" "artifact_count" "artifact_root" "artifact_hashes" packet ++
    [validateIdentity P .packet packet])

/-! ## The constructor and the validator of each kind -/

def create : Kind → Json → Except JsError Json
  | .anchorBatch => createProofNetworkAnchorBatch P
  | .capabilityGrant => createCapabilityGrant P
  | .capabilityRevocation => createCapabilityRevocation P
  | .benchmarkAttestation => createBenchmarkAttestation P
  | .packet => createProofNetworkPacket P
  | .registryEntry => createRegistryEntry P
  | .registryBatch => createRegistryBatch P

def validate : Kind → Json → List JsString
  | .anchorBatch => validateProofNetworkAnchorBatch P
  | .capabilityGrant => validateCapabilityGrant P
  | .capabilityRevocation => validateCapabilityRevocation P
  | .benchmarkAttestation => validateBenchmarkAttestation P
  | .packet => validateProofNetworkPacket P
  | .registryEntry => validateRegistryEntry P
  | .registryBatch => validateRegistryBatch P

end ProofNetwork

end EnigmaMemory
