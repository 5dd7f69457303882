import EnigmaMemory.Lib.Upsert
import EnigmaMemory.Spec.EncryptedStore
import EnigmaMemory.Spec.Mesh
import EnigmaMemory.Spec.Settlement

/-!
# The storage package

The statements of `packages/storage` that write a row to a Postgres table, or overwrite the row
with its key. A statement is kept with its parts, from which its text is put together; `execute` is
what the database does with it. How the database reads a value as one of a column, what it puts
into a column that is not written and which rows it refuses are parameters.

The two statements that never overwrite, and the notes on what an operation claims, are left out.
-/

namespace EnigmaMemory.Storage

open Json Regex Mesh Settlement

/-! ## Scans -/

def PRODUCTION_STORAGE_TABLES : List String :=
  ["enigma_schema_migrations", "relay_records", "relay_witness_checkpoints", "relay_pairings", "gateway_policy_versions",
    "gateway_decisions", "gateway_siem_events", "readiness_evidence_refs"]

/-- `FORBIDDEN_STORAGE_SQL_RE`. -/
def forbiddenStorageSqlRe : Regex :=
  cat [boundary, any (["prompt", "completion", "transcript", "plaintext", "raw_memory", "memory_text", "decrypted",
    "embedding_vector", "provider_response_body", "api_key", "token", "password", "private_key"].map litI), boundary]

/-- `FORBIDDEN_PUBLIC_VALUE_RE`. -/
def forbiddenPublicValueRe : Regex :=
  any [cat [litU "Bearer", plus space, atLeast (letterClass ((48, 57) :: charRanges "._~+/=-")) 12],
    cat [litU "Basic", plus space, atLeast (letterClass ((48, 57) :: charRanges "+/=-")) 12],
    cat [litU "-----BEGIN ", star (letterClass (charRanges " ")), litU "PRIVATE KEY-----"],
    cat [litU "http", opt (litU "s"), litU "://", plus (cls ⟨whiteRanges ++ charRanges "/:@", true⟩), litU ":",
      plus (cls ⟨whiteRanges ++ charRanges "/@", true⟩), litU "@"],
    litU "raw memory", litU "private prompt", litU "full transcript", litU "decrypted capsule"]

/-- `[_-]?`. -/
def joint : Regex := opt (cls ⟨charRanges "_-", false⟩)

/-- The names of fields that are not evidence. -/
def forbiddenFieldRe : Regex :=
  any [litI "prompt", litI "completion", litI "transcript", litI "plaintext", cat [litI "raw", joint, litI "memory"],
    cat [litI "memory", joint, litI "text"], litI "decrypted", litI "embedding", cat [litI "provider", joint, litI "response"],
    cat [litI "api", joint, litI "key"], litI "token", litI "password", cat [litI "private", joint, litI "key"]]

variable (P : Platform)

mutual
/-- `assertNoForbiddenPublicValue(value, path)`. -/
def assertNoForbiddenPublicValue : Json → JsString → Except JsError Unit
  | .str s, path => failIf (regexTest forbiddenPublicValueRe s = true) (plainError (path ++ js " contains secret or plaintext-looking material"))
  | .arr xs, path => assertNoForbiddenItems xs path 0
  | .obj fs, path => assertNoForbiddenFields fs path
  | _, _ => .ok ()

def assertNoForbiddenItems : List Json → JsString → ℕ → Except JsError Unit
  | [], _, _ => .ok ()
  | x :: xs, path, index => do
    assertNoForbiddenPublicValue x (indexPath P.toNumberFormat path index)
    assertNoForbiddenItems xs path (index + 1)

def assertNoForbiddenFields : List (JsString × Json) → JsString → Except JsError Unit
  | [], _ => .ok ()
  | (key, child) :: fs, path => do
    failIf (regexTest forbiddenFieldRe key = true) (plainError (keyPath path key ++ js " uses a forbidden storage evidence field"))
    assertNoForbiddenPublicValue child (keyPath path key)
    assertNoForbiddenFields fs path
end

/-! ## Values of a statement -/

/-- A value that is sent along with a statement. -/
inductive SqlParam where
  | null
  | text (s : JsString)
  | number (n : ℕ)
  deriving DecidableEq

def SqlParam.toJson : SqlParam → Json
  | .null => .null
  | .text s => .str s
  | .number n => .num n

/-- A field that is read into a value, under a path for the errors. -/
abbrev Reader := Option Json → JsString → Except JsError SqlParam

def requireNonEmptyText (value : Option Json) (path : JsString) : Except JsError JsString :=
  match value with
  | some (.str s) => do
    failIf (trim s = []) (plainError (path ++ js " must be a non-empty string"))
    assertNoForbiddenPublicValue P (.str s) path
    return s
  | _ => .error (plainError (path ++ js " must be a non-empty string"))

def requireNonEmptyString : Reader := fun value path => (requireNonEmptyText P value path).map .text

def optionalIsoString : Reader := fun value path =>
  match value with
  | none | some .null | some (.str []) => .ok .null
  | value => do
    let text ← requireNonEmptyText P value path
    failIf ((P.parseDate text).isNone = true) (plainError (path ++ js " must be an ISO timestamp"))
    return .text text

/-- `optionalIsoString(value, path) ?? new Date(0).toISOString()`. -/
def isoStringOrEpoch : Reader := fun value path =>
  (optionalIsoString P value path).map fun
    | .null => .text (js "1970-01-01T00:00:00.000Z")
    | text => text

/-- A digest in letters of either case, which is stored in lower case. -/
def requireSha256 : Reader := fun value path => do
  let text ← requireNonEmptyText P value path
  failIf (isRoot (text.map foldCase) = false) (plainError (path ++ js " must be a sha256-prefixed digest"))
  return .text (text.map foldCase)

def optionalSha256 : Reader := fun value path =>
  match value with
  | none | some .null => .ok .null
  | value => requireSha256 P value path

def requireNatural : Reader := fun value path =>
  match natural? value with
  | some n => .ok (.number n)
  | none => .error (plainError (path ++ js " must be a non-negative integer"))

def jsonValue : Reader := fun value path =>
  match value with
  | some (.obj fs) => do
    assertNoForbiddenPublicValue P (.obj fs) path
    return .text ((Json.obj fs).stringify P.toNumberFormat)
  | _ => .error (plainError (path ++ js " must be an object"))

/-- `value ?? {}`. -/
def jsonValueOrEmpty : Reader := fun value path => jsonValue P (orElse value (some (.obj []))) path

/-! ## Statements -/

inductive SqlType where
  | text
  | bigint
  | timestamptz
  | jsonb
  deriving DecidableEq

/-- A column, and how the field of its name is read. -/
structure Column where
  name : String
  type : SqlType
  read : Reader

/-- `INSERT INTO table (columns) VALUES (…) ON CONFLICT (key) DO UPDATE SET` the columns of `updates` to
the new values. -/
structure UpsertStatement where
  table : String
  columns : List Column
  key : String
  updates : List String

def joined (separator : String) (parts : List String) : JsString := js ((separator.intercalate parts))

def placeholder (column : Column × ℕ) : String :=
  "$" ++ toString (column.2 + 1) ++ if column.1.type = .jsonb then "::jsonb" else ""

/-- The text of a statement for a table. -/
def UpsertStatement.text (statement : UpsertStatement) (table : JsString) : JsString :=
  js "INSERT INTO " ++ table ++ js " (\n  " ++ joined ", " (statement.columns.map (·.name)) ++ js "\n) VALUES (" ++
    joined ", " (statement.columns.zipIdx.map placeholder) ++ js ")\nON CONFLICT (" ++ js statement.key ++
    js ") DO UPDATE SET\n  " ++ joined ",\n  " (statement.updates.map fun c => c ++ " = EXCLUDED." ++ c) ++
    js "\nRETURNING " ++ js statement.key

/-- The operation that a builder returns. -/
structure StorageOperation where
  name : String
  statement : UpsertStatement
  text : JsString
  values : List SqlParam

def isIdentifierStart (c : CodeUnit) : Bool := isLowerUnit c || isUpperUnit c || c == 95

/-- `/^[a-z_][a-z0-9_]{0,62}$/i`. -/
def isSafeSqlIdentifier : JsString → Bool
  | [] => false
  | c :: rest => isIdentifierStart c && decide (rest.length ≤ 62) && rest.all fun c => isIdentifierStart c || isDigitUnit c

def safeSqlIdentifier (value : Option Json) (label : String) : Except JsError JsString :=
  match value with
  | some (.str s) => if isSafeSqlIdentifier s then .ok s else .error (plainError (js (label ++ " must be a safe SQL identifier")))
  | _ => .error (plainError (js (label ++ " must be a safe SQL identifier")))

def storageTable (schema : Option Json) (table : String) : Except JsError JsString := do
  let schema ← safeSqlIdentifier schema "schema"
  failIf (table ∉ PRODUCTION_STORAGE_TABLES) (plainError (js ("unknown production storage table: " ++ table)))
  return js "\"" ++ schema ++ js "\".\"" ++ js table ++ js "\""

def storageOperation (name : String) (statement : UpsertStatement) (text : JsString) (values : List SqlParam) :
    Except JsError StorageOperation := do
  assertNoForbiddenPublicValue P (.arr (values.map SqlParam.toJson)) (js (name ++ ".values"))
  failIf (regexTest forbiddenStorageSqlRe text = true) (plainError (js (name ++ " SQL contains forbidden plaintext/secret fields")))
  return { name, statement, text, values }

/-- `options.schema ?? options.schemaName ?? 'enigma'`. -/
def schemaOf (options : Json) : Except JsError (Option Json) := do
  let schema ← member (some options) "schema"
  return firstOf [schema, options.get (js "schemaName"), some (.str (js "enigma"))]

/-- `record?.name`. -/
def property (record : Option Json) (name : String) : Option Json := record.bind (·.get (js name))

/-- The operation for a statement: the values are the fields of the record that are named like the
columns, and the record is called `context` in the errors. -/
def buildOperation (context : String) (statement : UpsertStatement) (record schema : Option Json) :
    Except JsError StorageOperation := do
  let table ← storageTable schema statement.table
  let values ← statement.columns.mapM fun c => c.read (property record c.name) (js (context ++ "." ++ c.name))
  storageOperation P (statement.table ++ ".upsert") statement (statement.text table) values

def buildUpsert (context : String) (statement : UpsertStatement) (record : Option Json) (options : Json) :
    Except JsError StorageOperation := do
  assertNoForbiddenPublicValue P (record.getD .null) (js context)
  buildOperation P context statement record (← schemaOf options)

/-! ## Builders -/

def relayRecordStatement : UpsertStatement where
  table := "relay_records"
  columns := [⟨"record_id", .text, requireNonEmptyString P⟩, ⟨"store_id", .text, requireNonEmptyString P⟩,
    ⟨"capsule_id", .text, requireNonEmptyString P⟩, ⟨"encrypted_payload_hash", .text, requireSha256 P⟩,
    ⟨"payload_storage", .jsonb, jsonValue P⟩, ⟨"received_at", .timestamptz, isoStringOrEpoch P⟩,
    ⟨"expires_at", .timestamptz, optionalIsoString P⟩, ⟨"signature", .jsonb, jsonValue P⟩]
  key := "record_id"
  updates := ["encrypted_payload_hash", "payload_storage", "received_at", "expires_at", "signature"]

def buildRelayRecordUpsert (record : Option Json) (options : Json) : Except JsError StorageOperation :=
  buildUpsert P "relay_record" (relayRecordStatement P) record options

def witnessCheckpointStatement : UpsertStatement where
  table := "relay_witness_checkpoints"
  columns := [⟨"checkpoint_id", .text, requireNonEmptyString P⟩, ⟨"root", .text, requireSha256 P⟩,
    ⟨"previous_root", .text, optionalSha256 P⟩, ⟨"record_count", .bigint, requireNatural⟩,
    ⟨"checkpointed_at", .timestamptz, isoStringOrEpoch P⟩, ⟨"signature", .jsonb, jsonValue P⟩]
  key := "checkpoint_id"
  updates := ["root", "previous_root", "record_count", "checkpointed_at", "signature"]

def buildWitnessCheckpointUpsert (checkpoint : Option Json) (options : Json) : Except JsError StorageOperation :=
  buildUpsert P "witness_checkpoint" (witnessCheckpointStatement P) checkpoint options

def relayPairingStatement : UpsertStatement where
  table := "relay_pairings"
  columns := [⟨"pairing_id", .text, requireNonEmptyString P⟩, ⟨"challenge_id", .text, requireNonEmptyString P⟩,
    ⟨"relay_node_id", .text, requireNonEmptyString P⟩, ⟨"client_public_key_hash", .text, requireSha256 P⟩,
    ⟨"issued_at", .timestamptz, isoStringOrEpoch P⟩, ⟨"signature", .jsonb, jsonValue P⟩]
  key := "pairing_id"
  updates := ["challenge_id", "relay_node_id", "client_public_key_hash", "issued_at", "signature"]

def buildRelayPairingUpsert (pairing : Option Json) (options : Json) : Except JsError StorageOperation :=
  buildUpsert P "relay_pairing" (relayPairingStatement P) pairing options

def gatewayPolicyVersionStatement : UpsertStatement where
  table := "gateway_policy_versions"
  columns := [⟨"policy_hash", .text, requireSha256 P⟩, ⟨"policy", .jsonb, jsonValue P⟩,
    ⟨"active_from", .timestamptz, isoStringOrEpoch P⟩, ⟨"retired_at", .timestamptz, optionalIsoString P⟩]
  key := "policy_hash"
  updates := ["policy", "active_from", "retired_at"]

def buildGatewayPolicyVersionUpsert (policyVersion : Option Json) (options : Json) : Except JsError StorageOperation :=
  buildUpsert P "gateway_policy_version" (gatewayPolicyVersionStatement P) policyVersion options

def readinessEvidenceRefStatement : UpsertStatement where
  table := "readiness_evidence_refs"
  columns := [⟨"evidence_key", .text, requireNonEmptyString P⟩, ⟨"provider", .text, requireNonEmptyString P⟩,
    ⟨"ref", .text, requireNonEmptyString P⟩, ⟨"status", .text, requireNonEmptyString P⟩,
    ⟨"observed_at", .timestamptz, isoStringOrEpoch P⟩, ⟨"metadata", .jsonb, jsonValueOrEmpty P⟩]
  key := "evidence_key"
  updates := ["provider", "ref", "status", "observed_at", "metadata"]

/-- The status is checked before anything else is read. -/
def buildReadinessEvidenceRefUpsert (evidenceRef : Option Json) (options : Json) : Except JsError StorageOperation := do
  assertNoForbiddenPublicValue P (evidenceRef.getD .null) (js "readiness_evidence_ref")
  let schema ← schemaOf options
  let status ← requireNonEmptyText P (property evidenceRef "status") (js "readiness_evidence_ref.status")
  failIf (status ∉ [js "declared", js "observed", js "verified", js "go"])
    (plainError (js "readiness_evidence_ref.status is unsupported"))
  buildOperation P "readiness_evidence_ref" (readinessEvidenceRefStatement P) evidenceRef schema

/-! ## The database -/

/-- What Postgres brings along: the values that columns have, how it reads a sent value as one of a
type, what it puts into the columns that a statement does not write, and the rows that it admits to
a table. -/
structure Postgres where
  Datum : Type
  decEq : DecidableEq Datum
  input : SqlType → SqlParam → Option Datum
  initial : String → Datum
  admits : String → (String → Datum) → Bool

attribute [instance] Postgres.decEq

variable (db : Postgres)

abbrev SqlRow := String → db.Datum

abbrev SqlTable (key : String) := Upsert.Table key db.Datum

/-- The sent values as values of their columns. -/
def readValues (op : StorageOperation) : Option (List (String × db.Datum)) :=
  (op.statement.columns.zip op.values).mapM fun c => (db.input c.1.type c.2).map fun datum => (c.1.name, datum)

/-- The row that an operation proposes (`EXCLUDED`). -/
def proposed (written : List (String × db.Datum)) : SqlRow db := fun c => (written.lookup c).getD (db.initial c)

/-- The database executes an operation, or refuses it. -/
def execute (op : StorageOperation) (t : SqlTable db op.statement.key) : Option (SqlTable db op.statement.key) := do
  let row := proposed db (← readValues db op)
  let t' := Upsert.upsert t op.statement.updates row
  if db.admits op.statement.table row && (Upsert.rowsWith t' (row op.statement.key)).all (db.admits op.statement.table) then some t' else none

end EnigmaMemory.Storage
