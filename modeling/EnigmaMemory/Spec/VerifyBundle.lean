import EnigmaMemory.Spec.Bundle
import EnigmaMemory.Spec.Checkpoint

/-!
# The offline verifier

`verifyBundle` of `apps/verifier`, on any JSON value, and the JSON value that a bundle is written
as. `callVerifier` tries a verifier with its arguments in one object and, where that throws, with
the arguments one by one; for the two receipt verifiers both come to the same.
-/

namespace EnigmaMemory

open Json

variable (P : Platform)

/-! ## Bundles as JSON -/

def EventEntry.toJson (e : EventEntry) : Json :=
  .obj [(js "event", e.event), (js "canonical", .str e.canonical), (js "hash", .str e.hash)]

def BUNDLE_SCHEMA : JsString := js "enigma.vault_bundle.v1"

def Bundle.toJson (b : Bundle) : Json :=
  .obj [(js "schema", .str BUNDLE_SCHEMA), (js "exported_at", .str b.exported_at), (js "vault", b.vault),
    (js "keyring", b.keyring), (js "memory_objects", .arr b.memory_objects),
    (js "active_memory_addresses", .arr (b.active_memory_addresses.map .str)), (js "tombstones", .arr b.tombstones),
    (js "events", .arr (b.events.map EventEntry.toJson)), (js "receipts", .arr b.receipts),
    (js "export_receipt", b.export_receipt)]

/-! ## Reading a bundle -/

/-- `asArray(value)`. -/
def asArray (value : Option Json) : List Json :=
  match value with
  | some (.arr xs) => xs
  | _ => []

/-- `value?.[0]`. -/
def firstItem (value : Option Json) : Option Json :=
  match value with
  | some (.arr xs) => xs.head?
  | some (.str s) => s.head?.map fun c => .str [c]
  | some (.obj fs) => (Json.obj fs).get (js "0")
  | _ => none

/-- Where a bundle may name its public key, the first truthy one being taken. -/
def publicKeyPaths : List (List String) :=
  [["publicKey"], ["public_key"], ["signer", "publicKey"], ["signer", "public_key"], ["keyring", "publicKey"],
    ["keyring", "public_key"], ["keypair", "publicKey"], ["keys", "publicKey"]]

/-- `publicKeyFromBundle(bundle)`; `null` is `none`. -/
def publicKeyFromBundle (bundle : Json) : Option Json :=
  match (publicKeyPaths.map (path (some bundle))).find? truthy with
  | some key => key
  | none =>
    let issuer := orElse (firstItem (path (some bundle) ["trust_bundle", "trusted_issuers"]))
      (firstItem (path (some bundle) ["trust", "trusted_issuers"]))
    orElse (orElse (path issuer ["public_key"]) (path issuer ["publicKey"])) none

/-- `firstPresent(...values)`. -/
def firstPresent (values : List (Option Json)) : Option Json := orElse (firstOf values) none

structure CommittedState where
  receiptLogRoot : Option Json
  activeSetRoot : Option Json
  sequence : Option Json

def committedVaultState (bundle : Json) : CommittedState where
  receiptLogRoot := firstPresent [path (some bundle) ["vault", "receipt_log_root"], bundle.get (js "receipt_log_root")]
  activeSetRoot := firstPresent [path (some bundle) ["vault", "active_set_root"], path (some bundle) ["vault", "active_root"],
    bundle.get (js "active_set_root"), bundle.get (js "active_root")]
  sequence := firstPresent [path (some bundle) ["vault", "sequence"], bundle.get (js "sequence")]

/-! ## Errors -/

structure VerifierError where
  code : JsString
  message : JsString
  details : Option Json := none

def makeError (code message : String) : VerifierError := { code := js code, message := js message }

/-- `verifierError(error, fallbackCode, …)` for the text of an error. -/
def verifierError (code : String) (error : JsString) : VerifierError := { code := js code, message := error }

/-- The errors of `cond`, one error or none. -/
def errorWhen (cond : Bool) (error : VerifierError) : List VerifierError := if cond then [error] else []

def compareCommittedRoots (chain : ChainResult) (committed : CommittedState) : List VerifierError :=
  errorWhen (committed.receiptLogRoot.isSome && !strictEq (some (.str chain.receipt_log_root)) committed.receiptLogRoot)
      { makeError "BUNDLE_RECEIPT_LOG_ROOT_MISMATCH" "Receipt chain root does not reach committed vault.receipt_log_root." with
        details := some (.obj (field (js "committed_receipt_log_root") committed.receiptLogRoot ++
          [(js "computed_receipt_log_root", .str chain.receipt_log_root)])) }
    ++ errorWhen (committed.activeSetRoot.isSome && !strictEq chain.active_set_root committed.activeSetRoot)
      { makeError "BUNDLE_ACTIVE_SET_ROOT_MISMATCH"
          "Receipt chain final active_set_root does not match committed vault active root." with
        details := some (.obj (field (js "committed_active_root") committed.activeSetRoot ++
          field (js "computed_active_set_root") chain.active_set_root)) }

def compareCommittedSequence (receipts : List Json) (committed : CommittedState) : List VerifierError :=
  match committed.sequence with
  | none => []
  | some sequence =>
    match natural? (some sequence) with
    | none => [makeError "BUNDLE_SEQUENCE_INVALID" "Committed vault.sequence must be a non-negative integer."]
    | some n =>
      let lastSequence := receipts.getLast?.bind (·.get (js "sequence"))
      errorWhen (!receipts.isEmpty && !isNum lastSequence (n - 1))
        { makeError "BUNDLE_SEQUENCE_MISMATCH" "Receipt chain does not reach committed vault.sequence." with
          details := some (.obj ([(js "committed_sequence", sequence)] ++ field (js "last_receipt_sequence") lastSequence)) }

/-! ## The checks -/

variable (K : KeyReader)

/-- The options under which the receipts of a bundle are checked. -/
def chainOptions (publicKey : Json) : VerifyOptions where
  publicKey := some (K.text publicKey)
  verifyEmbeddedReceiptLogRoot := true

/-- What the chain verifier makes of the receipts. -/
def chainFindings (receipts : List Json) (publicKey : Json) (committed : CommittedState) : List VerifierError :=
  match verifyReceiptChain P receipts (chainOptions K publicKey) with
  | .ok chain => chain.errors.map (verifierError "RECEIPT_CHAIN_INVALID") ++ compareCommittedRoots chain committed
  | .error e => [verifierError "RECEIPT_CHAIN_INVALID" e.message]

/-- `Receipt ${receipt?.receipt_id ?? '<unknown>'}`. -/
def receiptName (receipt : Json) : JsString :=
  js "Receipt " ++ ((orElse (receipt.get (js "receipt_id")) none).getD (.str (js "<unknown>"))).toText P.toNumberFormat

def receiptFindings (publicKey receipt : Json) : List VerifierError :=
  let errors := verifyReceipt P receipt { publicKey := some (K.text publicKey) }
  errorWhen (!errors.isEmpty)
    { verifierError "RECEIPT_INVALID" (receiptName P receipt ++ js " did not verify.") with
      details := some (.arr (errors.map .str)) }

/-- The verdict on the last checkpoint. The second attempt passes the receipts as the public keys
and spreads the public key over the options. -/
def checkpointVerdict (bundle lastCheckpoint publicKey : Json) (receipts : List Json) : Except JsError (List JsString) :=
  match verifyCheckpoint P K (.obj [(js "checkpoint", lastCheckpoint), (js "receipts", .arr receipts),
      (js "publicKey", publicKey), (js "bundle", bundle)]) with
  | .ok errors => .ok errors
  | .error _ =>
    verifyCheckpoint P K (if (lastCheckpoint.get (js "checkpoint")).isSome then lastCheckpoint
      else (Json.obj [(js "checkpoint", lastCheckpoint), (js "publicKeys", .arr receipts)]).spread
        (spreadCopy P.toNumberFormat publicKey))

/-- `a && b && a !== b`. -/
def disagree (a b : Option Json) : Bool := truthy a && truthy b && !strictEq a b

def checkpointFindings (bundle lastCheckpoint lastReceipt publicKey : Json) (receipts : List Json) : List VerifierError :=
  (match checkpointVerdict P K bundle lastCheckpoint publicKey receipts with
    | .ok errors => errors.map (verifierError "CHECKPOINT_INVALID")
    | .error e => [verifierError "CHECKPOINT_INVALID" e.message])
    ++ errorWhen (disagree (lastCheckpoint.get (js "receipt_log_root")) (lastReceipt.get (js "receipt_log_root")))
      (makeError "STALE_CHECKPOINT" "Latest checkpoint receipt_log_root does not match the latest receipt.")
    ++ errorWhen (disagree (lastCheckpoint.get (js "active_memory_root")) (lastReceipt.get (js "active_set_root")))
      (makeError "STALE_CHECKPOINT" "Latest checkpoint active_memory_root does not match the latest receipt.")

/-- What needs a public key and receipts. -/
def signedFindings (bundle : Json) (receipts checkpoints : List Json) (publicKey : Option Json) (committed : CommittedState) :
    List VerifierError × List VerifierError :=
  match publicKey, receipts.getLast? with
  | some key, some lastReceipt =>
    (chainFindings P K receipts key committed ++ receipts.flatMap (receiptFindings P K key),
      match checkpoints.getLast? with
      | some lastCheckpoint => checkpointFindings P K bundle lastCheckpoint lastReceipt key receipts
      | none => [])
  | _, _ => ([], [])

def isObjectOrArray : Json → Bool
  | .obj _ | .arr _ => true
  | _ => false

/-- The errors of `verifyBundle(bundle)`; a bundle is accepted when there are none. -/
def verifyBundle (bundle : Json) : List VerifierError :=
  let receipts := asArray (bundle.get (js "receipts"))
  let checkpoints := asArray (orElse (bundle.get (js "checkpoints")) (path (some bundle) ["passport", "checkpoints"]))
  let publicKey := (publicKeyFromBundle bundle).filter fun key => truthy (some key)
  let committed := committedVaultState bundle
  if isObjectOrArray bundle = false then [makeError "BUNDLE_INVALID" "Bundle must be a JSON object."]
  else
    let signed := signedFindings P K bundle receipts checkpoints publicKey committed
    errorWhen receipts.isEmpty (makeError "RECEIPTS_MISSING" "Bundle does not contain receipts.")
      ++ errorWhen publicKey.isNone (makeError "PUBLIC_KEY_MISSING" "Bundle does not contain an offline verifier public key.")
      ++ signed.1 ++ compareCommittedSequence receipts committed ++ signed.2

end EnigmaMemory
