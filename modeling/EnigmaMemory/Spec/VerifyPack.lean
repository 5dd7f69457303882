import EnigmaMemory.Spec.ContextPack

/-!
# Verification of context packs

`verifyContextPack` of `packages/passport`. The pack, the passport and the trusted keys are
JSON values; the state that the pack is checked against may also be a `Set`, a `Map` or a live
vault (`StateInput`). A `Set` of JSON values compares its elements as `===` does, so two
objects are never one element. The canonical text of the public pack, which the result
repeats, is left out.
-/

namespace EnigmaMemory

open Json

variable (P : Platform)

/-! ## The pack as JSON -/

def contextPackSchema : JsString := js "enigma.context_pack.v1"

/-- The pack as `compileContextPack` returns it. -/
def ContextPack.toJson (p : ContextPack) : Json :=
  .obj [(js "schema", .str contextPackSchema), (js "context_pack_id", p.context_pack_id),
    (js "passport_id", p.passport_id), (js "generated_at", .str p.generated_at), (js "provider", p.provider),
    (js "model", p.model), (js "purpose", p.purpose), (js "query", p.query),
    (js "memory_addresses", .arr (p.memory_addresses.map .str)), (js "memories", .arr p.memories),
    (js "receipts", .arr (p.retrieval_receipts ++ p.injection_receipts)),
    (js "retrieval_receipts", .arr p.retrieval_receipts), (js "injection_receipts", .arr p.injection_receipts),
    (js "active_set_root", .str p.active_set_root), (js "receipt_log_root", .str p.receipt_log_root),
    (js "receipt_hashes", .arr (p.receipt_hashes.map .str)), (js "optimization_plan", p.optimization_plan),
    (js "optimization_receipts", .arr p.optimization_receipts)]

/-! ## Values -/

/-- The items that a string is iterated by: its code points. -/
def codePoints : JsString → List JsString
  | c :: d :: rest =>
    if isHighSurrogate c && isLowSurrogate d then [c, d] :: codePoints rest else [c] :: codePoints (d :: rest)
  | [c] => [[c]]
  | [] => []

/-- The items of `for (const item of value ?? [])`. -/
def iterate (value : Option Json) : Except JsError (List Json) :=
  match value with
  | none | some .null => .ok []
  | some (.arr xs) => .ok xs
  | some (.str s) => .ok ((codePoints s).map .str)
  | some _ => .error (typeError (js "value is not iterable"))

/-! ## The state -/

/-- A value that active addresses and tombstones are read from. -/
inductive StateInput where
  | set (elements : List Json)
  | map (keys : List Json)
  | vault (v : Vault)
  | json (j : Json)

def activeAddressesFrom (input : Option StateInput) : List Json :=
  match input with
  | none | some (.map _) => []
  | some (.set elements) => elements
  | some (.vault v) => v.activeAddresses.elems.map .str
  | some (.json (.arr xs)) => xs
  | some (.json j) =>
    match j.get (js "active_memory_addresses"), j.get (js "activeState") with
    | some (.arr xs), _ => xs
    | _, some (.arr xs) => xs
    | _, _ => []

/-- `item.memory_addr ?? item.memoryAddr ?? item`. -/
def tombstoneAddr (item : Json) : Except JsError Json :=
  match item with
  | .null => .error (typeError (js "Cannot read properties of null (reading 'memory_addr')"))
  | item => .ok ((firstOf [item.get (js "memory_addr"), item.get (js "memoryAddr"), some item]).getD item)

def tombstoneAddressesFrom (input : Option StateInput) : Except JsError (List Json) :=
  match input with
  | none | some (.set _) => .ok []
  | some (.map keys) => .ok keys
  | some (.vault v) => .ok (v.tombstones.keys.map .str)
  | some (.json (.arr xs)) => xs.mapM tombstoneAddr
  | some (.json j) =>
    match j.get (js "tombstones") with
    | some (.arr xs) => xs.mapM tombstoneAddr
    | _ => .ok []

/-- `passport?.tombstone_addresses`. -/
def tombstoneList (passport : Option StateInput) : Option Json :=
  match passport with
  | some (.json j) => j.get (js "tombstone_addresses")
  | _ => none

/-! ## The trusted key -/

/-- The text of a key. A key that is no PEM text goes to the platform as its JSON text. -/
def keyText : Json → JsString
  | .str s => s
  | j => j.stringify P.toNumberFormat

/-- `{ publicKey }` or `{ publicKeys }`, as `verifyReceipt` reads them. -/
def trustKey (key : Json) : VerifyOptions := { publicKey := some (keyText P key) }

def trustKeys (keys : Json) : VerifyOptions :=
  { publicKeys := some fun id => (keys.get (id.toText P.toNumberFormat)).map (keyText P) }

/-- The keys of a list of trusted issuers. -/
def issuerKeys (issuers : List Json) : Json :=
  issuers.foldl (fun out issuer =>
    match firstOf [path (some issuer) ["key_id"], path (some issuer) ["keyId"], path (some issuer) ["key", "key_id"],
        path (some issuer) ["key", "keyId"]],
      firstOf [path (some issuer) ["public_key"], path (some issuer) ["publicKey"],
        path (some issuer) ["key", "public_key"], path (some issuer) ["key", "publicKey"]] with
    | some (.str keyId), some key => out.set keyId key
    | _, _ => out) (.obj [])

def trustedKeyOptions (args : Json) : Option VerifyOptions :=
  let arg (keys : List String) := path (some args) keys
  let bundle := firstOf [arg ["trustedKeyBundle"], arg ["trusted_key_bundle"], arg ["trustedBundle"],
    arg ["trusted_bundle"], arg ["trustBundle"], arg ["trust_bundle"], arg ["bundle"]]
  let descriptor := firstOf [arg ["trustDescriptor"], arg ["trustedDescriptor"], arg ["issuerDescriptor"],
    arg ["descriptor"], path bundle ["trustDescriptor"], path bundle ["descriptor"]]
  let publicKey := firstOf [arg ["publicKey"], arg ["public_key"], arg ["trustedPublicKey"], arg ["trusted_public_key"],
    path descriptor ["public_key"], path descriptor ["publicKey"], path descriptor ["key", "public_key"],
    path descriptor ["key", "publicKey"], path bundle ["publicKey"], path bundle ["public_key"],
    path bundle ["key", "public_key"], path bundle ["key", "publicKey"], path bundle ["signer", "publicKey"],
    path bundle ["signer", "public_key"], path bundle ["keyring", "publicKey"], path bundle ["keyring", "public_key"],
    path bundle ["keypair", "publicKey"], path bundle ["keys", "publicKey"]]
  let publicKeys := firstOf [arg ["publicKeys"], arg ["public_keys"], arg ["keyring"], arg ["keys"],
    path bundle ["publicKeys"], path bundle ["public_keys"], path bundle ["keyring"], path bundle ["keys"]]
  let trustedIssuers := firstOf [path bundle ["trust_bundle", "trusted_issuers"],
    path bundle ["trust", "trusted_issuers"], path bundle ["trusted_issuers"]]
  match publicKey, publicKeys, trustedIssuers with
  | some key, _, _ => some (trustKey P key)
  | none, some keys, _ => some (trustKeys P keys)
  | none, none, some (.arr issuers) =>
    if (issuerKeys issuers).keys.isEmpty then none else some (trustKeys P (issuerKeys issuers))
  | none, none, _ => none

/-! ## Receipts -/

/-- `value && typeof value === 'object' && !Array.isArray(value)`, with `alg` and a text. -/
def isAlgObject (value : Option Json) (field : JsString) : Bool :=
  match value with
  | some (.obj fs) => Json.isStr ((Json.obj fs).get (js "alg")) (js "Ed25519") &&
      (match (Json.obj fs).get field with | some (.str s) => !s.isEmpty | _ => false)
  | _ => false

def isString (value : Option Json) : Bool :=
  match value with
  | some (.str _) => true
  | _ => false

/-- `PREVIOUS_RECEIPT_RE.test(value ?? '')`. -/
def previousReceiptTest (value : Option Json) : Bool :=
  match value with
  | none | some .null => false
  | some v => v.toText P.toNumberFormat == genesis || isRoot (v.toText P.toNumberFormat)

def receiptHasPublicShape (receipt : Json) : Bool :=
  Json.isStr (receipt.get (js "schema")) (js "enigma.receipt.v1")
    && receipt.keys.all (fun key => decide (key ∈ receiptFields) && !decide (key ∈ passportPlaintextKeys))
    && isAlgObject (receipt.get (js "signer")) (js "key_id")
    && isAlgObject (receipt.get (js "signature")) (js "value")
    && ((receipt.get (js "signature")).map Json.keys |>.getD []).all (fun key => decide (key ∈ receiptSignatureFields))
    && isString (receipt.get (js "receipt_id")) && isString (receipt.get (js "operation"))
    && isString (receipt.get (js "tenant_id")) && isString (receipt.get (js "subject_id"))
    && (Json.natural? (receipt.get (js "sequence"))).isSome
    && rootTest P (receipt.get (js "event_hash")) && rootTest P (receipt.get (js "active_set_root"))
    && rootTest P (receipt.get (js "receipt_log_root")) && previousReceiptTest P (receipt.get (js "previous_receipt_hash"))

def verifyReceiptBestEffort (receipt : Json) (trustOptions : Option VerifyOptions) : Bool :=
  match trustOptions with
  | none => false
  | some options => (verifyReceipt P receipt options).isEmpty

/-- What the loop over the receipts finds wrong with one of them. -/
def packReceiptErrors (trustOptions : Option VerifyOptions) (receipt : Json) : Except JsError (List JsString) :=
  if receiptHasPublicShape P receipt && (trustOptions.isNone || verifyReceiptBestEffort P receipt trustOptions) then .ok []
  else
    match receipt with
    | .null => .error (typeError (js "Cannot read properties of null (reading 'receipt_id')"))
    | receipt => .ok [js "receipt failed verification: "
        ++ (withDefault (receipt.get (js "receipt_id")) (.str (js "unknown"))).toText P.toNumberFormat]

/-- `receiptOperations`, one pair for each receipt that names an address. -/
def receiptOperations (receipts : List Json) : List (Json × Option Json) :=
  receipts.filterMap fun receipt =>
    if Json.truthy (receipt.get (js "memory_addr")) then
      (receipt.get (js "memory_addr")).map fun addr => (addr, receipt.get (js "operation"))
    else none

/-- `receiptOperations.get(addr)?.has(operation)`. -/
def hasOperation (operations : List (Json × Option Json)) (operation : String) (addr : Json) : Bool :=
  operations.any fun o => sameValue o.1 addr && Json.isStr o.2 (js operation)

/-! ## The public pack -/

def publicContextMemory (memory : Json) : Json :=
  .obj (Json.field (js "memory_addr") (memory.get (js "memory_addr"))
    ++ Json.field (js "memory_id") (memory.get (js "memory_id"))
    ++ Json.field (js "subject_id") (memory.get (js "subject_id"))
    ++ Json.field (js "kind") (memory.get (js "kind"))
    ++ Json.field (js "sensitivity") (memory.get (js "sensitivity"))
    ++ [(js "purpose_tags", match memory.get (js "purpose_tags") with | some (.arr xs) => .arr xs | _ => .arr []),
      (js "source_refs", .arr (sanitizeSourceRefs P.toNumberFormat passportPlaintextKeys (memory.get (js "source_refs"))))]
    ++ Json.field (js "confidence") (memory.get (js "confidence"))
    ++ [(js "content_redacted", .bool true)])

/-- `Object.entries(value)`, for strings too. -/
def ownEntries : Json → List (JsString × Json)
  | .str s => s.zipIdx.map fun c => (P.numberText c.2, .str [c.1])
  | value => entries P.toNumberFormat value

/-- `{ ...value }` without `content_hash`, which leaves a mark. -/
def withoutContentHash (value : Json) : Json :=
  match value with
  | .arr _ | .obj _ =>
    let out := Json.obj (entries P.toNumberFormat value)
    match out.get (js "content_hash") with
    | none => out
    | some _ => (out.without (js "content_hash")).set (js "content_hash_redacted") (.bool true)
  | value => value

def publicOptimizationItem (item : Json) : Json := withoutContentHash P item

def publicOptimizationReceipt (receipt : Json) : Json := withoutContentHash P receipt

/-- `Array.isArray(value) ? value.map(f) : []`. -/
def mapArray (f : Json → Json) (value : Option Json) : Json :=
  match value with
  | some (.arr xs) => .arr (xs.map f)
  | _ => .arr []

def publicOptimizationPlan (plan : Option Json) : Json :=
  match plan with
  | some (.arr xs) => rebuild (.arr xs)
  | some (.obj fs) => rebuild (.obj fs)
  | _ => .null
where
  rebuild (plan : Json) : Json :=
    let tiers := (ownEntries P (withDefault (plan.get (js "tiers")) (.obj []))).foldl
      (fun out e => out.set e.1 (mapArray (publicOptimizationItem P) (some e.2))) (.obj [])
    ((Json.obj (entries P.toNumberFormat plan)).set (js "tiers") tiers).set (js "items")
      (mapArray (publicOptimizationItem P) (plan.get (js "items")))

/-- `value ? { a: value.a, b: value.b } : value`. -/
def pickPair (value : Option Json) (a b : String) : Option Json :=
  if Json.truthy value then
    some (.obj (Json.field (js a) (path value [a]) ++ Json.field (js b) (path value [b])))
  else value

def publicReceipt (receipt : Json) : Json :=
  .obj ((receiptFields.take 16).flatMap (fun f => Json.field f (receipt.get f))
    ++ Json.field (js "signer") (pickPair (receipt.get (js "signer")) "key_id" "alg")
    ++ Json.field (js "signature") (pickPair (receipt.get (js "signature")) "alg" "value"))

def publicContextPack (pack : Json) : Except JsError Json := do
  let addresses ← iterate (pack.get (js "memory_addresses"))
  let hashes ← iterate (pack.get (js "receipt_hashes"))
  return .obj (Json.field (js "schema") (pack.get (js "schema"))
    ++ Json.field (js "context_pack_id") (pack.get (js "context_pack_id"))
    ++ Json.field (js "passport_id") (pack.get (js "passport_id"))
    ++ Json.field (js "generated_at") (pack.get (js "generated_at"))
    ++ Json.field (js "provider") (pack.get (js "provider"))
    ++ Json.field (js "model") (pack.get (js "model"))
    ++ Json.field (js "purpose") (pack.get (js "purpose"))
    ++ [(js "query_redacted", .bool (pack.get (js "query")).isSome), (js "memory_addresses", .arr addresses),
      (js "memories", mapArray (publicContextMemory P) (pack.get (js "memories"))),
      (js "receipts", mapArray publicReceipt (pack.get (js "receipts"))),
      (js "retrieval_receipts", mapArray publicReceipt (pack.get (js "retrieval_receipts"))),
      (js "injection_receipts", mapArray publicReceipt (pack.get (js "injection_receipts")))]
    ++ Json.field (js "active_set_root") (pack.get (js "active_set_root"))
    ++ Json.field (js "receipt_log_root") (pack.get (js "receipt_log_root"))
    ++ [(js "receipt_hashes", .arr hashes), (js "optimization_plan", publicOptimizationPlan P (pack.get (js "optimization_plan"))),
      (js "optimization_receipts", mapArray (publicOptimizationReceipt P) (pack.get (js "optimization_receipts")))])

/-! ## `verifyContextPack` -/

/-- The arguments: the state inputs after the choice between alternative names, and the
object that the pack and the trusted keys are read from. -/
structure VerifyPackArgs where
  options : Json
  active_state : Option StateInput := none
  vault : Option StateInput := none
  passport : Option StateInput := none
  tombstones : Option StateInput := none

structure PackVerdict where
  valid : Bool
  errors : List JsString
  context_pack_id : Option Json
  memory_addresses : List Json
  public_context_pack : Json

/-- The pack among the arguments, which may be one themselves. -/
def packOf (args : VerifyPackArgs) : Option Json :=
  if Json.isStr (args.options.get (js "schema")) contextPackSchema then some args.options
  else firstOf [args.options.get (js "contextPack"), args.options.get (js "context_pack"), args.options.get (js "pack")]

/-- `active`, as a list. -/
def suppliedActive (args : VerifyPackArgs) : List Json :=
  activeAddressesFrom args.active_state ++ activeAddressesFrom args.vault ++ activeAddressesFrom args.passport

/-- `tombstones`, as a list. -/
def suppliedTombstones (args : VerifyPackArgs) : Except JsError (List Json) := do
  let given ← tombstoneAddressesFrom args.tombstones
  let vault ← tombstoneAddressesFrom args.vault
  let passport ← tombstoneAddressesFrom args.passport
  let listed ← iterate (tombstoneList args.passport)
  return given ++ vault ++ passport ++ listed

def memoryAddressesFromPack (pack : Json) : Except JsError (List Json) := do
  let addresses ← iterate (pack.get (js "memory_addresses"))
  let memories ← iterate (pack.get (js "memories"))
  return distinctValues (addresses ++ memories.filterMap fun memory =>
    if Json.truthy (memory.get (js "memory_addr")) then memory.get (js "memory_addr") else none)

def publicKeyRequired : JsString := js "PUBLIC_KEY_REQUIRED_FOR_CONTEXT_PACK_VERIFICATION"

def activityErrors (active tombstones : List Json) (addr : Json) : List JsString :=
  (if hasValue tombstones addr then [js "memory is tombstoned: " ++ addr.toText P.toNumberFormat] else [])
    ++ if hasValue active addr then [] else [js "memory is absent from active state: " ++ addr.toText P.toNumberFormat]

def missingErrors (operations : List (Json × Option Json)) (addr : Json) : List JsString :=
  (if hasOperation operations "retrieve" addr then [] else [js "missing retrieve receipt: " ++ addr.toText P.toNumberFormat])
    ++ if hasOperation operations "inject" addr then [] else [js "missing inject receipt: " ++ addr.toText P.toNumberFormat]

/-- `errors`, when all checks have run. -/
def contextPackErrors (args : VerifyPackArgs) (pack : Json) : Except JsError (List JsString) := do
  let tombstones ← suppliedTombstones args
  let trustOptions := trustedKeyOptions P args.options
  let addresses ← memoryAddressesFromPack pack
  let receipts ← iterate (pack.get (js "receipts"))
  let receiptErrors ← receipts.mapM (packReceiptErrors P trustOptions)
  let listed ← iterate (pack.get (js "memory_addresses"))
  return (if trustOptions.isNone then [publicKeyRequired] else [])
    ++ addresses.flatMap (activityErrors P (suppliedActive args) tombstones)
    ++ receiptErrors.flatten ++ listed.flatMap (missingErrors P (receiptOperations receipts))

def packVerdict (pack : Json) (errors : List JsString) : Except JsError PackVerdict := do
  let publicPack ← publicContextPack P pack
  let addresses ← iterate (pack.get (js "memory_addresses"))
  return ⟨errors.isEmpty, errors, pack.get (js "context_pack_id"), addresses, publicPack⟩

def verifyContextPack (args : VerifyPackArgs) : Except JsError PackVerdict :=
  match packOf args with
  | none => .error ⟨.error, js "verifyContextPack requires an enigma.context_pack.v1 pack"⟩
  | some pack =>
    if !Json.isStr (pack.get (js "schema")) contextPackSchema then
      .error ⟨.error, js "verifyContextPack requires an enigma.context_pack.v1 pack"⟩
    else do
      let errors ← contextPackErrors P args pack
      if publicKeyRequired ∈ errors then packVerdict P pack errors
      else if errors.isEmpty then packVerdict P pack errors
      else .error ⟨.error, js "context pack verification failed: " ++ joinErrors errors⟩

end EnigmaMemory
