import EnigmaMemory.Lib.Grouping
import EnigmaMemory.Spec.Addition
import EnigmaMemory.Spec.Settlement

/-!
# Settlement batches

`createSettlementBatch` of `packages/settlement`: receipts in one asset are checked, their amounts are added up, for all
of them and for each operator, and the sums are sealed together with the digests of the receipts.
-/

namespace EnigmaMemory

/-- A key of a `Map`: two arrays or objects are different keys, here those of the entries with the given indices. -/
inductive MapKey where
  | undefined
  | null
  | bool (b : Bool)
  | num (q : ℚ)
  | str (s : JsString)
  | object (index : ℕ)
  deriving DecidableEq

def mapKey (index : ℕ) : Option Json → MapKey
  | none => .undefined
  | some .null => .null
  | some (.bool b) => .bool b
  | some (.num q) => .num q
  | some (.str s) => .str s
  | some (.arr _) | some (.obj _) => .object index

namespace Settlement

open Json

variable (P : Platform) (represent : ℚ → Numeric)

def batchSchema : JsString := js "enigma.settlement_batch.v1"

def claimBoundary : Json :=
  .arr [.str (js "Settlement batches aggregate service receipts only; they are not investment, profit, yield, equity, or provider invoice evidence."),
    .str (js "Permissionless access means open job submission/settlement boundary, not decentralized raw-memory inference."),
    .str (js "Raw memory, prompts, transcripts, provider responses, credentials, keys, seed phrases, and decrypted content are forbidden in settlement artifacts.")]

/-- `receipt.settled_price.amount` of a receipt that has a settled price. -/
def settledAmount (receipt : Json) : Option Json := path (some receipt) ["settled_price", "amount"]

/-- The checks on the receipt with the given index. -/
def checkReceipt (assetName : JsString) (receipt : Json) (index : ℕ) : Except JsError Unit := do
  require (hasSchema (some receipt) receiptSchema)
    (typeError (indexPath P.toNumberFormat (js "receipts") index ++ js " must be a service settlement receipt"))
  assertNoSensitivePayload P receipt (indexPath P.toNumberFormat (js "receipts") index)
  let receiptAsset ← member (receipt.get (js "settled_price")) "asset"
  require (strictEq receiptAsset (some (.str assetName))) (typeError (js "all receipts must use the batch asset"))

def checkReceipts (assetName : JsString) : List Json → ℕ → Except JsError Unit
  | [], _ => .ok ()
  | receipt :: rest, index => do
    checkReceipt P assetName receipt index
    checkReceipts assetName rest (index + 1)

structure OperatorTotal where
  operator_id : Option Json
  amount : Total

/-- The operator of a receipt with its index, as a key of `operatorTotals`. -/
def operatorKey (receipt : Json × ℕ) : MapKey := mapKey receipt.2 (receipt.1.get (js "operator_id"))

/-- `operatorTotals` after the loop. -/
def operatorTotals (receipts : List Json) : List OperatorTotal :=
  (Grouping.groups operatorKey (fun receipt => ⟨receipt.1.get (js "operator_id"), .number (.finite 0)⟩)
    (fun (entry : OperatorTotal) receipt =>
      { entry with amount := entry.amount.plus P.toNumberFormat represent (settledAmount receipt.1) })
    receipts.zipIdx).map Prod.snd

def OperatorTotal.isText (entry : OperatorTotal) : Bool :=
  match entry.operator_id with
  | some (.str _) => true
  | _ => false

/-- The operator as a text. -/
def OperatorTotal.operator (entry : OperatorTotal) : JsString := (entry.operator_id.getD .null).toText P.toNumberFormat

-- which of two entries is asked to compare itself with the other is up to the engine
def sortOperators (entries : List OperatorTotal) : Except JsError (List OperatorTotal) :=
  if entries.length ≤ 1 ∨ entries.all OperatorTotal.isText = true then
    .ok (entries.insertionSort fun a b => P.localeLe (a.operator P) (b.operator P))
  else .error (typeError (js "a.operator_id.localeCompare is not a function"))

def OperatorTotal.toJson (assetName : JsString) (entry : OperatorTotal) : Json :=
  .obj (field (js "operator_id") entry.operator_id ++ [(js "amount", entry.amount.toJson), (js "asset", .str assetName)])

structure SettlementBatch where
  generated_at : Option Json
  batch_ref : JsString
  asset : JsString
  receipt_count : ℕ
  receipt_hashes : List (Option Json)
  total_settled_amount : Total
  operator_totals : List OperatorTotal

/-- The body of a batch, of which `batch_id` and `batch_hash` are digests. -/
def SettlementBatch.body (b : SettlementBatch) : Json :=
  .obj ([(js "schema", .str batchSchema), (js "product_thesis", .str productThesis)] ++ field (js "generated_at") b.generated_at
    ++ [(js "batch_ref", .str b.batch_ref), (js "asset", .str b.asset), (js "receipt_count", .num b.receipt_count),
      (js "receipt_hashes", .arr (b.receipt_hashes.map (·.getD .null))),
      (js "total_settled_amount", b.total_settled_amount.toJson),
      (js "operator_totals", .arr (b.operator_totals.map (OperatorTotal.toJson b.asset))), (js "claim_boundary", claimBoundary)])

def SettlementBatch.toJson (b : SettlementBatch) : Json := sealed P "batch_id" "batch_hash" "batch_" b.body

/-- `Array.isArray(input.receipts) ? input.receipts : []`. -/
def batchReceipts (input : Json) : List Json :=
  match input.get (js "receipts") with
  | some (.arr receipts) => receipts
  | _ => []

def createSettlementBatch (input : Json) : Except JsError SettlementBatch := do
  require input.isPlainRecord (typeError (js "createSettlementBatch requires an options object"))
  assertNoSensitivePayload P input (js "input")
  let receipts := batchReceipts input
  require (!receipts.isEmpty) (typeError (js "receipts must be non-empty"))
  let assetName ← asset (orElse (input.get (js "asset")) (path receipts.head? ["settled_price", "asset"])) "asset"
  checkReceipts P assetName receipts 0
  let generatedAt ← isoTimestamp P (option input "generated_at" "generatedAt") "generated_at" (epoch P)
  let batchRef ← requiredString (option input "batch_ref" "batchRef") "batch_ref"
  let sorted ← sortOperators P (operatorTotals P represent receipts)
  let batch : SettlementBatch := {
    generated_at := generatedAt
    batch_ref := batchRef
    asset := assetName
    receipt_count := receipts.length
    receipt_hashes := receipts.map (·.get (js "settlement_receipt_hash"))
    total_settled_amount := Total.sumUp P.toNumberFormat represent (receipts.map settledAmount)
    operator_totals := sorted }
  assertNoSensitivePayload P (batch.toJson P) (js "batch")
  return batch

end Settlement

end EnigmaMemory
