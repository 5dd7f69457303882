import EnigmaMemory.Spec.Mesh
import EnigmaMemory.Spec.Numeric

/-!
# Enterprise policies

`evaluateEnterprisePolicy` of `packages/enterprise`: whether a policy allows a request, and for which
reasons it does not. Policies and requests are JSON values. `allow` and `decision`, which repeat
`allowed`, are left out of the result.
-/

namespace EnigmaMemory.Enterprise

open Json Mesh

def POLICY_SCHEMA : JsString := js "enigma.enterprise_policy.v1"

/-- What a request is about. -/
inductive Dimension where
  | operation
  | provider
  | model
  | region
  | purpose
  | sensitivity
  deriving DecidableEq

inductive ReasonCode where
  | allow
  | policyInvalid
  | unknown (dimension : Dimension)
  | denied (dimension : Dimension)
  | legalHoldDeleteDenied
  deriving DecidableEq

def Dimension.name : Dimension → String
  | .operation => "OPERATION"
  | .provider => "PROVIDER"
  | .model => "MODEL"
  | .region => "REGION"
  | .purpose => "PURPOSE"
  | .sensitivity => "SENSITIVITY"

def ReasonCode.text : ReasonCode → JsString
  | .allow => js "ALLOW"
  | .policyInvalid => js "POLICY_INVALID"
  | .unknown dimension => js (dimension.name ++ "_UNKNOWN")
  | .denied dimension => js (dimension.name ++ "_DENIED")
  | .legalHoldDeleteDenied => js "LEGAL_HOLD_DELETE_DENIED"

structure EnterpriseEvaluation where
  allowed : Bool
  reason_codes : List ReasonCode
  policy_id : Option Json
  policy_hash : JsString
  evaluated_at : JsString
  operation : Option JsString
  provider : Option Json
  model : Option Json
  region : Option Json
  purpose : Option Json
  sensitivity : Option Json
  memory_addr_hash : Option JsString

variable (P : Platform)

/-! ## Lists of a policy -/

/-- The items of an array; another value is the only item, and a missing one is none. -/
def itemsOf : Option Json → List Json
  | none | some .null => []
  | some (.arr xs) => xs
  | some value => [value]

def uniqueStrings (value : Option Json) : List JsString :=
  sortStrings (((itemsOf value).map (·.toText P.toNumberFormat)).filter (· ≠ [])).dedup

def allowedOperations (policy : Json) : Option Json :=
  orElse (policy.get (js "allowed_operations")) (policy.get (js "allowedOperations"))

def allowedProviders (policy : Json) : Option Json :=
  orElse (policy.get (js "allowed_providers")) (policy.get (js "allowedProviders"))

def allowedModels (policy : Json) : Option Json := orElse (policy.get (js "allowed_models")) (policy.get (js "allowedModels"))

def allowedRegions (policy : Json) : Option Json := orElse (policy.get (js "allowed_regions")) (policy.get (js "allowedRegions"))

def allowedPurposes (policy : Json) : Option Json := orElse (policy.get (js "allowed_purposes")) (policy.get (js "allowedPurposes"))

def deniedSensitivities (policy : Json) : Option Json :=
  firstOf [policy.get (js "denied_sensitivities"), policy.get (js "sensitivity_deny_list"), policy.get (js "deniedSensitivities"),
    policy.get (js "sensitivityDenyList")]

def legalHolds (policy : Json) : Option Json := orElse (policy.get (js "legal_holds")) (policy.get (js "legalHolds"))

/-! ## Legal holds -/

/-- `hold_001` and so on. -/
def holdName (index : ℕ) : JsString :=
  let digits := P.numberText (index + 1)
  js "hold_" ++ List.replicate (3 - digits.length) 48 ++ digits

/-- `hold.scope ? hashValue(hold.scope) : undefined`. -/
def scopeHash (hold : Json) : Option Json :=
  if truthy (hold.get (js "scope")) then some (.str (rootFromValue P ((hold.get (js "scope")).getD .null))) else none

/-- `hold.active === false ? 'released' : 'active'`. -/
def holdActivity (hold : Json) : Json :=
  match hold.get (js "active") with
  | some (.bool false) => .str (js "released")
  | _ => .str (js "active")

def normalizeLegalHold (hold : Json) (index : ℕ) : Option Json :=
  match hold with
  | .str s => some (.obj [(js "hold_id", .str (holdName P index)), (js "memory_addr", .str s), (js "status", .str (js "active"))])
  | .obj fs =>
    let hold := Json.obj fs
    let holdId := (firstOf [hold.get (js "hold_id"), hold.get (js "holdId"), some (.str (holdName P index))]).getD .null
    some (.obj ([(js "hold_id", .str (holdId.toText P.toNumberFormat))] ++
      field (js "memory_addr") (orElse (hold.get (js "memory_addr")) (hold.get (js "memoryAddr"))) ++
      field (js "memory_id") (orElse (hold.get (js "memory_id")) (hold.get (js "memoryId"))) ++
      field (js "subject_id") (orElse (hold.get (js "subject_id")) (hold.get (js "subjectId"))) ++
      field (js "scope_hash") (firstOf [hold.get (js "scope_hash"), hold.get (js "scopeHash"), scopeHash P hold]) ++
      field (js "reason_code") (orElse (hold.get (js "reason_code")) (hold.get (js "reasonCode"))) ++
      field (js "status") (orElse (hold.get (js "status")) (some (holdActivity hold)))))
  | _ => none

def normalizeLegalHolds (value : Option Json) : List Json :=
  ((itemsOf value).zipIdx.filterMap fun hold => normalizeLegalHold P hold.1 hold.2).insertionSort fun a b =>
    P.localeLe (a.canonicalize P.toNumberFormat) (b.canonicalize P.toNumberFormat) = true

def requestMemoryAddr (request : Json) : Option Json := orElse (request.get (js "memory_addr")) (request.get (js "memoryAddr"))

def requestMemoryId (request : Json) : Option Json := orElse (request.get (js "memory_id")) (request.get (js "memoryId"))

def requestSubjectId (request : Json) : Option Json := orElse (request.get (js "subject_id")) (request.get (js "subjectId"))

/-- `a && b && a === b`. -/
def bothAre (a b : Option Json) : Bool := truthy a && truthy b && strictEq a b

def activeLegalHoldMatches (hold request : Json) : Bool :=
  if truthy (hold.get (js "status")) && !isStr (hold.get (js "status")) (js "active") then false
  else
    bothAre (hold.get (js "memory_addr")) (requestMemoryAddr request) ||
      bothAre (hold.get (js "memory_id")) (requestMemoryId request) ||
      bothAre (hold.get (js "subject_id")) (requestSubjectId request)

/-! ## Evaluation -/

/-- `hashPolicy(policy)`: the hash is not part of what it is taken over. -/
def hashPolicy (policy : Json) : JsString :=
  if policy.isPlainRecord then rootFromValue P (withoutAll policy [js "policy_hash", js "policyHash"])
  else rootFromValue P (.obj [(js "schema", .str POLICY_SCHEMA), (js "invalid", .bool true)])

/-- The operation of a request as a text. -/
def operationOf (request : Json) : Option JsString :=
  match request.get (js "operation") with
  | none | some .null | some (.str []) => none
  | some value => some (value.toText P.toNumberFormat)

/-- A value that has to be there and to be listed. -/
def checkListed (dimension : Dimension) (isPresent : Bool) (value : JsString) (allowed : List JsString) : List ReasonCode :=
  if !isPresent then [.unknown dimension] else if allowed.length = 0 ∨ value ∉ allowed then [.denied dimension] else []

/-- `String(value ?? '')`. -/
def textOrEmpty (value : Option Json) : JsString := ((orElse value (some (.str []))).getD .null).toText P.toNumberFormat

def checkField (dimension : Dimension) (value : Option Json) (allowed : Option Json) : List ReasonCode :=
  checkListed dimension (truthy value) (textOrEmpty P value) (uniqueStrings P allowed)

/-- `request.legal_hold_delete === true || request.legalHoldDelete === true`. -/
def asksLegalHoldDelete (request : Json) : Bool :=
  strictEq (request.get (js "legal_hold_delete")) (some (.bool true)) || strictEq (request.get (js "legalHoldDelete")) (some (.bool true))

def checkSensitivity (sensitivity denied : Option Json) : List ReasonCode :=
  if !truthy sensitivity then [.unknown .sensitivity]
  else if textOrEmpty P sensitivity ∈ uniqueStrings P denied then [.denied .sensitivity]
  else []

def checkLegalHold (request : Json) (operation : Option JsString) (holds : List Json) : List ReasonCode :=
  if (operation == some (js "delete") || asksLegalHoldDelete request) && holds.any (activeLegalHoldMatches · request) then
    [.legalHoldDeleteDenied]
  else if asksLegalHoldDelete request then [.legalHoldDeleteDenied]
  else []

def reasonCodes (policy request : Json) : List ReasonCode :=
  let operation := operationOf P request
  checkListed .operation (operation.getD [] != []) (operation.getD []) (uniqueStrings P (allowedOperations policy)) ++
    checkField P .provider (request.get (js "provider")) (allowedProviders policy) ++
    checkField P .model (request.get (js "model")) (allowedModels policy) ++
    checkField P .region (request.get (js "region")) (allowedRegions policy) ++
    checkField P .purpose (request.get (js "purpose")) (allowedPurposes policy) ++
    checkSensitivity P (request.get (js "sensitivity")) (deniedSensitivities policy) ++
    checkLegalHold request operation (normalizeLegalHolds P (legalHolds policy))

/-- `!isPlainRecord(policy) || policy.schema !== POLICY_SCHEMA` makes it none. -/
def isPolicy (policy : Json) : Bool := policy.isPlainRecord && isStr (policy.get (js "schema")) POLICY_SCHEMA

/-- The time of a request: its own, when that is a text, or the clock's. -/
def evaluationTime (time : ℤ) (request : Json) : Except JsError JsString :=
  match request with
  | .null => .error (typeError (js "Cannot read properties of null (reading 'now')"))
  | request =>
    match request.get (js "now") with
    | some (.str s) => nowIso P time (.text s)
    | _ => nowIso P time .absent

/-- `evaluateEnterprisePolicy(policy, request)`. -/
def evaluateEnterprisePolicy (time : ℤ) (policy request : Json) : Except JsError EnterpriseEvaluation := do
  let evaluated_at ← evaluationTime P time request
  if isPolicy policy then
    let reasons := reasonCodes P policy request
    return {
      allowed := reasons.length == 0
      reason_codes := if reasons.length = 0 then [.allow] else reasons
      policy_id := policy.get (js "policy_id")
      policy_hash := hashPolicy P policy
      evaluated_at
      operation := operationOf P request
      provider := request.get (js "provider")
      model := request.get (js "model")
      region := request.get (js "region")
      purpose := request.get (js "purpose")
      sensitivity := request.get (js "sensitivity")
      memory_addr_hash :=
        if truthy (requestMemoryAddr request) then some (rootFromValue P ((requestMemoryAddr request).getD .null)) else none }
  else
    return {
      allowed := false
      reason_codes := [.policyInvalid]
      policy_id := none
      policy_hash := hashPolicy P policy
      evaluated_at
      operation := none
      provider := none
      model := none
      region := none
      purpose := none
      sensitivity := none
      memory_addr_hash := none }

end EnigmaMemory.Enterprise
