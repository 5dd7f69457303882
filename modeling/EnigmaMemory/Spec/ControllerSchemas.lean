import EnigmaMemory.Spec.ControllerReports
import EnigmaMemory.Spec.JsonSchema

/-!
# The published schemas of the memory controller

The four schemas that `packages/controller` exports beside its constructors. A missing
`minItems` is `minItems: 0`.
-/

namespace EnigmaMemory

namespace Controller

open Schema

/-- `BOUNDARY_JSON_PROPERTIES`. -/
def boundaryProperties : List (JsString × Schema) := boundaryFields.map fun f => (f.1, const f.2)

def boundaryNames : List JsString := boundaryFields.map Prod.fst

/-- `PUBLIC_REF_JSON_SCHEMA`. -/
def publicRefSchema : Schema := allOf [type [.string], pattern publicRefTest]

/-- `SHA256_DIGEST_JSON_SCHEMA`. -/
def sha256DigestSchema : Schema := allOf [type [.string], pattern isRoot]

def textSchema : Schema := type [.string]

def recallDecisions : List JsString := [js "allow", js "ask", js "deny"]

def bubbleStatuses : List JsString := [js "open", js "kept", js "discarded", js "expired"]

/-! ## `CONSENT_GRANT_JSON_SCHEMA` -/

def grantProperties : List (JsString × Schema) :=
  [(js "schema", const (.str grantSchema)), (js "app_ref", publicRefSchema), (js "purpose_ref", publicRefSchema),
    (js "operations", setOf 1 (Schema.strings grantOperations)), (js "memory_zone_refs", setOf 1 publicRefSchema),
    (js "issued_at", textSchema), (js "expires_at", textSchema), (js "status", Schema.strings grantStatuses),
    (js "grant_ref", publicRefSchema), (js "policy_ref", publicRefSchema), (js "proof_refs", setOf 1 publicRefSchema),
    (js "receipt_refs", setOf 1 publicRefSchema)] ++ boundaryProperties

def consentGrantJsonSchema : Schema := closedObject consentGrantFields grantProperties []

/-! ## `RECALL_VETO_DECISION_JSON_SCHEMA` -/

def vetoRequired : List JsString :=
  [js "schema", js "request_ref", js "app_ref", js "policy_ref", js "decision", js "reason_codes", js "candidate_count",
    js "sensitive_count", js "tombstone_count", js "grant_refs", js "proof_refs", js "receipt_refs", js "safe_to_share"]
    ++ boundaryNames

def vetoProperties : List (JsString × Schema) :=
  [(js "schema", const (.str vetoSchema)), (js "request_ref", publicRefSchema), (js "app_ref", publicRefSchema),
    (js "policy_ref", publicRefSchema), (js "decision", Schema.strings recallDecisions),
    (js "reason_codes", setOf 0 (Schema.strings recallReasonCodes)), (js "candidate_count", count),
    (js "sensitive_count", count), (js "tombstone_count", count), (js "grant_refs", setOf 0 publicRefSchema),
    (js "proof_refs", setOf 1 publicRefSchema), (js "receipt_refs", setOf 1 publicRefSchema),
    (js "safe_to_share", type [.boolean])] ++ boundaryProperties

/-- An allowed request is safe to share. -/
def allowRule : Schema :=
  ifThen (allOf [properties [(js "decision", const (.str (js "allow")))], .required [js "decision"]])
    (properties [(js "safe_to_share", const (.bool true))])

/-- Every other request has a reason and is not. -/
def refusalRule : Schema :=
  ifThen (allOf [properties [(js "decision", enum [.str (js "ask"), .str (js "deny")])], .required [js "decision"]])
    (properties [(js "reason_codes", minItems 1), (js "safe_to_share", const (.bool false))])

def recallVetoDecisionJsonSchema : Schema := closedObject vetoRequired vetoProperties [allOf [allowRule, refusalRule]]

/-! ## `PRIVATE_MEMORY_BUBBLE_JSON_SCHEMA` -/

def bubbleRequired : List JsString :=
  [js "schema", js "bubble_ref", js "app_refs", js "purpose_ref", js "status", js "started_at", js "closed_at",
    js "candidate_count", js "kept_count", js "discarded_count", js "receipt_refs", js "bubble_root"] ++ boundaryNames

def bubbleProperties : List (JsString × Schema) :=
  [(js "schema", const (.str bubbleSchema)), (js "bubble_ref", publicRefSchema), (js "app_refs", setOf 1 publicRefSchema),
    (js "purpose_ref", publicRefSchema), (js "status", Schema.strings bubbleStatuses), (js "started_at", textSchema),
    (js "closed_at", type [.string, .null]), (js "candidate_count", count), (js "kept_count", count),
    (js "discarded_count", count), (js "receipt_refs", setOf 1 publicRefSchema), (js "bubble_root", sha256DigestSchema)]
    ++ boundaryProperties

def privateMemoryBubbleJsonSchema : Schema := closedObject bubbleRequired bubbleProperties []

/-! ## `MEMORY_WEATHER_REPORT_JSON_SCHEMA` -/

def tileRequired : List JsString := [js "tile_ref", js "status", js "metric", js "count", js "evidence_refs"]

def tileProperties : List (JsString × Schema) :=
  [(js "tile_ref", publicRefSchema), (js "status", Schema.strings weatherStatuses),
    (js "metric", Schema.strings weatherMetrics), (js "count", count), (js "evidence_refs", setOf 1 publicRefSchema)]

def tileSchema : Schema := closedObject tileRequired tileProperties []

def weatherRequired : List JsString :=
  [js "schema", js "status", js "generated_at", js "tiles", js "issue_codes", js "next_action", js "evidence_refs"]
    ++ boundaryNames

def weatherProperties : List (JsString × Schema) :=
  [(js "schema", const (.str weatherSchema)), (js "status", Schema.strings weatherStatuses), (js "generated_at", textSchema),
    (js "tiles", setOf 1 tileSchema), (js "issue_codes", setOf 0 (Schema.strings weatherIssueCodes)),
    (js "next_action", Schema.strings weatherNextActions), (js "evidence_refs", setOf 1 publicRefSchema)]
    ++ boundaryProperties

/-- A sunny report has no issues and asks for nothing. -/
def sunnyRule : Schema :=
  ifThen (allOf [properties [(js "status", const (.str (js "sunny")))], .required [js "status"]])
    (properties [(js "issue_codes", maxItems 0), (js "next_action", const (.str (js "none")))])

/-- Every other report has an issue. -/
def cloudyRule : Schema :=
  ifThen (allOf [properties [(js "status", enum [.str (js "needs_attention"), .str (js "storm_warning")])], .required [js "status"]])
    (properties [(js "issue_codes", minItems 1)])

def memoryWeatherReportJsonSchema : Schema := closedObject weatherRequired weatherProperties [allOf [sunnyRule, cloudyRule]]

end Controller

end EnigmaMemory
