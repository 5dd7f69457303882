import EnigmaMemory.Proof.Mesh
import EnigmaMemory.Proof.Reference
import EnigmaMemory.Spec.MeshArtifacts

/-!
# Capsules, checkpoints and grants that are accepted

* `artifact_hash_unchecked`: no artifact has a hash that its verifier stands by.
* `expiry_closed_iff`: when an artifact that is accepted has not expired.
* `payload_hash_iff`: when the hash that is stored is that of the payload.
-/

namespace EnigmaMemory.Mesh.Artifacts

open Json

variable {P : Platform}

/-! ## The hash of an artifact -/

inductive Kind where
  | capsule
  | witness
  | grant

def Kind.create (P : Platform) : Kind → Json → Except JsError Json
  | .capsule => createCapsuleManifest P
  | .witness => createWitnessCheckpoint P
  | .grant => createFederationGrant P

def Kind.verify (P : Platform) : Kind → Json → VerifyOptions → Except JsError Verification
  | .capsule, artifact, o => .ok (verifyCapsuleManifest P artifact o)
  | .witness, artifact, o => .ok (verifyWitnessCheckpoint P artifact o)
  | .grant, artifact, o => verifyFederationGrant P artifact o

def Kind.hashField : Kind → JsString
  | .capsule => js "capsule_hash"
  | .witness => js "witness_hash"
  | .grant => js "grant_hash"

def Accepts (P : Platform) (kind : Kind) (artifact : Json) (o : VerifyOptions) : Prop :=
  ∃ v, kind.verify P artifact o = .ok v ∧ v.ok = true

/-- The verifier returns the hash that the artifact carries, and accepts no other in its place. -/
structure Agrees (P : Platform) (kind : Kind) (artifact : Json) (o : VerifyOptions) : Prop where
  accepted : ∃ v, kind.verify P artifact o = .ok v ∧ v.ok = true ∧ v.hash.map Json.str = artifact.get kind.hashField
  bound : ∀ value, artifact.get kind.hashField ≠ some value → ¬ Accepts P kind (artifact.set kind.hashField value) o

/-- What is set and taken away again. -/
theorem withoutAll_set (j v : Json) {key : JsString} {names : List JsString} (h : key ∈ names) :
    withoutAll (j.set key v) names = withoutAll j names := by
  have hdropped : ∀ (w : Json) (fs : List (JsString × Json)),
      ((key, w) :: fs).filter (·.1 ∉ names) = fs.filter (·.1 ∉ names) := fun w fs =>
    List.filter_cons_of_neg (by simpa using h)
  rw [withoutAll, withoutAll, Json.set, fields]
  refine congrArg Json.obj ?_
  induction j.fields with
  | nil => rw [setField, hdropped]
  | cons f fs ih =>
    rw [setField]
    split
    · rename_i hkey
      rw [hdropped, ← hdropped f.2, ← hkey]
    · rw [List.filter_cons, List.filter_cons, ih]

theorem hashField_unsigned (kind : Kind) :
    kind.hashField ∈ [js "signature", js "descriptor_hash", js "capsule_hash", js "witness_hash", js "grant_hash"] := by
  cases kind <;> simp [Kind.hashField]

theorem hashField_harmless (kind : Kind) : isPlaintextKeyOf FORBIDDEN_PLAINTEXT_KEYS kind.hashField = false := by
  cases kind <;> decide

theorem hashField_ne_signature (kind : Kind) : js "signature" ≠ kind.hashField := by
  cases kind <;> simp [Kind.hashField]

theorem verifySignedRecord_set (kind : Kind) (j v : Json) (o : VerifyOptions) :
    verifySignedRecord P (j.set kind.hashField v) o = verifySignedRecord P j o := by
  unfold verifySignedRecord
  rw [get_set, if_neg (hashField_ne_signature kind), signaturePayload, withoutAll_set j v (hashField_unsigned kind)]
  rfl

theorem requiredErrors_set {j v : Json} {key : JsString} {names : List String} (h : ∀ name ∈ names, js name ≠ key) :
    requiredErrors (j.set key v) names = requiredErrors j names := by
  unfold requiredErrors
  rw [List.flatMap_def, List.flatMap_def]
  refine congrArg List.flatten (List.map_congr_left fun name hname => ?_)
  rw [get_set, if_neg (h name hname)]

theorem rootErrors_set {j v : Json} {key : JsString} {names : List String} (h : ∀ name ∈ names, js name ≠ key) :
    rootErrors P (j.set key v) names = rootErrors P j names := by
  unfold rootErrors
  rw [List.flatMap_def, List.flatMap_def]
  refine congrArg List.flatten (List.map_congr_left fun name hname => ?_)
  rw [get_set, if_neg (h name hname)]

theorem leak_set_hash (kind : Kind) {j : Json} (h : hasPlaintextLeak FORBIDDEN_PLAINTEXT_KEYS j = false) (s : JsString) :
    hasPlaintextLeak FORBIDDEN_PLAINTEXT_KEYS (j.set kind.hashField (.str s)) = false :=
  leak_set_harmless h (hashField_harmless kind) rfl

/-- **A text in place of the hash** changes no error of the verifier. -/
theorem verify_set (kind : Kind) {artifact : Json} (hplain : artifact.isPlainRecord = true)
    (hleak : hasPlaintextLeak FORBIDDEN_PLAINTEXT_KEYS artifact = false) (s : JsString) (o : VerifyOptions) :
    (kind.verify P (artifact.set kind.hashField (.str s)) o).map Verification.ok = (kind.verify P artifact o).map Verification.ok := by
  have hleak' := leak_set_hash kind hleak s
  have hsigned := verifySignedRecord_set (P := P) kind artifact (.str s) o
  cases kind with
  | capsule =>
    rw [Kind.hashField] at hleak' hsigned
    rw [Kind.hashField, Kind.verify, Kind.verify, Except.map, Except.map, verifyCapsuleManifest, verifyCapsuleManifest,
      if_neg (by simp [Json.set, isPlainRecord]), if_neg (by simp [hplain]), hleak, hleak', hsigned, rootErrors_set (by simp),
      requiredErrors_set (by simp)]
    simp [get_set, Verification.ok]
  | witness =>
    rw [Kind.hashField] at hleak' hsigned
    rw [Kind.hashField, Kind.verify, Kind.verify, Except.map, Except.map, verifyWitnessCheckpoint, verifyWitnessCheckpoint,
      if_neg (by simp [Json.set, isPlainRecord]), if_neg (by simp [hplain]), hleak, hleak', hsigned, rootErrors_set (by simp)]
    simp [get_set, Verification.ok]
  | grant =>
    rw [Kind.hashField] at hleak' hsigned
    rw [Kind.hashField, Kind.verify, Kind.verify, verifyFederationGrant, verifyFederationGrant,
      if_neg (by simp [Json.set, isPlainRecord]), if_neg (by simp [hplain]), hleak, hleak', hsigned, requiredErrors_set (by simp)]
    simp only [get_set, js_inj, String.reduceEq, if_false]
    cases notGranted P (artifact.get (js "subjects")) (orElse o.expectedSubject o.subject) with
    | error e => rfl
    | ok subject =>
      cases notGranted P (artifact.get (js "operations")) (orElse o.expectedOperation o.operation) with
      | error e => rfl
      | ok operation => rfl

theorem accepts_iff {kind : Kind} {artifact : Json} {o : VerifyOptions} :
    Accepts P kind artifact o ↔ (kind.verify P artifact o).map Verification.ok = .ok true :=
  Except.map_eq_ok.symm

/-- An artifact that is accepted is an object without plaintext. -/
theorem Accepts.clean {kind : Kind} {artifact : Json} {o : VerifyOptions} (h : Accepts P kind artifact o) :
    artifact.isPlainRecord = true ∧ hasPlaintextLeak FORBIDDEN_PLAINTEXT_KEYS artifact = false := by
  obtain ⟨v, hv, hok⟩ := h
  have herrors : v.errors = [] := List.isEmpty_iff.1 hok
  cases kind with
  | capsule =>
    obtain rfl := Except.ok.inj hv
    rw [verifyCapsuleManifest] at herrors
    split at herrors
    · cases herrors
    · rename_i hplain
      simp only [List.append_eq_nil_iff, errorIf_eq_nil] at herrors
      exact ⟨by simpa using hplain, by tauto⟩
  | witness =>
    obtain rfl := Except.ok.inj hv
    rw [verifyWitnessCheckpoint] at herrors
    split at herrors
    · cases herrors
    · rename_i hplain
      simp only [List.append_eq_nil_iff, errorIf_eq_nil] at herrors
      exact ⟨by simpa using hplain, by tauto⟩
  | grant =>
    rw [Kind.verify, verifyFederationGrant] at hv
    split at hv
    · cases hv
      cases herrors
    · rename_i hplain
      obtain ⟨subject, -, hv⟩ := Except.bind_eq_ok.1 hv
      obtain ⟨operation, -, hv⟩ := Except.bind_eq_ok.1 hv
      obtain rfl := Except.ok.inj hv
      simp only [List.append_eq_nil_iff, errorIf_eq_nil] at herrors
      exact ⟨by simpa using hplain, by tauto⟩

/-- **The hash is not checked**: what is accepted is accepted with any text as its hash. -/
theorem Accepts.with_hash {kind : Kind} {artifact : Json} {o : VerifyOptions} (h : Accepts P kind artifact o) (s : JsString) :
    Accepts P kind (artifact.set kind.hashField (.str s)) o := by
  obtain ⟨hplain, hleak⟩ := h.clean
  rw [accepts_iff, verify_set kind hplain hleak s o]
  exact accepts_iff.1 h

/-- **The hash of an artifact is never bound**, whatever the artifact and the options: a verifier that accepts it
accepts another hash in its place. -/
theorem artifact_hash_unchecked (kind : Kind) (artifact : Json) (o : VerifyOptions) : ¬ Agrees P kind artifact o := by
  intro h
  obtain ⟨v, hv, hok, -⟩ := h.accepted
  have haccepts : Accepts P kind artifact o := ⟨v, hv, hok⟩
  -- one of two texts is not the hash that is there
  have hother : ∃ s, artifact.get kind.hashField ≠ some (.str s) := by
    by_contra hnone
    simp only [not_exists, not_not] at hnone
    exact absurd (Json.str.inj (Option.some.inj ((hnone []).symm.trans (hnone [0])))) (by simp)
  obtain ⟨s, hs⟩ := hother
  exact h.bound _ hs (haccepts.with_hash s)

/-! ## Expiry -/

/-- The checks of a capsule manifest other than that of its expiry. -/
structure SoundManifest (P : Platform) (manifest : Json) (o : VerifyOptions) : Prop where
  plain : manifest.isPlainRecord = true
  clean : hasPlaintextLeak FORBIDDEN_PLAINTEXT_KEYS manifest = false
  schema : manifest.get (js "schema") = some (.str CAPSULE_SCHEMA)
  roots : ∀ name ∈ ["encrypted_payload_hash", "receipt_log_root", "active_set_root", "owner_scope_hash"],
    rootTest P (manifest.get (js name)) = true
  required : ∀ name ∈ ["capsule_id", "issuer", "holder", "issued_at", "expires_at"], isFilled (manifest.get (js name)) = true
  receipt_log_root : compareExpectedRoot (manifest.get (js "receipt_log_root")) o.expectedReceiptLogRoot
    "expectedReceiptLogRoot" "receipt log root mismatch" = []
  active_set_root : compareExpectedRoot (manifest.get (js "active_set_root")) o.expectedActiveSetRoot
    "expectedActiveSetRoot" "active set root mismatch" = []
  owner_scope_hash : compareExpectedRoot (manifest.get (js "owner_scope_hash")) o.expectedOwnerScopeHash
    "expectedOwnerScopeHash" "owner scope mismatch" = []
  issuer : differs (manifest.get (js "issuer")) o.expectedIssuer = false
  holder : differs (manifest.get (js "holder")) o.expectedHolder = false
  signed : verifySignedRecord P manifest o = []

/-- The checks of a federation grant other than that of its expiry. -/
structure SoundGrant (P : Platform) (grant : Json) (o : VerifyOptions) : Prop where
  plain : grant.isPlainRecord = true
  clean : hasPlaintextLeak FORBIDDEN_PLAINTEXT_KEYS grant = false
  schema : grant.get (js "schema") = some (.str FEDERATION_GRANT_SCHEMA)
  subjects : areFilled (grant.get (js "subjects")) = true
  operations : areFilled (grant.get (js "operations")) = true
  required : ∀ name ∈ ["grant_id", "issuer", "holder", "purpose", "issued_at", "expires_at"],
    isFilled (grant.get (js name)) = true
  subject : notGranted P (grant.get (js "subjects")) (orElse o.expectedSubject o.subject) = .ok false
  operation : notGranted P (grant.get (js "operations")) (orElse o.expectedOperation o.operation) = .ok false
  purpose : differs (grant.get (js "purpose")) o.expectedPurpose = false
  issuer : differs (grant.get (js "issuer")) o.expectedIssuer = false
  holder : differs (grant.get (js "holder")) o.expectedHolder = false
  signed : verifySignedRecord P grant o = []

theorem rootErrors_eq_nil {record : Json} {names : List String} :
    rootErrors P record names = [] ↔ ∀ name ∈ names, rootTest P (record.get (js name)) = true := by
  simp [rootErrors, List.flatMap_eq_nil_iff, errorIf_eq_nil]

theorem requiredErrors_eq_nil {record : Json} {names : List String} :
    requiredErrors record names = [] ↔ ∀ name ∈ names, isFilled (record.get (js name)) = true := by
  simp [requiredErrors, List.flatMap_eq_nil_iff, errorIf_eq_nil]

theorem manifest_ok_iff {manifest : Json} {o : VerifyOptions} : (verifyCapsuleManifest P manifest o).ok = true ↔
    SoundManifest P manifest o ∧ expired P o.now (manifest.get (js "expires_at")) = false := by
  rw [Verification.ok, List.isEmpty_iff, verifyCapsuleManifest]
  split
  · rename_i hplain
    exact iff_of_false (List.cons_ne_nil _ _) fun h => by simp [h.1.plain] at hplain
  · rename_i hplain
    simp only [List.append_eq_nil_iff, errorIf_eq_nil, rootErrors_eq_nil, requiredErrors_eq_nil, Bool.not_eq_false', isStr_iff]
    constructor
    · rintro ⟨⟨⟨⟨⟨⟨⟨⟨⟨⟨hclean, hschema⟩, hroots⟩, hrequired⟩, hreceipt⟩, hactive⟩, howner⟩, hissuer⟩, hholder⟩, hexpired⟩, hsigned⟩
      exact ⟨⟨by simpa using hplain, hclean, hschema, hroots, hrequired, hreceipt, hactive, howner, hissuer, hholder, hsigned⟩, hexpired⟩
    · rintro ⟨h, hexpired⟩
      exact ⟨⟨⟨⟨⟨⟨⟨⟨⟨⟨h.clean, h.schema⟩, h.roots⟩, h.required⟩, h.receipt_log_root⟩, h.active_set_root⟩, h.owner_scope_hash⟩,
        h.issuer⟩, h.holder⟩, hexpired⟩, h.signed⟩

theorem grant_ok_iff {grant : Json} {o : VerifyOptions} :
    (∃ v, verifyFederationGrant P grant o = .ok v ∧ v.ok = true) ↔
      SoundGrant P grant o ∧ expired P o.now (grant.get (js "expires_at")) = false := by
  rw [verifyFederationGrant]
  split
  · rename_i hplain
    refine iff_of_false ?_ fun h => by simp [h.1.plain] at hplain
    rintro ⟨v, hv, hok⟩
    cases hv
    cases hok
  · rename_i hplain
    simp only [Except.bind_eq_ok, Verification.ok]
    constructor
    · rintro ⟨v, ⟨subject, hsubject, operation, hoperation, hv⟩, hok⟩
      obtain rfl := Except.ok.inj hv
      simp only [List.isEmpty_iff, List.append_eq_nil_iff, errorIf_eq_nil, requiredErrors_eq_nil, Bool.not_eq_false', isStr_iff]
        at hok
      obtain ⟨⟨⟨⟨⟨⟨⟨⟨⟨⟨⟨hclean, hschema⟩, hsubjects⟩, hoperations⟩, hrequired⟩, rfl⟩, rfl⟩, hpurpose⟩, hissuer⟩, hholder⟩, hexpired⟩,
        hsigned⟩ := hok
      exact ⟨⟨by simpa using hplain, hclean, hschema, hsubjects, hoperations, hrequired, hsubject, hoperation, hpurpose, hissuer,
        hholder, hsigned⟩, hexpired⟩
    · rintro ⟨h, hexpired⟩
      refine ⟨_, ⟨false, h.subject, false, h.operation, rfl⟩, ?_⟩
      simp only [List.isEmpty_iff, List.append_eq_nil_iff, errorIf_eq_nil, requiredErrors_eq_nil, Bool.not_eq_false', isStr_iff]
      exact ⟨⟨⟨⟨⟨⟨⟨⟨⟨⟨⟨h.clean, h.schema⟩, h.subjects⟩, h.operations⟩, h.required⟩, trivial⟩, trivial⟩, h.purpose⟩, h.issuer⟩, h.holder⟩,
        hexpired⟩, h.signed⟩

/-- The time and the expiry are dates, and the one is before the other. -/
def Before (P : Platform) (now : JsString) (expires_at : Option Json) : Prop :=
  ∃ time expiry, P.parseDate now = some time ∧ dateOf P expires_at = some expiry ∧ time < expiry

theorem before_iff {now : JsString} {expires_at : Option Json} : Before P now expires_at ↔
    ((P.parseDate now).isSome = true ∧ (dateOf P expires_at).isSome = true) ∧ expired P (some now) expires_at = false := by
  rw [Before, expired, Option.bind_some]
  cases P.parseDate now with
  | none => simp
  | some time => cases dateOf P expires_at <;> simp

theorem SoundManifest.now_iff {manifest : Json} {o : VerifyOptions} {now : Option JsString} :
    SoundManifest P manifest { o with now } ↔ SoundManifest P manifest o :=
  ⟨fun h => ⟨h.plain, h.clean, h.schema, h.roots, h.required, h.receipt_log_root, h.active_set_root, h.owner_scope_hash, h.issuer,
    h.holder, h.signed⟩,
  fun h => ⟨h.plain, h.clean, h.schema, h.roots, h.required, h.receipt_log_root, h.active_set_root, h.owner_scope_hash, h.issuer,
    h.holder, h.signed⟩⟩

theorem SoundGrant.now_iff {grant : Json} {o : VerifyOptions} {now : Option JsString} :
    SoundGrant P grant { o with now } ↔ SoundGrant P grant o :=
  ⟨fun h => ⟨h.plain, h.clean, h.schema, h.subjects, h.operations, h.required, h.subject, h.operation, h.purpose, h.issuer,
    h.holder, h.signed⟩,
  fun h => ⟨h.plain, h.clean, h.schema, h.subjects, h.operations, h.required, h.subject, h.operation, h.purpose, h.issuer,
    h.holder, h.signed⟩⟩

theorem not_expired_of_isNone {now : JsString} {expires_at : Option Json}
    (h : ¬ ((P.parseDate now).isSome = true ∧ (dateOf P expires_at).isSome = true)) : expired P (some now) expires_at = false := by
  rw [expired, Option.bind_some]
  cases hnow : P.parseDate now with
  | none => rfl
  | some time =>
    cases hexpiry : dateOf P expires_at with
    | none => rfl
    | some expiry => exact absurd ⟨by rw [hnow]; rfl, by rw [hexpiry]; rfl⟩ h

/-- **When the expiry fails closed**: the time and the expiry have to be dates where every other check passes. -/
theorem expiry_closed_iff (P : Platform) (artifact : Json) (o : VerifyOptions) (now : JsString) :
    (((verifyCapsuleManifest P artifact { o with now := some now }).ok = true → Before P now (artifact.get (js "expires_at"))) ↔
      (SoundManifest P artifact o → (P.parseDate now).isSome = true ∧ (dateOf P (artifact.get (js "expires_at"))).isSome = true)) ∧
    ((∀ v, verifyFederationGrant P artifact { o with now := some now } = .ok v → v.ok = true →
        Before P now (artifact.get (js "expires_at"))) ↔
      (SoundGrant P artifact o → (P.parseDate now).isSome = true ∧ (dateOf P (artifact.get (js "expires_at"))).isSome = true)) := by
  constructor
  · rw [manifest_ok_iff, SoundManifest.now_iff, before_iff]
    constructor
    · intro h hsound
      by_contra hdates
      exact hdates (h ⟨hsound, not_expired_of_isNone hdates⟩).1
    · exact fun h ⟨hsound, hexpired⟩ => ⟨h hsound, hexpired⟩
  · have hok := @grant_ok_iff P artifact { o with now := some now }
    rw [SoundGrant.now_iff] at hok
    rw [before_iff]
    constructor
    · intro h hsound
      by_contra hdates
      obtain ⟨v, hv, hvok⟩ := hok.2 ⟨hsound, not_expired_of_isNone hdates⟩
      exact hdates (h v hv hvok).1
    · intro h v hv hvok
      obtain ⟨hsound, hexpired⟩ := hok.1 ⟨v, hv, hvok⟩
      exact ⟨h hsound, hexpired⟩

/-! ## A grant that is accepted -/

def grantNode : Json :=
  .obj [(js "node_id", .str (js "n")), (js "privateKey", .str (js "k")), (js "signer", .obj [(js "key_id", .str (js "k"))])]

def grantOptions : Json :=
  .obj [(js "node", grantNode), (js "holder", .str (js "h")), (js "purpose", .str (js "p")), (js "expires_at", .str Reference.newYearText)]

/-- The grant before it is signed. -/
def plainGrant (expires_at : JsString) : Json :=
  .obj [(js "schema", .str FEDERATION_GRANT_SCHEMA),
    (js "grant_id", .str (idFromValue reference "fgr_" (.obj [(js "issuer", .str (js "n")), (js "holder", .str (js "h")),
      (js "subjects", .arr []), (js "operations", .arr []), (js "purpose", .str (js "p"))]))),
    (js "issuer", .str (js "n")), (js "holder", .str (js "h")), (js "subjects", .arr []), (js "operations", .arr []),
    (js "purpose", .str (js "p")), (js "issued_at", .str DEFAULT_NOW), (js "expires_at", .str expires_at)]

def grantSignature (expires_at : JsString) : Json :=
  .obj [(js "alg", ed25519), (js "key_id", .str (js "k")),
    (js "value", .str (Reference.sign ((plainGrant expires_at).canonicalize reference.toNumberFormat)))]

def signedGrant (expires_at : JsString) : Json :=
  hashed reference (signed (plainGrant expires_at) (grantSignature expires_at)) (js "grant_hash")

def grantDescriptor : Json := .obj [(js "key", .obj [(js "key_id", .str (js "k")), (js "public_key", .str (js "k"))])]

theorem signedGrant_created : createFederationGrant reference grantOptions = .ok (signedGrant Reference.newYearText) := by
  have hunsigned : unsignedGrant reference grantOptions = .ok (plainGrant Reference.newYearText) := by
    simp only [unsignedGrant, assertNoPlaintext, Except.bind_eq_ok, failIf_ok]
    refine ⟨(), by decide, [], rfl, [], rfl, js "n", rfl, js "h", rfl, js "p", rfl, DEFAULT_NOW, ?_,
      Reference.newYearText, ?_, rfl⟩
    · exact dateString_ok.2 ⟨rfl, by decide, by decide⟩
    · exact dateString_ok.2 ⟨rfl, by decide, by decide⟩
  simp only [createFederationGrant, issue, Except.bind_eq_ok, hunsigned, createSignature]
  exact ⟨_, rfl, grantSignature Reference.newYearText, ⟨some (js "k"), rfl, js "k", rfl, _, rfl, rfl⟩, rfl⟩

variable (expires_at : JsString)

theorem signaturePayload_grant : signaturePayload (signedGrant expires_at) = plainGrant expires_at := by
  rw [signedGrant, hashed, signed, Json.fields, signaturePayload, List.append_assoc]
  refine withoutAll_append ?_ ?_ <;> simp [plainGrant, fields]

theorem signedGrant_sound (hne : expires_at ≠ []) : SoundGrant reference (signedGrant expires_at) (.trusting grantDescriptor) where
  plain := rfl
  clean := by
    have hnames : ∀ k ∈ [js "schema", js "grant_id", js "issuer", js "holder", js "subjects", js "operations", js "purpose",
        js "issued_at", js "expires_at", js "signature", js "grant_hash"],
        isPlaintextKeyOf FORBIDDEN_PLAINTEXT_KEYS k = false := by decide
    have hsignature : hasPlaintextLeak FORBIDDEN_PLAINTEXT_KEYS (grantSignature expires_at) = false := by
      refine leak_of_keys ?_ (by simp [ed25519, leak_str])
      have hnames : ∀ k ∈ [js "alg", js "key_id", js "value"], isPlaintextKeyOf FORBIDDEN_PLAINTEXT_KEYS k = false := by
        decide
      exact hnames
    refine leak_of_keys hnames ?_
    simp [plainGrant, signed, fields, hsignature, leak_arr, leak_str]
  schema := rfl
  subjects := rfl
  operations := rfl
  required := by
    have hid : js "fgr_" ≠ [] := by decide
    have hissuer : js "n" ≠ [] := by decide
    have hholder : js "h" ≠ [] := by decide
    have hpurpose : js "p" ≠ [] := by decide
    have hissued : DEFAULT_NOW ≠ [] := by decide
    simp [signedGrant, get_hashed, signed_get, plainGrant, isFilled, idFromValue, hne, hid, hissuer, hholder, hpurpose, hissued]
  subject := rfl
  operation := rfl
  purpose := rfl
  issuer := rfl
  holder := rfl
  signed := by
    have hget : (signedGrant expires_at).get (js "signature") = some (grantSignature expires_at) := rfl
    rw [verifySignedRecord, hget, grantSignature]
    simp [errorIf_eq_nil, signatureHolds, verifySignature, signaturePayload_grant, ed25519, isStr, resolvePublicKey,
      VerifyOptions.trusting, firstOf, orElse, differs, path, grantDescriptor, reference]

/-- The hash of a grant that has just been made may be taken out. -/
theorem grant_hash_replaced : createFederationGrant reference grantOptions = .ok (signedGrant Reference.newYearText) ∧
    Accepts reference .grant (signedGrant Reference.newYearText) (.trusting grantDescriptor) ∧
    Accepts reference .grant ((signedGrant Reference.newYearText).set (js "grant_hash") (.str [])) (.trusting grantDescriptor) ∧
    ¬ Agrees reference .grant (signedGrant Reference.newYearText) (.trusting grantDescriptor) := by
  have haccepts : Accepts reference .grant (signedGrant Reference.newYearText) (.trusting grantDescriptor) :=
    grant_ok_iff.2 ⟨signedGrant_sound _ (by decide), rfl⟩
  refine ⟨signedGrant_created, haccepts, haccepts.with_hash [], fun h => h.bound (.str []) ?_ (haccepts.with_hash [])⟩
  have hroot := isRoot_rootFromValue (P := reference)
    (signed (plainGrant Reference.newYearText) (grantSignature Reference.newYearText))
  intro hempty
  rw [show (signedGrant Reference.newYearText).get Kind.grant.hashField = some (.str (rootFromValue reference
    (signed (plainGrant Reference.newYearText) (grantSignature Reference.newYearText)))) from rfl] at hempty
  rw [Json.str.inj (Option.some.inj hempty)] at hroot
  cases hroot

/-- A grant without a readable expiry is accepted at any time, and any grant at a time that is not readable. -/
theorem unread_dates_accepted :
    (∃ v, verifyFederationGrant reference (signedGrant (js "soon"))
        { VerifyOptions.trusting grantDescriptor with now := some Reference.newYearText } = .ok v ∧ v.ok = true ∧
      ¬ Before reference Reference.newYearText ((signedGrant (js "soon")).get (js "expires_at"))) ∧
    ∃ v, verifyFederationGrant reference (signedGrant Reference.newYearText)
        { VerifyOptions.trusting grantDescriptor with now := some (js "today") } = .ok v ∧ v.ok = true ∧
      ¬ Before reference (js "today") ((signedGrant Reference.newYearText).get (js "expires_at")) := by
  constructor
  · have hexpired : dateOf reference ((signedGrant (js "soon")).get (js "expires_at")) = none := by decide +kernel
    have hnot : ¬ ((reference.parseDate Reference.newYearText).isSome = true ∧
        (dateOf reference ((signedGrant (js "soon")).get (js "expires_at"))).isSome = true) := by rw [hexpired]; simp
    obtain ⟨v, hv, hok⟩ := grant_ok_iff.2
      ⟨SoundGrant.now_iff.2 (signedGrant_sound (js "soon") (by decide)), not_expired_of_isNone hnot⟩
    exact ⟨v, hv, hok, fun h => hnot (before_iff.1 h).1⟩
  · have hnow : reference.parseDate (js "today") = none := by decide
    have hnot : ¬ ((reference.parseDate (js "today")).isSome = true ∧
        (dateOf reference ((signedGrant Reference.newYearText).get (js "expires_at"))).isSome = true) := by rw [hnow]; simp
    obtain ⟨v, hv, hok⟩ := grant_ok_iff.2
      ⟨SoundGrant.now_iff.2 (signedGrant_sound Reference.newYearText (by decide)), not_expired_of_isNone hnot⟩
    exact ⟨v, hv, hok, fun h => hnot (before_iff.1 h).1⟩

/-! ## The hash of a payload -/

/-- The texts that the options carry as an encrypted payload. -/
def IsPayload (options : Json) (payload : JsString) : Prop :=
  ∃ name ∈ ["encrypted_payload", "encryptedPayload", "opaque_encrypted_record", "opaqueEncryptedRecord", "ciphertext"],
    options.get (js name) = some (.str payload)

/-- All payloads have one hash, and a hash that is given is that one. -/
def Consistent (options : Json) : Prop :=
  ∃ hash, (∀ payload, IsPayload options payload → prefixedSha256 payload = hash) ∧
    ∀ explicit, firstDefined options ["encrypted_payload_hash", "encryptedPayloadHash", "payload_hash", "payloadHash"] = some explicit →
      normalizeRoot (some explicit) "encrypted_payload_hash" = .ok hash

def HashesPayload (options record : Json) : Prop :=
  ∀ payload, IsPayload options payload → record.get (js "encrypted_payload_hash") = some (.str (prefixedSha256 payload))

theorem mem_of_firstOf {v : Json} : ∀ {l : List (Option Json)}, firstOf l = some v → some v ∈ l
  | [], h => nomatch h
  | [w], h => List.mem_singleton.2 (Eq.symm h)
  | w :: u :: rest, h => by
    rw [firstOf] at h
    unfold orElse at h
    split at h
    · exact List.mem_cons_of_mem _ (mem_of_firstOf h)
    · exact List.mem_cons_of_mem _ (mem_of_firstOf h)
    · rw [← h]
      exact List.mem_cons_self

theorem assertEncryptedEnvelopeOrCommitment_ok {value : Json} {s : JsString}
    (h : assertEncryptedEnvelopeOrCommitment value = .ok s) : value = .str s := by
  unfold assertEncryptedEnvelopeOrCommitment at h
  split at h
  · split at h
    · cases h
    · split at h
      · cases h
      · rw [Except.ok.inj h]
  · cases h

/-- **The hash that the options come to**: the one that is given, or else that of a payload. -/
theorem normalizeEncryptedPayloadHash_ok {options : Json} {hash : JsString}
    (h : normalizeEncryptedPayloadHash P options = .ok hash) :
    (∃ explicit, firstDefined options ["encrypted_payload_hash", "encryptedPayloadHash", "payload_hash", "payloadHash"] = some explicit ∧
      normalizeRoot (some explicit) "encrypted_payload_hash" = .ok hash) ∨
    (firstDefined options ["encrypted_payload_hash", "encryptedPayloadHash", "payload_hash", "payloadHash"] = none ∧
      ∃ payload, IsPayload options payload ∧ hash = prefixedSha256 payload) := by
  rw [normalizeEncryptedPayloadHash, Except.bind_eq_ok] at h
  obtain ⟨encrypted, hencrypted, h⟩ := h
  cases hexplicit : firstDefined options ["encrypted_payload_hash", "encryptedPayloadHash", "payload_hash", "payloadHash"] with
  | some explicit =>
    rw [hexplicit] at h
    exact .inl ⟨explicit, rfl, h⟩
  | none =>
    rw [hexplicit] at h
    refine .inr ⟨rfl, ?_⟩
    cases encrypted with
    | none => cases h
    | some payload =>
      cases hfirst : firstOf [options.get (js "encrypted_payload"), options.get (js "encryptedPayload"),
          options.get (js "opaque_encrypted_record"), options.get (js "opaqueEncryptedRecord"), options.get (js "ciphertext")] with
      | none =>
        rw [hfirst] at hencrypted
        cases hencrypted
      | some value =>
        rw [hfirst, Option.mapM_some] at hencrypted
        obtain ⟨s, hs, heq⟩ := Except.map_eq_ok.1 hencrypted
        obtain rfl := Option.some.inj heq
        obtain rfl := assertEncryptedEnvelopeOrCommitment_ok hs
        refine ⟨s, ?_, (Except.ok.inj h).symm⟩
        simpa [IsPayload, eq_comm] using mem_of_firstOf hfirst

theorem unsignedRecord_hash {store : RelayStore} {record unsigned : Json} (h : unsignedRecord P store record = .ok unsigned) :
    ∃ hash, normalizeEncryptedPayloadHash P record = .ok hash ∧
      unsigned.get (js "encrypted_payload_hash") = some (.str hash) := by
  simp only [unsignedRecord, Except.bind_eq_ok] at h
  obtain ⟨⟨⟩, -, ⟨⟩, -, hash, hhash, received, -, expires, -, h⟩ := h
  obtain rfl := Except.ok.inj h
  exact ⟨hash, hhash, by simp⟩

theorem unsignedCapsule_hash {options unsigned : Json} (h : unsignedCapsule P options = .ok unsigned) :
    ∃ hash, normalizeEncryptedPayloadHash P options = .ok hash ∧
      unsigned.get (js "encrypted_payload_hash") = some (.str hash) := by
  simp only [unsignedCapsule, Except.bind_eq_ok] at h
  obtain ⟨⟨⟩, -, issuer, -, holder, -, hash, hhash, receipt, -, active, -, owner, -, issued, -, expires, -, h⟩ := h
  obtain rfl := Except.ok.inj h
  exact ⟨hash, hhash, by simp⟩

/-- The signature stands beside the other fields. -/
theorem signFor_get {store : RelayStore} {signs : Bool} {unsigned record : Json} {key : JsString}
    (h : signFor P store signs unsigned = .ok record) (hkey : key ≠ js "signature") : record.get key = unsigned.get key := by
  unfold signFor at h
  split at h
  · obtain ⟨signature, -, rfl⟩ := Except.map_eq_ok.1 h
    rw [signed_get, if_neg hkey, Option.or_none]
  · rw [Except.ok.inj h]

theorem idOf_handedOut {record : Json} : idOf (handedOut record) = idOf record := by
  simp [idOf, handedOut]

theorem hashes_iff {options record : Json} {hash : JsString} (h : normalizeEncryptedPayloadHash P options = .ok hash)
    (hrecord : record.get (js "encrypted_payload_hash") = some (.str hash)) : HashesPayload options record ↔ Consistent options := by
  have hash_eq : ∀ payload, record.get (js "encrypted_payload_hash") = some (.str (prefixedSha256 payload)) ↔
      prefixedSha256 payload = hash := fun payload => by
    rw [hrecord, Option.some.injEq, Json.str.injEq, eq_comm]
  simp only [HashesPayload, hash_eq]
  constructor
  · intro hpayloads
    refine ⟨hash, hpayloads, fun explicit hexplicit => ?_⟩
    rcases normalizeEncryptedPayloadHash_ok h with ⟨explicit', hexplicit', hhash⟩ | ⟨hnone, -⟩
    · rwa [Option.some.inj (hexplicit.symm.trans hexplicit')]
    · cases hnone.symm.trans hexplicit
  · rintro ⟨hash', hpayloads, hgiven⟩
    have hsame : hash' = hash := by
      rcases normalizeEncryptedPayloadHash_ok h with ⟨explicit, hexplicit, hhash⟩ | ⟨-, payload, hpayload, rfl⟩
      · exact Except.ok.inj ((hgiven explicit hexplicit).symm.trans hhash)
      · exact (hpayloads payload hpayload).symm
    exact hsame ▸ hpayloads

/-- **When the hash is that of the payload.** -/
theorem payload_hash_iff (P : Platform) (options : Json) :
    (∀ store signs out store' filed, pushRelayRecord P store signs options = .ok (out, store') →
      store'.records.get (recordKey store.records.size (idOf out)) = some filed → (HashesPayload options filed ↔ Consistent options)) ∧
    ∀ manifest, createCapsuleManifest P options = .ok manifest → (HashesPayload options manifest ↔ Consistent options) := by
  constructor
  · intro store signs out store' filed hpush hfiled
    simp only [pushRelayRecord, Except.bind_eq_ok] at hpush
    obtain ⟨unsigned, hunsigned, record, hrecord, h⟩ := hpush
    obtain ⟨rfl, rfl⟩ := Prod.mk.inj (Except.ok.inj h)
    obtain ⟨hash, hhash, hget⟩ := unsignedRecord_hash hunsigned
    obtain rfl : record = filed := by simpa [RelayStore.file, idOf_handedOut] using hfiled
    exact hashes_iff hhash (by rwa [signFor_get hrecord (by simp)])
  · intro manifest hcreate
    simp only [createCapsuleManifest, issue, Except.bind_eq_ok] at hcreate
    obtain ⟨unsigned, hunsigned, signature, -, h⟩ := hcreate
    obtain rfl := Except.ok.inj h
    obtain ⟨hash, hhash, hget⟩ := unsignedCapsule_hash hunsigned
    exact hashes_iff hhash (by simp [get_hashed, signed_get, hget])

/-! ## A hash that is not that of the payload -/

def zeroHash : JsString := js "sha256:" ++ List.replicate 64 48

/-- A payload with another hash beside it. -/
def hashedPayload : Json :=
  .obj [(js "encrypted_payload", .str (js "enc:a")), (js "encrypted_payload_hash", .str zeroHash), (js "record_id", .str (js "r"))]

def emptyStore : RelayStore :=
  ⟨js "s", js "n", DEFAULT_NOW, OrdMap.empty, ⟨js "n", js "k", js "k", js "k", .null, .null⟩⟩

def hashedRecord : Json :=
  .obj [(js "schema", .str RELAY_RECORD_SCHEMA), (js "record_id", .str (js "r")), (js "store_id", .str (js "s")),
    (js "capsule_id", .null), (js "encrypted_payload_hash", .str zeroHash), (js "payload_storage", .str (js "hash_only")),
    (js "received_at", .str DEFAULT_NOW), (js "expires_at", .null)]

theorem normalizeRoot_zero {f : String} : normalizeRoot (some (.str zeroHash)) f = .ok zeroHash :=
  normalizeRoot_of_isRoot (by decide)

theorem hashedPayload_hash : normalizeEncryptedPayloadHash reference hashedPayload = .ok zeroHash := by
  have henvelope : assertEncryptedEnvelopeOrCommitment (.str (js "enc:a")) = .ok (js "enc:a") := by
    have hmatch : isEncryptedPayload (js "enc:a") = true := by decide
    rw [assertEncryptedEnvelopeOrCommitment, if_neg (by decide), hmatch]
    rfl
  rw [normalizeEncryptedPayloadHash, Except.bind_eq_ok]
  refine ⟨some (js "enc:a"), ?_, normalizeRoot_zero⟩
  exact Except.map_eq_ok.2 ⟨_, henvelope, rfl⟩

theorem hashedPayload_pushed : pushRelayRecord reference emptyStore false hashedPayload =
    .ok (handedOut hashedRecord, emptyStore.file hashedRecord) := by
  have hunsigned : unsignedRecord reference emptyStore hashedPayload = .ok hashedRecord := by
    simp only [unsignedRecord, assertNoPlaintext, Except.bind_eq_ok, failIf_ok, hashedPayload_hash]
    refine ⟨(), by decide, (), ?_, zeroHash, rfl, DEFAULT_NOW, ?_, .null, rfl, rfl⟩
    · decide
    · exact dateString_ok.2 ⟨rfl, by decide, by decide⟩
  simp only [pushRelayRecord, Except.bind_eq_ok]
  exact ⟨hashedRecord, hunsigned, hashedRecord, rfl, rfl⟩

/-- The hash that is filed is the one supplied. -/
theorem supplied_hash_filed : pushRelayRecord reference emptyStore false hashedPayload =
      .ok (handedOut hashedRecord, emptyStore.file hashedRecord) ∧
    (emptyStore.file hashedRecord).records.get (recordKey emptyStore.records.size (idOf (handedOut hashedRecord))) = some hashedRecord ∧
    ¬ HashesPayload hashedPayload hashedRecord := by
  refine ⟨hashedPayload_pushed, by simp [RelayStore.file, idOf_handedOut], fun h => ?_⟩
  have hpayload := h (js "enc:a") ⟨"encrypted_payload", by simp, rfl⟩
  have hhash : prefixedSha256 (js "enc:a") ≠ zeroHash := by decide +kernel
  exact hhash (Json.str.inj (Option.some.inj hpayload)).symm

def capsuleOptions : Json :=
  .obj [(js "node", grantNode), (js "holder", .str (js "h")), (js "encrypted_payload", .str (js "enc:a")),
    (js "encrypted_payload_hash", .str zeroHash), (js "expires_at", .str Reference.newYearText)]

theorem capsule_created : ∃ manifest, createCapsuleManifest reference capsuleOptions = .ok manifest := by
  have hhash : normalizeEncryptedPayloadHash reference capsuleOptions = .ok zeroHash := hashedPayload_hash
  have hunsigned : ∃ unsigned, unsignedCapsule reference capsuleOptions = .ok unsigned := by
    simp only [unsignedCapsule, assertNoPlaintext, Except.bind_eq_ok, failIf_ok, hhash]
    refine ⟨_, (), by decide, js "n", rfl, js "h", rfl, zeroHash, rfl, emptyMerkleRoot, rfl, emptyMerkleRoot, rfl, _,
      normalizeRoot_of_isRoot (isRoot_rootFromValue _), DEFAULT_NOW, ?_, Reference.newYearText, ?_, rfl⟩
    · exact dateString_ok.2 ⟨rfl, by decide, by decide⟩
    · exact dateString_ok.2 ⟨rfl, by decide, by decide⟩
  obtain ⟨unsigned, hunsigned⟩ := hunsigned
  simp only [createCapsuleManifest, issue, Except.bind_eq_ok, hunsigned, createSignature]
  exact ⟨_, unsigned, rfl, _, ⟨some (js "k"), rfl, js "k", rfl, _, rfl, rfl⟩, rfl⟩

theorem payload_hash_of_sample : (HashesPayload hashedPayload hashedRecord ↔ Consistent hashedPayload) ∧
    ∃ manifest, createCapsuleManifest reference capsuleOptions = .ok manifest ∧
      (HashesPayload capsuleOptions manifest ↔ Consistent capsuleOptions) := by
  obtain ⟨manifest, hmanifest⟩ := capsule_created
  refine ⟨(payload_hash_iff reference hashedPayload).1 _ _ _ _ _ hashedPayload_pushed (by simp [RelayStore.file, idOf_handedOut]), ?_⟩
  exact ⟨manifest, hmanifest, (payload_hash_iff reference capsuleOptions).2 manifest hmanifest⟩

end EnigmaMemory.Mesh.Artifacts
