import EnigmaMemory.Lib.Regex
import EnigmaMemory.Spec.Numeric
import EnigmaMemory.Spec.Sanitize

/-!
# The public-safe scan

`verifyPublicSafeArtifact` of `packages/core`: the scan that artifacts have to pass before they
are published. It looks for secret-shaped strings, local paths, claims that may not be made in
public, field names of private material and arrays that look like embeddings. The result lists
one error and one path for each finding. The strict mode for strings, which the callers here do
not ask for, is left out.
-/

namespace EnigmaMemory

open Regex

variable (F : NumberFormat)

/-! ## Patterns -/

/-- The code units of a string as numbers. -/
def unitCodes (s : JsString) : List ℕ := s.map Fin.val

/-- `re.test(s)`. -/
def regexTest (re : Regex) (s : JsString) : Bool := re.test (unitCodes s)

def space : Regex := cls ⟨whiteRanges, false⟩

/-- A literal under the flag `i`, where a letter stands for both of its cases. -/
def litI (s : String) : Regex := litFold (fun _ => []) s

/-- `[A-Za-z0-9…]`, with the given further characters. -/
def alnumClass (others : String) : Regex :=
  cls ⟨[(65, 90), (97, 122), (48, 57)] ++ others.toList.map fun c => (c.toNat, c.toNat), false⟩

/-- One of the letters of `letters`, in either case. -/
def letterI (letters : String) : Regex := any (letters.toList.map fun c => litI c.toString)

def secretValueRe : Regex :=
  any [cat [litI "-----BEGIN ", star (cls ⟨[(65, 90), (97, 122), (32, 32)], false⟩), litI "PRIVATE KEY-----"],
    cat [any [litI "sk", litI "pk", litI "rk"], litI "_", any [litI "live", litI "test", litI "proj"], litI "_",
      atLeast (alnumClass "_-") 12],
    cat [litI "gh", letterI "pousr", litI "_", atLeast (alnumClass "_") 20],
    cat [litI "xox", letterI "baprs", litI "-", atLeast (alnumClass "-") 20],
    cat [litI "bearer", plus space, atLeast (alnumClass "._~+/=-") 20]]

def localPathRe : Regex :=
  cat [start, any [cat [cls ⟨[(65, 90), (97, 122)], false⟩, lit ":", cls ⟨[(92, 92), (47, 47)], false⟩], lit "\\\\",
    cat [lit "/", any [lit "Users", lit "home", lit "tmp", lit "var", lit "etc", lit "private", lit "Volumes"], lit "/"]]]

/-- `tamper[-\s]?proof`. -/
def tamperProof : Regex := cat [litI "tamper", opt (cls ⟨(45, 45) :: whiteRanges, false⟩), litI "proof"]

def forbiddenPublicClaimRe : Regex :=
  cat [boundary, any [
    cat [litI "provider", opt (litI "-native"), plus space, any [litI "deletion", cat [litI "memory", plus space, litI "control"]]],
    cat [litI "model", plus space, litI "forgetting"],
    cat [litI "compliance", plus space, litI "certification"],
    cat [litI "certif", any [litI "y", litI "ies", litI "ied"], plus space, litI "compliance"],
    cat [litI "benchmark", plus space, litI "superiority"],
    cat [litI "hosted", plus space, any [litI "saas", litI "cloud"], plus space, litI "ready"],
    cat [litI "byoc", plus space, litI "ready"],
    cat [litI "patent", any [litI "ability", litI "able"]],
    cat [litI "legal", plus space, litI "conclusion"],
    cat [litI "raw", plus space, litI "embedding", opt (litI "s"), plus space, opt (cat [litI "are", plus space]), litI "safe"],
    cat [litI "hardware", plus space, tamperProof],
    cat [tamperProof, plus space, litI "hardware"]], boundary]

/-! ## Keys -/

def publicForbiddenKeys : List JsString :=
  [js "api_key", js "authorization", js "body", js "content", js "cookie", js "credential", js "credentials",
    js "embedding", js "embeddings", js "file_path", js "local_path", js "password", js "plaintext", js "private_key",
    js "prompt", js "provider_response", js "raw", js "raw_memory", js "response", js "secret", js "text", js "token",
    js "transcript", js "vector", js "vectors"]

/-- The last words that a field name may not have. -/
def forbiddenEndings : List String :=
  ["plaintext", "prompt", "response", "transcript", "embedding", "embeddings", "vector", "vectors", "private_key",
    "token", "secret", "password", "api_key", "credential", "credentials", "cookie", "authorization"]

/-- `/(?:^|_)(?:…)$/`. -/
def endingRe (endings : List String) : Regex := cat [any [start, lit "_"], any (endings.map lit), stop]

/-- `key.replace(/([a-z0-9])([A-Z])/g, '$1_$2').toLowerCase()`. -/
def snakeKey (key : JsString) : JsString := toLowerCase (splitCamel key)

def isForbiddenPublicKey (key : JsString) : Bool :=
  decide (snakeKey key ∈ publicForbiddenKeys) || regexTest (endingRe forbiddenEndings) (snakeKey key)

/-! ## Values -/

/-- A finding: its path and its message. -/
structure Finding where
  path : JsString
  message : JsString

def findingIf (cond : Bool) (path : JsString) (message : String) : List Finding := if cond then [⟨path, js message⟩] else []

def scanPublicSafeString (value path : JsString) : List Finding :=
  findingIf (regexTest secretValueRe value) path "secret-shaped string is not public-safe"
    ++ findingIf (regexTest localPathRe value) path "local absolute path is not public-safe"
    ++ findingIf (regexTest forbiddenPublicClaimRe value) path "forbidden public claim is not allowed"

def looksLikeEmbeddingVector (xs : List Json) : Bool :=
  decide (32 ≤ xs.length) && xs.all fun x => match x with | .num _ => true | _ => false

/-- `${path}[${index}]`. -/
def indexPath (path : JsString) (index : ℕ) : JsString := path ++ 0x5B :: (F.numberText index ++ [0x5D])

/-- `${path}.${key}`. -/
def keyPath (path key : JsString) : JsString := path ++ 0x2E :: key

mutual
def scanPublicSafeValue : Json → JsString → List Finding
  | .null, _ | .bool _, _ | .num _, _ => []
  | .str s, path => scanPublicSafeString s path
  | .arr xs, path =>
    findingIf (looksLikeEmbeddingVector xs) path "numeric vector-like arrays are not public-safe"
      ++ scanPublicSafeItems xs path 0
  | .obj fs, path => scanPublicSafeFields fs path

def scanPublicSafeItems : List Json → JsString → ℕ → List Finding
  | [], _, _ => []
  | x :: xs, path, index => scanPublicSafeValue x (indexPath F path index) ++ scanPublicSafeItems xs path (index + 1)

def scanPublicSafeFields : List (JsString × Json) → JsString → List Finding
  | [], _ => []
  | (key, value) :: fs, path =>
    findingIf (isForbiddenPublicKey key) (keyPath path key) "field name is not public-safe"
      ++ scanPublicSafeValue value (keyPath path key) ++ scanPublicSafeFields fs path
end

/-- The errors and the paths of `verifyPublicSafeArtifact(value)`, and the hash of a value
without any. -/
structure PublicSafeResult where
  errors : List JsString
  forbidden_paths : List JsString
  public_hash : Option JsString

def PublicSafeResult.ok (r : PublicSafeResult) : Bool := r.errors.isEmpty

def verifyPublicSafeArtifact (value : Json) : PublicSafeResult :=
  let findings := scanPublicSafeValue F value (js "$")
  { errors := findings.map fun f => f.path ++ js ": " ++ f.message
    forbidden_paths := findings.map (·.path)
    public_hash := if findings.isEmpty then some (prefixedSha256 (value.canonicalize F)) else none }

end EnigmaMemory
