import EnigmaMemory.Spec.EncryptedStore
import EnigmaMemory.Spec.Numeric
import EnigmaMemory.Spec.Platform
import EnigmaMemory.Spec.Sha256

/-!
# The OAuth server of the node

The authorization code flow with PKCE (`oauth-server.mjs`). Codes and tokens are records of the
node's store under keys of their own. Query parameters and form fields are lists of pairs as
`URLSearchParams` reads them, which has no lone surrogates; whether a text is a URL is a parameter.
A request takes its times and random bytes from an `Ambient`.
-/

namespace EnigmaMemory

/-! ## Texts -/

/-- The digits of base64url. -/
def base64urlDigit (n : ℕ) : CodeUnit :=
  Fin.ofNat 65536 (if n < 26 then 65 + n else if n < 52 then 71 + n else if n < 62 then n - 4 else if n = 62 then 45 else 95)

/-- `buffer.toString("base64url")`. -/
def base64url : Bytes → JsString
  | a :: b :: c :: rest =>
    base64urlDigit (a.val / 4) :: base64urlDigit (a.val % 4 * 16 + b.val / 16) ::
      base64urlDigit (b.val % 16 * 4 + c.val / 64) :: base64urlDigit (c.val % 64) :: base64url rest
  | [a, b] => [base64urlDigit (a.val / 4), base64urlDigit (a.val % 4 * 16 + b.val / 16), base64urlDigit (b.val % 16 * 4)]
  | [a] => [base64urlDigit (a.val / 4), base64urlDigit (a.val % 4 * 16)]
  | [] => []

example : base64url ((js "foobe").map fun c => Fin.ofNat 256 c.val) = js "Zm9vYmU" := by decide

/-- `s.split(/\s+/).filter(Boolean)`. -/
def words (s : JsString) : List JsString := (s.splitOnP isWhite).filter (· ≠ [])

/-- `items.join(" ")`. -/
def joinSpace : List JsString → JsString
  | [] => []
  | [x] => x
  | x :: y :: rest => x ++ 32 :: joinSpace (y :: rest)

/-- Names and values in the order of a query or a form. -/
structure Params where
  pairs : List (JsString × JsString)
  wellFormed : ∀ p ∈ pairs, isWellFormed p.2 = true

/-- `url.searchParams.get(name)`: the first value. -/
def Params.get (p : Params) (name : String) : Option JsString := p.pairs.lookup (js name)

/-- `readFormBody(body)[name]`: the last value. -/
def Params.field (p : Params) (name : String) : Option JsString := p.pairs.reverse.lookup (js name)

/-- A text that is present and not empty. -/
def present (s : Option JsString) : Bool := s.any (· ≠ [])

/-! ## Replies -/

inductive Reply where
  | json (status : ℕ) (body : Json)
  /-- To the URI with the code and the state among its parameters. -/
  | redirect (uri code : JsString) (state : Option JsString)
  /-- No reply: an exception that nobody catches. -/
  | thrown

/-- `{ error, error_description }`. -/
def oauthError (error description : String) : Reply :=
  .json 400 (.obj [(js "error", .str (js error)), (js "error_description", .str (js description))])

def replyIf (p : Prop) [Decidable p] (r : Reply) : Except Reply Unit := if p then .error r else .ok ()

namespace OAuth

def ALLOWED_SCOPES : List JsString := [js "memory:read", js "memory:write", js "budget:spend", js "capability:grant"]

def CODE_TTL_SECONDS : ℤ := 600

def TOKEN_TTL_SECONDS : ℤ := 86400

def generateOpaqueToken (env : Ambient) : JsString := base64url (env.random 0 32)

def sha256 (input : JsString) : JsString := base64url (Sha256.bytes (Sha256.digest (utf8 input)))

def parseScopes (scope : Option JsString) : List JsString :=
  if present scope then (words (scope.getD [])).filter (· ∈ ALLOWED_SCOPES) else []

/-- `nowSeconds()`, the `i`-th time that the request asks. -/
def nowSeconds (env : Ambient) (i : ℕ) : ℤ := env.clock i / 1000

/-- `a < b`. -/
def less (F : NumberFormat) (a b : Option Json) : Bool := greater F b a

/-- A text as a value, `null` when it is missing. -/
def textOrNull (s : Option JsString) : Json := (s.map Json.str).getD .null

/-! ## `/oauth/authorize` -/

structure AuthorizationRequest where
  clientId : JsString
  redirectUri : JsString
  grantedScopes : List JsString
  codeChallenge : JsString
  codeChallengeMethod : JsString
  state : Option JsString

/-- The checks of `handleAuthorize`. -/
def readAuthorize (params : Params) : Except Reply AuthorizationRequest := do
  let scope := params.get "scope"
  let codeChallengeMethod :=
    if present (params.get "code_challenge_method") then (params.get "code_challenge_method").getD [] else js "S256"
  replyIf (params.get "response_type" ≠ some (js "code"))
    (oauthError "unsupported_response_type" "Only response_type=code is supported")
  replyIf (!present (params.get "client_id") || !present (params.get "redirect_uri"))
    (oauthError "invalid_request" "client_id and redirect_uri are required")
  replyIf (!present (params.get "code_challenge")) (oauthError "invalid_request" "PKCE code_challenge is required")
  replyIf (codeChallengeMethod ∉ [js "S256", js "plain"])
    (oauthError "invalid_request" "Unsupported code_challenge_method")
  replyIf (present scope ∧ parseScopes scope = []) (oauthError "invalid_scope" "No valid scopes requested")
  return { clientId := (params.get "client_id").getD [], redirectUri := (params.get "redirect_uri").getD [],
           grantedScopes := parseScopes scope, codeChallenge := (params.get "code_challenge").getD [],
           codeChallengeMethod, state := params.get "state" }

def codeData (a : AuthorizationRequest) (issuedAt : ℤ) : Json :=
  .obj [(js "type", .str (js "authorization_code")), (js "clientId", .str a.clientId), (js "redirectUri", .str a.redirectUri),
    (js "scope", .str (joinSpace a.grantedScopes)), (js "codeChallenge", .str a.codeChallenge),
    (js "codeChallengeMethod", .str a.codeChallengeMethod), (js "state", textOrNull a.state),
    (js "issuedAt", .num issuedAt), (js "expiresAt", .num ((issuedAt + CODE_TTL_SECONDS : ℤ) : ℚ)), (js "used", .bool false)]

variable {V : Type} (isUrl : JsString → Bool)

def handleAuthorize (env : Ambient) (store : EncryptedStore V) (params : Params) : Reply × EncryptedStore V :=
  match readAuthorize params with
  | .error reply => (reply, store)
  | .ok a =>
    let code := generateOpaqueToken env
    -- the code is stored before the URI is read
    (if isUrl a.redirectUri then .redirect a.redirectUri code (a.state.filter (· ≠ [])) else .thrown,
      store.putOAuthCode code (codeData a (nowSeconds env 0)))

/-! ## `/oauth/token` -/

variable (F : NumberFormat)

structure TokenRequest where
  code : JsString
  redirectUri : JsString
  codeVerifier : JsString
  clientId : Option JsString

def readToken (form : Params) : Except Reply TokenRequest := do
  replyIf (form.field "grant_type" ≠ some (js "authorization_code"))
    (oauthError "unsupported_grant_type" "Only grant_type=authorization_code is supported")
  replyIf (!present (form.field "code") || !present (form.field "redirect_uri") || !present (form.field "code_verifier"))
    (oauthError "invalid_request" "code, redirect_uri, and code_verifier are required")
  return { code := (form.field "code").getD [], redirectUri := (form.field "redirect_uri").getD [],
           codeVerifier := (form.field "code_verifier").getD [], clientId := form.field "client_id" }

def expectedChallenge (codeData : Json) (codeVerifier : JsString) : JsString :=
  if Json.isStr (codeData.get (js "codeChallengeMethod")) (js "S256") then sha256 codeVerifier else codeVerifier

/-- The checks of `handleToken` once the code has been looked up and deleted. -/
def checkCode (now : ℤ) (codeData : Json) (r : TokenRequest) : Except Reply Unit := do
  replyIf (Json.truthy (codeData.get (js "used"))) (oauthError "invalid_grant" "Authorization code has already been used")
  replyIf (less F (codeData.get (js "expiresAt")) (some (.num now)))
    (oauthError "invalid_grant" "Authorization code has expired")
  replyIf (!Json.isStr (codeData.get (js "redirectUri")) r.redirectUri) (oauthError "invalid_grant" "redirect_uri mismatch")
  replyIf (present r.clientId && !Json.isStr (codeData.get (js "clientId")) (r.clientId.getD []))
    (oauthError "invalid_grant" "client_id mismatch")
  replyIf (!Json.isStr (codeData.get (js "codeChallenge")) (expectedChallenge codeData r.codeVerifier))
    (oauthError "invalid_grant" "PKCE code_verifier mismatch")

def tokenData (codeData : Json) (issuedAt : ℤ) : Json :=
  .obj ([(js "type", .str (js "access_token"))] ++ Json.field (js "clientId") (codeData.get (js "clientId")) ++
    Json.field (js "scope") (codeData.get (js "scope")) ++
    [(js "issuedAt", .num issuedAt), (js "expiresAt", .num ((issuedAt + TOKEN_TTL_SECONDS : ℤ) : ℚ))])

/-- The reply to a redeemed code. -/
def tokenReply (accessToken : JsString) (tokenData : Json) : Reply :=
  .json 200 (.obj ([(js "access_token", .str accessToken), (js "token_type", .str (js "Bearer")),
    (js "expires_in", .num TOKEN_TTL_SECONDS)] ++ Json.field (js "scope") (tokenData.get (js "scope"))))

/-- `handleToken`, once the body has been read. -/
def handleToken (env : Ambient) (store : EncryptedStore V) (form : Params) : Reply × EncryptedStore V :=
  match readToken form with
  | .error reply => (reply, store)
  | .ok r =>
    match store.getOAuthCode r.code with
    | none => (oauthError "invalid_grant" "Authorization code not found", store)
    | some codeData =>
      if !Json.truthy (some codeData) then (oauthError "invalid_grant" "Authorization code not found", store)
      else
        let store := store.deleteOAuthCode r.code
        match checkCode F (nowSeconds env 0) codeData r with
        | .error reply => (reply, store)
        | .ok () =>
          let accessToken := generateOpaqueToken env
          let data := tokenData codeData (nowSeconds env 1)
          (tokenReply accessToken data, store.putOAuthToken accessToken data)

/-! ## `/oauth/introspect` -/

def inactive : Reply := .json 200 (.obj [(js "active", .bool false)])

def activeReply (tokenData : Json) : Reply :=
  .json 200 (.obj ([(js "active", .bool true)] ++ Json.field (js "scope") (tokenData.get (js "scope")) ++
    Json.field (js "client_id") (tokenData.get (js "clientId")) ++ [(js "token_type", .str (js "Bearer"))] ++
    Json.field (js "exp") (tokenData.get (js "expiresAt")) ++ Json.field (js "iat") (tokenData.get (js "issuedAt"))))

def handleIntrospect (env : Ambient) (store : EncryptedStore V) (params : Params) : Reply :=
  match params.get "token" with
  | none => oauthError "invalid_request" "token parameter is required"
  | some token =>
    if token = [] then oauthError "invalid_request" "token parameter is required"
    else
      match store.getOAuthToken token with
      | none => inactive
      | some tokenData =>
        if !Json.truthy (some tokenData) || less F (tokenData.get (js "expiresAt")) (some (.num (nowSeconds env 0))) then inactive
        else activeReply tokenData

/-! ## Interleavings -/

/-- What happens at the server. A request for a code is served at once; one for a token waits until its
body has been read. -/
inductive Event where
  | authorize (env : Ambient) (params : Params)
  | tokenArrives (request : ℕ)
  | tokenBody (request : ℕ) (env : Ambient) (form : Params)

structure State (V : Type) where
  store : EncryptedStore V
  /-- The requests whose bodies are being read. -/
  reading : List ℕ

def serve (s : State V) : Event → Option (Option Reply × State V)
  | .authorize env params =>
    let (reply, store) := handleAuthorize isUrl env s.store params
    some (some reply, { s with store })
  | .tokenArrives request => if request ∈ s.reading then none else some (none, { s with reading := request :: s.reading })
  | .tokenBody request env form =>
    if request ∈ s.reading then
      let (reply, store) := handleToken F env s.store form
      some (some reply, { store, reading := s.reading.erase request })
    else none

def step (s : State V) (e : Event) : Option (State V) := (serve isUrl F s e).map Prod.snd

def reply (s : State V) (e : Event) : Option Reply := (serve isUrl F s e).bind Prod.fst

/-- The code that an event issues. -/
def issuedCode : Event → Option JsString
  | .authorize env params =>
    match readAuthorize params with
    | .ok _ => some (generateOpaqueToken env)
    | .error _ => none
  | _ => none

end OAuth

end EnigmaMemory
