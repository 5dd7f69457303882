import EnigmaMemory.Lib.Double
import EnigmaMemory.Spec.EncryptedStore
import EnigmaMemory.Spec.Platform
import EnigmaMemory.Spec.PublicSafe

/-!
# The auto-save engine

`auto-save.mjs` of the node: a turn of a conversation is split into facts, and each of the first ones is saved,
put aside or blocked by its category, its salience and what the scan for poison finds. A word of the policy that
is no action counts as `auto`. Storage may fail at any fact (`fault`). Of what the language throws the text is left
out.
-/

namespace EnigmaMemory.AutoSave

open Regex

/-! ## Policy -/

inductive Category where
  | calendar
  | task
  | preference
  | contact
  | medical
  | credentials
  | legal
  | financial
  | unknown
  deriving DecidableEq

def Category.text : Category → JsString
  | calendar => js "calendar"
  | task => js "task"
  | preference => js "preference"
  | contact => js "contact"
  | medical => js "medical"
  | credentials => js "credentials"
  | legal => js "legal"
  | financial => js "financial"
  | unknown => js "unknown"

inductive Action where
  | auto
  | quarantine
  | block
  deriving DecidableEq

structure Immunology where
  blockPromptInjection : Bool
  blockToxicity : Bool
  maxLength : ℚ

structure Policy where
  version : JsString
  salienceThreshold : ℚ
  categoryPolicy : Category → Option Action
  overrideableByTag : List Category
  consentTags : List JsString
  immunology : Immunology
  maxSavesPerTurn : ℤ
  embedding : Bool

/-- A number written with decimals. -/
def decimal (digits : ℤ) (places : ℕ) : ℚ := Double.round (digits / 10 ^ places)

def defaultCategoryPolicy : Category → Option Action
  | .calendar | .preference | .task | .contact => some .auto
  | .medical | .credentials => some .block
  | .legal | .financial | .unknown => some .quarantine

def DEFAULT_POLICY : Policy where
  version := js "v3.0.0"
  salienceThreshold := decimal 45 2
  categoryPolicy := defaultCategoryPolicy
  overrideableByTag := [.medical, .credentials, .legal, .financial]
  consentTags := [js "safe_to_save", js "explicit_consent", js "medical_consent"]
  immunology := ⟨true, true, 8192⟩
  maxSavesPerTurn := 8
  embedding := true

/-! ## Words -/

def CATEGORY_KEYWORDS : Category → List String
  | .calendar => ["meeting", "appointment", "flight", "trip", "travel", "conference", "dinner", "lunch", "breakfast", "event",
      "schedule", "calendar", "zoom", "call with", "visit", "flight to", "flying to", "going to", "at ", "on ", "tomorrow",
      "next week", "next month", "on monday", "on tuesday", "on wednesday", "on thursday", "on friday", "on saturday", "on sunday"]
  | .task => ["todo", "to do", "to-do", "task", "remind me", "remember to", "need to", "have to", "must", "should", "buy",
      "pick up", "drop off", "call ", "email ", "send ", "finish", "complete", "deadline", "due ", "by friday", "by monday"]
  | .preference => ["like", "love", "prefer", "favorite", "favourite", "hate", "dislike", "enjoy", "want", "would like", "into ",
      "not a fan", "allergic to", "vegan", "vegetarian", "gluten-free", "keto", "paleo"]
  | .contact => ["my mom", "my dad", "my wife", "my husband", "my partner", "my friend", "my boss", "my colleague", "my doctor",
      "my lawyer", "called ", "phone number", "email address", "works at", "lives in", "lives at", "contact"]
  | .medical => ["diagnosis", "symptom", "medication", "prescription", "doctor said", "blood pressure", "cholesterol", "allergy",
      "condition", "disease", "treatment", "therapy", "mental health", "anxiety", "depression", "insulin", "vaccine", "hospital",
      "surgery"]
  | .credentials => ["password", "passcode", "secret", "api key", "private key", "seed phrase", "mnemonic", "token", "credential",
      "login", "pin ", "ssn", "social security", "credit card", "cvv", "expiration date", "bank account", "routing number"]
  | .legal => ["contract", "agreement", "nda", "non-disclosure", "lawsuit", "attorney", "court", "legal", "terms of service",
      "privacy policy", "will ", "trust", "patent", "copyright"]
  | .financial => ["salary", "income", "investment", "stock", "crypto", "bitcoin", "ethereum", "solana", "mortgage", "loan",
      "debt", "net worth", "portfolio", "dividend", "tax", "irs"]
  | .unknown => []

/-- Any character but a line end. -/
def dot : Regex := cls ⟨[(10, 10), (13, 13), (0x2028, 0x2029)], true⟩

/-- One of some words, in letters of either case. -/
def anyOf (words : List String) : Regex := any (words.map litI)

/-- A whole word of some. -/
def wordOf (words : List String) : Regex := cat [boundary, anyOf words, boundary]

/-- `verb\s+(?:all\s+|previous\s+|the\s+)?nouns?` -/
def orderTo (verb noun : String) : Regex :=
  cat [litI verb, plus space, opt (cat [anyOf ["all", "previous", "the"], plus space]), litI noun, opt (litI "s")]

def PROMPT_INJECTION_PATTERNS : List Regex :=
  [orderTo "ignore" "instruction", orderTo "disregard" "instruction", orderTo "ignore" "prompt",
    cat [litI "system", plus space, litI "prompt"],
    cat [litI "you", plus space, litI "are", plus space, litI "now", plus space],
    cat [litI "dan", boundary],
    litI "jailbreak",
    cat [boundary, litI "mode", star space, litI ":", star space, litI "developer", boundary],
    cat [lit "\x7b\x7b", star space, star dot, litI "system", star space, star dot, lit "\x7d\x7d"],
    cat [lit "<", star space, litI "system", star space, lit ">"]]

def TOXICITY_PATTERNS : List Regex :=
  [cat [boundary, any [cat [litI "hate", plus space, anyOf ["you", "u"]],
      cat [litI "kill", plus space, anyOf ["you", "u", "myself", "himself", "herself"]],
      cat [litI "die", plus space, anyOf ["you", "u"]]], boundary],
    cat [boundary, any [cat [litI "bomb", plus space, litI "making"],
      cat [litI "how", plus space, litI "to", plus space, litI "make", plus space, litI "a", plus space, litI "bomb"],
      cat [litI "child", plus space, litI "abuse"], cat [litI "self", plus space, litI "harm"]], boundary]]

/-! ## Texts -/

/-- Every run of white space as one space. -/
def squeeze (inRun : Bool) : JsString → JsString
  | [] => []
  | c :: rest => if isWhite c then (if inRun then squeeze true rest else 32 :: squeeze true rest) else c :: squeeze false rest

def normalizeText (text : JsString) : JsString := trim (squeeze false text)

/-- `normalizeText` of a value that may be missing. -/
def normalizeValue (F : NumberFormat) (value : Option Json) : JsString :=
  match value with
  | none | some .null => []
  | some v => normalizeText (v.toText F)

def keywordRe (keyword : String) : Regex := cat [boundary, litI keyword, boundary]

def countMatches (text : JsString) (keywords : List String) : ℕ :=
  (keywords.filter fun keyword => regexTest (keywordRe keyword) (toLowerCase text)).length

def CATEGORY_PRIORITY : List Category := [.credentials, .medical, .legal, .financial]

/-- The categories that are not looked for first, in the order of the keyword lists. -/
def plainCategories : List Category := [.calendar, .task, .preference, .contact]

/-- The first category with the most keywords. -/
def bestCategory (lower : JsString) : Category × ℕ :=
  plainCategories.foldl (fun best category =>
    let score := countMatches lower (CATEGORY_KEYWORDS category)
    if best.2 < score then (category, score) else best) (.unknown, 0)

def classifyCategory (text : JsString) : Category :=
  let lower := toLowerCase text
  match CATEGORY_PRIORITY.find? fun category => decide (0 < countMatches lower (CATEGORY_KEYWORDS category)) with
  | some category => category
  | none => (bestCategory lower).1

/-! ## Salience -/

def selfRe : Regex := wordOf ["i", "my", "me", "mine", "myself"]

def groupRe : Regex := wordOf ["we", "our", "us"]

def temporalRe : Regex :=
  cat [any ([anyOf ["tomorrow", "tonight", "today", "next week", "next month", "on monday", "on tuesday", "on wednesday",
    "on thursday", "on friday", "on saturday", "on sunday"], cat [litI "at ", opt (lit "+"), cls ⟨[(48, 57)], false⟩],
    anyOf ["january", "february", "march", "april", "may", "june", "july", "august", "september", "october", "november",
      "december"]]), boundary]

/-- `[A-Z][a-z]+` -/
def properNoun : Regex := cat [cls ⟨[(65, 90)], false⟩, plus (cls ⟨[(97, 122)], false⟩)]

def namesRe : Regex := cat [properNoun, plus (cat [plus space, properNoun])]

def commitmentRe : Regex :=
  wordOf ["meeting", "flight", "trip", "call", "appointment", "deadline", "remind", "buy", "pick up", "need to", "have to", "must"]

def doubtRe : Regex :=
  wordOf ["maybe", "perhaps", "possibly", "i think", "not sure", "unsure", "don't know", "might", "could be"]

/-- `if (…) score += points`. -/
def addPoints (score : ℚ) (holds : Bool) (points : ℚ) : ℚ := if holds then Double.round (score + points) else score

/-- `Number(score.toFixed(4))`. -/
def toFixed4 (score : ℚ) : ℚ :=
  let rounded := Double.round (⌊|score| * 10 ^ 4 + 1 / 2⌋ / 10 ^ 4)
  if score < 0 then -rounded else rounded

def scoreSalience (candidateText : JsString) : ℚ :=
  let text := normalizeText candidateText
  if text.length < 4 then 0
  else
    let score := decimal 2 1
    let score := addPoints score (regexTest selfRe text) (decimal 25 2)
    let score := addPoints score (regexTest groupRe text) (decimal 15 2)
    let score := addPoints score (regexTest temporalRe text) (decimal 2 1)
    let score := addPoints score (regexTest namesRe text) (decimal 15 2)
    let score := addPoints score (regexTest commitmentRe text) (decimal 15 2)
    let score := addPoints score (regexTest doubtRe (toLowerCase text)) (-decimal 15 2)
    let score := addPoints score (decide (text.length < 20)) (-decimal 1 1)
    max 0 (min 1 (toFixed4 score))

/-! ## Decisions -/

def hasPromptInjection (text : JsString) : Bool := PROMPT_INJECTION_PATTERNS.any fun pattern => regexTest pattern text

def hasToxicity (text : JsString) : Bool := TOXICITY_PATTERNS.any fun pattern => regexTest pattern text

structure Candidate where
  id : JsString
  owner : JsString
  text : JsString
  tags : List Json
  sourceTurnId : Json

structure Classified extends Candidate where
  category : Category
  salience : ℚ

structure Flag where
  type : JsString
  message : JsString

variable (F : NumberFormat)

/-- The flags of a text; it passes if there are none. -/
def runImmunology (candidateText : JsString) (policy : Policy) : List Flag :=
  let text := normalizeText candidateText
  (if policy.immunology.maxLength < text.length then
    [⟨js "length", js "Text exceeds " ++ F.numberText policy.immunology.maxLength ++ js " characters"⟩] else []) ++
  (if policy.immunology.blockPromptInjection && hasPromptInjection text then
    [⟨js "prompt-injection", js "Prompt-injection pattern detected"⟩] else []) ++
  (if policy.immunology.blockToxicity && hasToxicity text then [⟨js "toxicity", js "Unsafe content pattern detected"⟩] else [])

def hasConsentTag (tags : List Json) (policy : Policy) : Bool :=
  policy.consentTags.any fun tag => tags.any fun t => Json.isStr (some t) tag

def categoryAction (category : Category) (policy : Policy) : Action :=
  (policy.categoryPolicy category).getD ((policy.categoryPolicy .unknown).getD .auto)

def applyCategoryPolicy (category : Category) (tags : List Json) (policy : Policy) : Action × JsString :=
  let action := categoryAction category policy
  let reason := js "category=" ++ category.text
  let overridden := action = .block ∧ category ∈ policy.overrideableByTag ∧ hasConsentTag tags policy = true
  if action = .block ∧ ¬ overridden then (.block, reason ++ js "; sensitive category blocked")
  else if action = .quarantine ∧ hasConsentTag tags policy = false then
    (.quarantine, reason ++ js "; requires review or explicit consent tag")
  else (.auto, reason)

structure Decision where
  action : Action
  reason : JsString
  flags : List Flag
  candidate : Classified

/-- `items.join(", ")`. -/
def joinCommaSpace : List JsString → JsString
  | [] => []
  | [x] => x
  | x :: y :: rest => x ++ js ", " ++ joinCommaSpace (y :: rest)

def evaluate (policy : Policy) (candidate : Candidate) : Decision :=
  let classified : Classified := ⟨candidate, classifyCategory candidate.text, scoreSalience candidate.text⟩
  let flags := runImmunology F candidate.text policy
  let decision := applyCategoryPolicy classified.category candidate.tags policy
  if flags ≠ [] then ⟨.block, js "immunology: " ++ joinCommaSpace (flags.map Flag.type), flags, classified⟩
  else if decision.1 ≠ .auto then ⟨decision.1, decision.2, [], classified⟩
  else if classified.salience < policy.salienceThreshold then
    ⟨.quarantine, js "salience " ++ F.numberText classified.salience ++ js " below threshold " ++
      F.numberText policy.salienceThreshold, [], classified⟩
  else ⟨.auto, decision.2, [], classified⟩

/-! ## Facts -/

/-- `[.!?]` -/
def isStop (c : CodeUnit) : Bool := c == 46 || c == 33 || c == 63

/-- `s.replace(/([.!?])\s+(?=[A-Z])/g, "$1\n")`; the flag says that a stop, or such white space behind it, has
just been read. -/
def breakStops (afterStop : Bool) : JsString → JsString
  | [] => []
  | c :: rest =>
    if afterStop && isWhite c && (rest.dropWhile isWhite).head?.any isUpperUnit then
      if rest.head?.any isWhite then breakStops true rest else 10 :: breakStops false rest
    else c :: breakStops (isStop c) rest

/-- What has just been read: a stop, or a stop and a quotation mark. -/
inductive After where
  | other
  | stop
  | quote

/-- `s.replace(/([.!?])"\s+/g, '$1"\n')`. -/
def breakQuotes (after : After) : JsString → JsString
  | [] => []
  | c :: rest =>
    match after with
    | .quote =>
      if isWhite c then (if rest.head?.any isWhite then breakQuotes .quote rest else 10 :: breakQuotes .other rest)
      else c :: breakQuotes (if isStop c then .stop else .other) rest
    | .stop => c :: breakQuotes (if c = 34 then .quote else if isStop c then .stop else .other) rest
    | .other => c :: breakQuotes (if isStop c then .stop else .other) rest

def sentencesOf (text : JsString) : List JsString :=
  ((breakQuotes .other (breakStops false text)).splitOn 10 |>.map trim).filter (· ≠ [])

def skipRe : Regex :=
  cat [start, anyOf ["can you", "could you", "please", "tell me", "what", "how", "why", "when", "where", "who", "is ", "are ",
    "do ", "does ", "did "]]

/-- The texts of the facts of a turn. -/
def extractFacts (turnText : Option Json) : List JsString :=
  (sentencesOf (normalizeValue F turnText)).filter fun sentence => !regexTest skipRe sentence

example : (sentencesOf (js "I like \"Go.\" Now. And then.")) = [js "I like \"Go.\"", js "Now.", js "And then."] := by decide

/-! ## Turns -/

structure Engine (V : Type) where
  format : NumberFormat
  policy : Policy
  embedder : Option (JsString → Except JsError V)
  /-- The error with which storage fails at a candidate, by its place among them. -/
  fault : ℕ → Option JsError

structure Item where
  id : JsString
  text : JsString
  category : Category
  salience : ℚ
  action : Action
  reason : JsString

structure Saved extends Item where
  key : JsString

variable {V : Type}

/-- What the loop over the candidates has done: its lists, the store, and the records put there. -/
structure Progress (V : Type) where
  store : EncryptedStore V
  written : List (JsString × Json)
  saved : List Saved
  quarantined : List Item
  blocked : List Item

def makeCandidateId (text owner : JsString) : JsString := (sha256Hex (owner ++ 58 :: text)).take 24

/-- `makeMemoryKey`, for a candidate with an id. -/
def makeMemoryKey (candidate : Candidate) : JsString := js "memory:" ++ candidate.owner ++ 58 :: candidate.id

def memoryOf (candidate : Classified) (policy : Policy) (savedAt : ℤ) : Json :=
  .obj [(js "id", .str candidate.id), (js "text", .str candidate.text), (js "owner", .str candidate.owner),
    (js "category", .str candidate.category.text), (js "salience", .num candidate.salience), (js "tags", .arr candidate.tags),
    (js "policyVersion", .str policy.version), (js "savedAt", .num savedAt)]

section

variable (E : Engine V)

/-- `store.put(key, memory)` for the candidate at a place. -/
def putMemory (place : ℕ) (store : EncryptedStore V) (key : JsString) (memory : Json) : Except JsError (EncryptedStore V) :=
  match E.fault place with
  | some e => .error e
  | none => store.put (some (.str key)) memory

/-- The embedding of what has been put; if it fails, that is only logged. -/
def embedMemory (store : EncryptedStore V) (key text : JsString) : EncryptedStore V :=
  match E.policy.embedding, E.embedder with
  | true, some embedder =>
    match embedder text with
    | .ok vector =>
      match store.putEmbedding (some (.str key)) vector with
      | .ok store => store
      | .error _ => store
    | .error _ => store
  | _, _ => store

def itemOf (decision : Decision) : Item :=
  ⟨decision.candidate.id, decision.candidate.text, decision.candidate.category, decision.candidate.salience, decision.action, decision.reason⟩

/-- One candidate, with its place, processed. -/
def processCandidate (env : Ambient) (progress : Progress V) (entry : Candidate × ℕ) : Progress V :=
  let (candidate, place) := entry
  let decision := evaluate E.format E.policy candidate
  let item := itemOf decision
  match decision.action with
  | .auto =>
    let key := makeMemoryKey candidate
    let memory := memoryOf decision.candidate E.policy (env.clock place)
    match putMemory E place progress.store key memory with
    | .ok store =>
      { progress with
        store := embedMemory E store key candidate.text
        written := progress.written ++ [(key, memory)]
        saved := progress.saved ++ [⟨item, key⟩] }
    | .error e =>
      { progress with blocked := progress.blocked ++ [{ item with action := .block, reason := js "storage error: " ++ e.message }] }
  | .quarantine => { progress with quarantined := progress.quarantined ++ [item] }
  | .block => { progress with blocked := progress.blocked ++ [item] }

/-- `items.slice(0, limit)`. -/
def sliceTo {α : Type} (limit : ℤ) (items : List α) : List α :=
  if 0 ≤ limit then items.take limit.toNat else items.take (items.length - limit.natAbs)

def ownerError : JsError := ⟨.typeError, js "turn.owner is required"⟩

def ownerOf (turn : Json) : Except JsError JsString :=
  match turn, turn.get (js "owner") with
  | .null, _ => .error ⟨.typeError, []⟩
  | _, some (.str owner) => if owner = [] then .error ownerError else .ok owner
  | _, _ => .error ownerError

def tagsOf (turn : Json) : List Json :=
  match turn.get (js "tags") with
  | some (.arr tags) => tags
  | _ => []

/-- The facts that are looked at. -/
def factsOf (turn : Json) : List JsString := sliceTo E.policy.maxSavesPerTurn (extractFacts E.format (turn.get (js "text")))

def candidateOf (turn : Json) (owner fact : JsString) : Candidate :=
  ⟨makeCandidateId fact owner, owner, fact, tagsOf turn,
    if Json.truthy (turn.get (js "turnId")) then (turn.get (js "turnId")).getD .null else .null⟩

/-- The report (`owner`, `processedAt` and `policyVersion` apart) and the store after a turn. -/
def processTurn (env : Ambient) (store : EncryptedStore V) (turn : Json) : Except JsError (Progress V) := do
  let owner ← ownerOf turn
  return ((factsOf E turn).map (candidateOf turn owner)).zipIdx.foldl (processCandidate E env) ⟨store, [], [], [], []⟩

end

end EnigmaMemory.AutoSave
