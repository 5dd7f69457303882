import EnigmaMemory.Spec.JsonRpc
import EnigmaMemory.Proof.JsString
import EnigmaMemory.Proof.Reference

/-!
# The replies of the JSON-RPC server

What a client may count on: one response to each well-formed request under its own id, in order,
nothing to a notification, one error to an item that is no request. `Disciplined` says so of a
request and its reply, in terms of the request alone.

`replies_disciplined`: **the server keeps this discipline exactly on the requests that ask for no
reply to `notifications/initialized`**, whatever the tools, the profile and the state of the files.
An item that names this method and carries an id is dropped without a response.
-/

namespace EnigmaMemory.JsonRpc

open Json

variable {σ : Type} (S : Server σ)

/-! ## What is owed to a request -/

/-- A request object or a notification. -/
structure WellFormed (item : Json) : Prop where
  object : isPlainRecord item = true
  id : ∀ id, item.get (js "id") = some id → isValidJsonRpcId id = true
  version : item.get (js "jsonrpc") = some (.str JSONRPC_VERSION)
  method : ∃ method, item.get (js "method") = some (.str method)

/-- A response for an id, with exactly one of `result` and `error`. -/
structure Response (id r : Json) : Prop where
  version : r.get (js "jsonrpc") = some (.str JSONRPC_VERSION)
  id : r.get (js "id") = some id
  one : (r.get (js "result")).isSome = !(r.get (js "error")).isSome

/-- The responses that an item of a request gets are those it should get. -/
structure Answered (item : Json) (responses : List Json) : Prop where
  request : ∀ id, WellFormed item → item.get (js "id") = some id → ∃ r, responses = [r] ∧ Response id r
  notification : WellFormed item → item.get (js "id") = none → responses = []
  malformed : ¬WellFormed item → ∃ r id, responses = [r] ∧ Response id r ∧ (r.get (js "error")).isSome = true ∧
    (id = .null ∨ item.get (js "id") = some id ∧ isValidJsonRpcId id = true)

/-- The responses to the items of a batch stand in the order of the items. -/
def AllAnswered (items responses : List Json) : Prop :=
  ∃ parts : List (List Json), List.Forall₂ Answered items parts ∧ responses = parts.flatten

/-- **The reply discipline.** An empty batch is malformed as a whole. -/
def Disciplined (request : Json) (reply : Option Json) : Prop :=
  match request with
  | .arr [] => Answered request reply.toList
  | .arr items => ∃ responses, AllAnswered items responses ∧ reply = if responses = [] then none else some (.arr responses)
  | request => Answered request reply.toList

/-- A well-formed request for `notifications/initialized` that asks for a reply. -/
def Unanswered (item : Json) : Prop :=
  WellFormed item ∧ (item.get (js "id")).isSome = true ∧
    item.get (js "method") = some (.str (js "notifications/initialized")) ∧
    (item.get (js "params") = none ∨ item.get (js "params") = some (.obj []))

def itemsOf : Json → List Json
  | .arr items => items
  | request => [request]

/-! ## The responses -/

theorem response_result (id value : Json) : Response id (jsonRpcResult id value) := by
  refine ⟨?_, ?_, ?_⟩ <;> simp [jsonRpcResult, js_inj]

theorem response_error (id : Json) (code : ℤ) (message : JsString) (data : Option Json) :
    Response id (jsonRpcError id code message data) := by
  refine ⟨?_, ?_, ?_⟩ <;> simp [jsonRpcError, js_inj]

theorem jsonRpcError_error (id : Json) (code : ℤ) (message : JsString) (data : Option Json) :
    ((jsonRpcError id code message data).get (js "error")).isSome = true := by
  simp [jsonRpcError, js_inj]

/-- Every way the `switch` may end but one replies to an id. -/
theorem reply_response {o : Outcome} (ho : o ≠ .silent) (id : Json) : ∃ r, o.reply (some id) = some r ∧ Response id r := by
  cases o with
  | result value => exact ⟨_, rfl, response_result id value⟩
  | silent => exact absurd rfl ho
  | methodNotFound => exact ⟨_, rfl, response_error id _ _ _⟩
  | thrown e =>
    cases e with
    | protocol code message data => exact ⟨_, rfl, response_error id _ _ _⟩
    | other name => exact ⟨_, rfl, response_error id _ _ _⟩

/-- A notification gets no reply, however it ends. -/
@[simp] theorem reply_none (o : Outcome) : o.reply none = none := by
  cases o with
  | result value => rfl
  | silent => rfl
  | methodNotFound => rfl
  | thrown e => cases e <;> rfl

theorem ofExcept_ne_silent (x : Except Failure Json) : Outcome.ofExcept x ≠ .silent := by
  cases x <;> exact Outcome.noConfusion

/-! ## The method that never replies -/

theorem validateNoParams_ok {params : Option Json} {method : String} :
    validateNoParams params method = .ok () ↔ params = none ∨ params = some (.obj []) := by
  cases params with
  | none => exact ⟨fun _ => Or.inl rfl, fun _ => rfl⟩
  | some value =>
    cases value with
    | obj fs =>
      cases fs with
      | nil => exact ⟨fun _ => Or.inr rfl, fun _ => rfl⟩
      | cons f fs =>
        refine ⟨fun h => ?_, by simp⟩
        have hkey : ∃ key ∈ (obj (f :: fs)).keys, key ∉ ([] : List JsString) := ⟨f.1, by simp [keys], by simp⟩
        have herror : validateNoParams (some (.obj (f :: fs))) method =
            if ∃ key ∈ (obj (f :: fs)).keys, key ∉ ([] : List JsString) then
              .error (invalidParams (method ++ " params" ++ " contains unsupported properties.") none) else .ok () := rfl
        rw [herror, if_pos hkey] at h
        cases h
    | _ =>
      refine ⟨fun h => ?_, by simp⟩
      cases h

/-- **The `switch` returns without a word only for `notifications/initialized`**, when its
parameters pass. -/
theorem runMethod_silent {options : Json} {method : JsString} {params : Option Json} {s : σ} :
    (runMethod S options method params s).1 = .silent ↔
      method = js "notifications/initialized" ∧ (params = none ∨ params = some (.obj [])) := by
  by_cases hm : method = js "notifications/initialized"
  · subst hm
    rw [runMethod, if_neg (by simp [js_inj]), if_pos rfl]
    cases hp : validateNoParams params "notifications/initialized" with
    | ok u => exact iff_of_true rfl ⟨rfl, validateNoParams_ok.mp hp⟩
    | error e =>
      refine iff_of_false Outcome.noConfusion (fun h => ?_)
      rw [validateNoParams_ok.mpr h.2] at hp
      cases hp
  · refine iff_of_false ?_ (fun h => hm h.1)
    rw [runMethod, if_neg hm]
    split
    · exact ofExcept_ne_silent _
    split
    · exact ofExcept_ne_silent _
    split
    · exact ofExcept_ne_silent _
    split
    · exact ofExcept_ne_silent _
    split
    · exact ofExcept_ne_silent _
    split
    · split
      · exact ofExcept_ne_silent _
      · exact Outcome.noConfusion
    split
    · exact ofExcept_ne_silent _
    split
    · exact ofExcept_ne_silent _
    split
    · split
      · split <;> exact Outcome.noConfusion
      · exact Outcome.noConfusion
    · exact Outcome.noConfusion

/-! ## One item -/

theorem handleSingle_wellFormed {item : Json} (h : WellFormed item) (options : Json) (s : σ) :
    ∃ method, item.get (js "method") = some (.str method) ∧ (handleSingleJsonRpcRequest S options item s).1 =
      (runMethod S options method (item.get (js "params")) s).1.reply (item.get (js "id")) := by
  obtain ⟨method, hm⟩ := h.method
  have hid : (item.get (js "id")).any (fun id => !isValidJsonRpcId id) = false := by
    cases hg : item.get (js "id") with
    | none => rfl
    | some id => rw [Option.any_some, h.id id hg, Bool.not_true]
  refine ⟨method, hm, ?_⟩
  rw [handleSingleJsonRpcRequest, h.object, if_neg Bool.noConfusion, hid, if_neg Bool.noConfusion, hm,
    isStr_iff.mpr h.version]

theorem handleSingle_malformed {item : Json} (h : ¬WellFormed item) (options : Json) (s : σ) :
    ∃ id, (handleSingleJsonRpcRequest S options item s).1 = some (invalidRequest id) ∧
      (id = .null ∨ item.get (js "id") = some id ∧ isValidJsonRpcId id = true) := by
  rw [handleSingleJsonRpcRequest]
  split
  · exact ⟨.null, rfl, Or.inl rfl⟩
  split
  · exact ⟨.null, rfl, Or.inl rfl⟩
  rename_i hobj hany
  have hid : ∀ id, item.get (js "id") = some id → isValidJsonRpcId id = true := by
    intro id hg
    rw [hg, Option.any_some, Bool.not_eq_true, Bool.not_eq_false'] at hany
    exact hany
  split
  · rename_i hv hm
    exact absurd ⟨Bool.not_eq_false _ ▸ hobj, hid, isStr_iff.mp hv, _, hm⟩ h
  · refine ⟨_, rfl, ?_⟩
    cases hg : item.get (js "id") with
    | none => exact Or.inl rfl
    | some id => exact Or.inr ⟨rfl, hid id hg⟩

/-- What is owed to an item, by count. -/
theorem Answered.length_eq {item : Json} {xs ys : List Json} (hx : Answered item xs) (hy : Answered item ys) :
    xs.length = ys.length := by
  by_cases h : WellFormed item
  · cases hid : item.get (js "id") with
    | none => rw [hx.notification h hid, hy.notification h hid]
    | some id =>
      obtain ⟨r, rfl, -⟩ := hx.request id h hid
      obtain ⟨r', rfl, -⟩ := hy.request id h hid
      rfl
  · obtain ⟨r, -, rfl, -⟩ := hx.malformed h
    obtain ⟨r', -, rfl, -⟩ := hy.malformed h
    rfl

theorem answered_of_not_unanswered {item : Json} (h : ¬Unanswered item) (options : Json) (s : σ) :
    Answered item (handleSingleJsonRpcRequest S options item s).1.toList := by
  by_cases hw : WellFormed item
  · obtain ⟨method, hm, heq⟩ := handleSingle_wellFormed S hw options s
    refine ⟨fun id _ hid => ?_, fun _ hid => ?_, fun hn => absurd hw hn⟩
    · have hsilent : (runMethod S options method (item.get (js "params")) s).1 ≠ .silent := by
        intro hs
        obtain ⟨rfl, hp⟩ := (runMethod_silent S).mp hs
        exact h ⟨hw, by rw [hid]; rfl, hm, hp⟩
      obtain ⟨r, hr, hresp⟩ := reply_response hsilent id
      exact ⟨r, by rw [heq, hid, hr]; rfl, hresp⟩
    · rw [heq, hid, reply_none]; rfl
  · obtain ⟨id, heq, hid⟩ := handleSingle_malformed S hw options s
    refine ⟨fun _ hn => absurd hn hw, fun hn => absurd hn hw, fun _ => ?_⟩
    exact ⟨_, id, by rw [heq]; rfl, response_error id _ _ _, jsonRpcError_error id _ _ _, hid⟩

theorem dropped_of_unanswered {item : Json} (h : Unanswered item) (options : Json) (s : σ) :
    (handleSingleJsonRpcRequest S options item s).1 = none := by
  obtain ⟨hw, -, hinit, hp⟩ := h
  obtain ⟨method, hm, heq⟩ := handleSingle_wellFormed S hw options s
  obtain rfl : js "notifications/initialized" = method := by simpa [hinit] using hm
  rw [heq, (runMethod_silent S).mpr ⟨rfl, hp⟩]; rfl

/-- **One item**: it gets what it should unless it is one of those that are dropped. -/
theorem answered_iff {item : Json} (options : Json) (s : σ) :
    Answered item (handleSingleJsonRpcRequest S options item s).1.toList ↔ ¬Unanswered item := by
  refine ⟨fun ha hu => ?_, fun h => answered_of_not_unanswered S h options s⟩
  rw [dropped_of_unanswered S hu options s] at ha
  obtain ⟨id, hid⟩ := Option.isSome_iff_exists.mp hu.2.1
  obtain ⟨r, hr, -⟩ := ha.request id hu.1 hid
  cases hr

/-! ## A batch -/

/-- The responses to a batch are those to its items, each from some state of the files. -/
theorem handleBatch_parts (options : Json) (items : List Json) (s : σ) :
    ∃ parts : List (List Json), (handleBatch S options items s).1 = parts.flatten ∧
      List.Forall₂ (fun item part => ∃ s', part = (handleSingleJsonRpcRequest S options item s').1.toList) items parts := by
  induction items generalizing s with
  | nil => exact ⟨[], rfl, .nil⟩
  | cons item items ih =>
    obtain ⟨parts, heq, hparts⟩ := ih (handleSingleJsonRpcRequest S options item s).2
    refine ⟨(handleSingleJsonRpcRequest S options item s).1.toList :: parts, ?_, .cons ⟨s, rfl⟩ hparts⟩
    rw [handleBatch, List.flatten_cons, ← heq]

/-- No item gets more than it should. -/
theorem part_length_le {item : Json} {part owed : List Json} {options : Json} {s : σ}
    (hp : part = (handleSingleJsonRpcRequest S options item s).1.toList) (ho : Answered item owed) :
    part.length ≤ owed.length ∧ (part.length = owed.length → Answered item part) := by
  subst hp
  by_cases hu : Unanswered item
  · rw [dropped_of_unanswered S hu options s]
    refine ⟨Nat.zero_le _, fun h => ?_⟩
    obtain ⟨id, hid⟩ := Option.isSome_iff_exists.mp hu.2.1
    obtain ⟨r, rfl, -⟩ := ho.request id hu.1 hid
    cases h
  · have ha := answered_of_not_unanswered S hu options s
    exact ⟨le_of_eq (ha.length_eq ho), fun _ => ha⟩

/-- A dropped response cannot be made up for by another item. -/
theorem flatten_length_le {options : Json} {items : List Json} {parts owed : List (List Json)}
    (hp : List.Forall₂ (fun item part => ∃ s', part = (handleSingleJsonRpcRequest S options item s').1.toList) items parts)
    (ho : List.Forall₂ Answered items owed) :
    parts.flatten.length ≤ owed.flatten.length ∧
      (parts.flatten.length = owed.flatten.length → List.Forall₂ Answered items parts) := by
  induction hp generalizing owed with
  | nil =>
    cases ho
    exact ⟨le_rfl, fun _ => .nil⟩
  | cons hhead _ ih =>
    cases ho with
    | cons hfirst hrest =>
      obtain ⟨s', hpart⟩ := hhead
      obtain ⟨hle, heq⟩ := part_length_le S hpart hfirst
      obtain ⟨hle', heq'⟩ := ih hrest
      simp only [List.flatten_cons, List.length_append]
      refine ⟨by omega, fun h => .cons (heq (by omega)) (heq' (by omega))⟩

theorem allAnswered_iff (options : Json) (items : List Json) (s : σ) :
    AllAnswered items (handleBatch S options items s).1 ↔ ∀ item ∈ items, ¬Unanswered item := by
  obtain ⟨parts, heq, hparts⟩ := handleBatch_parts S options items s
  rw [heq]
  constructor
  · rintro ⟨owed, howed, hflat⟩
    have ha := (flatten_length_le S hparts howed).2 (by rw [hflat])
    clear heq hflat howed
    induction hparts with
    | nil => simp
    | cons hhead _ ih =>
      cases ha with
      | cons hfirst hrest =>
        obtain ⟨s', rfl⟩ := hhead
        exact List.forall_mem_cons.mpr ⟨(answered_iff S options s').mp hfirst, ih hrest⟩
  · intro h
    refine ⟨parts, ?_, rfl⟩
    clear heq
    induction hparts with
    | nil => exact .nil
    | cons hhead _ ih =>
      obtain ⟨s', rfl⟩ := hhead
      obtain ⟨hitem, hitems⟩ := List.forall_mem_cons.mp h
      exact .cons ((answered_iff S options s').mpr hitem) (ih hitems)

/-! ## The reply -/

theorem handleJsonRpcRequest_single {request : Json} (h : ∀ items, request ≠ .arr items) (options : Json) (s : σ) :
    handleJsonRpcRequest S options request s = handleSingleJsonRpcRequest S options request s := by
  cases request with
  | arr items => exact absurd rfl (h items)
  | _ => rfl

theorem handleJsonRpcRequest_batch (options item : Json) (items : List Json) (s : σ) :
    (handleJsonRpcRequest S options (.arr (item :: items)) s).1 =
      if (handleBatch S options (item :: items) s).1 = [] then none
      else some (.arr (handleBatch S options (item :: items) s).1) := rfl

theorem not_wellFormed_arr (items : List Json) : ¬WellFormed (.arr items) := fun h => nomatch h.object

/-- What a batch comes to is read back from the reply. -/
theorem reply_inj {xs ys : List Json}
    (h : (if xs = [] then none else some (Json.arr xs)) = if ys = [] then none else some (Json.arr ys)) : xs = ys := by
  split at h <;> split at h <;> simp_all

/-- **Reply discipline, exactly.** -/
theorem replies_disciplined (options request : Json) (s : σ) :
    Disciplined request (handleJsonRpcRequest S options request s).1 ↔ ∀ item ∈ itemsOf request, ¬Unanswered item := by
  cases request with
  | arr items =>
    cases items with
    | nil =>
      refine iff_of_true ?_ (by simp [itemsOf])
      refine ⟨fun _ hn => absurd hn (not_wellFormed_arr _), fun hn => absurd hn (not_wellFormed_arr _), fun _ => ?_⟩
      exact ⟨_, .null, rfl, response_error _ _ _ _, jsonRpcError_error _ _ _ _, Or.inl rfl⟩
    | cons item items =>
      rw [itemsOf, ← allAnswered_iff S options (item :: items) s, handleJsonRpcRequest_batch]
      constructor
      · rintro ⟨responses, hall, hreply⟩
        rwa [reply_inj hreply]
      · exact fun h => ⟨_, h, rfl⟩
  | _ =>
    simp only [itemsOf, List.forall_mem_singleton]
    exact answered_iff S options s

/-! ## The lost reply -/

/-- A server whose tools all fail. -/
def bareServer : Server Unit where
  numberFormat := reference.toNumberFormat
  descriptor _ name := .obj [(js "name", .str name)]
  version := js "0.1.18"
  normalizeResourceUri uri := uri
  passportSummary _ s := (.error (.other (js "Error")), s)
  validateToolArguments _ args := .ok args
  tool _ _ s := (.error (.other (js "Error")), s)

/-- `{"jsonrpc":"2.0","id":1,"method":"notifications/initialized"}` -/
def initializedRequest : Json :=
  .obj [(js "jsonrpc", .str JSONRPC_VERSION), (js "id", .num 1), (js "method", .str (js "notifications/initialized"))]

theorem unanswered_initializedRequest : Unanswered initializedRequest := by
  refine ⟨⟨rfl, fun id hid => ?_, rfl, js "notifications/initialized", ?_⟩, ?_, ?_, Or.inl ?_⟩
  · obtain rfl : .num 1 = id := by simpa [initializedRequest, js_inj] using hid
    decide
  all_goals simp [initializedRequest, js_inj]

/-- **A client that asks for a reply to `notifications/initialized` waits forever.** -/
theorem initialized_unanswered : ¬∀ (σ : Type) (S : Server σ) (options request : Json) (s : σ),
    Disciplined request (handleJsonRpcRequest S options request s).1 := by
  intro h
  have ha := h Unit bareServer (.obj []) initializedRequest ()
  rw [handleJsonRpcRequest_single bareServer (fun _ => Json.noConfusion)] at ha
  exact (answered_iff bareServer (.obj []) ()).mp ha unanswered_initializedRequest

end EnigmaMemory.JsonRpc
