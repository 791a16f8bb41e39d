import Ticketing.Library.AsyncCalls
import Ticketing.RefundFlow
import Ticketing.StripePayments

/-!
# Finding or creating a refund at the provider

`createOrRecoverRefund` lists the refunds of a payment page by page and creates
one when no page has it. Every answer of the provider is untrusted: it may be no
JSON, of any shape, and pages may repeat.
-/

namespace Ticketing

open JsonCpp AsyncCalls

structure CreateRefundRequest where
  refundId : String
  orderId : String
  providerPaymentId : String
  amount : ℤ
  currency : String
  provider : String
  deriving DecidableEq, Repr

structure RetrieveRefundRequest extends CreateRefundRequest where
  providerRefundId : String
  deriving DecidableEq, Repr

inductive HttpMethod where
  | get | post
  deriving DecidableEq, Repr

structure ProviderRequest where
  method : HttpMethod
  path : String
  body : String := ""
  idempotencyKey : Option String := none
  deriving DecidableEq, Repr

/-- What the HTTP client reports: no response, or a status with a body that may be JSON. -/
inductive ProviderResponse where
  | unreachable
  | received (code : ℕ) (shouldRetry : Bool) (json : Option Value)

/-- What a JSON completion is called with; only a success comes with a body. -/
inductive JsonAnswer where
  | success (json : Value)
  | failure (retryable : Bool) (error : String)

namespace StripePaymentProvider

def isRetryableStatus (code : ℕ) : Bool := decide (code = 429 ∨ 500 ≤ code)

def textOrEmpty (value : Value) : Except Error String :=
  if value.isString = true then value.asString else .ok ""

def safeStripeError (json : Value) : Except Error String := do
  if json.isObject = false then return "STRIPE_UNKNOWN_ERROR"
  let e ← json.get "error"
  if e.isObject = false then return "STRIPE_UNKNOWN_ERROR"
  let code ← textOrEmpty (← e.get "code")
  let type ← textOrEmpty (← e.get "type")
  if code = "idempotency_key_in_use" then return "STRIPE_RETRY"
  if code = "charge_already_refunded" ∨ code = "amount_too_large" then
    return "STRIPE_EXTERNAL_REFUND_CONFLICT"
  if type = "idempotency_error" then return "STRIPE_IDEMPOTENCY_CONFLICT"
  if type = "authentication_error" ∨ type = "permission_error" ∨ code = "api_key_expired" then
    return "STRIPE_OPERATIONAL"
  return "STRIPE_UNKNOWN_ERROR"

def bodyError (json : Option Value) : Except Error String :=
  match json with
  | some body => safeStripeError body
  | none => .ok "STRIPE_INVALID_JSON"

/-- How `request` turns a response into the arguments of its completion. -/
def answered (response : ProviderResponse) : Except Error JsonAnswer :=
  match response with
  | .unreachable => .ok (.failure true "STRIPE_TRANSPORT_ERROR")
  | .received code shouldRetry json =>
      if code < 200 ∨ 300 ≤ code then do
        let error ← bodyError json
        let error :=
          if isRetryableStatus code = true ∨ shouldRetry = true then "STRIPE_RETRY"
          else if code = 401 ∨ code = 403 then "STRIPE_OPERATIONAL"
          else error
        return .failure (isRetryableStatus code) error
      else
        match json with
        | none => .ok (.failure true "STRIPE_INVALID_JSON")
        | some body => .ok (.success body)

def contains (text part : String) : Bool := decide (part.toList <:+: text.toList)

def startsWith (text part : String) : Bool := decide (part.toList <+: text.toList)

def refundError (code : String) : ProviderResult ProviderRefund where
  outcome := .retryableError
  safeError := code
  failureClass :=
    if contains code "CONFLICT" = true ∨ contains code "MISMATCH" = true ∨
        code = "STRIPE_REFUND_PAGINATION" then .identityConflict
    else if code = "STRIPE_OPERATIONAL" then .operational
    else .transient

def textEquals (value : Value) (expected : String) : Except Error Bool :=
  if value.isString = true then do return decide ((← value.asString) = expected) else .ok false

def invalidRefund (json : Value) : Except Error Bool := do
  if json.isObject = false then return true
  if (← textEquals (← json.get "object") "refund") = false then return true
  let id ← json.get "id"
  if id.isString = false then return true
  if startsWith (← id.asString) "re_" = false then return true
  return !(← json.get "status").isString

def refundMismatch (json : Value) (expected : CreateRefundRequest) : Except Error Bool := do
  if expected.provider ≠ "stripe" then return true
  let amount ← json.get "amount"
  if amount.isInt64 = false then return true
  if (← amount.asInt64) ≠ expected.amount then return true
  if (← textEquals (← json.get "currency") expected.currency) = false then return true
  if (← textEquals (← json.get "payment_intent") expected.providerPaymentId) = false then
    return true
  let metadata ← json.get "metadata"
  if metadata.isObject = false then return true
  if (← textEquals (← metadata.get "local_refund_id") expected.refundId) = false then return true
  return !(← textEquals (← metadata.get "order_id") expected.orderId)

def classifyRefund (refund : ProviderRefund) : ProviderRefund :=
  if refund.providerStatus = "succeeded" then
    { refund with mappedState := .succeeded, terminal := true }
  else if refund.providerStatus = "failed" ∨ refund.providerStatus = "canceled" then
    { refund with
      mappedState := .failed
      terminal := true
      failureCode := some "PROVIDER_REFUND_FAILED" }
  else if refund.providerStatus = "requires_action" then
    { refund with mappedState := .actionRequired }
  else refund

def mapRefund (json : Value) (expected : CreateRefundRequest) :
    Except Error (ProviderResult ProviderRefund) := do
  if ← invalidRefund json then return refundError "STRIPE_INVALID_REFUND"
  if ← refundMismatch json expected then return refundError "STRIPE_REFUND_MISMATCH"
  let refund : ProviderRefund :=
    { provider := "stripe"
      providerRefundId := ← (← json.get "id").asString
      providerStatus := ← (← json.get "status").asString
      providerPaymentId := expected.providerPaymentId
      localRefundId := expected.refundId
      orderId := expected.orderId
      currency := expected.currency
      amount := expected.amount }
  return { outcome := .success, value := some (classifyRefund refund) }

structure RefundScan where
  pages : ℕ := 0
  cursor : String := ""
  cursors : List String := []
  found : Option ProviderRefund := none
  deriving DecidableEq, Repr

/-- What the call waits for: a page of the list, or the answer to the creating POST. -/
inductive RefundStage where
  | page (scan : RefundScan)
  | creation
  deriving DecidableEq, Repr

abbrev RefundReply := Reply RefundStage ProviderRequest (ProviderResult ProviderRefund)

abbrev RefundCall :=
  Call RefundStage ProviderRequest ProviderResponse (ProviderResult ProviderRefund) Error

section Requests

variable (urlEncode : String → String)

def form (values : List (String × String)) : String :=
  "&".intercalate (values.map fun entry => urlEncode entry.1 ++ "=" ++ urlEncode entry.2)

variable (input : CreateRefundRequest)

def listRequest (scan : RefundScan) : ProviderRequest where
  method := .get
  path := "/v1/refunds?payment_intent=" ++ urlEncode input.providerPaymentId ++ "&limit=100" ++
    (if scan.cursor = "" then "" else "&starting_after=" ++ urlEncode scan.cursor)

def createRequest : ProviderRequest where
  method := .post
  path := "/v1/refunds"
  body := form urlEncode [("payment_intent", input.providerPaymentId),
    ("amount", toString input.amount),
    ("metadata[local_refund_id]", input.refundId),
    ("metadata[order_id]", input.orderId)]
  idempotencyKey := some input.refundId

def scanRefunds (scan : RefundScan) : RefundReply :=
  .send (.page { scan with pages := scan.pages + 1 }) (listRequest urlEncode input scan)

/-- The loop over a page; a result ends the call. -/
def scanCandidates (found : Option ProviderRefund) :
    List Value → Except Error (Except (ProviderResult ProviderRefund) (Option ProviderRefund))
  | [] => .ok (.ok found)
  | candidate :: rest => do
      if candidate.isObject = false then return .error (refundError "STRIPE_INVALID_JSON")
      let metadata ← candidate.get "metadata"
      if metadata.isObject = false then return .error (refundError "STRIPE_INVALID_JSON")
      if ← textEquals (← metadata.get "local_refund_id") input.refundId then
        if found.isSome = true then
          return .error (refundError "STRIPE_MULTIPLE_REFUND_CONFLICT")
        let mapped ← mapRefund candidate input
        match mapped.value with
        | none => return .error mapped
        | some refund => scanCandidates (some refund) rest
      else scanCandidates found rest

def nextPage (scan : RefundScan) (data : List Value) : Except Error RefundReply :=
  if 10 ≤ scan.pages then .ok (.complete (refundError "STRIPE_REFUND_PAGINATION"))
  else
    match data.getLast? with
    | none => .ok (.complete (refundError "STRIPE_REFUND_PAGINATION"))
    | some last => do
        let id ← last.get "id"
        if id.isString = false then return .complete (refundError "STRIPE_REFUND_PAGINATION")
        let cursor ← id.asString
        if startsWith cursor "re_" = false ∨ cursor ∈ scan.cursors then
          return .complete (refundError "STRIPE_REFUND_PAGINATION")
        return scanRefunds urlEncode input
          { scan with cursor := cursor, cursors := cursor :: scan.cursors }

def endOfList (scan : RefundScan) : RefundReply :=
  match scan.found with
  | some refund => .complete { outcome := .success, value := some refund }
  | none => .send .creation (createRequest urlEncode input)

def inspectPage (scan : RefundScan) (json : Value) : Except Error RefundReply := do
  if json.isObject = false then return .complete (refundError "STRIPE_INVALID_JSON")
  let data ← json.get "data"
  if data.isArray = false then return .complete (refundError "STRIPE_INVALID_JSON")
  let hasMore ← json.get "has_more"
  if hasMore.isBool = false then return .complete (refundError "STRIPE_INVALID_JSON")
  if 100 < data.elements.length then return .complete (refundError "STRIPE_INVALID_JSON")
  match ← scanCandidates input scan.found data.elements with
  | .error result => return .complete result
  | .ok found =>
      if ← hasMore.asBool then nextPage urlEncode input { scan with found := found } data.elements
      else return endOfList urlEncode input { scan with found := found }

def onResponse : RefundStage → ProviderResponse → Except Error RefundReply
  | .page scan, response => do
      match ← answered response with
      | .failure _ error => return .complete (refundError error)
      | .success json => inspectPage urlEncode input scan json
  | .creation, response => do
      match ← answered response with
      | .failure _ error => return .complete (refundError error)
      | .success json => return .complete (← mapRefund json input)

/-- The call after the responses of the provider so far. -/
def createOrRecoverRefund (responses : List ProviderResponse) : RefundCall :=
  (begin (scanRefunds urlEncode input {}) : RefundCall).run (onResponse urlEncode input) responses

end Requests

section Totality

variable {json : Value}

theorem textOrEmpty_ok (value : Value) : ∃ text, textOrEmpty value = .ok text := by
  unfold textOrEmpty
  split
  · rename_i h
    obtain ⟨s, -, hs⟩ := Value.asString_of_isString h
    exact ⟨s, hs⟩
  · exact ⟨"", rfl⟩

theorem safeStripeError_ok (json : Value) : ∃ error, safeStripeError json = .ok error := by
  unfold safeStripeError
  cases hobject : json.isObject with
  | false => exact ⟨_, rfl⟩
  | true =>
      rw [Value.get_eq_field hobject]
      cases herror : (json.field "error").isObject with
      | false => exact ⟨"STRIPE_UNKNOWN_ERROR", by simp [herror, pure, Except.pure]⟩
      | true =>
          obtain ⟨code, hcode⟩ := textOrEmpty_ok ((json.field "error").field "code")
          obtain ⟨type, htype⟩ := textOrEmpty_ok ((json.field "error").field "type")
          simp only [Bool.true_eq_false, if_false, ok_bind, herror, Value.get_eq_field herror,
            hcode, htype]
          split_ifs <;> exact ⟨_, rfl⟩

theorem bodyError_ok (json : Option Value) : ∃ error, bodyError json = .ok error := by
  cases json with
  | none => exact ⟨_, rfl⟩
  | some body => exact safeStripeError_ok body

/-- The JSON body of a 2xx response. -/
def jsonBody : ProviderResponse → Option Value
  | .received code _ json => if code < 200 ∨ 300 ≤ code then none else json
  | .unreachable => none

theorem answered_eq (response : ProviderResponse) :
    (∃ json, jsonBody response = some json ∧ answered response = .ok (.success json)) ∨
      (jsonBody response = none ∧ ∃ retryable error,
        answered response = .ok (.failure retryable error)) := by
  cases response with
  | unreachable => exact Or.inr ⟨rfl, true, _, rfl⟩
  | received code shouldRetry json =>
      unfold answered jsonBody
      by_cases hcode : code < 200 ∨ 300 ≤ code
      · obtain ⟨error, herror⟩ := bodyError_ok json
        simp only [if_pos hcode, herror, ok_bind]
        exact Or.inr ⟨trivial, _, _, rfl⟩
      · simp only [if_neg hcode]
        cases json with
        | none => exact Or.inr ⟨rfl, true, _, rfl⟩
        | some body => exact Or.inl ⟨body, rfl, rfl⟩

theorem textEquals_eq (value : Value) (expected : String) :
    textEquals value expected = .ok (value.isText expected) := by
  cases value <;> rfl

end Totality

/-- The JSON is the refund that the request asks for. -/
structure IsRefund (json : Value) (expected : CreateRefundRequest) : Prop where
  object : json.field "object" = .string "refund"
  amount : (json.field "amount").IsNumber expected.amount
  currency : json.field "currency" = .string expected.currency
  payment : json.field "payment_intent" = .string expected.providerPaymentId
  localRefund : (json.field "metadata").field "local_refund_id" = .string expected.refundId
  order : (json.field "metadata").field "order_id" = .string expected.orderId

/-- The refund is the one in the JSON, with everything else as requested. -/
structure Reports (refund : ProviderRefund) (json : Value) (expected : CreateRefundRequest) :
    Prop where
  isRefund : IsRefund json expected
  id : json.field "id" = .string refund.providerRefundId
  status : json.field "status" = .string refund.providerStatus
  payment : refund.providerPaymentId = expected.providerPaymentId
  localRefund : refund.localRefundId = expected.refundId
  order : refund.orderId = expected.orderId
  amount : refund.amount = expected.amount
  currency : refund.currency = expected.currency

/-- The result is an error. -/
structure Failed (result : ProviderResult ProviderRefund) : Prop where
  outcome : result.outcome ≠ .success
  value : result.value = none

theorem failed_refundError (code : String) : Failed (refundError code) :=
  ⟨by simp [refundError], rfl⟩

theorem invalidRefund_eq (json : Value) : ∃ b, invalidRefund json = .ok b ∧ (b = false →
    json.isObject = true ∧ json.field "object" = .string "refund" ∧
      (json.field "id").isString = true ∧ (json.field "status").isString = true) := by
  unfold invalidRefund
  cases hobject : json.isObject with
  | false => exact ⟨true, rfl, by simp⟩
  | true =>
      simp only [Bool.true_eq_false, if_false, Value.get_eq_field hobject, ok_bind, textEquals_eq]
      cases hkind : (json.field "object").isText "refund" with
      | false => exact ⟨true, rfl, by simp⟩
      | true =>
          cases hid : (json.field "id").isString with
          | false => exact ⟨true, rfl, by simp⟩
          | true =>
              obtain ⟨id, -, hasString⟩ := Value.asString_of_isString hid
              simp only [Bool.true_eq_false, if_false, hasString, ok_bind]
              split_ifs with hprefix
              · exact ⟨true, rfl, by simp⟩
              · refine ⟨_, rfl, fun hstatus => ⟨trivial, Value.isText_iff.mp hkind, trivial, ?_⟩⟩
                simpa using hstatus

theorem refundMismatch_eq {json : Value} (expected : CreateRefundRequest)
    (hobject : json.isObject = true) : ∃ b, refundMismatch json expected = .ok b ∧
      (b = false → json.field "object" = .string "refund" → IsRefund json expected) := by
  unfold refundMismatch
  simp only [Value.get_eq_field hobject, ok_bind, textEquals_eq]
  by_cases hprovider : expected.provider ≠ "stripe"
  · exact ⟨true, by rw [if_pos hprovider]; rfl, by simp⟩
  rw [if_neg hprovider]
  cases hnumber : (json.field "amount").isInt64 with
  | false => exact ⟨true, rfl, by simp⟩
  | true =>
      obtain ⟨amount, hamount, hisNumber⟩ := Value.asInt64_of_isInt64 hnumber
      simp only [Bool.true_eq_false, if_false, hamount, ok_bind]
      cases hmetadata : (json.field "metadata").isObject with
      | false =>
          simp only [eq_self, if_true]
          split_ifs <;> exact ⟨true, rfl, by simp⟩
      | true =>
          simp only [Bool.true_eq_false, if_false, Value.get_eq_field hmetadata, ok_bind]
          split_ifs with hequal hcurrency hpayment hlocal
          · exact ⟨true, rfl, by simp⟩
          · exact ⟨true, rfl, by simp⟩
          · exact ⟨true, rfl, by simp⟩
          · exact ⟨true, rfl, by simp⟩
          · rw [not_not] at hequal
            refine ⟨_, rfl, fun horder hkind => ⟨hkind, hequal ▸ hisNumber, ?_, ?_, ?_, ?_⟩⟩
            · exact Value.isText_iff.mp (Bool.eq_true_of_not_eq_false hcurrency)
            · exact Value.isText_iff.mp (Bool.eq_true_of_not_eq_false hpayment)
            · exact Value.isText_iff.mp (Bool.eq_true_of_not_eq_false hlocal)
            · exact Value.isText_iff.mp (by simpa using horder)

@[simp] theorem classifyRefund_fields (refund : ProviderRefund) :
    (classifyRefund refund).providerRefundId = refund.providerRefundId ∧
    (classifyRefund refund).providerStatus = refund.providerStatus ∧
    (classifyRefund refund).providerPaymentId = refund.providerPaymentId ∧
    (classifyRefund refund).localRefundId = refund.localRefundId ∧
    (classifyRefund refund).orderId = refund.orderId ∧
    (classifyRefund refund).amount = refund.amount ∧
    (classifyRefund refund).currency = refund.currency := by
  unfold classifyRefund
  split_ifs <;> exact ⟨rfl, rfl, rfl, rfl, rfl, rfl, rfl⟩

/-- No JSON makes the mapping throw, and it succeeds on the requested refund only. -/
theorem mapRefund_eq (json : Value) (expected : CreateRefundRequest) :
    ∃ result, mapRefund json expected = .ok result ∧
      (Failed result ∨ ∃ refund, result = { outcome := .success, value := some refund } ∧
        Reports refund json expected) := by
  unfold mapRefund
  obtain ⟨invalid, hinvalid, hvalid⟩ := invalidRefund_eq json
  rw [hinvalid, ok_bind]
  cases invalid with
  | true => exact ⟨_, rfl, Or.inl (failed_refundError _)⟩
  | false =>
      obtain ⟨hobject, hkind, hid, hstatus⟩ := hvalid rfl
      obtain ⟨mismatch, hmismatch, hmatch⟩ := refundMismatch_eq expected hobject
      simp only [Bool.false_eq_true, if_false, hmismatch, ok_bind]
      cases mismatch with
      | true => exact ⟨_, rfl, Or.inl (failed_refundError _)⟩
      | false =>
          obtain ⟨id, hidText, hasId⟩ := Value.asString_of_isString hid
          obtain ⟨status, hstatusText, hasStatus⟩ := Value.asString_of_isString hstatus
          simp only [Bool.false_eq_true, if_false, Value.get_eq_field hobject, ok_bind, hasId,
            hasStatus]
          refine ⟨_, rfl, Or.inr ⟨_, rfl, ?_⟩⟩
          constructor
          · exact hmatch rfl hkind
          all_goals simp [hidText, hstatusText]

end StripePaymentProvider
end Ticketing
