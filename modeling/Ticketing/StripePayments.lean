import Ticketing.Library.JsonValue
import Ticketing.OrderLifecycle

/-!
# Payment intents as the provider reports them

`mapPayment` turns a 2xx answer into a provider payment under jsoncpp's rules: a
conversion that jsoncpp refuses throws. A terminal payment then becomes the
snapshot a payment callback is run with.
-/

namespace Ticketing

open JsonCpp

inductive ProviderTransportOutcome where
  | success | retryableError | permanentError
  deriving DecidableEq, Repr

inductive ProviderFailureClass where
  | transient | operational | identityConflict | definitiveReject
  deriving DecidableEq, Repr

inductive ProviderPaymentState where
  | processing | actionRequired | succeeded | failed
  deriving DecidableEq, Repr

structure ProviderPayment where
  provider : String
  providerPaymentId : String
  providerStatus : String
  mappedState : ProviderPaymentState := .processing
  clientSecret : Option String := none
  failureCode : Option String := none
  terminal : Bool := false
  deriving DecidableEq, Repr

structure ProviderResult (α : Type) where
  outcome : ProviderTransportOutcome
  value : Option α := none
  safeError : String := ""
  failureClass : ProviderFailureClass := .transient
  deriving DecidableEq, Repr

structure CreatePaymentRequest where
  attemptId : String
  orderId : String
  amount : ℤ
  currency : String
  deriving DecidableEq, Repr

namespace StripePaymentProvider

def jsonString (value : Value) (member : String) : Except Error (Option String) := do
  if ← value.isMember member then
    let found ← value.get member
    if found.isString then return some (← found.asString) else return none
  else return none

theorem jsonString_ok {json : Value} (h : json.isObject = true) (key : String) :
    ∃ found, jsonString json key = .ok found := by
  cases json with
  | object members =>
      unfold jsonString Value.isMember
      rw [ok_bind]
      split
      · rw [Value.get, ok_bind]
        cases (members.lookup key).getD .null <;>
          simp [Value.isString, Value.asString, pure, Except.pure]
      · exact ⟨none, rfl⟩
  | _ => cases h

/-- `true` when one of the identity members is not the expected one; the members are
read in order and the first difference ends the reading. -/
def paymentMismatch (json : Value) (expected : CreatePaymentRequest) : Except Error Bool := do
  if (← (← json.get "amount").asInt64) ≠ expected.amount then return true
  if (← (← json.get "currency").asString) ≠ expected.currency then return true
  let metadata ← json.get "metadata"
  if (← (← metadata.get "local_payment_attempt_id").asString) ≠ expected.attemptId then
    return true
  if (← (← (← json.get "metadata").get "order_id").asString) ≠ expected.orderId then return true
  return false

def invalidPayment (json : Value) : Except Error Bool := do
  if json.isObject = false then return true
  if (← (← json.get "object").asString) ≠ "payment_intent" then return true
  if (← json.get "id").isString = false then return true
  if (← json.get "status").isString = false then return true
  return false

/-- The status of an intent, with its last payment error, as the service understands it. -/
def classify (payment : ProviderPayment) (lastPaymentError : Value) :
    Except Error ProviderPayment := do
  let status := payment.providerStatus
  if status = "succeeded" then
    return { payment with mappedState := .succeeded, terminal := true }
  else if status = "canceled" then
    return { payment with mappedState := .failed, terminal := true }
  else if status = "requires_payment_method" ∧ lastPaymentError.isObject = true then
    let code ← jsonString lastPaymentError "code"
    return { payment with mappedState := .failed, terminal := true, failureCode := code }
  else if status = "requires_action" ∨ status = "requires_confirmation" ∨
      status = "requires_payment_method" then
    return { payment with mappedState := .actionRequired }
  else return { payment with mappedState := .processing }

def mapPayment (json : Value) (expected : CreatePaymentRequest) :
    Except Error (ProviderResult ProviderPayment) := do
  if ← invalidPayment json then
    return { outcome := .retryableError, safeError := "STRIPE_INVALID_PAYMENT" }
  if ← paymentMismatch json expected then
    return { outcome := .permanentError, safeError := "STRIPE_PAYMENT_MISMATCH" }
  let payment : ProviderPayment :=
    { provider := "stripe"
      providerPaymentId := ← (← json.get "id").asString
      providerStatus := ← (← json.get "status").asString
      clientSecret := ← jsonString json "client_secret" }
  let classified ← classify payment (← json.get "last_payment_error")
  return { outcome := .success, value := some classified }

/-- The completion of a `GET` checks the identifier before it maps the payment. -/
def retrieved (json : Value) (expected : CreatePaymentRequest) (providerPaymentId : String) :
    Except Error (ProviderResult ProviderPayment) := do
  if (← (← json.get "id").asString) ≠ providerPaymentId then
    return { outcome := .retryableError, safeError := "STRIPE_PAYMENT_ID_MISMATCH" }
  mapPayment json expected

end StripePaymentProvider

/-- The snapshot both services build from a terminal payment. -/
def terminalSnapshot (payment : ProviderPayment) (amount : ℤ) (leaseToken : String) :
    PaymentTerminalSnapshot where
  provider := payment.provider
  providerPaymentId := payment.providerPaymentId
  providerStatus := payment.providerStatus
  amount := amount
  succeeded := decide (payment.mappedState = .succeeded)
  failureReason := String.ofList
    ((payment.failureCode.getD "PROVIDER_PAYMENT_FAILED").toList.take 200)
  leaseToken := leaseToken

end Ticketing
