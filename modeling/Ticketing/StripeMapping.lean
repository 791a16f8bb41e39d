import Ticketing.RefundRecovery

/-!
# Which answers of the provider are mapped

Refund answers are tested before they are converted, so every JSON is mapped.
Payment answers are converted first: a member of a type that jsoncpp does not
convert throws out of the completion. The checks of a mapping are listed in the
order in which it reads them.
-/

namespace Ticketing

open JsonCpp AsyncCalls

structure RetrievePaymentRequest extends CreatePaymentRequest where
  providerPaymentId : String
  deriving DecidableEq, Repr

namespace StripePaymentProvider

abbrev ProviderCall (α : Type) :=
  Call Unit ProviderRequest ProviderResponse (ProviderResult α) Error

abbrev ProviderReply (α : Type) := Reply Unit ProviderRequest (ProviderResult α)

section Requests

variable (urlEncode : String → String)

def paymentFailure (retryable : Bool) (error : String) : ProviderResult ProviderPayment where
  outcome := if retryable = true then .retryableError else .permanentError
  safeError := error

def createPaymentRequest (input : CreatePaymentRequest) : ProviderRequest where
  method := .post
  path := "/v1/payment_intents"
  body := form urlEncode [("amount", toString input.amount), ("currency", input.currency),
    ("payment_method_types[]", "card"),
    ("metadata[local_payment_attempt_id]", input.attemptId),
    ("metadata[order_id]", input.orderId)]
  idempotencyKey := some input.attemptId

def onCreatedPayment (input : CreatePaymentRequest) (_ : Unit) (response : ProviderResponse) :
    Except Error (ProviderReply ProviderPayment) := do
  match ← answered response with
  | .failure retryable error => return .complete (paymentFailure retryable error)
  | .success json => return .complete (← mapPayment json input)

def createOrRecoverPayment (input : CreatePaymentRequest) (responses : List ProviderResponse) :
    ProviderCall ProviderPayment :=
  (start () (createPaymentRequest urlEncode input) : ProviderCall ProviderPayment).run
    (onCreatedPayment input) responses

def onRetrievedPayment (input : RetrievePaymentRequest) (_ : Unit) (response : ProviderResponse) :
    Except Error (ProviderReply ProviderPayment) := do
  match ← answered response with
  | .failure retryable error => return .complete (paymentFailure retryable error)
  | .success json =>
      return .complete (← retrieved json input.toCreatePaymentRequest input.providerPaymentId)

def retrievePayment (input : RetrievePaymentRequest) (responses : List ProviderResponse) :
    ProviderCall ProviderPayment :=
  (start () { method := .get, path := "/v1/payment_intents/" ++ urlEncode input.providerPaymentId } :
    ProviderCall ProviderPayment).run (onRetrievedPayment input) responses

def retrievedRefund (json : Value) (input : RetrieveRefundRequest) :
    Except Error (ProviderResult ProviderRefund) := do
  if json.isObject = false then return refundError "STRIPE_REFUND_ID_MISMATCH"
  if (← textEquals (← json.get "id") input.providerRefundId) = false then
    return refundError "STRIPE_REFUND_ID_MISMATCH"
  mapRefund json input.toCreateRefundRequest

def onRetrievedRefund (input : RetrieveRefundRequest) (_ : Unit) (response : ProviderResponse) :
    Except Error (ProviderReply ProviderRefund) := do
  match ← answered response with
  | .failure _ error => return .complete (refundError error)
  | .success json => return .complete (← retrievedRefund json input)

def retrieveRefund (input : RetrieveRefundRequest) (responses : List ProviderResponse) :
    ProviderCall ProviderRefund :=
  (start () { method := .get, path := "/v1/refunds/" ++ urlEncode input.providerRefundId } :
    ProviderCall ProviderRefund).run (onRetrievedRefund input) responses

end Requests

/-- A member that a mapping compares with the request: whether its type converts, whether the
converted value is the requested one, and whether the member has the type of the request. -/
structure MemberCheck where
  converts : Prop
  equal : Prop
  typed : Prop

/-- Every member up to the first one that differs has a type that converts. -/
def Convertible : List MemberCheck → Prop
  | [] => True
  | check :: rest => check.converts ∧ (check.equal → Convertible rest)

/-- The value is neither an array nor an object. -/
def Scalar (v : Value) : Prop := v.isArray = false ∧ v.isObject = false

/-- A member can be looked up in the value. -/
def Indexable (v : Value) : Prop := v.isObject = true ∨ v = .null

/-- The value converts to a 64-bit integer. -/
def IntegerLike : Value → Prop
  | .null => True
  | .bool _ => True
  | .int n => minInt64 ≤ n ∧ n ≤ maxInt64
  | .real q _ => (minInt64 : ℚ) ≤ q ∧ q ≤ (maxInt64 : ℚ)
  | _ => False

/-- The value is a number without a fraction. -/
def Whole : Value → Prop
  | .int _ => True
  | .real q _ => (Value.truncate q : ℚ) = q
  | _ => False

def textCheck (v : Value) (key expected : String) : MemberCheck where
  converts := Indexable v ∧ Scalar (v.field key)
  equal := Indexable v ∧ (v.field key).asString = .ok expected
  typed := (v.field key).isString = true

def stringCheck (v : Value) (key : String) : MemberCheck where
  converts := True
  equal := (v.field key).isString = true
  typed := (v.field key).isString = true

def amountCheck (json : Value) (amount : ℤ) : MemberCheck where
  converts := IntegerLike (json.field "amount")
  equal := (json.field "amount").asInt64 = .ok amount
  typed := Whole (json.field "amount")

def objectCheck (json : Value) : MemberCheck where
  converts := True
  equal := json.isObject = true
  typed := json.isObject = true

def formChecks (json : Value) : List MemberCheck :=
  [objectCheck json, textCheck json "object" "payment_intent", stringCheck json "id",
    stringCheck json "status"]

def identityChecks (json : Value) (expected : CreatePaymentRequest) : List MemberCheck :=
  [amountCheck json expected.amount, textCheck json "currency" expected.currency,
    textCheck (json.field "metadata") "local_payment_attempt_id" expected.attemptId,
    textCheck (json.field "metadata") "order_id" expected.orderId]

/-- The members that `mapPayment` reads, in its order. -/
def paymentChecks (json : Value) (expected : CreatePaymentRequest) : List MemberCheck :=
  formChecks json ++ identityChecks json expected

def retrievalChecks (json : Value) (input : RetrievePaymentRequest) : List MemberCheck :=
  textCheck json "id" input.providerPaymentId :: paymentChecks json input.toCreatePaymentRequest

/-- No member is read that does not convert, and members that are all equal to the request have
its types. -/
def Mappable (checks : List MemberCheck) : Prop :=
  Convertible checks ∧ ((∀ check ∈ checks, check.equal) → ∀ check ∈ checks, check.typed)

/-- The JSON is the payment intent that the request asks for. -/
structure IsPayment (json : Value) (expected : CreatePaymentRequest) : Prop where
  object : json.field "object" = .string "payment_intent"
  amount : (json.field "amount").IsNumber expected.amount
  currency : json.field "currency" = .string expected.currency
  attempt : (json.field "metadata").field "local_payment_attempt_id" = .string expected.attemptId
  order : (json.field "metadata").field "order_id" = .string expected.orderId

/-- The call has ended in one completion and no exception, with a success on the requested
object only. -/
structure Mapped {σ α : Type} (Identity : Prop)
    (call : Call σ ProviderRequest ProviderResponse (ProviderResult α) Error) : Prop where
  unescaped : call.escaped = []
  once : call.completions.length = 1
  identity : ∀ result ∈ call.completions, result.outcome = .success → Identity

section Checks

theorem asString_eq_ok (v : Value) : (∃ s, v.asString = .ok s) ↔ Scalar v := by
  cases v <;> simp [Value.asString, Scalar, Value.isArray, Value.isObject]

theorem asInt64_eq_ok (v : Value) : (∃ n, v.asInt64 = .ok n) ↔ IntegerLike v := by
  cases v <;> simp only [Value.asInt64, IntegerLike] <;> try simp
  · split_ifs with h <;> simp [h]
  · split_ifs with h <;> simp [h]

theorem get_eq_ok (v : Value) (key : String) : (∃ found, v.get key = .ok found) ↔ Indexable v := by
  cases v <;> simp [Value.get, Indexable, Value.isObject]

theorem get_of_indexable {v : Value} (h : Indexable v) (key : String) :
    v.get key = .ok (v.field key) := by
  rcases h with hobject | rfl
  · exact Value.get_eq_field hobject key
  · rfl

theorem readText_eq_ok (v : Value) (key expected : String) :
    ((∃ s, (v.get key >>= Value.asString) = .ok s) ↔ (textCheck v key expected).converts) ∧
      ((v.get key >>= Value.asString) = .ok expected ↔ (textCheck v key expected).equal) := by
  by_cases hindexable : Indexable v
  · rw [get_of_indexable hindexable, ok_bind]
    simp only [textCheck, hindexable, true_and, asString_eq_ok]
  · have hnone : ∀ s, (v.get key >>= Value.asString) ≠ .ok s := by
      intro s hs
      obtain ⟨found, hfound, -⟩ := bind_eq_ok.mp hs
      exact hindexable ((get_eq_ok v key).mp ⟨found, hfound⟩)
    simp only [textCheck, hindexable, false_and, iff_false]
    exact ⟨fun ⟨s, hs⟩ => hnone s hs, hnone expected⟩

theorem convertible_append (xs ys : List MemberCheck) :
    Convertible (xs ++ ys) ↔ Convertible xs ∧ ((∀ check ∈ xs, check.equal) → Convertible ys) := by
  induction xs with
  | nil => simp [Convertible]
  | cons check xs ih =>
      simp only [List.cons_append, Convertible, ih, List.forall_mem_cons]
      tauto

/-- A computation that ends on the first member that differs. -/
structure Decides (m : Except Error Bool) (checks : List MemberCheck) : Prop where
  throws : (∃ b, m = .ok b) ↔ Convertible checks
  agrees : m = .ok false ↔ ∀ check ∈ checks, check.equal

theorem Decides.nil : Decides (.ok false) [] :=
  ⟨by simp [Convertible], by simp⟩

/-- One more member read by an accessor that may throw. -/
theorem Decides.read {β : Type} [DecidableEq β] {x : Except Error β} {expected : β}
    {rest : Except Error Bool} {check : MemberCheck} {checks : List MemberCheck}
    (hconverts : (∃ a, x = .ok a) ↔ check.converts) (hequal : x = .ok expected ↔ check.equal)
    (hrest : check.equal → Decides rest checks) :
    Decides (x >>= fun a => if a ≠ expected then .ok true else rest) (check :: checks) := by
  constructor
  · rw [Convertible, ← hconverts]
    constructor
    · rintro ⟨b, hb⟩
      obtain ⟨a, ha, hb⟩ := bind_eq_ok.mp hb
      refine ⟨⟨a, ha⟩, fun hcheck => (hrest hcheck).throws.mp ⟨b, ?_⟩⟩
      rw [hequal.mpr hcheck] at ha
      cases ha
      simpa using hb
    · rintro ⟨⟨a, rfl⟩, hconvertible⟩
      rw [ok_bind]
      split_ifs with hne
      · exact ⟨true, rfl⟩
      · rw [not_not] at hne
        subst hne
        have hcheck := hequal.mp rfl
        exact (hrest hcheck).throws.mpr (hconvertible hcheck)
  · rw [List.forall_mem_cons, ← hequal]
    constructor
    · intro hb
      obtain ⟨a, ha, hb⟩ := bind_eq_ok.mp hb
      by_cases hne : a = expected
      · subst hne
        rw [if_neg (not_not.mpr rfl)] at hb
        exact ⟨ha, (hrest (hequal.mp ha)).agrees.mp hb⟩
      · rw [if_pos hne] at hb
        cases hb
    · rintro ⟨rfl, hall⟩
      rw [ok_bind, if_neg (not_not.mpr rfl)]
      exact (hrest (hequal.mp rfl)).agrees.mpr hall

/-- One more type test. -/
theorem Decides.test {b : Bool} {rest : Except Error Bool} {check : MemberCheck}
    {checks : List MemberCheck} (hconverts : check.converts) (hequal : b = true ↔ check.equal)
    (hrest : check.equal → Decides rest checks) :
    Decides (if b = false then .ok true else rest) (check :: checks) := by
  have hread := @Decides.read _ _ (.ok b) true rest check checks
      ⟨fun _ => hconverts, fun _ => ⟨b, rfl⟩⟩ (by simp [hequal]) hrest
  rw [ok_bind] at hread
  simpa using hread

theorem readField_eq_ok {json : Value} (hobject : json.isObject = true) (key expected : String) :
    ((∃ s, (json.field key).asString = .ok s) ↔ (textCheck json key expected).converts) ∧
      ((json.field key).asString = .ok expected ↔ (textCheck json key expected).equal) := by
  have hread := readText_eq_ok json key expected
  rwa [Value.get_eq_field hobject, ok_bind] at hread

theorem invalidPayment_decides (json : Value) : Decides (invalidPayment json) (formChecks json) := by
  unfold invalidPayment formChecks
  refine Decides.test trivial Iff.rfl fun hobject => ?_
  simp only [Value.get_eq_field hobject, ok_bind]
  obtain ⟨hconverts, hequal⟩ := readField_eq_ok hobject "object" "payment_intent"
  refine Decides.read hconverts hequal fun _ => ?_
  refine Decides.test trivial Iff.rfl fun _ => ?_
  exact Decides.test trivial Iff.rfl fun _ => Decides.nil

theorem paymentMismatch_decides {json : Value} (hobject : json.isObject = true)
    (expected : CreatePaymentRequest) :
    Decides (paymentMismatch json expected) (identityChecks json expected) := by
  unfold paymentMismatch identityChecks
  simp only [Value.get_eq_field hobject, ok_bind]
  refine Decides.read (asInt64_eq_ok _) Iff.rfl fun _ => ?_
  obtain ⟨hconverts, hequal⟩ := readField_eq_ok hobject "currency" expected.currency
  refine Decides.read hconverts hequal fun _ => ?_
  obtain ⟨hattempt, hattemptEqual⟩ := readText_eq_ok (json.field "metadata")
    "local_payment_attempt_id" expected.attemptId
  obtain ⟨horder, horderEqual⟩ := readText_eq_ok (json.field "metadata") "order_id" expected.orderId
  simp only [← bind_assoc]
  refine Decides.read hattempt hattemptEqual fun _ => ?_
  exact Decides.read horder horderEqual fun _ => Decides.nil

theorem classify_ok (payment : ProviderPayment) (error : Value) :
    ∃ classified, classify payment error = .ok classified := by
  unfold classify
  simp only
  split_ifs with _ _ hdeclined
  · exact ⟨_, rfl⟩
  · exact ⟨_, rfl⟩
  · obtain ⟨code, hcode⟩ := jsonString_ok hdeclined.2 "code"
    rw [hcode]
    exact ⟨_, rfl⟩
  · exact ⟨_, rfl⟩
  · exact ⟨_, rfl⟩

/-- The mapping returns when no member throws, and succeeds when all members are equal. -/
structure Maps (m : Except Error (ProviderResult ProviderPayment)) (checks : List MemberCheck) :
    Prop where
  returns : (∃ result, m = .ok result) ↔ Convertible checks
  succeeds : (∃ result, m = .ok result ∧ result.outcome = .success) ↔
    ∀ check ∈ checks, check.equal

theorem Decides.maps {m : Except Error Bool} {checks later : List MemberCheck}
    {refusal : ProviderResult ProviderPayment} (hrefusal : refusal.outcome ≠ .success)
    {next : Except Error (ProviderResult ProviderPayment)} (h : Decides m checks)
    (hnext : (∀ check ∈ checks, check.equal) → Maps next later) :
    Maps (m >>= fun b => if b = true then .ok refusal else next) (checks ++ later) := by
  constructor
  · rw [convertible_append, ← h.throws]
    constructor
    · rintro ⟨result, hresult⟩
      obtain ⟨b, hb, hresult⟩ := bind_eq_ok.mp hresult
      refine ⟨⟨b, hb⟩, fun hall => (hnext hall).returns.mp ⟨result, ?_⟩⟩
      rw [h.agrees.mpr hall] at hb
      cases hb
      simpa using hresult
    · rintro ⟨⟨b, rfl⟩, hconvertible⟩
      rw [ok_bind]
      cases b with
      | true => exact ⟨refusal, rfl⟩
      | false =>
          have hall := h.agrees.mp rfl
          exact (hnext hall).returns.mpr (hconvertible hall)
  · rw [List.forall_mem_append, ← h.agrees]
    constructor
    · rintro ⟨result, hresult, hsuccess⟩
      obtain ⟨b, hb, hresult⟩ := bind_eq_ok.mp hresult
      cases b with
      | true =>
          cases hresult
          exact absurd hsuccess hrefusal
      | false => exact ⟨hb, (hnext (h.agrees.mp hb)).succeeds.mp ⟨result, hresult, hsuccess⟩⟩
    · rintro ⟨rfl, hlater⟩
      exact (hnext (h.agrees.mp rfl)).succeeds.mpr hlater

theorem mapPayment_maps (json : Value) (expected : CreatePaymentRequest) :
    Maps (mapPayment json expected) (paymentChecks json expected) := by
  unfold mapPayment paymentChecks
  refine (invalidPayment_decides json).maps (by simp) fun hform => ?_
  have hobject : json.isObject = true := hform (objectCheck json) (by simp [formChecks])
  have hid : (json.field "id").isString = true := hform (stringCheck json "id") (by simp [formChecks])
  have hstatus : (json.field "status").isString = true :=
    hform (stringCheck json "status") (by simp [formChecks])
  rw [← List.append_nil (identityChecks json expected)]
  refine (paymentMismatch_decides hobject expected).maps (by simp) fun _ => ?_
  -- all that is left to read is text or an object
  obtain ⟨id, -, hidText⟩ := Value.asString_of_isString hid
  obtain ⟨status, -, hstatusText⟩ := Value.asString_of_isString hstatus
  obtain ⟨secret, hsecret⟩ := jsonString_ok hobject "client_secret"
  simp only [Value.get_eq_field hobject, ok_bind, hidText, hstatusText, hsecret]
  obtain ⟨classified, hclassified⟩ := classify_ok
    ⟨"stripe", id, status, .processing, secret, none, false⟩ (json.field "last_payment_error")
  rw [hclassified]
  exact ⟨by simp [Convertible, pure, Except.pure], by simp [pure, Except.pure]⟩

theorem retrieved_maps (json : Value) (input : RetrievePaymentRequest) :
    Maps (retrieved json input.toCreatePaymentRequest input.providerPaymentId)
      (retrievalChecks json input) := by
  obtain ⟨hconverts, hequal⟩ := readText_eq_ok json "id" input.providerPaymentId
  have hdecides : Decides ((json.get "id" >>= Value.asString) >>= fun id =>
      if id ≠ input.providerPaymentId then .ok true else .ok false)
      [textCheck json "id" input.providerPaymentId] :=
    Decides.read hconverts hequal fun _ => Decides.nil
  have hmaps := @Decides.maps _ _ _
    { outcome := .retryableError, safeError := "STRIPE_PAYMENT_ID_MISMATCH" }
    (by simp) _ hdecides fun _ => mapPayment_maps json input.toCreatePaymentRequest
  have heq : retrieved json input.toCreatePaymentRequest input.providerPaymentId =
      (((json.get "id" >>= Value.asString) >>= fun id =>
        if id ≠ input.providerPaymentId then .ok true else .ok false) >>= fun b =>
          if b = true then
            .ok { outcome := .retryableError, safeError := "STRIPE_PAYMENT_ID_MISMATCH" }
          else mapPayment json input.toCreatePaymentRequest) := by
    unfold retrieved
    cases json.get "id" with
    | error e => rfl
    | ok v =>
        simp only [ok_bind]
        cases v.asString with
        | error e => rfl
        | ok id =>
            simp only [ok_bind]
            split_ifs <;> rfl
  rw [heq]
  exact hmaps

end Checks

section Identity

theorem textCheck_typed {v : Value} {key expected : String} (h : (textCheck v key expected).equal) :
    (textCheck v key expected).typed ↔ v.field key = .string expected := by
  simp only [textCheck] at h ⊢
  constructor
  · intro htyped
    obtain ⟨s, hs, hasString⟩ := Value.asString_of_isString htyped
    rw [hasString] at h
    cases h.2
    exact hs
  · intro hs
    rw [hs]
    rfl

theorem amountCheck_typed {json : Value} {amount : ℤ} (h : (amountCheck json amount).equal) :
    (amountCheck json amount).typed ↔ (json.field "amount").IsNumber amount := by
  simp only [amountCheck] at h ⊢
  cases hv : json.field "amount" with
  | int n =>
      rw [hv] at h
      simp only [Value.asInt64] at h
      split_ifs at h
      cases h
      simp [Whole, Value.IsNumber]
  | real q text =>
      rw [hv] at h
      simp only [Value.asInt64] at h
      split_ifs at h
      cases h
      simp only [Whole, Value.IsNumber]
      exact eq_comm
  | _ => simp [Whole, Value.IsNumber]

theorem isPayment_iff {json : Value} {expected : CreatePaymentRequest}
    (h : ∀ check ∈ paymentChecks json expected, check.equal) :
    IsPayment json expected ↔ ∀ check ∈ paymentChecks json expected, check.typed := by
  simp only [paymentChecks, formChecks, identityChecks, List.cons_append, List.nil_append,
    List.forall_mem_cons, List.not_mem_nil, false_imp_iff, implies_true, and_true] at h ⊢
  obtain ⟨hobject, hkind, hid, hstatus, hamount, hcurrency, hattempt, horder⟩ := h
  rw [textCheck_typed hkind, amountCheck_typed hamount, textCheck_typed hcurrency,
    textCheck_typed hattempt, textCheck_typed horder]
  constructor
  · rintro ⟨kind, amount, currency, attempt, order⟩
    exact ⟨hobject, kind, hid, hstatus, amount, currency, attempt, order⟩
  · rintro ⟨-, kind, -, -, amount, currency, attempt, order⟩
    exact ⟨kind, amount, currency, attempt, order⟩

end Identity

section Calls

variable {α : Type} {Identity : Prop}

/-- A completion is the mapping itself, or what the mapping throws. -/
theorem run_single {m : Except Error (ProviderResult α)} {request : ProviderRequest}
    {handler : Unit → ProviderResponse → Except Error (ProviderReply α)}
    {response : ProviderResponse}
    (h : handler () response = m >>= fun result => pure (.complete result)) :
    (∀ result, m = .ok result → ((start () request : ProviderCall α).run handler [response]).escaped = [] ∧
      ((start () request : ProviderCall α).run handler [response]).completions = [result]) ∧
    (∀ error, m = .error error →
      ((start () request : ProviderCall α).run handler [response]).escaped = [error] ∧
      ((start () request : ProviderCall α).run handler [response]).completions = []) := by
  constructor
  · rintro result rfl
    rw [Call.run_cons, Call.receive_complete rfl h]
    exact ⟨rfl, rfl⟩
  · rintro error rfl
    rw [Call.run_cons, Call.receive_error rfl h]
    exact ⟨rfl, rfl⟩

theorem mapped_of_ok {m : Except Error (ProviderResult α)} {request : ProviderRequest}
    {handler : Unit → ProviderResponse → Except Error (ProviderReply α)}
    {response : ProviderResponse} {result : ProviderResult α}
    (h : handler () response = m >>= fun result => pure (.complete result))
    (hresult : m = .ok result) :
    Mapped Identity ((start () request : ProviderCall α).run handler [response]) ↔
      (result.outcome = .success → Identity) := by
  obtain ⟨hescaped, hcompletions⟩ := (@run_single _ _ request _ _ h).1 result hresult
  constructor
  · exact fun hmapped => hmapped.identity result (by simp [hcompletions])
  · intro hidentity
    refine ⟨hescaped, by simp [hcompletions], fun other hother => ?_⟩
    rw [hcompletions, List.mem_singleton] at hother
    exact hother ▸ hidentity

/-- A payment answer is mapped exactly when its checks say so. -/
theorem mapped_iff {m : Except Error (ProviderResult ProviderPayment)} {request : ProviderRequest}
    {handler : Unit → ProviderResponse → Except Error (ProviderReply ProviderPayment)}
    {response : ProviderResponse} {checks : List MemberCheck}
    (h : handler () response = m >>= fun result => pure (.complete result)) (hmaps : Maps m checks)
    (hidentity : (∀ check ∈ checks, check.equal) →
      (Identity ↔ ∀ check ∈ checks, check.typed)) :
    Mapped Identity ((start () request : ProviderCall ProviderPayment).run handler [response]) ↔
      Mappable checks := by
  cases hm : m with
  | error error =>
      obtain ⟨-, hcompletions⟩ := (@run_single _ _ request _ _ h).2 error hm
      have hthrows : ¬ Convertible checks := by
        rw [← hmaps.returns, hm]
        simp
      constructor
      · intro hmapped
        have honce := hmapped.once
        rw [hcompletions] at honce
        cases honce
      · exact fun hmappable => absurd hmappable.1 hthrows
  | ok result =>
      rw [mapped_of_ok h hm]
      have hconvertible : Convertible checks := hmaps.returns.mp ⟨result, hm⟩
      have hsuccess : result.outcome = .success ↔ ∀ check ∈ checks, check.equal := by
        rw [← hmaps.succeeds, hm]
        constructor
        · exact fun hresult => ⟨result, rfl, hresult⟩
        · rintro ⟨found, hfound, hresult⟩
          cases hfound
          exact hresult
      rw [hsuccess]
      constructor
      · exact fun himp => ⟨hconvertible, fun hall => (hidentity hall).mp (himp hall)⟩
      · exact fun hmappable hall => (hidentity hall).mpr (hmappable.2 hall)

theorem answered_of_body {response : ProviderResponse} {json : Value}
    (h : jsonBody response = some json) : answered response = .ok (.success json) := by
  rcases answered_eq response with ⟨found, hfound, hanswered⟩ | ⟨hnone, -⟩
  · rw [h] at hfound
    cases hfound
    exact hanswered
  · rw [h] at hnone
    cases hnone

theorem retrievedRefund_eq (json : Value) (input : RetrieveRefundRequest) :
    ∃ result, retrievedRefund json input = .ok result ∧ (result.outcome = .success →
      json.field "id" = .string input.providerRefundId ∧
        IsRefund json input.toCreateRefundRequest) := by
  unfold retrievedRefund
  cases hobject : json.isObject with
  | false => exact ⟨_, rfl, fun h => absurd h (failed_refundError _).outcome⟩
  | true =>
      simp only [Bool.true_eq_false, if_false, Value.get_eq_field hobject, ok_bind, textEquals_eq]
      split_ifs with hid
      · exact ⟨_, rfl, fun h => absurd h (failed_refundError _).outcome⟩
      · obtain ⟨result, hresult, hcases⟩ := mapRefund_eq json input.toCreateRefundRequest
        refine ⟨result, hresult, fun hsuccess => ?_⟩
        rcases hcases with hfailed | ⟨refund, -, hreports⟩
        · exact absurd hsuccess hfailed.outcome
        · exact ⟨Value.isText_iff.mp (Bool.eq_true_of_not_eq_false hid), hreports.isRefund⟩

variable (urlEncode : String → String)

/-- Refund answers are always mapped. A payment answer is mapped exactly when no member is read
that does not convert and members that all equal the request have its types. -/
theorem responses_mapped_iff (response : ProviderResponse) (json : Value)
    (payment : CreatePaymentRequest) (retrieval : RetrievePaymentRequest)
    (refund : CreateRefundRequest) (refundRetrieval : RetrieveRefundRequest)
    (hbody : jsonBody response = some json) :
    (Mapped (IsPayment json payment) (createOrRecoverPayment urlEncode payment [response]) ↔
      Mappable (paymentChecks json payment)) ∧
    (Mapped (json.field "id" = .string retrieval.providerPaymentId ∧
        IsPayment json retrieval.toCreatePaymentRequest)
        (retrievePayment urlEncode retrieval [response]) ↔
      Mappable (retrievalChecks json retrieval)) ∧
    Mapped (json.field "id" = .string refundRetrieval.providerRefundId ∧
        IsRefund json refundRetrieval.toCreateRefundRequest)
      (retrieveRefund urlEncode refundRetrieval [response]) ∧
    ∀ responses, 11 ≤ responses.length →
      Mapped (∃ found, Seen (createOrRecoverRefund urlEncode refund responses) found ∧
          IsRefund found refund)
        (createOrRecoverRefund urlEncode refund responses) := by
  have hanswered := answered_of_body hbody
  refine ⟨?_, ?_, ?_, ?_⟩
  · refine mapped_iff (m := mapPayment json payment) ?_ (mapPayment_maps json payment) isPayment_iff
    simp only [onCreatedPayment, hanswered, ok_bind]
  · refine mapped_iff ?_ (retrieved_maps json retrieval) fun hall => ?_
    · simp only [onRetrievedPayment, hanswered, ok_bind]
    · rw [retrievalChecks, List.forall_mem_cons] at hall ⊢
      rw [isPayment_iff hall.2, textCheck_typed hall.1]
  · obtain ⟨result, hresult, hidentity⟩ := retrievedRefund_eq json refundRetrieval
    refine (mapped_of_ok (m := retrievedRefund json refundRetrieval) ?_ hresult).mpr hidentity
    simp only [onRetrievedRefund, hanswered, ok_bind]
  · intro responses hlength
    have hrecovers :=
      recovers_of_stage (@createOrRecoverRefund_stage refund urlEncode responses)
    refine ⟨hrecovers.unescaped, ?_, fun result hresult hsuccess => ?_⟩
    · rw [hrecovers.once, createOrRecoverRefund_ends urlEncode hlength]
      rfl
    · obtain ⟨-, found, value, hseen, -, hreports⟩ := hrecovers.succeeds result hresult hsuccess
      exact ⟨found, hseen, hreports.isRefund⟩

end Calls

def singlePayment : CreatePaymentRequest where
  attemptId := "PAY-1"
  orderId := "TKT-1"
  amount := 500
  currency := "usd"

/-- The payment intent of the request, but for its amount. -/
def intentOf (amount : Value) : Value :=
  .object [("object", .string "payment_intent"), ("id", .string "pi_1"),
    ("status", .string "succeeded"), ("amount", amount), ("currency", .string "usd"),
    ("metadata", .object [("local_payment_attempt_id", .string "PAY-1"),
      ("order_id", .string "TKT-1")])]

theorem responses_mapped_intent :
    (Mapped (IsPayment (intentOf (.int 500)) singlePayment)
        (createOrRecoverPayment id singlePayment [.received 200 false (some (intentOf (.int 500)))]) ↔
      Mappable (paymentChecks (intentOf (.int 500)) singlePayment)) ∧
    (Mapped ((intentOf (.int 500)).field "id" = .string "pi_1" ∧
        IsPayment (intentOf (.int 500)) singlePayment)
        (retrievePayment id ⟨singlePayment, "pi_1"⟩
          [.received 200 false (some (intentOf (.int 500)))]) ↔
      Mappable (retrievalChecks (intentOf (.int 500)) ⟨singlePayment, "pi_1"⟩)) ∧
    Mapped ((intentOf (.int 500)).field "id" = .string "re_1" ∧
        IsRefund (intentOf (.int 500)) singleRefund)
      (retrieveRefund id ⟨singleRefund, "re_1"⟩
        [.received 200 false (some (intentOf (.int 500)))]) ∧
    ∀ responses, 11 ≤ responses.length →
      Mapped (∃ found, Seen (createOrRecoverRefund id singleRefund responses) found ∧
          IsRefund found singleRefund)
        (createOrRecoverRefund id singleRefund responses) :=
  responses_mapped_iff id (.received 200 false (some (intentOf (.int 500)))) (intentOf (.int 500))
    singlePayment ⟨singlePayment, "pi_1"⟩ singleRefund ⟨singleRefund, "re_1"⟩ rfl

/-- An amount sent as a text throws out of the completion, which is never called; so does an
answer that is an array. An amount with a fraction is taken for the one requested. -/
theorem payment_not_mapped :
    ((createOrRecoverPayment id singlePayment
        [.received 200 false (some (intentOf (.string "500")))]).escaped = [.logic] ∧
      (createOrRecoverPayment id singlePayment
        [.received 200 false (some (intentOf (.string "500")))]).completions = []) ∧
    ((retrievePayment id ⟨singlePayment, "pi_1"⟩
        [.received 200 false (some (.array []))]).escaped = [.logic] ∧
      (retrievePayment id ⟨singlePayment, "pi_1"⟩
        [.received 200 false (some (.array []))]).completions = []) ∧
    (createOrRecoverPayment id singlePayment [.received 200 false
        (some (intentOf (.real (1001 / 2) "500.5")))]).completions.map ProviderResult.outcome =
      [.success] := by
  refine ⟨⟨?_, ?_⟩, ⟨?_, ?_⟩, ?_⟩
  all_goals decide +kernel

end StripePaymentProvider
end Ticketing
