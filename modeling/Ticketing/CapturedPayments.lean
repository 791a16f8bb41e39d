import Ticketing.LifecycleProgress
import Ticketing.PaymentPriority

/-!
# Captured payments are kept

The provider's answers about one attempt arrive in any order, late and more than
once. A success that is processed is accepted or refunded, as long as no answer
that only declined a card was taken for the end of the payment before.
-/

namespace Ticketing

open Relational Transition JsonCpp

/-- One answer of the provider about an attempt, fetched by its payment id or by the create
call. The poll works under a lease, a payment start without one. -/
structure Delivery where
  attemptId : String
  json : Value
  providerPaymentId : Option String
  leaseToken : String
  clock : OrderLifecycle.Clock
  refundUuid : String
  now : Time

namespace Delivery

/-- What the poll and the payment start expect of the payment. -/
def request (attemptId : String) (row : AttemptRow) (order : OrderRow) : CreatePaymentRequest where
  attemptId := attemptId
  orderId := row.orderId
  amount := order.totalAmount
  currency := row.currency

def answer (d : Delivery) (expected : CreatePaymentRequest) :
    Except Error (ProviderResult ProviderPayment) :=
  match d.providerPaymentId with
  | some id => StripePaymentProvider.retrieved d.json expected id
  | none => StripePaymentProvider.mapPayment d.json expected

/-- The completion of both callers: a terminal payment completes the attempt, another one
is recorded, a failed call is tried again. -/
def handle (d : Delivery) (expected : CreatePaymentRequest)
    (result : ProviderResult ProviderPayment) : Transaction :=
  match result.outcome, result.value with
  | .success, some payment =>
      if payment.terminal then
        .completeProviderPayment expected.orderId d.attemptId
          (terminalSnapshot payment expected.amount d.leaseToken) d.clock d.refundUuid
      else .recordProviderPayment d.attemptId payment.providerPaymentId payment.providerStatus
        d.leaseToken d.now
  | _, _ =>
      if d.leaseToken = "" then .schedulePaymentRetry d.attemptId d.now
      else .releaseLease d.attemptId d.leaseToken

/-- The transaction of a delivery; an exception of the JSON accessors leaves none. -/
def transaction (d : Delivery) (db : Db) : Option Transaction := do
  let row ← db.ledger.attempts.find d.attemptId
  let order ← db.inventory.orders.find row.orderId
  let expected := request d.attemptId row order
  match d.answer expected with
  | .ok result => some (d.handle expected result)
  | .error _ => none

end Delivery

/-- A transaction of the system, or the processing of one answer of the provider. -/
inductive PaymentStep where
  | transaction (tx : Transaction)
  | delivery (d : Delivery)

namespace PaymentStep

def apply : PaymentStep → Db → Db
  | transaction tx, db => tx.apply db
  | delivery d, db => ((d.transaction db).map fun tx => tx.apply db).getD db

def applyAll (steps : List PaymentStep) (db : Db) : Db :=
  steps.foldl (fun db step => step.apply db) db

end PaymentStep

namespace StripePaymentProvider

/-- The text of a member, as the mapping reads it. -/
def text (json : Value) (key : String) : Except Error String := do (← json.get key).asString

/-- The intent is at its unsuccessful end. -/
def Canceled (json : Value) : Prop := text json "status" = .ok "canceled"

/-- A card of the intent was declined; another one can still be tried. -/
def Declined (json : Value) : Prop :=
  text json "status" = .ok "requires_payment_method" ∧
    ∃ error, json.get "last_payment_error" = .ok error ∧ error.isObject = true

/-- The answer describes the payment intent of the request, with this identifier and status. -/
structure Describes (json : Value) (expected : CreatePaymentRequest) (paymentId status : String) :
    Prop where
  object : json.isObject = true
  kind : json.get "object" = .ok (.string "payment_intent")
  id : json.get "id" = .ok (.string paymentId)
  status : json.get "status" = .ok (.string status)
  amount : json.get "amount" = .ok (.int expected.amount)
  int64 : minInt64 ≤ expected.amount ∧ expected.amount ≤ maxInt64
  currency : json.get "currency" = .ok (.string expected.currency)
  metadata : ∃ metadata, json.get "metadata" = .ok metadata ∧
    metadata.get "local_payment_attempt_id" = .ok (.string expected.attemptId) ∧
    metadata.get "order_id" = .ok (.string expected.orderId)

theorem classify_succeeded {payment : ProviderPayment} (error : Value)
    (h : payment.providerStatus = "succeeded") :
    classify payment error = .ok { payment with mappedState := .succeeded, terminal := true } := by
  unfold classify
  simp only
  rw [if_pos h]
  rfl

/-- A terminal classification is a success, an unsuccessful end or a declined card. -/
theorem classify_terminal {payment classified : ProviderPayment} {error : Value}
    (hstart : payment.terminal = false) (h : classify payment error = .ok classified)
    (hterminal : classified.terminal = true) :
    classified.mappedState = .succeeded ∨ payment.providerStatus = "canceled" ∨
      (payment.providerStatus = "requires_payment_method" ∧ error.isObject = true) := by
  unfold classify at h
  simp only at h
  split_ifs at h with hsucceeded hcanceled hdeclined haction
  · cases h
    exact Or.inl rfl
  · exact Or.inr (Or.inl hcanceled)
  · exact Or.inr (Or.inr hdeclined)
  · cases h
    simp [hstart] at hterminal
  · cases h
    simp [hstart] at hterminal

/-- A success of the expected intent is mapped to a terminal success. -/
theorem mapPayment_succeeded {json : Value} {expected : CreatePaymentRequest} {paymentId : String}
    (h : Describes json expected paymentId "succeeded") :
    ∃ payment, mapPayment json expected = .ok { outcome := .success, value := some payment } ∧
      payment.terminal = true ∧ payment.mappedState = .succeeded ∧ payment.provider = "stripe" ∧
      payment.providerPaymentId = paymentId := by
  obtain ⟨metadata, hmetadata, hattempt, horder⟩ := h.metadata
  obtain ⟨secret, hsecret⟩ := jsonString_ok h.object "client_secret"
  obtain ⟨error, herror⟩ := Value.get_ok h.object "last_payment_error"
  have hvalid : invalidPayment json = .ok false := by
    unfold invalidPayment
    simp [h.object, h.kind, h.id, h.status, Value.asString, Value.isString, pure, Except.pure]
  have hmatch : paymentMismatch json expected = .ok false := by
    unfold paymentMismatch
    simp [h.amount, h.currency, hmetadata, hattempt, horder, Value.asString, Value.asInt64, h.int64,
      pure, Except.pure]
  unfold mapPayment
  simp only [hvalid, hmatch, ok_bind, h.id, h.status, Value.asString, hsecret, herror,
    Bool.false_eq_true, if_false, classify_succeeded]
  exact ⟨_, rfl, rfl, rfl, rfl, rfl⟩

/-- Only a success, an unsuccessful end and a declined card are mapped as terminal. -/
theorem mapPayment_terminal {json : Value} {expected : CreatePaymentRequest}
    {result : ProviderResult ProviderPayment} {payment : ProviderPayment}
    (h : mapPayment json expected = .ok result) (hvalue : result.value = some payment)
    (hterminal : payment.terminal = true) :
    payment.mappedState = .succeeded ∨ Canceled json ∨ Declined json := by
  unfold mapPayment at h
  obtain ⟨invalid, -, h⟩ := bind_eq_ok.mp h
  split at h
  · cases h
    cases hvalue
  obtain ⟨mismatch, -, h⟩ := bind_eq_ok.mp h
  split at h
  · cases h
    cases hvalue
  obtain ⟨idValue, hidValue, h⟩ := bind_eq_ok.mp h
  obtain ⟨id, hid, h⟩ := bind_eq_ok.mp h
  obtain ⟨statusValue, hstatusValue, h⟩ := bind_eq_ok.mp h
  obtain ⟨status, hstatus, h⟩ := bind_eq_ok.mp h
  obtain ⟨secret, hsecret, h⟩ := bind_eq_ok.mp h
  obtain ⟨error, herror, h⟩ := bind_eq_ok.mp h
  obtain ⟨classified, hclassified, h⟩ := bind_eq_ok.mp h
  cases h
  cases hvalue
  have htext : text json "status" = .ok status := by
    unfold text
    rw [hstatusValue, ok_bind, hstatus]
  rcases classify_terminal rfl hclassified hterminal with hsucceeded | hcanceled | hdeclined
  · exact Or.inl hsucceeded
  · exact Or.inr (Or.inl (by rw [Canceled, htext]; exact congrArg _ hcanceled))
  · exact Or.inr (Or.inr ⟨by rw [htext]; exact congrArg _ hdeclined.1, error, herror, hdeclined.2⟩)

theorem retrieved_succeeded {json : Value} {expected : CreatePaymentRequest} {paymentId : String}
    (h : Describes json expected paymentId "succeeded") :
    retrieved json expected paymentId = mapPayment json expected := by
  unfold retrieved
  simp [h.id, Value.asString]

theorem retrieved_terminal {json : Value} {expected : CreatePaymentRequest} {paymentId : String}
    {result : ProviderResult ProviderPayment} {payment : ProviderPayment}
    (h : retrieved json expected paymentId = .ok result) (hvalue : result.value = some payment) :
    mapPayment json expected = .ok result := by
  unfold retrieved at h
  obtain ⟨idValue, -, h⟩ := bind_eq_ok.mp h
  obtain ⟨id, -, h⟩ := bind_eq_ok.mp h
  split at h
  · cases h
    cases hvalue
  · exact h

end StripePaymentProvider
/-- The transaction is a callback of the attempt. -/
def Transaction.Answers (attemptId : String) : Transaction → Prop
  | completePayment _ attempt _ _ _ => attempt = attemptId
  | completeProviderPayment _ attempt _ _ _ => attempt = attemptId
  | _ => False

/-- The transaction cannot fail the attempt. -/
def Transaction.Undeclining (attemptId : String) (tx : Transaction) : Prop :=
  ∀ a, tx.Allows a → ∀ orderId, a ≠ .decline attemptId orderId

/-- A step that is no callback of the attempt but by delivery, and no delivery of an
unsuccessful end or of a declined card. -/
def PaymentStep.Regular (attemptId : String) : PaymentStep → Prop
  | transaction tx => ¬ tx.Answers attemptId
  | delivery d => d.attemptId = attemptId →
      ¬ StripePaymentProvider.Canceled d.json ∧ ¬ StripePaymentProvider.Declined d.json

theorem Transaction.undeclining_of_not_answers {attemptId : String} {tx : Transaction}
    (h : ¬ tx.Answers attemptId) : tx.Undeclining attemptId := by
  intro a hallows orderId hdecline
  subst hdecline
  cases tx with
  | completePayment id attempt succeeded clock _ =>
      rcases hallows with ⟨-, hne | hne⟩ | ⟨-, hsame⟩ | hne | ⟨k, hne⟩
      · cases hne
      · cases hne
      · cases hsame
        exact h rfl
      · cases hne
      · cases hne
  | completeProviderPayment id attempt snapshot clock _ =>
      rcases hallows with ⟨-, hne | hne⟩ | ⟨-, hsame⟩ | hne | ⟨k, hne⟩
      · cases hne
      · cases hne
      · cases hsame
        exact h rfl
      · cases hne
      · cases hne
  | startPayment => rcases hallows with ⟨k, hne⟩ | hne <;> cases hne
  | cancel => rcases hallows with ⟨-, hne⟩ | hne | ⟨k, hne⟩ <;> cases hne
  | expireForWorker => rcases hallows with ⟨-, hne⟩ | hne | ⟨k, hne⟩ <;> cases hne
  | completeRefund => rcases hallows with hne | hne <;> cases hne
  | _ => cases hallows

theorem Transaction.undeclining_of_succeeded {attemptId orderId attempt refundUuid : String}
    {snapshot : PaymentTerminalSnapshot} {clock : OrderLifecycle.Clock}
    (h : snapshot.succeeded = true) :
    (completeProviderPayment orderId attempt snapshot clock refundUuid).Undeclining attemptId := by
  rintro a (⟨-, rfl | rfl⟩ | ⟨hfailed, -⟩ | rfl | ⟨k, rfl⟩) o hne
  · cases hne
  · cases hne
  · rw [h] at hfailed
    cases hfailed
  · cases hne
  · cases hne

namespace Delivery

theorem answer_terminal {d : Delivery} {expected : CreatePaymentRequest}
    {result : ProviderResult ProviderPayment} {payment : ProviderPayment}
    (h : d.answer expected = .ok result) (hvalue : result.value = some payment)
    (hterminal : payment.terminal = true) :
    payment.mappedState = .succeeded ∨ StripePaymentProvider.Canceled d.json ∨
      StripePaymentProvider.Declined d.json := by
  unfold answer at h
  split at h
  · exact StripePaymentProvider.mapPayment_terminal
      (StripePaymentProvider.retrieved_terminal h hvalue) hvalue hterminal
  · exact StripePaymentProvider.mapPayment_terminal h hvalue hterminal

theorem handle_undeclining {d : Delivery} {attemptId : String} {expected : CreatePaymentRequest}
    {result : ProviderResult ProviderPayment}
    (hregular : (PaymentStep.delivery d).Regular attemptId) (h : d.answer expected = .ok result) :
    (d.handle expected result).Undeclining attemptId := by
  unfold handle
  split
  · rename_i payment _ hvalue
    split
    · rename_i hterminal
      by_cases hid : d.attemptId = attemptId
      · obtain ⟨hcanceled, hdeclined⟩ := hregular hid
        rcases answer_terminal h hvalue hterminal with hsucceeded | hc | hd
        · exact Transaction.undeclining_of_succeeded (decide_eq_true hsucceeded)
        · exact absurd hc hcanceled
        · exact absurd hd hdeclined
      · exact Transaction.undeclining_of_not_answers hid
    · exact Transaction.undeclining_of_not_answers id
  · split
    · exact Transaction.undeclining_of_not_answers id
    · exact Transaction.undeclining_of_not_answers id

end Delivery

namespace PaymentStep

theorem applyAll_append (steps later : List PaymentStep) (db : Db) :
    applyAll (steps ++ later) db = applyAll later (applyAll steps db) := by
  unfold applyAll
  rw [List.foldl_append]

/-- A step is at most one transaction; a regular step cannot fail the attempt. -/
theorem apply_transactions (step : PaymentStep) (attemptId : String) (db : Db) :
    ∃ txs, step.apply db = Ticketing.applyAll txs db ∧
      (step.Regular attemptId → ∀ tx ∈ txs, tx.Undeclining attemptId) := by
  cases step with
  | transaction tx =>
      refine ⟨[tx], rfl, fun hregular other hother => ?_⟩
      rw [List.mem_singleton.mp hother]
      exact Transaction.undeclining_of_not_answers hregular
  | delivery d =>
      cases htx : d.transaction db with
      | none => exact ⟨[], by simp [apply, htx, Ticketing.applyAll], by simp⟩
      | some tx =>
          refine ⟨[tx], by simp [apply, htx, Ticketing.applyAll], fun hregular other hother => ?_⟩
          rw [List.mem_singleton.mp hother]
          simp only [Delivery.transaction, Option.bind_eq_bind, Option.bind_eq_some_iff] at htx
          obtain ⟨row, -, order, -, htx⟩ := htx
          split at htx
          · rename_i result hanswer
            cases htx
            exact Delivery.handle_undeclining hregular hanswer
          · cases htx

theorem applyAll_transactions (steps : List PaymentStep) (attemptId : String) (db : Db) :
    ∃ txs, applyAll steps db = Ticketing.applyAll txs db ∧
      ((∀ step ∈ steps, step.Regular attemptId) → ∀ tx ∈ txs, tx.Undeclining attemptId) := by
  induction steps generalizing db with
  | nil => exact ⟨[], rfl, by simp⟩
  | cons step steps ih =>
      obtain ⟨txs, happly, hfirst⟩ := step.apply_transactions attemptId db
      obtain ⟨rest, hrest, hlater⟩ := ih (step.apply db)
      refine ⟨txs ++ rest, ?_, fun hregular tx htx => ?_⟩
      · rw [Ticketing.applyAll_append, ← happly, ← hrest]
        rfl
      · rcases List.mem_append.mp htx with htx | htx
        · exact hfirst (hregular step List.mem_cons_self) tx htx
        · exact hlater (fun other hother => hregular other (List.mem_cons_of_mem _ hother)) tx htx

end PaymentStep

/-- The attempt has not failed. -/
def Db.Unfailed (db : Db) (attemptId : String) : Prop :=
  ∀ row, db.ledger.attempts.find attemptId = some row → row.status ≠ .failed

theorem unfailed_effect {a : Action} {db db' : Db} {attemptId : String} (heffect : Effect a db db')
    (hunfailed : db.Unfailed attemptId) (hlabel : ∀ orderId, a ≠ .decline attemptId orderId) :
    db'.Unfailed attemptId := by
  have hreplaced : ∀ {id : String} {old new : AttemptRow},
      db.ledger.attempts.Replaced id old new db'.ledger.attempts →
      (id = attemptId → new.status ≠ .failed) → db'.Unfailed attemptId := by
    intro id old new h hnew row hrow
    rcases h.cases hrow with ⟨rfl, rfl⟩ | ⟨-, hold⟩
    · exact hnew rfl
    · exact hunfailed row hold
  cases heffect with
  | reserve _ ledger => exact fun row hrow => hunfailed row (by rw [← ledger]; exact hrow)
  | close _ _ ledger _ => exact fun row hrow => hunfailed row (by rw [← ledger]; exact hrow)
  | requestRefund _ attempts => exact fun row hrow => hunfailed row (by rw [← attempts]; exact hrow)
  | settleRefund _ attempts => exact fun row hrow => hunfailed row (by rw [← attempts]; exact hrow)
  | revoke _ attempts => exact fun row hrow => hunfailed row (by rw [← attempts]; exact hrow)
  | start _ _ _ _ _ processing _ attempts =>
      intro row hrow
      rcases attempts.cases hrow with ⟨-, rfl⟩ | hold
      · simp [processing]
      · exact hunfailed row hold
  | timeOut _ _ _ _ _ timedOut _ _ attempts => exact hreplaced attempts fun _ => by simp [timedOut]
  | accept _ _ _ succeeded _ _ attempts => exact hreplaced attempts fun _ => by simp [succeeded]
  | capture _ _ _ _ succeeded _ _ attempts => exact hreplaced attempts fun _ => by simp [succeeded]
  | @decline _ _ id row _ _ _ _ _ _ _ attempts =>
      refine hreplaced attempts fun hid => absurd ?_ (hlabel row.orderId)
      rw [hid]
  | sync _ attempts _ =>
      intro row hrow
      obtain ⟨old, hold, hsynced⟩ := rowsRelate_find attempts hrow
      rw [hsynced.status]
      exact hunfailed old hold

/-- The attempt succeeded. -/
def Db.Succeeded (db : Db) (attemptId : String) : Prop :=
  ∃ row, db.ledger.attempts.find attemptId = some row ∧ row.status = .succeeded

theorem succeeded_step {a : Action} {db db' : Db} {attemptId : String} (heffect : Effect a db db')
    (h : db.Succeeded attemptId) : db'.Succeeded attemptId := by
  obtain ⟨row, hrow, hsucceeded⟩ := h
  obtain ⟨row', hrow', hsucceeded', -⟩ := succeeded_effect heffect hrow hsucceeded
  exact ⟨row', hrow', hsucceeded'⟩

/-- The payment of the attempt is the accepted one of its order, or has a refund of the order
total. -/
def Db.Kept (db : Db) (attemptId : String) : Prop :=
  ∃ row order, db.ledger.attempts.find attemptId = some row ∧
    db.inventory.orders.find row.orderId = some order ∧ row.status = .succeeded ∧
    (row.acceptedAt.isSome ∨ ∃ id refund, db.ledger.refunds.find id = some refund ∧
      refund.paymentAttemptId = attemptId ∧ refund.amount = order.totalAmount)

theorem Db.Balanced.kept {db : Db} (hb : db.Balanced) {attemptId : String}
    (h : db.Succeeded attemptId) : db.Kept attemptId := by
  obtain ⟨row, hrow, hsucceeded⟩ := h
  obtain ⟨order, horder⟩ := hb.ordered attemptId row hrow
  refine ⟨row, order, hrow, horder, hsucceeded, ?_⟩
  cases haccepted : row.acceptedAt with
  | some t => exact Or.inl rfl
  | none =>
      obtain ⟨id, refund, hrefund, hattempt, -, hamount⟩ :=
        hb.captured attemptId row order hrow hsucceeded haccepted horder
      exact Or.inr ⟨id, refund, hrefund, hattempt, hamount⟩

theorem succeeded_of_settling {a : Action} {db db' : Db} {attemptId orderId : String}
    (heffect : Effect a db db')
    (hlabel : a = .accept attemptId orderId ∨ a = .capture attemptId orderId) :
    db'.Succeeded attemptId := by
  rcases hlabel with hlabel | hlabel
  · cases heffect with
    | accept _ _ _ succeeded _ _ attempts =>
        cases hlabel
        exact ⟨_, attempts.find_self, succeeded⟩
    | _ => cases hlabel
  · cases heffect with
    | capture _ _ _ _ succeeded _ _ attempts =>
        cases hlabel
        exact ⟨_, attempts.find_self, succeeded⟩
    | _ => cases hlabel

namespace PaymentStep

/-- Regular steps keep the attempt from failing. -/
theorem applyAll_unfailed {steps : List PaymentStep} {attemptId : String} {db : Db}
    (hregular : ∀ step ∈ steps, step.Regular attemptId)
    (hone : PaymentRepository.OneProcessing db.ledger.attempts) (h : db.Unfailed attemptId) :
    (applyAll steps db).Unfailed attemptId := by
  obtain ⟨txs, htxs, hundeclining⟩ := applyAll_transactions steps attemptId db
  rw [htxs]
  exact (applyAll_preserves (I := fun db => db.Unfailed attemptId)
    (P := fun a => ∀ orderId, a ≠ .decline attemptId orderId)
    (fun _ _ _ hlabel hs hst => unfailed_effect hst hs hlabel) txs (hundeclining hregular) hone h).2

/-- Whatever comes later, a succeeded attempt stays succeeded. -/
theorem applyAll_succeeded (steps : List PaymentStep) {attemptId : String} {db : Db}
    (hone : PaymentRepository.OneProcessing db.ledger.attempts) (h : db.Succeeded attemptId) :
    (applyAll steps db).Succeeded attemptId := by
  obtain ⟨txs, htxs, -⟩ := applyAll_transactions steps attemptId db
  rw [htxs]
  exact (applyAll_invariant (I := fun db => db.Succeeded attemptId)
    (fun _ _ _ hs hst => succeeded_step hst hs) txs hone h).2

/-- A state that payment steps reach is one that transactions reach. -/
theorem applyAll_reachable (steps : List PaymentStep) {db : Db} (h : db.Fresh) :
    PaymentRepository.OneProcessing (applyAll steps db).ledger.attempts ∧
      (applyAll steps db).Balanced ∧ (applyAll steps db).inventory.Sound := by
  obtain ⟨txs, htxs, -⟩ := applyAll_transactions steps "" db
  rw [htxs]
  exact ⟨(balanced_reachable txs h).1, (balanced_reachable txs h).2, sound_reachable txs h⟩

end PaymentStep

/-- The delivery processes a success of the attempt's own payment: the intent is the attempt's
and of a positive amount, the sender holds the lease of an open attempt if it names one, and the
new refund id is unused. -/
structure Delivery.Succeeds (d : Delivery) (db : Db) (row : AttemptRow) (order : OrderRow)
    (paymentId : String) : Prop where
  attempt_found : db.ledger.attempts.find d.attemptId = some row
  order_found : db.inventory.orders.find row.orderId = some order
  describes : StripePaymentProvider.Describes d.json (Delivery.request d.attemptId row order)
    paymentId "succeeded"
  fetched : d.providerPaymentId = none ∨ d.providerPaymentId = some paymentId
  provider : row.provider = "stripe"
  positive : order.totalAmount ≠ 0
  named : paymentId ≠ ""
  known : ∀ known, row.providerPaymentId = some known → known = paymentId
  untaken : PaymentRepository.providerPaymentTaken db.ledger.attempts d.attemptId "stripe"
    (some paymentId) = false
  lease : row.Unsettled → d.leaseToken = "" ∨ row.leaseToken = some d.leaseToken
  refund : db.ledger.refunds.find ("RFD-" ++ d.refundUuid) = none

/-- A processed success leaves an attempt that has not failed succeeded. -/
theorem Delivery.Succeeds.succeeded {d : Delivery} {db : Db} {row : AttemptRow} {order : OrderRow}
    {paymentId : String} (h : d.Succeeds db row order paymentId)
    (hone : PaymentRepository.OneProcessing db.ledger.attempts) (hsound : db.inventory.Sound)
    (hunsettled : row.Unsettled) :
    ((PaymentStep.delivery d).apply db).Succeeded d.attemptId := by
  obtain ⟨payment, hmapped, hterminal, hstate, hprovider, hpaymentId⟩ :=
    StripePaymentProvider.mapPayment_succeeded h.describes
  have hanswer : d.answer (Delivery.request d.attemptId row order) =
      .ok { outcome := .success, value := some payment } := by
    unfold Delivery.answer
    rcases h.fetched with hfetched | hfetched
    · rw [hfetched]
      exact hmapped
    · rw [hfetched]
      exact (StripePaymentProvider.retrieved_succeeded h.describes).trans hmapped
  let snapshot : PaymentTerminalSnapshot :=
    terminalSnapshot payment order.totalAmount d.leaseToken
  have htransaction : d.transaction db =
      some (.completeProviderPayment row.orderId d.attemptId snapshot d.clock d.refundUuid) := by
    simp only [Delivery.transaction, h.attempt_found, h.order_found, Option.bind_eq_bind, Option.bind_some,
      hanswer, Delivery.handle, hterminal, if_true]
    rfl
  have hsucceeded : snapshot.succeeded = true := decide_eq_true hstate
  have hown : OrderLifecycle.OwnSnapshot snapshot d.attemptId row order db.ledger.attempts := by
    refine ⟨hprovider.trans h.provider.symm, rfl, ?_, ?_, h.lease hunsettled, ?_⟩
    · exact fun hempty => h.named (hpaymentId.symm.trans hempty)
    · exact fun known hk => (h.known known hk).trans hpaymentId.symm
    · show PaymentRepository.providerPaymentTaken db.ledger.attempts d.attemptId payment.provider
        (some payment.providerPaymentId) = false
      rw [hprovider, hpaymentId]
      exact h.untaken
  let state : OrderLifecycle.FlowState :=
    { mode := .paymentCallback
      orderId := row.orderId
      paymentAttemptId := d.attemptId
      paymentSucceeded := snapshot.succeeded
      terminalSnapshot := some snapshot
      successOutcome := .paymentCompleted
      clock := d.clock
      refundUuid := d.refundUuid }
  obtain ⟨db', a, actions, hcommit, hlabel, htrace⟩ :=
    OrderLifecycle.callback_succeeds (show state.mode = .paymentCallback from rfl) ⟨rfl, rfl, rfl⟩
      hsucceeded h.order_found (hsound.payable h.order_found) h.attempt_found rfl hunsettled
      h.positive h.refund hone
      (fun _ hsnapshot => by cases hsnapshot; exact hown)
  have happly : (PaymentStep.delivery d).apply db = db' := by
    simp only [PaymentStep.apply, htransaction, Option.map_some, Option.getD_some,
      Transaction.apply, OrderLifecycle.completeProviderPayment]
    rw [hcommit]
    rfl
  rw [happly]
  -- the first effect of the callback settles the attempt, the others keep it
  cases htrace with
  | cons head tail =>
      exact tail.invariant (I := fun db => db.Succeeded d.attemptId)
        (fun _ _ _ hs hst => succeeded_step hst hs) (succeeded_of_settling head hlabel)

/-- In every run from a fresh database, whatever is delivered in whatever order and however often,
a success of an attempt that is processed leaves the attempt succeeded for good, and accepted or
refunded, unless a canceled intent or a declined card was delivered for the attempt before. -/
theorem captured_payment_kept (earlier later : List PaymentStep) (db : Db) (success : Delivery)
    (row : AttemptRow) (order : OrderRow) (paymentId : String) (hfresh : db.Fresh)
    (hcallbacks : ∀ tx, .transaction tx ∈ earlier → ¬ tx.Answers success.attemptId)
    (hfinal : ∀ d, .delivery d ∈ earlier → d.attemptId = success.attemptId →
      ¬ StripePaymentProvider.Canceled d.json)
    (hdeclined : ∀ d, .delivery d ∈ earlier → d.attemptId = success.attemptId →
      ¬ StripePaymentProvider.Declined d.json)
    (hsuccess : success.Succeeds (PaymentStep.applyAll earlier db) row order paymentId) :
    (PaymentStep.applyAll (earlier ++ .delivery success :: later) db).Kept success.attemptId := by
  have hregular : ∀ step ∈ earlier, step.Regular success.attemptId := by
    intro step hstep
    cases step with
    | transaction tx => exact hcallbacks tx hstep
    | delivery d => exact fun hid => ⟨hfinal d hstep hid, hdeclined d hstep hid⟩
  have hstart : db.Unfailed success.attemptId := by
    intro found hfound
    rw [Table.find_of_rows_nil hfresh.attempts] at hfound
    cases hfound
  have hunfailed := PaymentStep.applyAll_unfailed hregular hfresh.oneProcessing hstart
  obtain ⟨hone, -, hsound⟩ := PaymentStep.applyAll_reachable earlier hfresh
  have hdelivered : ((PaymentStep.delivery success).apply
      (PaymentStep.applyAll earlier db)).Succeeded success.attemptId := by
    cases hstatus : row.status with
    | failed => exact absurd hstatus (hunfailed row hsuccess.attempt_found)
    | succeeded =>
        exact PaymentStep.applyAll_succeeded [.delivery success] hone
          ⟨row, hsuccess.attempt_found, hstatus⟩
    | processing => exact hsuccess.succeeded hone hsound (Or.inl hstatus)
    | timedOut => exact hsuccess.succeeded hone hsound (Or.inr hstatus)
  have hsplit : PaymentStep.applyAll (earlier ++ .delivery success :: later) db =
      PaymentStep.applyAll later (PaymentStep.applyAll (earlier ++ [.delivery success]) db) := by
    rw [← PaymentStep.applyAll_append, List.append_assoc]
    rfl
  have hbalanced := (PaymentStep.applyAll_reachable (earlier ++ .delivery success :: later)
    hfresh).2.1
  refine hbalanced.kept ?_
  rw [hsplit]
  refine PaymentStep.applyAll_succeeded later
    (PaymentStep.applyAll_reachable (earlier ++ [.delivery success]) hfresh).1 ?_
  rw [PaymentStep.applyAll_append]
  exact hdelivered

/-- The payment intent of the single seat's payment. -/
def singleSeatIntent (status : String) (lastPaymentError : Value) : Value :=
  .object
    [("object", .string "payment_intent"), ("id", .string "pi_1"), ("status", .string status),
      ("amount", .int 500), ("currency", .string "usd"),
      ("metadata", .object
        [("local_payment_attempt_id", .string "PAY-1"), ("order_id", .string "TKT-1")]),
      ("last_payment_error", lastPaymentError)]

/-- An answer about that intent, as a payment start handles it. -/
def singleSeatAnswer (status : String) (lastPaymentError : Value) (now : Time) : Delivery where
  attemptId := "PAY-1"
  json := singleSeatIntent status lastPaymentError
  providerPaymentId := none
  leaseToken := ""
  clock := .at now
  refundUuid := "1"
  now := now

/-- The seat is reserved and its payment started. -/
def startedPayment : List PaymentStep :=
  [.transaction (reserveSingleSeat "1" "1" "key"), .transaction (startSingleSeat "1" 20)]

/-- The order is cancelled before the success arrives. -/
def cancelledPayment : List PaymentStep :=
  startedPayment ++ [.delivery (singleSeatAnswer "processing" .null 30),
    .transaction (.cancel "TKT-1" "buyer" (.at 35))]

theorem captured_payment_kept_cancelled :
    (PaymentStep.applyAll (cancelledPayment ++
      [.delivery (singleSeatAnswer "succeeded" .null 40)]) singleSeat).Kept "PAY-1" := by
  have hattempt : (PaymentStep.applyAll cancelledPayment singleSeat).ledger.attempts.find "PAY-1" =
      some
        { orderId := "TKT-1"
          status := .processing
          startedAt := 20
          processingDeadline := 60000020
          scheduledCompleteAt := none
          completedAt := none
          timedOutAt := none
          acceptedAt := none
          failureReason := none
          provider := "stripe"
          providerPaymentId := some "pi_1"
          providerStatus := some "processing"
          currency := "usd"
          providerLastSyncAt := some 30
          providerTerminalAt := none
          providerRetryCount := 0
          nextReconcileAt := some 2000030
          leaseUntil := none
          leaseToken := none } := by decide
  have horder : (PaymentStep.applyAll cancelledPayment singleSeat).inventory.orders.find "TKT-1" =
      some
        { userId := "buyer"
          reservationId := "RSV-1"
          status := .cancelled
          totalAmount := 500
          expiresAt := 900000010
          createdAt := 10
          paidAt := none
          refundedAt := none } := by decide
  refine captured_payment_kept cancelledPayment [] singleSeat
    (singleSeatAnswer "succeeded" .null 40) _ _ "pi_1" singleSeat_fresh ?_ ?_ ?_
    { attempt_found := hattempt
      order_found := horder
      describes := ⟨rfl, rfl, rfl, rfl, rfl, by decide, rfl, _, rfl, rfl, rfl⟩
      fetched := Or.inl rfl
      provider := rfl
      positive := by decide
      named := by decide
      known := by rintro _ ⟨⟩; rfl
      untaken := by decide
      lease := fun _ => Or.inl rfl
      refund := by decide }
  · intro tx htx hanswers
    simp only [cancelledPayment, startedPayment, List.cons_append, List.nil_append,
      List.mem_cons, List.not_mem_nil, or_false, PaymentStep.transaction.injEq, reduceCtorEq,
      false_or] at htx
    rcases htx with rfl | rfl | rfl <;> exact hanswers
  · intro d hd _ hcanceled
    simp only [cancelledPayment, startedPayment, List.cons_append, List.nil_append,
      List.mem_cons, List.not_mem_nil, or_false, PaymentStep.delivery.injEq, reduceCtorEq,
      false_or] at hd
    subst hd
    exact absurd (Except.ok.inj hcanceled) (by decide : "processing" ≠ "canceled")
  · intro d hd _ hdeclined
    simp only [cancelledPayment, startedPayment, List.cons_append, List.nil_append,
      List.mem_cons, List.not_mem_nil, or_false, PaymentStep.delivery.injEq, reduceCtorEq,
      false_or] at hd
    subst hd
    exact absurd (Except.ok.inj hdeclined.1) (by decide : "processing" ≠ "requires_payment_method")

/-- A first card is declined and the answer processed. -/
def declinedPayment : List PaymentStep :=
  startedPayment ++ [.delivery (singleSeatAnswer "requires_payment_method"
    (.object [("code", .string "card_declined")]) 30)]

/-- After a declined card the success of the same intent is processed and lost: the attempt
stays failed, the order unpaid, and there is no refund. -/
theorem declined_card_loses_payment :
    (∃ row order, (singleSeatAnswer "succeeded" .null 40).Succeeds
      (PaymentStep.applyAll declinedPayment singleSeat) row order "pi_1") ∧
    ¬ (PaymentStep.applyAll (declinedPayment ++
      [.delivery (singleSeatAnswer "succeeded" .null 40)]) singleSeat).Kept "PAY-1" := by
  have hattempt : (PaymentStep.applyAll declinedPayment singleSeat).ledger.attempts.find "PAY-1" =
      some
        { orderId := "TKT-1"
          status := .failed
          startedAt := 20
          processingDeadline := 60000020
          scheduledCompleteAt := none
          completedAt := some 30
          timedOutAt := none
          acceptedAt := none
          failureReason := some "card_declined"
          provider := "stripe"
          providerPaymentId := some "pi_1"
          providerStatus := some "requires_payment_method"
          currency := "usd"
          providerLastSyncAt := some 30
          providerTerminalAt := some 30
          providerRetryCount := 0
          nextReconcileAt := none
          leaseUntil := none
          leaseToken := none } := by decide
  have horder : (PaymentStep.applyAll declinedPayment singleSeat).inventory.orders.find "TKT-1" =
      some
        { userId := "buyer"
          reservationId := "RSV-1"
          status := .pendingPayment
          totalAmount := 500
          expiresAt := 900000010
          createdAt := 10
          paidAt := none
          refundedAt := none } := by decide
  refine ⟨⟨_, _,
    { attempt_found := hattempt
      order_found := horder
      describes := ⟨rfl, rfl, rfl, rfl, rfl, by decide, rfl, _, rfl, rfl, rfl⟩
      fetched := Or.inl rfl
      provider := rfl
      positive := by decide
      named := by decide
      known := by rintro _ ⟨⟩; rfl
      untaken := by decide
      lease := fun _ => Or.inl rfl
      refund := by decide }⟩, ?_⟩
  rintro ⟨row, order, hrow, -, hsucceeded, -⟩
  have hfailed : ((PaymentStep.applyAll (declinedPayment ++
      [.delivery (singleSeatAnswer "succeeded" .null 40)]) singleSeat).ledger.attempts.find
      "PAY-1").map AttemptRow.status = some .failed := by decide
  have hmap : some row.status = some AttemptStatus.failed := by
    rw [← hfailed]
    exact (congrArg (Option.map AttemptRow.status) hrow).symm
  rw [hsucceeded] at hmap
  cases hmap

end Ticketing
