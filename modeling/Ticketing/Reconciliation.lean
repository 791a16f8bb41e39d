import Ticketing.RefundFlow
import Ticketing.StripePayments

/-!
# Reconciliation with the payment provider

The webhook inbox wakes rows up, the poll claims due rows under a lease and the
provider's answer is recorded, retried or completed. Each statement commits on
its own; `skip` names the rows that other transactions have locked.
-/

namespace Ticketing

open Relational

namespace Reconciliation

open PaymentRepository (seconds)

/-- The first rows of a `FOR UPDATE SKIP LOCKED LIMIT` scan in the given order. -/
def scan {ρ : Type} (t : Table String ρ) (due : String → ρ → Bool) (skip : String → Bool)
    (before : String × ρ → String × ρ → Bool) (limit : ℕ) : List (String × ρ) :=
  ((t.select fun id row => due id row && !skip id).mergeSort before).take limit

def claimEvents (db : Db) (skip : String → Bool) (limit : ℕ) (now : Time) :
    List (String × ProviderEventRow) :=
  scan db.providerEvents
    (fun _ event => decide (event.status = .pending) && decide (event.nextRetryAt ≤ now))
    skip (fun a b => decide (a.2.receivedAt ≤ b.2.receivedAt)) limit

/-- The claimed events that match a payment attempt. -/
def paymentMatches (claimed : List (String × ProviderEventRow)) (id : String)
    (row : AttemptRow) : List (String × ProviderEventRow) :=
  claimed.filter fun entry =>
    decide (entry.2.objectKind = .payment) && decide (entry.2.localReferenceId = some id) &&
      decide (entry.2.provider = row.provider) &&
      (row.providerPaymentId.isNone ||
        (entry.2.providerObjectId.isSome &&
          decide (row.providerPaymentId = entry.2.providerObjectId)))

def refundMatches (claimed : List (String × ProviderEventRow)) (id : String)
    (row : RefundRow) : List (String × ProviderEventRow) :=
  claimed.filter fun entry =>
    decide (entry.2.objectKind = .refund) && decide (entry.2.localReferenceId = some id) &&
      decide (entry.2.provider = row.provider) &&
      (row.providerRefundId.isNone ||
        (entry.2.providerObjectId.isSome &&
          decide (row.providerRefundId = entry.2.providerObjectId)))

/-- An UPDATE with FROM joins a row once; which of several matches is not specified,
so `pick` chooses. -/
def joined (pick : String → ℕ) (id : String) (found : List (String × ProviderEventRow)) :
    Option (String × ProviderEventRow) :=
  found[pick id % found.length]?

def wakePayment (now : Time) (row : AttemptRow) (event : ProviderEventRow) : AttemptRow :=
  { row with
    providerPaymentId := row.providerPaymentId <|> event.providerObjectId
    nextReconcileAt := if PaymentRepository.unsettled row then some now else none }

def wakeRefund (now : Time) (row : RefundRow) : RefundRow :=
  { row with nextReconcileAt := if row.status = .processing then some now else none }

def wakePayments (attempts : Table String AttemptRow) (claimed : List (String × ProviderEventRow))
    (pick : String → ℕ) (now : Time) : Table String AttemptRow :=
  attempts.update (fun id row => (joined pick id (paymentMatches claimed id row)).isSome)
    fun id row => match joined pick id (paymentMatches claimed id row) with
      | some event => wakePayment now row event.2
      | none => row

def wakeRefunds (refunds : Table String RefundRow) (claimed : List (String × ProviderEventRow))
    (pick : String → ℕ) (now : Time) : Table String RefundRow :=
  refunds.update (fun id row => (joined pick id (refundMatches claimed id row)).isSome)
    fun _ row => wakeRefund now row

/-- The events that woke a row, as `RETURNING claimed.id` lists them. -/
def wokenBy (db : Db) (claimed : List (String × ProviderEventRow)) (pick : String → ℕ) :
    List String :=
  (db.ledger.attempts.rows.filterMap fun entry =>
      (joined pick entry.1 (paymentMatches claimed entry.1 entry.2)).map Prod.fst) ++
    db.ledger.refunds.rows.filterMap fun entry =>
      (joined pick entry.1 (refundMatches claimed entry.1 entry.2)).map Prod.fst

/-- The unique index on `(provider, provider_payment_id)` holds of the whole table. -/
def providerPaymentsDistinct (attempts : Table String AttemptRow) : Bool :=
  attempts.rows.all fun entry => !PaymentRepository.providerPaymentTaken attempts entry.1
    entry.2.provider entry.2.providerPaymentId

def processInbox (limit : ℕ) (skip : String → Bool) (pick : String → ℕ) (now : Time) (db : Db) :
    Option Db :=
  let claimed := claimEvents db skip limit now
  let attempts := wakePayments db.ledger.attempts claimed pick now
  if providerPaymentsDistinct attempts then
    some { db with
      ledger :=
        { attempts := attempts, refunds := wakeRefunds db.ledger.refunds claimed pick now }
      providerEvents := db.providerEvents.update
        (fun id event => decide (id ∈ claimed.map Prod.fst) &&
          (event.providerObjectId.isNone || decide (id ∈ wokenBy db claimed pick)))
        fun _ event => { event with status := .processed, processedAt := some now } }
  else none

/-- Terminal evidence of the provider that is not recorded locally yet. -/
def terminalEvidence (row : AttemptRow) : Bool :=
  decide (row.providerStatus = some "succeeded") || decide (row.providerStatus = some "canceled")

def paymentDue (now : Time) (row : AttemptRow) : Bool :=
  decide (row.provider ≠ "simulation") && PaymentRepository.unsettled row &&
    (row.leaseUntil.all fun leased => decide (leased ≤ now)) &&
    (terminalEvidence row || row.nextReconcileAt.all fun next => decide (next ≤ now))

/-- Ascending with NULL first. -/
def nullsFirst : Option Time → Option Time → Bool
  | none, _ => true
  | some _, none => false
  | some a, some b => decide (a ≤ b)

/-- `(provider_status IN (...)) DESC NULLS LAST`. -/
def evidenceRank (row : AttemptRow) : ℕ :=
  match row.providerStatus with
  | none => 2
  | some _ => if terminalEvidence row then 0 else 1

def claimBefore (a b : String × AttemptRow) : Bool :=
  if evidenceRank a.2 ≠ evidenceRank b.2 then decide (evidenceRank a.2 < evidenceRank b.2)
  else if a.2.nextReconcileAt ≠ b.2.nextReconcileAt then
    nullsFirst a.2.nextReconcileAt b.2.nextReconcileAt
  else decide (a.1 ≤ b.1)

/-- The wait before the next try: doubled with each of the first five tries. -/
def backoff (maxBackoff : Time) (retryCount : ℕ) : Time :=
  min maxBackoff (seconds (2 ^ min retryCount 5))

def claimPayments (limit : ℕ) (maxBackoff : Time) (leaseToken : String) (skip : String → Bool)
    (now : Time) (db : Db) : List String × Db :=
  let claimed := (scan db.ledger.attempts (fun _ row => paymentDue now row) skip claimBefore
    limit).map Prod.fst
  (claimed, { db with ledger := { db.ledger with
    attempts := db.ledger.attempts.update (fun id _ => decide (id ∈ claimed)) fun _ row =>
      { row with
        providerRetryCount := row.providerRetryCount + 1
        leaseToken := some leaseToken
        leaseUntil := some (now + seconds 30)
        nextReconcileAt := some (now + backoff maxBackoff row.providerRetryCount) } } })

def refundDue (now : Time) (row : RefundRow) : Bool :=
  decide (row.status = .processing) && row.providerTerminalAt.isNone &&
    (row.nextReconcileAt.any fun next => decide (next ≤ now)) &&
    row.leaseUntil.all fun leased => decide (leased ≤ now)

def claimRefundBefore (a b : String × RefundRow) : Bool :=
  if a.2.nextReconcileAt ≠ b.2.nextReconcileAt then
    nullsFirst a.2.nextReconcileAt b.2.nextReconcileAt
  else decide (a.1 ≤ b.1)

def claimRefunds (limit : ℕ) (maxBackoff : Time) (leaseToken : String) (skip : String → Bool)
    (now : Time) (db : Db) : List String × Db :=
  let claimed := (scan db.ledger.refunds (fun _ row => refundDue now row) skip claimRefundBefore
    limit).map Prod.fst
  (claimed, { db with ledger := { db.ledger with
    refunds := db.ledger.refunds.update (fun id _ => decide (id ∈ claimed)) fun _ row =>
      { row with
        providerRetryCount := row.providerRetryCount + 1
        leaseToken := some leaseToken
        leaseUntil := some (now + seconds 30)
        nextReconcileAt := some (now + backoff maxBackoff row.providerRetryCount) } } })

/-- `releaseLease`, which the service only calls for payments. -/
def releaseLease (attemptId leaseToken : String) (db : Db) : Db :=
  { db with ledger := { db.ledger with
    attempts := (db.ledger.attempts.updateRow attemptId
      (fun row => decide (row.leaseToken = some leaseToken))
      fun row => { row with leaseUntil := none, leaseToken := none }).2 } }

/-- A refund call that failed keeps its schedule, or waits five minutes when blocked. -/
def deferRefund (refundId leaseToken : String) (slow : Bool) (now : Time) (db : Db) : Db :=
  { db with ledger := { db.ledger with
    refunds := (db.ledger.refunds.updateRow refundId
      (fun row => decide (row.status = .processing) && decide (row.leaseToken = some leaseToken))
      fun row =>
        { row with
          nextReconcileAt := if slow then some (now + seconds 300) else row.nextReconcileAt
          leaseUntil := none
          leaseToken := none }).2 } }

def recordRefund (refundId providerRefundId providerStatus leaseToken : String) (now : Time)
    (db : Db) : Db :=
  { db with ledger := { db.ledger with
    refunds := (db.ledger.refunds.updateRow refundId
      (fun row => decide (row.status = .processing) && decide (row.leaseToken = some leaseToken) &&
        (row.providerRefundId.isNone || decide (row.providerRefundId = some providerRefundId)))
      fun row =>
        { row with
          providerRefundId := row.providerRefundId <|> some providerRefundId
          providerStatus := some providerStatus
          providerLastSyncAt := some now
          nextReconcileAt := some (now + seconds 2)
          leaseUntil := none
          leaseToken := none }).2 } }

def recordProviderPayment (attemptId providerPaymentId providerStatus leaseToken : String)
    (now : Time) (db : Db) : Option Db :=
  (PaymentRepository.recordProviderPayment db.ledger.attempts attemptId providerPaymentId
    providerStatus leaseToken now).map fun updated =>
      { db with ledger := { db.ledger with attempts := updated.2 } }

def schedulePaymentRetry (attemptId : String) (now : Time) (db : Db) : Db :=
  { db with ledger := { db.ledger with
    attempts := PaymentRepository.schedulePaymentRetry db.ledger.attempts attemptId now } }

/-- `ON CONFLICT (provider, provider_event_id) DO NOTHING`; NULLIF makes an empty
reference NULL. -/
def receiveEvent (id provider providerEventId : String) (objectKind : ObjectKind)
    (providerObjectId localReferenceId : String) (now : Time) (db : Db) : Option Db :=
  if db.providerEvents.rows.any fun entry => decide (entry.2.provider = provider) &&
      decide (entry.2.providerEventId = providerEventId) then some db
  else (db.providerEvents.insert id
    { provider := provider
      providerEventId := providerEventId
      objectKind := objectKind
      providerObjectId := if providerObjectId = "" then none else some providerObjectId
      localReferenceId := if localReferenceId = "" then none else some localReferenceId
      status := .pending
      receivedAt := now
      processedAt := none
      nextRetryAt := now }).map fun events => { db with providerEvents := events }

end Reconciliation
end Ticketing
