import Ticketing.PaymentEffects
import Ticketing.Reconciliation
import Ticketing.ReservationEffects

/-!
# Transactions as runs of effects

Every transaction of the reservation, payment and refund services is one element
of `Transaction`; `apply` is the committed state after it. A transaction that
changes the database is a run of effects with the labels its kind allows.
-/

namespace Ticketing

open Relational Transition

inductive Transaction where
  | createReservation (input : CreateReservationInput) (draws : ReservationFlow.Draws)
  | startPayment (state : PaymentFlow.StartState)
  | cancel (orderId userId : String) (clock : OrderLifecycle.Clock)
  | expireForWorker (orderId : String) (locked : Bool) (clock : OrderLifecycle.Clock)
  | completePayment (orderId attemptId : String) (succeeded : Bool)
      (clock : OrderLifecycle.Clock) (refundUuid : String)
  | completeProviderPayment (orderId attemptId : String) (snapshot : PaymentTerminalSnapshot)
      (clock : OrderLifecycle.Clock) (refundUuid : String)
  | requestRefund (state : RefundService.State)
  | completeRefund (refundId : String) (snapshot : RefundTerminalSnapshot)
      (clock : RefundLifecycle.Clock)
  | receiveEvent (id provider providerEventId : String) (kind : ObjectKind)
      (providerObjectId localReferenceId : String) (now : Time)
  | processInbox (limit : ℕ) (skip : String → Bool) (pick : String → ℕ) (now : Time)
  | claimPayments (limit : ℕ) (maxBackoff : Time) (leaseToken : String) (skip : String → Bool)
      (now : Time)
  | claimRefunds (limit : ℕ) (maxBackoff : Time) (leaseToken : String) (skip : String → Bool)
      (now : Time)
  | recordProviderPayment (attemptId providerPaymentId providerStatus leaseToken : String)
      (now : Time)
  | schedulePaymentRetry (attemptId : String) (now : Time)
  | releaseLease (attemptId leaseToken : String)
  | deferRefund (refundId leaseToken : String) (slow : Bool) (now : Time)
  | recordRefund (refundId providerRefundId providerStatus leaseToken : String) (now : Time)

namespace Transaction

def apply : Transaction → Db → Db
  | createReservation input draws, db =>
      (ReservationFlow.createReservation input draws db).after db
  | startPayment state, db => (PaymentFlow.startPayment state db).after db
  | cancel orderId userId clock, db => (OrderLifecycle.cancel orderId userId clock db).after db
  | expireForWorker orderId locked clock, db =>
      (OrderLifecycle.expireForWorker orderId locked clock db).after db
  | completePayment orderId attemptId succeeded clock refundUuid, db =>
      (OrderLifecycle.completePayment orderId attemptId succeeded clock refundUuid db).after db
  | completeProviderPayment orderId attemptId snapshot clock refundUuid, db =>
      (OrderLifecycle.completeProviderPayment orderId attemptId snapshot clock refundUuid
        db).after db
  | requestRefund state, db => (RefundService.request state db).after db
  | completeRefund refundId snapshot clock, db =>
      (RefundLifecycle.complete refundId snapshot clock db).after db
  | receiveEvent id provider eventId kind objectId referenceId now, db =>
      (Reconciliation.receiveEvent id provider eventId kind objectId referenceId now db).getD db
  | processInbox limit skip pick now, db =>
      (Reconciliation.processInbox limit skip pick now db).getD db
  | claimPayments limit maxBackoff leaseToken skip now, db =>
      (Reconciliation.claimPayments limit maxBackoff leaseToken skip now db).2
  | claimRefunds limit maxBackoff leaseToken skip now, db =>
      (Reconciliation.claimRefunds limit maxBackoff leaseToken skip now db).2
  | recordProviderPayment attemptId paymentId status leaseToken now, db =>
      (Reconciliation.recordProviderPayment attemptId paymentId status leaseToken now db).getD db
  | schedulePaymentRetry attemptId now, db =>
      Reconciliation.schedulePaymentRetry attemptId now db
  | releaseLease attemptId leaseToken, db => Reconciliation.releaseLease attemptId leaseToken db
  | deferRefund refundId leaseToken slow now, db =>
      Reconciliation.deferRefund refundId leaseToken slow now db
  | recordRefund refundId providerRefundId status leaseToken now, db =>
      Reconciliation.recordRefund refundId providerRefundId status leaseToken now db

/-- The labels a transaction of this kind can leave. -/
def Allows : Transaction → Action → Prop
  | createReservation _ draws, a => a = .reserve ("RSV-" ++ draws.reservationUuid)
  | startPayment state, a => PaymentFlow.StartAction state a
  | cancel orderId _ clock, a =>
      OrderLifecycle.TerminalAction .cancel orderId clock.lockAttempt a
  | expireForWorker orderId _ clock, a =>
      OrderLifecycle.TerminalAction .expire orderId clock.lockAttempt a
  | completePayment orderId attemptId succeeded clock _, a =>
      OrderLifecycle.CallbackAction orderId attemptId succeeded clock.checkOther a
  | completeProviderPayment orderId attemptId snapshot clock _, a =>
      OrderLifecycle.CallbackAction orderId attemptId snapshot.succeeded clock.checkOther a
  | requestRefund state, a => a = .requestRefund ("RFD-" ++ state.refundUuid)
  | completeRefund refundId snapshot _, a =>
      a = .settleRefund refundId ∨ a = .revoke snapshot.orderId
  | _, a => a = .sync

end Transaction

theorem rowsRelate_refl {ρ : Type} {R : ρ → ρ → Prop} (hR : ∀ r, R r r) (t : Table String ρ) :
    RowsRelate R t t := by
  intro k
  cases h : t.find k with
  | none => exact Or.inl ⟨rfl, rfl⟩
  | some row => exact Or.inr ⟨row, row, rfl, rfl, hR row⟩

theorem rowsRelate_update {ρ : Type} {R : ρ → ρ → Prop} (hR : ∀ r, R r r) (t : Table String ρ)
    (p : String → ρ → Bool) (f : String → ρ → ρ) (hf : ∀ k r, p k r = true → R r (f k r)) :
    RowsRelate R t (t.update p f) := by
  intro k
  rw [Table.find_update]
  cases h : t.find k with
  | none => exact Or.inl ⟨rfl, rfl⟩
  | some row =>
      refine Or.inr ⟨row, if p k row then f k row else row, rfl, rfl, ?_⟩
      by_cases hp : p k row = true
      · rw [if_pos hp]
        exact hf k row hp
      · rw [if_neg hp]
        exact hR row

theorem rowsRelate_updateRow {ρ : Type} {R : ρ → ρ → Prop} (hR : ∀ r, R r r) (t : Table String ρ)
    (k : String) (guard : ρ → Bool) (f : ρ → ρ) (hf : ∀ r, guard r = true → R r (f r)) :
    RowsRelate R t (t.updateRow k guard f).2 := by
  apply rowsRelate_update hR
  intro j r hp
  exact hf r (Bool.and_eq_true_iff.mp hp).2

/-- A statement that leaves the inventory and only keeps the books of the ledger. -/
theorem sync_effect {db db' : Db} (hinv : db'.inventory = db.inventory)
    (hattempts : RowsRelate AttemptRow.Synced db.ledger.attempts db'.ledger.attempts)
    (hrefunds : RowsRelate RefundRow.Synced db.ledger.refunds db'.ledger.refunds) :
    Effect .sync db db' :=
  Effect.sync hinv hattempts hrefunds

theorem attempts_refl (attempts : Table String AttemptRow) :
    RowsRelate AttemptRow.Synced attempts attempts :=
  rowsRelate_refl AttemptRow.Synced.refl attempts

theorem refunds_refl (refunds : Table String RefundRow) :
    RowsRelate RefundRow.Synced refunds refunds :=
  rowsRelate_refl RefundRow.Synced.refl refunds

namespace Reconciliation

/-- An attempt that keeps its status, its acceptance and its identity is only synced. -/
theorem synced_of_kept {row row' : AttemptRow} (h : row'.orderId = row.orderId ∧
    row'.startedAt = row.startedAt ∧ row'.processingDeadline = row.processingDeadline ∧
    row'.provider = row.provider ∧ row'.status = row.status ∧ row'.acceptedAt = row.acceptedAt)
    (hpayment : ∀ known, row.providerPaymentId = some known →
      row'.providerPaymentId = some known) : row.Synced row' :=
  ⟨⟨h.1, h.2.1, h.2.2.1, h.2.2.2.1, hpayment⟩, h.2.2.2.2.1, h.2.2.2.2.2⟩

theorem wakePayment_synced (now : Time) (row : AttemptRow) (event : ProviderEventRow) :
    row.Synced (wakePayment now row event) := by
  refine synced_of_kept ⟨rfl, rfl, rfl, rfl, rfl, rfl⟩ ?_
  intro known hknown
  simp [wakePayment, hknown]

theorem processInbox_effect {limit : ℕ} {skip : String → Bool} {pick : String → ℕ} {now : Time}
    {db db' : Db} (h : processInbox limit skip pick now db = some db') :
    Effect .sync db db' := by
  unfold processInbox at h
  simp only at h
  split_ifs at h
  cases h
  refine sync_effect rfl ?_ ?_
  · apply rowsRelate_update AttemptRow.Synced.refl
    intro id row _
    cases joined pick id (paymentMatches (claimEvents db skip limit now) id row) with
    | none => exact AttemptRow.Synced.refl row
    | some event => exact wakePayment_synced now row event.2
  · apply rowsRelate_update RefundRow.Synced.refl
    intro _ row _
    exact ⟨⟨rfl, rfl, rfl, rfl⟩, rfl⟩

theorem claimPayments_effect (limit : ℕ) (maxBackoff : Time) (leaseToken : String)
    (skip : String → Bool) (now : Time) (db : Db) :
    Effect .sync db (claimPayments limit maxBackoff leaseToken skip now db).2 := by
  refine sync_effect rfl ?_ (refunds_refl _)
  apply rowsRelate_update AttemptRow.Synced.refl
  intro _ row _
  exact synced_of_kept ⟨rfl, rfl, rfl, rfl, rfl, rfl⟩ fun _ hk => hk

theorem claimRefunds_effect (limit : ℕ) (maxBackoff : Time) (leaseToken : String)
    (skip : String → Bool) (now : Time) (db : Db) :
    Effect .sync db (claimRefunds limit maxBackoff leaseToken skip now db).2 := by
  refine sync_effect rfl (attempts_refl _) ?_
  apply rowsRelate_update RefundRow.Synced.refl
  intro _ row _
  exact ⟨⟨rfl, rfl, rfl, rfl⟩, rfl⟩

theorem recordProviderPayment_effect {attemptId paymentId status leaseToken : String}
    {now : Time} {db db' : Db}
    (h : recordProviderPayment attemptId paymentId status leaseToken now db = some db') :
    Effect .sync db db' := by
  obtain ⟨updated, hupdated, rfl⟩ := Option.map_eq_some_iff.mp h
  unfold PaymentRepository.recordProviderPayment at hupdated
  split at hupdated
  · cases hupdated
  cases hupdated
  refine sync_effect rfl ?_ (refunds_refl _)
  apply rowsRelate_updateRow AttemptRow.Synced.refl
  intro row _
  refine synced_of_kept ⟨rfl, rfl, rfl, rfl, rfl, rfl⟩ fun known hk => ?_
  exact PaymentRepository.orElse_continues hk

theorem schedulePaymentRetry_effect (attemptId : String) (now : Time) (db : Db) :
    Effect .sync db (schedulePaymentRetry attemptId now db) := by
  refine sync_effect rfl ?_ (refunds_refl _)
  apply rowsRelate_updateRow AttemptRow.Synced.refl
  intro row _
  exact synced_of_kept ⟨rfl, rfl, rfl, rfl, rfl, rfl⟩ fun _ hk => hk

theorem releaseLease_effect (attemptId leaseToken : String) (db : Db) :
    Effect .sync db (releaseLease attemptId leaseToken db) := by
  refine sync_effect rfl ?_ (refunds_refl _)
  apply rowsRelate_updateRow AttemptRow.Synced.refl
  intro row _
  exact synced_of_kept ⟨rfl, rfl, rfl, rfl, rfl, rfl⟩ fun _ hk => hk

theorem deferRefund_effect (refundId leaseToken : String) (slow : Bool) (now : Time) (db : Db) :
    Effect .sync db (deferRefund refundId leaseToken slow now db) := by
  refine sync_effect rfl (attempts_refl _) ?_
  apply rowsRelate_updateRow RefundRow.Synced.refl
  intro row _
  exact ⟨⟨rfl, rfl, rfl, rfl⟩, rfl⟩

theorem recordRefund_effect (refundId providerRefundId status leaseToken : String) (now : Time)
    (db : Db) : Effect .sync db (recordRefund refundId providerRefundId status leaseToken now db) := by
  refine sync_effect rfl (attempts_refl _) ?_
  apply rowsRelate_updateRow RefundRow.Synced.refl
  intro row _
  exact ⟨⟨rfl, rfl, rfl, rfl⟩, rfl⟩

theorem receiveEvent_effect {id provider eventId : String} {kind : ObjectKind}
    {objectId referenceId : String} {now : Time} {db db' : Db}
    (h : receiveEvent id provider eventId kind objectId referenceId now db = some db') :
    Effect .sync db db' := by
  have hframe : db'.inventory = db.inventory ∧ db'.ledger = db.ledger := by
    unfold receiveEvent at h
    split at h
    · cases h
      exact ⟨rfl, rfl⟩
    · obtain ⟨events, -, rfl⟩ := Option.map_eq_some_iff.mp h
      exact ⟨rfl, rfl⟩
  refine sync_effect hframe.1 ?_ ?_
  · rw [hframe.2]
    exact attempts_refl _
  · rw [hframe.2]
    exact refunds_refl _

end Reconciliation

open PaymentRepository (OneProcessing)

/-- A run of effects with labels that the transaction allows. -/
def Transaction.Runs (tx : Transaction) (db db' : Db) : Prop :=
  ∃ actions, Effects db actions db' ∧ ∀ a ∈ actions, tx.Allows a

theorem runs_unchanged (tx : Transaction) (db : Db) : tx.Runs db db :=
  ⟨[], Trace.nil db, by simp⟩

theorem runs_single {tx : Transaction} {a : Action} {db db' : Db} (h : Effect a db db')
    (ha : tx.Allows a) : tx.Runs db db' :=
  ⟨[a], Trace.single h, by simpa using ha⟩

/-- A transaction that rolls back changes nothing; one that commits runs as its commit. -/
theorem runs_after {ω : Type} {tx : Transaction} {db : Db} {result : TransactionResult ω}
    (h : ∀ out db', result = .commit out db' → tx.Runs db db') :
    tx.Runs db (result.after db) := by
  cases result with
  | commit out db' => exact h out db' rfl
  | rollback out => exact runs_unchanged tx db

/-- A statement that fails changes nothing; one that succeeds only keeps the books. -/
theorem runs_getD {tx : Transaction} {db : Db} {result : Option Db}
    (hallow : tx.Allows .sync) (h : ∀ db', result = some db' → Effect .sync db db') :
    tx.Runs db (result.getD db) := by
  cases result with
  | none => exact runs_unchanged tx db
  | some db' => exact runs_single (h db' rfl) hallow

/-- Every transaction is a run of effects its kind allows. -/
theorem Transaction.apply_runs (tx : Transaction) {db : Db}
    (hone : OneProcessing db.ledger.attempts) : tx.Runs db (tx.apply db) := by
  cases tx with
  | createReservation input draws =>
      exact runs_after fun out db' h =>
        runs_single (ReservationFlow.createReservation_commit h) rfl
  | startPayment state => exact runs_after fun out db' h => PaymentFlow.startPayment_commit h
  | cancel orderId userId clock =>
      exact runs_after fun out db' h => OrderLifecycle.cancel_commit hone h
  | expireForWorker orderId locked clock =>
      exact runs_after fun out db' h => OrderLifecycle.expireForWorker_commit hone h
  | completePayment orderId attemptId succeeded clock refundUuid =>
      exact runs_after fun out db' h => OrderLifecycle.completePayment_commit hone h
  | completeProviderPayment orderId attemptId snapshot clock refundUuid =>
      exact runs_after fun out db' h => OrderLifecycle.completeProviderPayment_commit hone h
  | requestRefund state =>
      refine runs_after fun out db' h => ?_
      rcases RefundService.request_commit h with rfl | heffect
      · exact runs_unchanged _ _
      · exact runs_single heffect rfl
  | completeRefund refundId snapshot clock =>
      refine runs_after fun out db' h => ?_
      rcases RefundLifecycle.complete_commit h with heffect | heffect
      · exact runs_single heffect (Or.inl rfl)
      · exact runs_single heffect (Or.inr rfl)
  | receiveEvent id provider eventId kind objectId referenceId now =>
      exact runs_getD rfl fun db' h => Reconciliation.receiveEvent_effect h
  | processInbox limit skip pick now =>
      exact runs_getD rfl fun db' h => Reconciliation.processInbox_effect h
  | claimPayments limit maxBackoff leaseToken skip now =>
      exact runs_single (Reconciliation.claimPayments_effect _ _ _ _ _ _) rfl
  | claimRefunds limit maxBackoff leaseToken skip now =>
      exact runs_single (Reconciliation.claimRefunds_effect _ _ _ _ _ _) rfl
  | recordProviderPayment attemptId paymentId status leaseToken now =>
      exact runs_getD rfl fun db' h => Reconciliation.recordProviderPayment_effect h
  | schedulePaymentRetry attemptId now =>
      exact runs_single (Reconciliation.schedulePaymentRetry_effect _ _ _) rfl
  | releaseLease attemptId leaseToken =>
      exact runs_single (Reconciliation.releaseLease_effect _ _ _) rfl
  | deferRefund refundId leaseToken slow now =>
      exact runs_single (Reconciliation.deferRefund_effect _ _ _ _ _) rfl
  | recordRefund refundId providerRefundId status leaseToken now =>
      exact runs_single (Reconciliation.recordRefund_effect _ _ _ _ _ _) rfl

/-- The state after a sequence of transactions. -/
def applyAll (txs : List Transaction) (db : Db) : Db :=
  txs.foldl (fun db tx => tx.apply db) db

theorem applyAll_cons (tx : Transaction) (txs : List Transaction) (db : Db) :
    applyAll (tx :: txs) db = applyAll txs (tx.apply db) := rfl

theorem applyAll_append (txs later : List Transaction) (db : Db) :
    applyAll (txs ++ later) db = applyAll later (applyAll txs db) := by
  unfold applyAll
  rw [List.foldl_append]

theorem rowsRelate_find {ρ : Type} {R : ρ → ρ → Prop} {t t' : Table String ρ}
    (h : RowsRelate R t t') {k : String} {row' : ρ} (hrow : t'.find k = some row') :
    ∃ row, t.find k = some row ∧ R row row' := by
  rcases h k with ⟨-, hnone⟩ | ⟨row, found, hfind, hfound, hR⟩
  · rw [hrow] at hnone
    cases hnone
  · rw [hrow] at hfound
    cases hfound
    exact ⟨row, hfind, hR⟩

theorem rowsRelate_find_old {ρ : Type} {R : ρ → ρ → Prop} {t t' : Table String ρ}
    (h : RowsRelate R t t') {k : String} {row : ρ} (hrow : t.find k = some row) :
    ∃ row', t'.find k = some row' ∧ R row row' := by
  rcases h k with ⟨hnone, -⟩ | ⟨found, row', hfound, hfind, hR⟩
  · rw [hrow] at hnone
    cases hnone
  · rw [hrow] at hfound
    cases hfound
    exact ⟨row', hfind, hR⟩

/-- No effect opens a second PROCESSING attempt of an order. -/
theorem oneProcessing_effect {a : Action} {db db' : Db} (heffect : Effect a db db')
    (hone : OneProcessing db.ledger.attempts) : OneProcessing db'.ledger.attempts := by
  cases heffect with
  | reserve _ ledger => rw [ledger]; exact hone
  | close _ _ ledger _ => rw [ledger]; exact hone
  | requestRefund _ attempts => rw [attempts]; exact hone
  | settleRefund _ attempts => rw [attempts]; exact hone
  | revoke _ attempts => rw [attempts]; exact hone
  | timeOut _ _ _ _ _ timedOut _ _ attempts =>
      exact OrderLifecycle.oneProcessing_of_replaced attempts (by simp [timedOut]) hone
  | accept _ _ _ succeeded _ _ attempts =>
      exact OrderLifecycle.oneProcessing_of_replaced attempts (by simp [succeeded]) hone
  | decline _ _ _ failed _ _ attempts =>
      exact OrderLifecycle.oneProcessing_of_replaced attempts (by simp [failed]) hone
  | capture _ _ _ _ succeeded _ _ attempts =>
      exact OrderLifecycle.oneProcessing_of_replaced attempts (by simp [succeeded]) hone
  | start _ _ _ _ alone _ _ attempts =>
      intro k k' r r' hr hr' hp hp' hid
      rcases attempts.cases hr with ⟨rfl, rfl⟩ | hold
      · rcases attempts.cases hr' with ⟨rfl, rfl⟩ | hold'
        · rfl
        · exact absurd hp' (alone k' r' hold' hid.symm)
      · rcases attempts.cases hr' with ⟨rfl, rfl⟩ | hold'
        · exact absurd hp (alone k r hold hid)
        · exact hone k k' r r' hold hold' hp hp' hid
  | sync _ attempts _ =>
      intro k k' r r' hr hr' hp hp' hid
      obtain ⟨row, hrow, hsynced⟩ := rowsRelate_find attempts hr
      obtain ⟨row', hrow', hsynced'⟩ := rowsRelate_find attempts hr'
      refine hone k k' row row' hrow hrow' ?_ ?_ ?_
      · rw [← hsynced.status, hp]
      · rw [← hsynced'.status, hp']
      · rw [← hsynced.orderId, ← hsynced'.orderId, hid]

/-- What every effect under a label condition preserves next to the unique index, every run of
transactions that leave such labels does. -/
theorem applyAll_preserves {I : Db → Prop} {P : Action → Prop}
    (hstep : ∀ a db db', P a → I db → Effect a db db' → I db') (txs : List Transaction) {db : Db}
    (hP : ∀ tx ∈ txs, ∀ a, tx.Allows a → P a) (hone : OneProcessing db.ledger.attempts)
    (hI : I db) : OneProcessing (applyAll txs db).ledger.attempts ∧ I (applyAll txs db) := by
  induction txs generalizing db with
  | nil => exact ⟨hone, hI⟩
  | cons tx txs ih =>
      obtain ⟨actions, htrace, hallows⟩ := tx.apply_runs hone
      have hlabels : ∀ a ∈ actions, P a := fun a ha => hP tx List.mem_cons_self a (hallows a ha)
      rw [applyAll_cons]
      apply ih
      · exact fun tx htx => hP tx (List.mem_cons_of_mem _ htx)
      · exact htrace.invariant (I := fun db => OneProcessing db.ledger.attempts)
          (fun _ _ _ hs hst => oneProcessing_effect hst hs) hone
      · exact htrace.preserves hstep hlabels hI

theorem applyAll_invariant {I : Db → Prop} (hstep : ∀ a db db', I db → Effect a db db' → I db')
    (txs : List Transaction) {db : Db} (hone : OneProcessing db.ledger.attempts) (hI : I db) :
    OneProcessing (applyAll txs db).ledger.attempts ∧ I (applyAll txs db) :=
  applyAll_preserves (P := fun _ => True) (fun a db db' _ => hstep a db db') txs
    (fun _ _ _ _ => trivial) hone hI

end Ticketing
