import Ticketing.PaymentPriority

/-!
# When a payment starts in time

Whether the order has expired is read under its lock, the start of the attempt
when its row is inserted. An attempt is started in time exactly when the clock
does not pass the expiry between the two readings.
-/

namespace Ticketing

open Relational

namespace PaymentFlow

/-- The attempt began before its order expires. Its success, processed before its deadline and
before any cancel or other accepted attempt, is accepted and pays the order. -/
structure InTime (created : Db) (orderId attemptId : String) (attempt : AttemptRow)
    (order : OrderRow) : Prop where
  attempts : created.ledger.attempts.find attemptId = some attempt
  orders : created.inventory.orders.find orderId = some order
  started : attempt.startedAt < order.expiresAt
  accepted : ∀ (later : List Transaction) (success : Transaction) (clock : OrderLifecycle.Clock),
    (∀ tx ∈ later, tx.Spares orderId attemptId) →
    ((later ++ [success]).flatMap (Transaction.lockedReadings orderId)).Pairwise (· ≤ ·) →
    success.SuccessOf orderId attemptId clock (applyAll later created) →
    clock.lockAttempt < attempt.processingDeadline →
    ¬ (applyAll later created).Beaten attemptId orderId →
    Effect (.accept attemptId orderId) (applyAll later created)
        (success.apply (applyAll later created)) ∧
      (success.apply (applyAll later created)).PaidUp orderId

/-- The clock does not pass the expiry of the order from the statement that locks it to the one
that inserts the attempt. -/
def StartState.Prompt (state : StartState) (order : OrderRow) : Prop :=
  order.expiresAt ≤ state.clock.lockOrder ∨ state.clock.createAttempt < order.expiresAt

/-- What a payment start that made a new attempt has read and written. -/
structure StartedNew (state : StartState) (db created : Db) (attemptId : String)
    (attempt : AttemptRow) (order : OrderRow) : Prop where
  before : db.inventory.orders.find state.orderId = some order
  orders : created.inventory.orders.find state.orderId = some order
  unexpired : state.clock.lockOrder < order.expiresAt
  attempts : created.ledger.attempts.find attemptId = some attempt
  startedAt : attempt.startedAt = state.clock.createAttempt

theorem createAttempt_startedAt {state : StartState} {db created : Db} {attemptId : String}
    (h : createAttempt state db = .commit (.startProvider attemptId .startedNew) created) :
    ∃ attempt, created.ledger.attempts.find attemptId = some attempt ∧
      attempt.startedAt = state.clock.createAttempt := by
  unfold createAttempt at h
  simp only at h
  split at h
  · cases h
  rename_i attempts hcreate
  cases h
  unfold PaymentRepository.createAttempt at hcreate
  simp only at hcreate
  split at hcreate
  · cases hcreate
  exact ⟨_, (Table.inserted_of_insert hcreate).find_self, rfl⟩

/-- The attempt is created in the transaction's own step after the last guard on the order. -/
theorem inspectProcessingAttempt_created {state : StartState} {row : ExpirableOrderRow}
    {attempt : Option LockedPaymentAttempt} {db created : Db} {attemptId : String}
    (h : inspectProcessingAttempt state row attempt db =
      .commit (.startProvider attemptId .startedNew) created) :
    row.expired = false ∧ ∃ middle, middle.inventory = db.inventory ∧
      createAttempt state middle = .commit (.startProvider attemptId .startedNew) created := by
  cases attempt with
  | none =>
      simp only [inspectProcessingAttempt] at h
      split_ifs at h with hexpired
      exact ⟨Bool.eq_false_of_not_eq_true hexpired, db, rfl, h⟩
  | some locked =>
      simp only [inspectProcessingAttempt, timeOutAttempt] at h
      split_ifs at h with hlive hcount hexpired
      · cases h
      · cases h
      · refine ⟨Bool.eq_false_of_not_eq_true hexpired, _, ?_, h⟩
        rfl

theorem startPayment_startedNew {state : StartState} {db created : Db} {attemptId : String}
    (h : startPayment state db = .commit (.startProvider attemptId .startedNew) created) :
    ∃ attempt order, StartedNew state db created attemptId attempt order := by
  unfold startPayment lockOrder OrderRepository.lockOrderForUser at h
  split at h
  · cases h
  cases horder : (db.inventory.orders.find state.orderId).filter
      fun row => decide (row.userId = state.userId) with
  | none => rw [horder] at h; cases h
  | some order =>
      rw [horder] at h
      obtain ⟨hfound, -⟩ := Option.filter_eq_some_iff.mp horder
      simp only [Option.map_some, inspectOrder] at h
      cases hstatus :
          (OrderRepository.expirable state.orderId order state.clock.lockOrder).status with
      | paid => rw [hstatus] at h; cases h
      | cancelled => rw [hstatus] at h; cases h
      | expired => rw [hstatus] at h; cases h
      | pendingPayment =>
          rw [hstatus] at h
          obtain ⟨hexpired, middle, hmiddle, hcreate⟩ := inspectProcessingAttempt_created h
          obtain ⟨attempt, hattempt, hstarted⟩ := createAttempt_startedAt hcreate
          have hinventory := (createAttempt_started hcreate).1.trans hmiddle
          have hunexpired : state.clock.lockOrder < order.expiresAt := by
            simpa [OrderRepository.expirable] using hexpired
          exact ⟨attempt, order, hfound, by rw [hinventory]; exact hfound, hunexpired, hattempt,
            hstarted⟩

theorem StartedNew.started_iff {state : StartState} {db created : Db} {attemptId : String}
    {attempt : AttemptRow} {order : OrderRow}
    (h : StartedNew state db created attemptId attempt order) :
    attempt.startedAt < order.expiresAt ↔ state.Prompt order := by
  rw [h.startedAt]
  constructor
  · exact Or.inr
  · rintro (hexpired | hcreated)
    · exact absurd h.unexpired (not_lt.mpr hexpired)
    · exact hcreated

/-- In every run, a new attempt is in time exactly when the clock did not pass the expiry of its
order while the start was running. -/
theorem startPayment_inTime_iff (earlier : List Transaction) (db created : Db)
    (state : StartState) (attemptId : String) (hfresh : db.Fresh)
    (hstart : startPayment state (applyAll earlier db) =
      .commit (.startProvider attemptId .startedNew) created) :
    ∃ attempt order, StartedNew state (applyAll earlier db) created attemptId attempt order ∧
      (InTime created state.orderId attemptId attempt order ↔ state.Prompt order) := by
  obtain ⟨attempt, order, hnew⟩ := startPayment_startedNew hstart
  refine ⟨attempt, order, hnew, fun h => hnew.started_iff.mp h.started, fun hprompt => ?_⟩
  have hstarted := hnew.started_iff.mpr hprompt
  refine ⟨hnew.attempts, hnew.orders, hstarted, ?_⟩
  intro later success clock hspares hclock hsuccess hdeadline hbeaten
  obtain ⟨hid, hawaits⟩ := awaits_of_start earlier later hfresh hstart hnew.attempts hnew.orders
    hstarted hspares hclock hsuccess hdeadline
  rw [← hid] at hsuccess hbeaten ⊢
  have hlive := hawaits.waiting.resolve_right hbeaten
  have heffect := hlive.accepted hawaits.sound hsuccess hdeadline
  exact ⟨heffect, paidUp_of_accept hawaits.sound heffect⟩

theorem startPayment_inTime_singleSeat :
    ∃ attempt order, StartedNew (singleSeatPayment "1" 900000000)
        (applyAll [reserveSingleSeat "1" "1" "key"] singleSeat) startedSingleSeat "PAY-1" attempt
        order ∧
      (InTime startedSingleSeat "TKT-1" "PAY-1" attempt order ↔
        (singleSeatPayment "1" 900000000).Prompt order) :=
  startPayment_inTime_iff [reserveSingleSeat "1" "1" "key"] singleSeat startedSingleSeat
    (singleSeatPayment "1" 900000000) "PAY-1" singleSeat_fresh rfl

/-- The order is read ten microseconds before its expiry and the attempt inserted ten after. -/
def slowSingleSeatPayment : StartState :=
  { singleSeatPayment "1" 900000000 with
    clock := ⟨900000000, 900000000, 900000000, 900000020⟩ }

def lateSingleSeat : Db :=
  applyAll [.startPayment slowSingleSeatPayment]
    (applyAll [reserveSingleSeat "1" "1" "key"] singleSeat)

/-- The start commits an attempt that began after the expiry. Its success, next in line and long
before the deadline of the attempt, expires the order and asks for a refund. -/
theorem startPayment_not_inTime :
    startPayment slowSingleSeatPayment (applyAll [reserveSingleSeat "1" "1" "key"] singleSeat) =
        .commit (.startProvider "PAY-1" .startedNew) lateSingleSeat ∧
      (∃ attempt order, lateSingleSeat.ledger.attempts.find "PAY-1" = some attempt ∧
        lateSingleSeat.inventory.orders.find "TKT-1" = some order ∧
        order.expiresAt < attempt.startedAt ∧ 900000030 < attempt.processingDeadline) ∧
      (∀ attempt order, ¬ InTime lateSingleSeat "TKT-1" "PAY-1" attempt order) ∧
      ((Transaction.completeProviderPayment "TKT-1" "PAY-1" singleSeatSuccess (.at 900000030)
          "1").apply lateSingleSeat).ledger.refunds.rows.length = 1 ∧
      (((Transaction.completeProviderPayment "TKT-1" "PAY-1" singleSeatSuccess (.at 900000030)
          "1").apply lateSingleSeat).inventory.orders.find "TKT-1").map OrderRow.status =
        some .expired := by
  have hlate : ∃ attempt order, lateSingleSeat.ledger.attempts.find "PAY-1" = some attempt ∧
      lateSingleSeat.inventory.orders.find "TKT-1" = some order ∧
      order.expiresAt < attempt.startedAt ∧ 900000030 < attempt.processingDeadline :=
    ⟨_, _, rfl, rfl, by decide, by decide⟩
  refine ⟨rfl, hlate, fun attempt order h => ?_, by decide, by decide⟩
  obtain ⟨started, expiring, hattempt, horder, hexpired, -⟩ := hlate
  cases hattempt.symm.trans h.attempts
  cases horder.symm.trans h.orders
  exact absurd h.started (not_lt.mpr hexpired.le)

end PaymentFlow
end Ticketing
