import Ticketing.Inventory

/-!
# The payment ledger invariant

Each payment that succeeded is either the accepted one of its order or carries
one system refund of the order total, and an order is paid, or was paid and
refunded to the buyer, exactly when it has its accepted payment.
-/

namespace Ticketing

open Relational Transition

/-- The order is paid, or was paid before its buyer refund. -/
def OrderRow.Settled (order : OrderRow) : Prop :=
  order.status = .paid ∨ (order.status = .cancelled ∧ order.refundedAt.isSome)

/-- The invariant in the form one effect preserves. -/
structure Db.Balanced (db : Db) : Prop where
  ordered : ∀ a row, db.ledger.attempts.find a = some row →
    ∃ order, db.inventory.orders.find row.orderId = some order
  succeeded : ∀ a row, db.ledger.attempts.find a = some row → row.acceptedAt.isSome →
    row.status = .succeeded
  acceptedOnce : ∀ a b row row', db.ledger.attempts.find a = some row →
    db.ledger.attempts.find b = some row' → row.acceptedAt.isSome → row'.acceptedAt.isSome →
    row.orderId = row'.orderId → a = b
  settled : ∀ a row order, db.ledger.attempts.find a = some row → row.acceptedAt.isSome →
    db.inventory.orders.find row.orderId = some order → order.Settled
  settledBy : ∀ o order, db.inventory.orders.find o = some order → order.Settled →
    ∃ a row, db.ledger.attempts.find a = some row ∧ row.orderId = o ∧ row.acceptedAt.isSome
  unrefunded : ∀ o order, db.inventory.orders.find o = some order → order.status ≠ .cancelled →
    order.refundedAt = none
  refundOf : ∀ f refund, db.ledger.refunds.find f = some refund →
    ∃ row, db.ledger.attempts.find refund.paymentAttemptId = some row ∧
      row.status = .succeeded ∧ (refund.source = .system → row.acceptedAt = none)
  refundedOnce : ∀ f g refund refund', db.ledger.refunds.find f = some refund →
    db.ledger.refunds.find g = some refund' →
    refund.paymentAttemptId = refund'.paymentAttemptId → f = g
  captured : ∀ a row order, db.ledger.attempts.find a = some row → row.status = .succeeded →
    row.acceptedAt = none → db.inventory.orders.find row.orderId = some order →
    ∃ f refund, db.ledger.refunds.find f = some refund ∧ refund.paymentAttemptId = a ∧
      refund.source = .system ∧ refund.amount = order.totalAmount

theorem Db.Fresh.balanced {db : Db} (h : db.Fresh) : db.Balanced := by
  have hattempts := Table.find_of_rows_nil h.attempts
  have hrefunds := Table.find_of_rows_nil h.refunds
  have horders := Table.find_of_rows_nil h.inventory.orders
  constructor <;> simp [hattempts, hrefunds, horders]

theorem AttemptRow.Unsettled.ne_succeeded {row : AttemptRow} (h : row.Unsettled) :
    row.status ≠ .succeeded := by
  rcases h with h | h <;> simp [h]

theorem AttemptRow.Unsettled.unaccepted {db : Db} (hb : db.Balanced) {a : String}
    {row : AttemptRow} (hrow : db.ledger.attempts.find a = some row) (h : row.Unsettled) :
    row.acceptedAt = none := by
  cases haccepted : row.acceptedAt with
  | none => rfl
  | some t => exact absurd (hb.succeeded a row hrow (by simp [haccepted])) h.ne_succeeded

/-- An open attempt has no refund. -/
theorem Db.Balanced.no_refund {db : Db} (hb : db.Balanced) {a : String} {row : AttemptRow}
    (hrow : db.ledger.attempts.find a = some row) (h : row.Unsettled) (f : String)
    (refund : RefundRow) (hrefund : db.ledger.refunds.find f = some refund) :
    refund.paymentAttemptId ≠ a := by
  rintro rfl
  obtain ⟨found, hfound, hsucceeded, -⟩ := hb.refundOf f refund hrefund
  rw [hrow] at hfound
  cases hfound
  exact h.ne_succeeded hsucceeded

/-- A pending order has no accepted attempt. -/
theorem Db.Balanced.unaccepted_of_pending {db : Db} (hb : db.Balanced) {a o : String}
    {row : AttemptRow} {order : OrderRow} (hrow : db.ledger.attempts.find a = some row)
    (hid : row.orderId = o) (horder : db.inventory.orders.find o = some order)
    (hpending : order.status = .pendingPayment) : row.acceptedAt = none := by
  cases haccepted : row.acceptedAt with
  | none => rfl
  | some t =>
      have hsettled := hb.settled a row order hrow (by simp [haccepted]) (hid ▸ horder)
      rcases hsettled with h | ⟨h, -⟩ <;> simp [hpending] at h

section Steps

variable {db db' : Db}

theorem Db.Balanced.reserve {reservationId orderId : String} {reservation : ReservationRow}
    {order : OrderRow} {seatIds : List String} (hb : db.Balanced)
    (h : Reserves reservationId reservation orderId order seatIds db.inventory db'.inventory)
    (hledger : db'.ledger = db.ledger) : db'.Balanced := by
  have hnew : ∀ a row, db.ledger.attempts.find a = some row → row.orderId ≠ orderId := by
    rintro a row hrow rfl
    obtain ⟨found, hfound⟩ := hb.ordered a row hrow
    rw [h.orders.fresh] at hfound
    cases hfound
  have hold : ∀ a row x, db.ledger.attempts.find a = some row →
      db'.inventory.orders.find row.orderId = some x →
      db.inventory.orders.find row.orderId = some x := by
    intro a row x hrow hx
    rwa [h.orders.find_of_ne (hnew a row hrow)] at hx
  constructor <;> (try rw [hledger])
  case ordered =>
    intro a row hrow
    obtain ⟨x, hx⟩ := hb.ordered a row hrow
    exact ⟨x, h.orders.find_old hx⟩
  case succeeded => exact hb.succeeded
  case acceptedOnce => exact hb.acceptedOnce
  case settled => exact fun a row x hrow ha hx => hb.settled a row x hrow ha (hold a row x hrow hx)
  case settledBy =>
    intro o x hx hsettled
    rcases h.orders.cases hx with ⟨-, rfl⟩ | hx
    · rcases hsettled with hs | ⟨hs, -⟩ <;> simp [h.pending] at hs
    · exact hb.settledBy o x hx hsettled
  case unrefunded =>
    intro o x hx hne
    rcases h.orders.cases hx with ⟨-, rfl⟩ | hx
    · exact h.refundedAt
    · exact hb.unrefunded o x hx hne
  case refundOf => exact hb.refundOf
  case refundedOnce => exact hb.refundedOnce
  case captured =>
    exact fun a row x hrow hs ha hx => hb.captured a row x hrow hs ha (hold a row x hrow hx)

theorem Db.Balanced.start {attemptId : String} {row : AttemptRow} {order : OrderRow}
    (hb : db.Balanced) (hinv : db'.inventory = db.inventory)
    (hrefunds : db'.ledger.refunds = db.ledger.refunds)
    (horder : db.inventory.orders.find row.orderId = some order)
    (hprocessing : row.status = .processing) (hunaccepted : row.acceptedAt = none)
    (h : db.ledger.attempts.Inserted attemptId row db'.ledger.attempts) : db'.Balanced := by
  constructor <;> (try rw [hinv]) <;> (try rw [hrefunds])
  case ordered =>
    intro a found hfound
    rcases h.cases hfound with ⟨-, rfl⟩ | hold
    · exact ⟨order, horder⟩
    · exact hb.ordered a found hold
  case succeeded =>
    intro a found hfound haccepted
    rcases h.cases hfound with ⟨-, rfl⟩ | hold
    · simp [hunaccepted] at haccepted
    · exact hb.succeeded a found hold haccepted
  case acceptedOnce =>
    intro a b x y hx hy ha hb' hid
    rcases h.cases hx with ⟨-, rfl⟩ | hx
    · simp [hunaccepted] at ha
    · rcases h.cases hy with ⟨-, rfl⟩ | hy
      · simp [hunaccepted] at hb'
      · exact hb.acceptedOnce a b x y hx hy ha hb' hid
  case settled =>
    intro a found x hfound haccepted hx
    rcases h.cases hfound with ⟨-, rfl⟩ | hold
    · simp [hunaccepted] at haccepted
    · exact hb.settled a found x hold haccepted hx
  case settledBy =>
    intro o x hx hsettled
    obtain ⟨a, found, hfound, hid, haccepted⟩ := hb.settledBy o x hx hsettled
    exact ⟨a, found, h.find_old hfound, hid, haccepted⟩
  case unrefunded => exact hb.unrefunded
  case refundOf =>
    intro f refund hrefund
    obtain ⟨found, hfound, hrest⟩ := hb.refundOf f refund hrefund
    exact ⟨found, h.find_old hfound, hrest⟩
  case refundedOnce => exact hb.refundedOnce
  case captured =>
    intro a found x hfound hsucceeded hnone hx
    rcases h.cases hfound with ⟨-, rfl⟩ | hold
    · simp [hprocessing] at hsucceeded
    · exact hb.captured a found x hold hsucceeded hnone hx

/-- A time-out or a failure: the attempt stays unaccepted and does not succeed. -/
theorem Db.Balanced.unsuccessful {attemptId : String} {row row' : AttemptRow}
    (hb : db.Balanced) (hinv : db'.inventory = db.inventory)
    (hrefunds : db'.ledger.refunds = db.ledger.refunds) (hunsettled : row.Unsettled)
    (hfailed : row'.status ≠ .succeeded) (hunaccepted : row'.acceptedAt = none)
    (hcont : row.Continues row')
    (h : db.ledger.attempts.Replaced attemptId row row' db'.ledger.attempts) : db'.Balanced := by
  constructor <;> (try rw [hinv]) <;> (try rw [hrefunds])
  case ordered =>
    intro a found hfound
    rcases h.cases hfound with ⟨-, rfl⟩ | ⟨-, hold⟩
    · rw [hcont.orderId]
      exact hb.ordered attemptId row h.found
    · exact hb.ordered a found hold
  case succeeded =>
    intro a found hfound haccepted
    rcases h.cases hfound with ⟨-, rfl⟩ | ⟨-, hold⟩
    · simp [hunaccepted] at haccepted
    · exact hb.succeeded a found hold haccepted
  case acceptedOnce =>
    intro a b x y hx hy ha hb' hid
    rcases h.cases hx with ⟨-, rfl⟩ | ⟨-, hx⟩
    · simp [hunaccepted] at ha
    · rcases h.cases hy with ⟨-, rfl⟩ | ⟨-, hy⟩
      · simp [hunaccepted] at hb'
      · exact hb.acceptedOnce a b x y hx hy ha hb' hid
  case settled =>
    intro a found x hfound haccepted hx
    rcases h.cases hfound with ⟨-, rfl⟩ | ⟨-, hold⟩
    · simp [hunaccepted] at haccepted
    · exact hb.settled a found x hold haccepted hx
  case settledBy =>
    intro o x hx hsettled
    obtain ⟨a, found, hfound, hid, haccepted⟩ := hb.settledBy o x hx hsettled
    refine ⟨a, found, ?_, hid, haccepted⟩
    rw [h.find_of_ne]
    · exact hfound
    · rintro rfl
      rw [h.found] at hfound
      cases hfound
      simp [AttemptRow.Unsettled.unaccepted hb h.found hunsettled] at haccepted
  case unrefunded => exact hb.unrefunded
  case refundOf =>
    intro f refund hrefund
    obtain ⟨found, hfound, hrest⟩ := hb.refundOf f refund hrefund
    refine ⟨found, ?_, hrest⟩
    rw [h.find_of_ne (hb.no_refund h.found hunsettled f refund hrefund)]
    exact hfound
  case refundedOnce => exact hb.refundedOnce
  case captured =>
    intro a found x hfound hsucceeded hnone hx
    rcases h.cases hfound with ⟨-, rfl⟩ | ⟨-, hold⟩
    · exact absurd hsucceeded hfailed
    · exact hb.captured a found x hold hsucceeded hnone hx

/-- The orders after a settlement: the settled one keeps its total, the others are as before. -/
theorem Settles.order_cases {kind : Settlement} {orderId : String} {order order' x : OrderRow}
    {inv inv' : Inventory} (h : Settles kind orderId order order' inv inv') {o : String}
    (hx : inv'.orders.find o = some x) :
    (o = orderId ∧ x = order') ∨ (o ≠ orderId ∧ inv.orders.find o = some x) :=
  h.orders.cases hx

theorem Settles.exists_order {kind : Settlement} {orderId : String} {order order' : OrderRow}
    {inv inv' : Inventory} (h : Settles kind orderId order order' inv inv') {o : String}
    (hx : ∃ x, inv.orders.find o = some x) : ∃ x, inv'.orders.find o = some x := by
  by_cases ho : o = orderId
  · exact ⟨order', ho ▸ h.orders.find_self⟩
  · rw [h.orders.find_of_ne ho]
    exact hx

/-- The total of an order is the same before and after a settlement. -/
theorem Settles.total_before {kind : Settlement} {orderId : String} {order order' x : OrderRow}
    {inv inv' : Inventory} (h : Settles kind orderId order order' inv inv') {o : String}
    (hx : inv'.orders.find o = some x) :
    ∃ y, inv.orders.find o = some y ∧ y.totalAmount = x.totalAmount := by
  rcases h.order_cases hx with ⟨rfl, rfl⟩ | ⟨-, hold⟩
  · exact ⟨order, h.orders.found, h.continues.totalAmount.symm⟩
  · exact ⟨x, hold, rfl⟩

theorem Db.Balanced.accept {attemptId : String} {row row' : AttemptRow} {order order' : OrderRow}
    (hb : db.Balanced)
    (hsettles : Settles .paid row.orderId order order' db.inventory db'.inventory)
    (hrefunds : db'.ledger.refunds = db.ledger.refunds) (hunsettled : row.Unsettled)
    (hsucceeded : row'.status = .succeeded) (haccepted : row'.acceptedAt.isSome)
    (hcont : row.Continues row')
    (h : db.ledger.attempts.Replaced attemptId row row' db'.ledger.attempts) : db'.Balanced := by
  have hnone : ∀ a found, db.ledger.attempts.find a = some found → found.orderId = row.orderId →
      found.acceptedAt = none := fun a found hfound hid =>
    hb.unaccepted_of_pending hfound hid hsettles.orders.found hsettles.before
  constructor <;> (try rw [hrefunds])
  case ordered =>
    intro a found hfound
    rcases h.cases hfound with ⟨-, rfl⟩ | ⟨-, hold⟩
    · rw [hcont.orderId]
      exact ⟨order', hsettles.orders.find_self⟩
    · exact hsettles.exists_order (hb.ordered a found hold)
  case succeeded =>
    intro a found hfound ha
    rcases h.cases hfound with ⟨-, rfl⟩ | ⟨-, hold⟩
    · exact hsucceeded
    · exact hb.succeeded a found hold ha
  case acceptedOnce =>
    intro a b x y hx hy ha hb' hid
    rcases h.cases hx with ⟨rfl, rfl⟩ | ⟨-, hx⟩
    · rcases h.cases hy with ⟨rfl, rfl⟩ | ⟨-, hy⟩
      · rfl
      · rw [hcont.orderId] at hid
        simp [hnone b y hy hid.symm] at hb'
    · rcases h.cases hy with ⟨rfl, rfl⟩ | ⟨-, hy⟩
      · rw [hcont.orderId] at hid
        simp [hnone a x hx hid] at ha
      · exact hb.acceptedOnce a b x y hx hy ha hb' hid
  case settled =>
    intro a found x hfound ha hx
    rcases hsettles.order_cases hx with ⟨-, rfl⟩ | ⟨hne, hold⟩
    · exact Or.inl hsettles.after
    · rcases h.cases hfound with ⟨-, rfl⟩ | ⟨-, hfound⟩
      · exact absurd hcont.orderId hne
      · exact hb.settled a found x hfound ha hold
  case settledBy =>
    intro o x hx hsettled
    rcases hsettles.order_cases hx with ⟨rfl, rfl⟩ | ⟨hne, hold⟩
    · exact ⟨attemptId, row', h.find_self, hcont.orderId, haccepted⟩
    · obtain ⟨a, found, hfound, hid, ha⟩ := hb.settledBy o x hold hsettled
      refine ⟨a, found, ?_, hid, ha⟩
      rw [h.find_of_ne]
      · exact hfound
      · rintro rfl
        rw [h.found] at hfound
        cases hfound
        exact hne hid.symm
  case unrefunded =>
    intro o x hx hne
    rcases hsettles.order_cases hx with ⟨rfl, rfl⟩ | ⟨-, hold⟩
    · have hkept := hsettles.refundedAt
      rw [if_neg (by simp)] at hkept
      rw [hkept]
      exact hb.unrefunded _ order hsettles.orders.found (by rw [hsettles.before]; exact nofun)
    · exact hb.unrefunded o x hold hne
  case refundOf =>
    intro f refund hrefund
    obtain ⟨found, hfound, hrest⟩ := hb.refundOf f refund hrefund
    refine ⟨found, ?_, hrest⟩
    rw [h.find_of_ne (hb.no_refund h.found hunsettled f refund hrefund)]
    exact hfound
  case refundedOnce => exact hb.refundedOnce
  case captured =>
    intro a found x hfound hs hn hx
    rcases h.cases hfound with ⟨-, rfl⟩ | ⟨-, hold⟩
    · simp [hn] at haccepted
    · obtain ⟨y, hy, htotal⟩ := hsettles.total_before hx
      rw [← htotal]
      exact hb.captured a found y hold hs hn hy

theorem Db.Balanced.capture {attemptId : String} {row row' : AttemptRow} {order : OrderRow}
    (hb : db.Balanced) (hinv : db'.inventory = db.inventory)
    (horder : db.inventory.orders.find row.orderId = some order)
    (hsystem : RefundsSystem attemptId row.orderId order.totalAmount db.ledger.refunds
      db'.ledger.refunds) (hunsettled : row.Unsettled) (hsucceeded : row'.status = .succeeded)
    (hunaccepted : row'.acceptedAt = none) (hcont : row.Continues row')
    (h : db.ledger.attempts.Replaced attemptId row row' db'.ledger.attempts) : db'.Balanced := by
  rcases hsystem.result with ⟨refundId, new, hsource, hattempt, -, hamount, hsingle, hinsert⟩ |
    ⟨-, f, refund, hrefund, hid⟩
  swap
  · exact absurd hid (hb.no_refund h.found hunsettled f refund hrefund)
  constructor <;> (try rw [hinv])
  case ordered =>
    intro a found hfound
    rcases h.cases hfound with ⟨-, rfl⟩ | ⟨-, hold⟩
    · rw [hcont.orderId]
      exact ⟨order, horder⟩
    · exact hb.ordered a found hold
  case succeeded =>
    intro a found hfound ha
    rcases h.cases hfound with ⟨-, rfl⟩ | ⟨-, hold⟩
    · exact hsucceeded
    · exact hb.succeeded a found hold ha
  case acceptedOnce =>
    intro a b x y hx hy ha hb' hid
    rcases h.cases hx with ⟨-, rfl⟩ | ⟨-, hx⟩
    · simp [hunaccepted] at ha
    · rcases h.cases hy with ⟨-, rfl⟩ | ⟨-, hy⟩
      · simp [hunaccepted] at hb'
      · exact hb.acceptedOnce a b x y hx hy ha hb' hid
  case settled =>
    intro a found x hfound ha hx
    rcases h.cases hfound with ⟨-, rfl⟩ | ⟨-, hold⟩
    · simp [hunaccepted] at ha
    · exact hb.settled a found x hold ha hx
  case settledBy =>
    intro o x hx hsettled
    obtain ⟨a, found, hfound, hid, ha⟩ := hb.settledBy o x hx hsettled
    refine ⟨a, found, ?_, hid, ha⟩
    rw [h.find_of_ne]
    · exact hfound
    · rintro rfl
      rw [h.found] at hfound
      cases hfound
      simp [AttemptRow.Unsettled.unaccepted hb h.found hunsettled] at ha
  case unrefunded => exact hb.unrefunded
  case refundOf =>
    intro f refund hrefund
    rcases hinsert.cases hrefund with ⟨-, rfl⟩ | hold
    · exact ⟨row', by rw [hattempt]; exact h.find_self, hsucceeded, fun _ => hunaccepted⟩
    · obtain ⟨found, hfound, hrest⟩ := hb.refundOf f refund hold
      refine ⟨found, ?_, hrest⟩
      rw [h.find_of_ne (hb.no_refund h.found hunsettled f refund hold)]
      exact hfound
  case refundedOnce =>
    intro f g x y hx hy hid
    rcases hinsert.cases hx with ⟨rfl, rfl⟩ | hx
    · rcases hinsert.cases hy with ⟨rfl, rfl⟩ | hy
      · rfl
      · exact absurd (hid.symm.trans hattempt) (hsingle g y hy)
    · rcases hinsert.cases hy with ⟨rfl, rfl⟩ | hy
      · exact absurd (hid.trans hattempt) (hsingle f x hx)
      · exact hb.refundedOnce f g x y hx hy hid
  case captured =>
    intro a found x hfound hs hn hx
    rcases h.cases hfound with ⟨rfl, rfl⟩ | ⟨-, hold⟩
    · rw [hcont.orderId, horder] at hx
      cases hx
      exact ⟨refundId, new, hinsert.find_self, hattempt, hsource, hamount⟩
    · obtain ⟨f, refund, hrefund, hrest⟩ := hb.captured a found x hold hs hn hx
      exact ⟨f, refund, hinsert.find_old hrefund, hrest⟩

/-- An order that ends without a payment had none accepted and gets no refund time. -/
theorem Db.Balanced.close {kind : Settlement} {orderId : String} {order order' : OrderRow}
    (hb : db.Balanced) (hclosing : kind = .cancelled ∨ kind = .expired)
    (hsettles : Settles kind orderId order order' db.inventory db'.inventory)
    (hledger : db'.ledger = db.ledger) : db'.Balanced := by
  have hkind : kind ≠ .refunded ∧ kind.orderBefore = .pendingPayment ∧ kind.orderAfter ≠ .paid := by
    rcases hclosing with rfl | rfl <;> simp [Settlement.orderBefore, Settlement.orderAfter]
  have hpending : order.status = .pendingPayment := hsettles.before.trans hkind.2.1
  have hrefundedAt : order'.refundedAt = none := by
    have hkept := hsettles.refundedAt
    rw [if_neg hkind.1] at hkept
    rw [hkept]
    exact hb.unrefunded orderId order hsettles.orders.found (by simp [hpending])
  have hunsettled : ¬ order'.Settled := by
    rintro (hpaid | ⟨-, hrefunded⟩)
    · exact hkind.2.2 (hsettles.after.symm.trans hpaid)
    · simp [hrefundedAt] at hrefunded
  constructor <;> (try rw [hledger])
  case ordered => exact fun a row hrow => hsettles.exists_order (hb.ordered a row hrow)
  case succeeded => exact hb.succeeded
  case acceptedOnce => exact hb.acceptedOnce
  case settled =>
    intro a row x hrow ha hx
    rcases hsettles.order_cases hx with ⟨hid, rfl⟩ | ⟨-, hold⟩
    · simp [hb.unaccepted_of_pending hrow hid hsettles.orders.found hpending] at ha
    · exact hb.settled a row x hrow ha hold
  case settledBy =>
    intro o x hx hsettled
    rcases hsettles.order_cases hx with ⟨-, rfl⟩ | ⟨-, hold⟩
    · exact absurd hsettled hunsettled
    · exact hb.settledBy o x hold hsettled
  case unrefunded =>
    intro o x hx hne
    rcases hsettles.order_cases hx with ⟨-, rfl⟩ | ⟨-, hold⟩
    · exact hrefundedAt
    · exact hb.unrefunded o x hold hne
  case refundOf => exact hb.refundOf
  case refundedOnce => exact hb.refundedOnce
  case captured =>
    intro a row x hrow hs hn hx
    obtain ⟨y, hy, htotal⟩ := hsettles.total_before hx
    rw [← htotal]
    exact hb.captured a row y hrow hs hn hy

theorem Db.Balanced.requestRefund {refundId : String} {refund : RefundRow} {attempt : AttemptRow}
    (hb : db.Balanced) (hinv : db'.inventory = db.inventory)
    (hattempts : db'.ledger.attempts = db.ledger.attempts)
    (hattempt : db.ledger.attempts.find refund.paymentAttemptId = some attempt)
    (haccepted : attempt.acceptedAt.isSome) (hbuyer : refund.source = .buyer)
    (hsingle : ∀ k row, db.ledger.refunds.find k = some row →
      row.paymentAttemptId ≠ refund.paymentAttemptId)
    (h : db.ledger.refunds.Inserted refundId refund db'.ledger.refunds) : db'.Balanced := by
  constructor <;> (try rw [hinv]) <;> (try rw [hattempts])
  case ordered => exact hb.ordered
  case succeeded => exact hb.succeeded
  case acceptedOnce => exact hb.acceptedOnce
  case settled => exact hb.settled
  case settledBy => exact hb.settledBy
  case unrefunded => exact hb.unrefunded
  case refundOf =>
    intro f found hfound
    rcases h.cases hfound with ⟨-, rfl⟩ | hold
    · refine ⟨attempt, hattempt, hb.succeeded _ attempt hattempt haccepted, fun hsystem => ?_⟩
      rw [hbuyer] at hsystem
      cases hsystem
    · exact hb.refundOf f found hold
  case refundedOnce =>
    intro f g x y hx hy hid
    rcases h.cases hx with ⟨rfl, rfl⟩ | hx
    · rcases h.cases hy with ⟨rfl, rfl⟩ | hy
      · rfl
      · exact absurd hid.symm (hsingle g y hy)
    · rcases h.cases hy with ⟨rfl, rfl⟩ | hy
      · exact absurd hid (hsingle f x hx)
      · exact hb.refundedOnce f g x y hx hy hid
  case captured =>
    intro a row x hrow hs hn hx
    obtain ⟨f, found, hfound, hrest⟩ := hb.captured a row x hrow hs hn hx
    exact ⟨f, found, h.find_old hfound, hrest⟩

/-- Refund rows may change everything but their attempt, amount and source. -/
theorem Db.Balanced.refundRows (hb : db.Balanced) (hinv : db'.inventory = db.inventory)
    (hattempts : db'.ledger.attempts = db.ledger.attempts)
    (h : RowsRelate RefundRow.Continues db.ledger.refunds db'.ledger.refunds) : db'.Balanced := by
  constructor <;> (try rw [hinv]) <;> (try rw [hattempts])
  case ordered => exact hb.ordered
  case succeeded => exact hb.succeeded
  case acceptedOnce => exact hb.acceptedOnce
  case settled => exact hb.settled
  case settledBy => exact hb.settledBy
  case unrefunded => exact hb.unrefunded
  case refundOf =>
    intro f refund hrefund
    obtain ⟨old, hold, hcont⟩ := rowsRelate_find h hrefund
    rw [hcont.paymentAttemptId, hcont.source]
    exact hb.refundOf f old hold
  case refundedOnce =>
    intro f g x y hx hy hid
    obtain ⟨x', hx', hcx⟩ := rowsRelate_find h hx
    obtain ⟨y', hy', hcy⟩ := rowsRelate_find h hy
    rw [hcx.paymentAttemptId, hcy.paymentAttemptId] at hid
    exact hb.refundedOnce f g x' y' hx' hy' hid
  case captured =>
    intro a row x hrow hs hn hx
    obtain ⟨f, old, hold, hid, hsource, hamount⟩ := hb.captured a row x hrow hs hn hx
    obtain ⟨refund, hrefund, hcont⟩ := rowsRelate_find_old h hold
    exact ⟨f, refund, hrefund, hcont.paymentAttemptId.trans hid, hcont.source.trans hsource,
      hcont.amount.trans hamount⟩

theorem rowsRelate_of_replaced {ρ : Type} {R : ρ → ρ → Prop} (hR : ∀ r, R r r)
    {t t' : Table String ρ} {k : String} {r r' : ρ} (h : t.Replaced k r r' t') (hr : R r r') :
    RowsRelate R t t' := by
  intro j
  by_cases hj : j = k
  · exact Or.inr ⟨r, r', hj ▸ h.found, hj ▸ h.find_self, hr⟩
  · rw [h.find_of_ne hj]
    exact rowsRelate_refl hR t j

/-- A refunded order keeps its accepted payment. -/
theorem Db.Balanced.revoke {orderId : String} {order order' : OrderRow} (hb : db.Balanced)
    (hsettles : Settles .refunded orderId order order' db.inventory db'.inventory)
    (hledger : db'.ledger = db.ledger) : db'.Balanced := by
  have hbefore : order.Settled := Or.inl hsettles.before
  have hafter : order'.Settled := by
    have hrefunded := hsettles.refundedAt
    rw [if_pos rfl] at hrefunded
    exact Or.inr ⟨hsettles.after, hrefunded⟩
  constructor <;> (try rw [hledger])
  case ordered => exact fun a row hrow => hsettles.exists_order (hb.ordered a row hrow)
  case succeeded => exact hb.succeeded
  case acceptedOnce => exact hb.acceptedOnce
  case settled =>
    intro a row x hrow ha hx
    rcases hsettles.order_cases hx with ⟨-, rfl⟩ | ⟨-, hold⟩
    · exact hafter
    · exact hb.settled a row x hrow ha hold
  case settledBy =>
    intro o x hx hsettled
    rcases hsettles.order_cases hx with ⟨rfl, -⟩ | ⟨-, hold⟩
    · exact hb.settledBy o order hsettles.orders.found hbefore
    · exact hb.settledBy o x hold hsettled
  case unrefunded =>
    intro o x hx hne
    rcases hsettles.order_cases hx with ⟨-, rfl⟩ | ⟨-, hold⟩
    · exact absurd hsettles.after hne
    · exact hb.unrefunded o x hold hne
  case refundOf => exact hb.refundOf
  case refundedOnce => exact hb.refundedOnce
  case captured =>
    intro a row x hrow hs hn hx
    obtain ⟨y, hy, htotal⟩ := hsettles.total_before hx
    rw [← htotal]
    exact hb.captured a row y hrow hs hn hy

/-- Bookkeeping on attempts changes neither their status nor their acceptance. -/
theorem Db.Balanced.attemptRows (hb : db.Balanced) (hinv : db'.inventory = db.inventory)
    (hrefunds : db'.ledger.refunds = db.ledger.refunds)
    (h : RowsRelate AttemptRow.Synced db.ledger.attempts db'.ledger.attempts) : db'.Balanced := by
  constructor <;> (try rw [hinv]) <;> (try rw [hrefunds])
  case ordered =>
    intro a row hrow
    obtain ⟨old, hold, hs⟩ := rowsRelate_find h hrow
    rw [hs.orderId]
    exact hb.ordered a old hold
  case succeeded =>
    intro a row hrow ha
    obtain ⟨old, hold, hs⟩ := rowsRelate_find h hrow
    rw [hs.acceptedAt] at ha
    exact hs.status.trans (hb.succeeded a old hold ha)
  case acceptedOnce =>
    intro a b x y hx hy ha hb' hid
    obtain ⟨x', hx', hsx⟩ := rowsRelate_find h hx
    obtain ⟨y', hy', hsy⟩ := rowsRelate_find h hy
    rw [hsx.acceptedAt] at ha
    rw [hsy.acceptedAt] at hb'
    rw [hsx.orderId, hsy.orderId] at hid
    exact hb.acceptedOnce a b x' y' hx' hy' ha hb' hid
  case settled =>
    intro a row x hrow ha hx
    obtain ⟨old, hold, hs⟩ := rowsRelate_find h hrow
    rw [hs.acceptedAt] at ha
    rw [hs.orderId] at hx
    exact hb.settled a old x hold ha hx
  case settledBy =>
    intro o x hx hsettled
    obtain ⟨a, old, hold, hid, ha⟩ := hb.settledBy o x hx hsettled
    obtain ⟨row, hrow, hs⟩ := rowsRelate_find_old h hold
    exact ⟨a, row, hrow, hs.orderId.trans hid, by rw [hs.acceptedAt]; exact ha⟩
  case unrefunded => exact hb.unrefunded
  case refundOf =>
    intro f refund hrefund
    obtain ⟨old, hold, hstatus, hsystem⟩ := hb.refundOf f refund hrefund
    obtain ⟨row, hrow, hs⟩ := rowsRelate_find_old h hold
    exact ⟨row, hrow, hs.status.trans hstatus, fun hsource =>
      hs.acceptedAt.trans (hsystem hsource)⟩
  case refundedOnce => exact hb.refundedOnce
  case captured =>
    intro a row x hrow hs hn hx
    obtain ⟨old, hold, hsynced⟩ := rowsRelate_find h hrow
    rw [hsynced.orderId] at hx
    exact hb.captured a old x hold (hsynced.status.symm.trans hs)
      (hsynced.acceptedAt.symm.trans hn) hx

end Steps

/-- One effect preserves the ledger. -/
theorem balanced_effect {a : Action} {db db' : Db} (hb : db.Balanced)
    (heffect : Effect a db db') : db'.Balanced := by
  cases heffect with
  | reserve inventory ledger => exact hb.reserve inventory ledger
  | start inventory refunds order_found _ _ processing unaccepted attempts =>
      exact hb.start inventory refunds order_found processing unaccepted attempts
  | timeOut inventory refunds _ _ processing timedOut unaccepted continues attempts =>
      have hunsettled : AttemptRow.Unsettled _ := Or.inl processing
      refine hb.unsuccessful inventory refunds hunsettled (by simp [timedOut]) ?_ continues attempts
      rw [unaccepted]
      exact AttemptRow.Unsettled.unaccepted hb attempts.found hunsettled
  | accept inventory refunds unsettled succeeded accepted continues attempts =>
      exact hb.accept inventory refunds unsettled succeeded accepted continues attempts
  | decline inventory refunds unsettled failed unaccepted continues attempts =>
      exact hb.unsuccessful inventory refunds unsettled (by simp [failed]) unaccepted continues
        attempts
  | capture inventory order_found refunds unsettled succeeded unaccepted continues attempts =>
      exact hb.capture inventory order_found refunds unsettled succeeded unaccepted continues
        attempts
  | close closing inventory ledger _ => exact hb.close closing inventory ledger
  | requestRefund inventory attempts attempt_found accepted _ _ buyer single refunds =>
      exact hb.requestRefund inventory attempts attempt_found accepted buyer single refunds
  | settleRefund inventory attempts _ continues refunds =>
      exact hb.refundRows inventory attempts
        (rowsRelate_of_replaced RefundRow.Continues.refl refunds continues)
  | @revoke _ _ _ row row' order order' inventory attempts _ _ _ continues refunds =>
      -- first the rights, then the refund row
      have hrights : Db.Balanced { db with inventory := db'.inventory } := hb.revoke inventory rfl
      exact hrights.refundRows rfl attempts
        (rowsRelate_of_replaced RefundRow.Continues.refl refunds continues)
  | sync inventory attempts refunds =>
      have hattempts : Db.Balanced
          { db with ledger := { db.ledger with attempts := db'.ledger.attempts } } :=
        hb.attemptRows rfl rfl attempts
      refine hattempts.refundRows inventory rfl fun k => ?_
      rcases refunds k with hnone | ⟨row, row', hrow, hrow', hs⟩
      · exact Or.inl hnone
      · exact Or.inr ⟨row, row', hrow, hrow', hs.toContinues⟩

/-- A succeeded attempt keeps its order and whether it was accepted. -/
theorem succeeded_effect {a : Action} {db db' : Db} (heffect : Effect a db db') {k : String}
    {row : AttemptRow} (hrow : db.ledger.attempts.find k = some row)
    (hsucceeded : row.status = .succeeded) :
    ∃ row', db'.ledger.attempts.find k = some row' ∧ row'.status = .succeeded ∧
      row'.orderId = row.orderId ∧ row'.acceptedAt = row.acceptedAt := by
  have hreplaced : ∀ {id : String} {old new : AttemptRow}, old.Unsettled →
      db.ledger.attempts.Replaced id old new db'.ledger.attempts →
      db'.ledger.attempts.find k = some row := by
    intro id old new hunsettled h
    rw [h.find_of_ne]
    · exact hrow
    · rintro rfl
      cases h.found.symm.trans hrow
      exact hunsettled.ne_succeeded hsucceeded
  have hkept : db'.ledger.attempts.find k = some row →
      ∃ row', db'.ledger.attempts.find k = some row' ∧ row'.status = .succeeded ∧
        row'.orderId = row.orderId ∧ row'.acceptedAt = row.acceptedAt :=
    fun h => ⟨row, h, hsucceeded, rfl, rfl⟩
  cases heffect with
  | reserve _ ledger => exact hkept (by rw [ledger]; exact hrow)
  | start _ _ _ _ _ _ _ attempts => exact hkept (attempts.find_old hrow)
  | timeOut _ _ _ _ processing _ _ _ attempts =>
      exact hkept (hreplaced (Or.inl processing) attempts)
  | accept _ _ unsettled _ _ _ attempts => exact hkept (hreplaced unsettled attempts)
  | decline _ _ unsettled _ _ _ attempts => exact hkept (hreplaced unsettled attempts)
  | capture _ _ _ unsettled _ _ _ attempts => exact hkept (hreplaced unsettled attempts)
  | close _ _ ledger _ => exact hkept (by rw [ledger]; exact hrow)
  | requestRefund _ attempts => exact hkept (by rw [attempts]; exact hrow)
  | settleRefund _ attempts => exact hkept (by rw [attempts]; exact hrow)
  | revoke _ attempts => exact hkept (by rw [attempts]; exact hrow)
  | sync _ attempts _ =>
      obtain ⟨row', hrow', hsynced⟩ := rowsRelate_find_old attempts hrow
      exact ⟨row', hrow', hsynced.status.trans hsucceeded, hsynced.orderId, hsynced.acceptedAt⟩

theorem balanced_reachable (txs : List Transaction) {db : Db} (h : db.Fresh) :
    PaymentRepository.OneProcessing (applyAll txs db).ledger.attempts ∧
      (applyAll txs db).Balanced :=
  applyAll_invariant (I := Db.Balanced) (fun _ _ _ hb he => balanced_effect hb he) txs
    h.oneProcessing h.balanced

namespace Ledger

def HasAttempt (ledger : Ledger) (orderId : String) (p : AttemptRow → Prop) (id : String) : Prop :=
  ∃ row, ledger.attempts.find id = some row ∧ row.orderId = orderId ∧ p row

/-- The attempt is the order's accepted payment. -/
def Accepted (ledger : Ledger) (orderId : String) : String → Prop :=
  ledger.HasAttempt orderId fun row => row.status = .succeeded ∧ row.acceptedAt.isSome

/-- The attempt was paid and not accepted. -/
def Captured (ledger : Ledger) (orderId : String) : String → Prop :=
  ledger.HasAttempt orderId fun row => row.status = .succeeded ∧ row.acceptedAt = none

def SystemRefund (ledger : Ledger) (attemptId id : String) (refund : RefundRow) : Prop :=
  ledger.refunds.find id = some refund ∧ refund.paymentAttemptId = attemptId ∧
    refund.source = .system

/-- The ledger of one order. -/
structure Reconciled (ledger : Ledger) (orderId : String) (order : OrderRow) : Prop where
  processing : ∀ a b, ledger.HasAttempt orderId (fun row => row.status = .processing) a →
    ledger.HasAttempt orderId (fun row => row.status = .processing) b → a = b
  accepted : ∀ a b, ledger.Accepted orderId a → ledger.Accepted orderId b → a = b
  settled : order.Settled ↔ ∃! a, ledger.HasAttempt orderId (fun row => row.acceptedAt.isSome) a
  captured : ∀ a, ledger.Captured orderId a →
    (∃! f, ∃ refund, ledger.SystemRefund a f refund) ∧
      ∀ f refund, ledger.SystemRefund a f refund → refund.amount = order.totalAmount
  unrefunded : ∀ a, ledger.Accepted orderId a → ¬ ∃ f refund, ledger.SystemRefund a f refund

end Ledger

theorem Db.Balanced.reconciled {db : Db} (hb : db.Balanced)
    (hone : PaymentRepository.OneProcessing db.ledger.attempts) {orderId : String}
    {order : OrderRow} (horder : db.inventory.orders.find orderId = some order) :
    db.ledger.Reconciled orderId order := by
  constructor
  case processing =>
    rintro a b ⟨row, hrow, hid, hp⟩ ⟨row', hrow', hid', hp'⟩
    exact hone a b row row' hrow hrow' hp hp' (hid.trans hid'.symm)
  case accepted =>
    rintro a b ⟨row, hrow, hid, -, ha⟩ ⟨row', hrow', hid', -, ha'⟩
    exact hb.acceptedOnce a b row row' hrow hrow' ha ha' (hid.trans hid'.symm)
  case settled =>
    constructor
    · intro hsettled
      obtain ⟨a, row, hrow, hid, ha⟩ := hb.settledBy orderId order horder hsettled
      refine ⟨a, ⟨row, hrow, hid, ha⟩, ?_⟩
      rintro b ⟨row', hrow', hid', ha'⟩
      exact hb.acceptedOnce b a row' row hrow' hrow ha' ha (hid'.trans hid.symm)
    · rintro ⟨a, ⟨row, hrow, hid, ha⟩, -⟩
      exact hb.settled a row order hrow ha (hid ▸ horder)
  case captured =>
    rintro a ⟨row, hrow, hid, hs, hn⟩
    obtain ⟨f, refund, hrefund, hattempt, hsource, hamount⟩ :=
      hb.captured a row order hrow hs hn (hid ▸ horder)
    refine ⟨⟨f, ⟨refund, hrefund, hattempt, hsource⟩, ?_⟩, ?_⟩
    · rintro g ⟨refund', hrefund', hattempt', -⟩
      exact hb.refundedOnce g f refund' refund hrefund' hrefund (hattempt'.trans hattempt.symm)
    · rintro g refund' ⟨hrefund', hattempt', -⟩
      have hg := hb.refundedOnce g f refund' refund hrefund' hrefund
        (hattempt'.trans hattempt.symm)
      subst hg
      rw [hrefund] at hrefund'
      cases hrefund'
      exact hamount
  case unrefunded =>
    rintro a ⟨row, hrow, -, -, ha⟩ ⟨f, refund, hrefund, hattempt, hsource⟩
    obtain ⟨found, hfound, -, hsystem⟩ := hb.refundOf f refund hrefund
    rw [hattempt, hrow] at hfound
    cases hfound
    simp [hsystem hsource] at ha

/-- In every state that any sequence of transactions reaches from a fresh database, the
ledger of every order is reconciled. -/
theorem ledger_reconciled (txs : List Transaction) (db : Db) (h : db.Fresh) (orderId : String)
    (order : OrderRow)
    (horder : (applyAll txs db).inventory.orders.find orderId = some order) :
    (applyAll txs db).ledger.Reconciled orderId order :=
  (balanced_reachable txs h).2.reconciled (balanced_reachable txs h).1 horder

/-- The buyer starts a payment for the order of the single seat. -/
def singleSeatPayment (attemptUuid : String) (now : Time) : PaymentFlow.StartState where
  orderId := "TKT-1"
  userId := "buyer"
  provider := ⟨"stripe", "usd", 0, PaymentRepository.seconds 60⟩
  attemptUuid := attemptUuid
  clock := ⟨now, now, now, now⟩

def startSingleSeat (attemptUuid : String) (now : Time) : Transaction :=
  .startPayment (singleSeatPayment attemptUuid now)

/-- All statements of one lifecycle transaction read the same time. -/
def OrderLifecycle.Clock.at (now : Time) : OrderLifecycle.Clock :=
  ⟨now, now, now, now, now, now, now, now⟩

theorem ledger_reconciled_singleSeat :
    (applyAll [reserveSingleSeat "1" "1" "key", startSingleSeat "1" 20,
      .completePayment "TKT-1" "PAY-1" true (.at 30) "1"] singleSeat).ledger.Reconciled "TKT-1"
      { userId := "buyer"
        reservationId := "RSV-1"
        status := .paid
        totalAmount := 500
        expiresAt := 900000010
        createdAt := 10
        paidAt := some 30
        refundedAt := none } :=
  ledger_reconciled _ _ singleSeat_fresh _ _ (by decide)

end Ticketing
