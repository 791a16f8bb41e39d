import Ticketing.Repositories

/-!
# What the repository statements change

One lemma per statement: an update that counted its row found it in the status
the statement asks for and replaced it, and the other tables are as before.
-/

namespace Ticketing

open Relational

/-- What an order row keeps for good. -/
structure OrderRow.Continues (row row' : OrderRow) : Prop where
  userId : row'.userId = row.userId
  reservationId : row'.reservationId = row.reservationId
  totalAmount : row'.totalAmount = row.totalAmount
  expiresAt : row'.expiresAt = row.expiresAt

/-- What an attempt row keeps for good. -/
structure AttemptRow.Continues (row row' : AttemptRow) : Prop where
  orderId : row'.orderId = row.orderId
  startedAt : row'.startedAt = row.startedAt
  processingDeadline : row'.processingDeadline = row.processingDeadline
  provider : row'.provider = row.provider
  providerPaymentId : ∀ known, row.providerPaymentId = some known →
    row'.providerPaymentId = some known

/-- What a refund row keeps for good. -/
structure RefundRow.Continues (row row' : RefundRow) : Prop where
  paymentAttemptId : row'.paymentAttemptId = row.paymentAttemptId
  orderId : row'.orderId = row.orderId
  amount : row'.amount = row.amount
  source : row'.source = row.source

theorem AttemptRow.Continues.refl (row : AttemptRow) : row.Continues row :=
  ⟨rfl, rfl, rfl, rfl, fun _ h => h⟩

theorem AttemptRow.Continues.trans {a b c : AttemptRow} (h : a.Continues b)
    (h' : b.Continues c) : a.Continues c :=
  ⟨h'.orderId.trans h.orderId, h'.startedAt.trans h.startedAt,
    h'.processingDeadline.trans h.processingDeadline, h'.provider.trans h.provider,
    fun known hk => h'.providerPaymentId known (h.providerPaymentId known hk)⟩

theorem RefundRow.Continues.refl (row : RefundRow) : row.Continues row := ⟨rfl, rfl, rfl, rfl⟩

/-- Bookkeeping on an attempt: neither its status nor its acceptance changes. -/
structure AttemptRow.Synced (row row' : AttemptRow) : Prop extends row.Continues row' where
  status : row'.status = row.status
  acceptedAt : row'.acceptedAt = row.acceptedAt

structure RefundRow.Synced (row row' : RefundRow) : Prop extends row.Continues row' where
  status : row'.status = row.status

theorem AttemptRow.Synced.refl (row : AttemptRow) : row.Synced row :=
  ⟨AttemptRow.Continues.refl row, rfl, rfl⟩

theorem RefundRow.Synced.refl (row : RefundRow) : row.Synced row :=
  ⟨RefundRow.Continues.refl row, rfl⟩

def AttemptRow.Unsettled (row : AttemptRow) : Prop :=
  row.status = .processing ∨ row.status = .timedOut

namespace OrderRepository

/-- One order moves from a status to another; nothing else of the inventory changes. -/
structure OrderMoves (before after : OrderStatus) (orderId : String) (order order' : OrderRow)
    (inv inv' : Inventory) : Prop where
  orders : inv.orders.Replaced orderId order order' inv'.orders
  before : order.status = before
  after : order'.status = after
  continues : order.Continues order'
  reservations : inv'.reservations = inv.reservations
  seatStore : inv'.toSeatStore = inv.toSeatStore
  items : inv'.items = inv.items

structure ReservationMoves (before after : ReservationStatus) (reservationId : String)
    (reservation : ReservationRow) (inv inv' : Inventory) : Prop where
  reservations : inv.reservations.Replaced reservationId reservation
    { reservation with status := after } inv'.reservations
  before : reservation.status = before
  orders : inv'.orders = inv.orders
  seatStore : inv'.toSeatStore = inv.toSeatStore
  items : inv'.items = inv.items

theorem payOrder_moves {inv : Inventory} {orderId : String} {now : Time}
    (h : (payOrder inv orderId now).1 = 1) :
    ∃ order order', OrderMoves .pendingPayment .paid orderId order order' inv
      (payOrder inv orderId now).2 ∧ order'.refundedAt = order.refundedAt := by
  unfold payOrder at h ⊢
  simp only at h ⊢
  obtain ⟨row, hguard, hreplaced⟩ := Table.replaced_of_count h
  refine ⟨row, _, ⟨hreplaced, by simpa using hguard, ?_, ?_, rfl, rfl, rfl⟩, ?_⟩
  · rfl
  · exact ⟨rfl, rfl, rfl, rfl⟩
  · rfl

theorem transitionOrder_moves {inv : Inventory} {orderId : String} {target : OrderStatus}
    (h : (transitionOrder inv orderId target).1 = 1) :
    ∃ order order', OrderMoves .pendingPayment target orderId order order' inv
      (transitionOrder inv orderId target).2 ∧ order'.refundedAt = order.refundedAt := by
  unfold transitionOrder at h ⊢
  simp only at h ⊢
  obtain ⟨row, hguard, hreplaced⟩ := Table.replaced_of_count h
  refine ⟨row, _, ⟨hreplaced, by simpa using hguard, ?_, ?_, rfl, rfl, rfl⟩, ?_⟩
  · rfl
  · exact ⟨rfl, rfl, rfl, rfl⟩
  · rfl

theorem cancelPaidOrderForBuyerRefund_moves {inv inv' : Inventory} {orderId : String}
    {moment : Time} (h : cancelPaidOrderForBuyerRefund inv orderId moment = some (1, inv')) :
    ∃ order order', OrderMoves .paid .cancelled orderId order order' inv inv' ∧
      order'.refundedAt = some moment := by
  unfold cancelPaidOrderForBuyerRefund at h
  simp only at h
  split_ifs at h
  obtain ⟨hcount, rfl⟩ := Prod.mk.inj (Option.some.inj h)
  obtain ⟨row, hguard, hreplaced⟩ := Table.replaced_of_count hcount
  have hpaid : row.status = .paid := by simp at hguard; exact hguard.1
  refine ⟨row, _, ⟨hreplaced, hpaid, ?_, ?_, rfl, rfl, rfl⟩, ?_⟩
  · rfl
  · exact ⟨rfl, rfl, rfl, rfl⟩
  · rfl

theorem transitionReservation_moves {inv : Inventory} {reservationId : String}
    {target : ReservationStatus} (h : (transitionReservation inv reservationId target).1 = 1) :
    ∃ reservation, ReservationMoves .active target reservationId reservation inv
      (transitionReservation inv reservationId target).2 := by
  obtain ⟨row, hguard, hreplaced⟩ := Table.replaced_of_count h
  exact ⟨row, hreplaced, by simpa using hguard, rfl, rfl, rfl⟩

theorem cancelConfirmedReservationForBuyerRefund_moves {inv : Inventory} {reservationId : String}
    (h : (cancelConfirmedReservationForBuyerRefund inv reservationId).1 = 1) :
    ∃ reservation, ReservationMoves .confirmed .cancelled reservationId reservation inv
      (cancelConfirmedReservationForBuyerRefund inv reservationId).2 := by
  obtain ⟨row, hguard, hreplaced⟩ := Table.replaced_of_count h
  exact ⟨row, hreplaced, by simpa using hguard, rfl, rfl, rfl⟩

end OrderRepository

namespace PaymentRepository

theorem unsettled_iff (row : AttemptRow) : unsettled row = true ↔ row.Unsettled := by
  simp [unsettled, AttemptRow.Unsettled]

theorem markTimedOut_replaces {attempts : Table String AttemptRow} {attemptId : String}
    {now : Time} (h : (markTimedOut attempts attemptId now).1 = 1) :
    ∃ row row', attempts.Replaced attemptId row row' (markTimedOut attempts attemptId now).2 ∧
      row.status = .processing ∧ row'.status = .timedOut ∧
      row'.acceptedAt = row.acceptedAt ∧ row.Continues row' := by
  obtain ⟨row, hguard, hreplaced⟩ := Table.replaced_of_count h
  refine ⟨row, _, hreplaced, by simpa using hguard, ?_⟩
  exact ⟨rfl, rfl, rfl, rfl, rfl, rfl, fun _ hk => hk⟩

theorem markFailed_replaces {attempts : Table String AttemptRow} {attemptId reason : String}
    {now : Time} (h : (markFailed attempts attemptId reason now).1 = 1) :
    ∃ row row', attempts.Replaced attemptId row row'
        (markFailed attempts attemptId reason now).2 ∧
      row.Unsettled ∧ row'.status = .failed ∧ row'.acceptedAt = none ∧ row.Continues row' := by
  obtain ⟨row, hguard, hreplaced⟩ := Table.replaced_of_count h
  refine ⟨row, _, hreplaced, (unsettled_iff row).mp hguard, ?_⟩
  exact ⟨rfl, rfl, rfl, rfl, rfl, rfl, fun _ hk => hk⟩

theorem markSucceeded_replaces {attempts : Table String AttemptRow} {attemptId : String}
    {accepted : Bool} {now : Time} (h : (markSucceeded attempts attemptId accepted now).1 = 1) :
    ∃ row row', attempts.Replaced attemptId row row'
        (markSucceeded attempts attemptId accepted now).2 ∧
      row.Unsettled ∧ row'.status = .succeeded ∧
      row'.acceptedAt = (if accepted then some now else none) ∧ row.Continues row' := by
  obtain ⟨row, hguard, hreplaced⟩ := Table.replaced_of_count h
  refine ⟨row, _, hreplaced, (unsettled_iff row).mp hguard, ?_⟩
  exact ⟨rfl, rfl, rfl, rfl, rfl, rfl, fun _ hk => hk⟩

theorem orElse_continues {row : AttemptRow} {known paymentId : String}
    (h : row.providerPaymentId = some known) :
    (row.providerPaymentId <|> some paymentId) = some known := by
  rw [h]
  rfl

theorem recordTerminalSnapshot_replaces {attempts attempts' : Table String AttemptRow}
    {attemptId : String} {snapshot : PaymentTerminalSnapshot} {now : Time}
    (h : recordTerminalSnapshot attempts attemptId snapshot now = some (1, attempts')) :
    ∃ row row', attempts.Replaced attemptId row row' attempts' ∧ row.Synced row' := by
  unfold recordTerminalSnapshot at h
  split_ifs at h
  have hpair := Option.some.inj h
  obtain ⟨row, _, hreplaced⟩ := Table.replaced_of_count (congrArg Prod.fst hpair)
  rw [hpair] at hreplaced
  refine ⟨row, _, hreplaced, ?_⟩
  exact ⟨⟨rfl, rfl, rfl, rfl, fun _ hk => orElse_continues hk⟩, rfl, rfl⟩

theorem lockProcessingForOrder_some {db : Db} {orderId : String} {now : Time}
    {locked : LockedPaymentAttempt} (h : lockProcessingForOrder db orderId now = some locked) :
    ∃ order row, db.inventory.orders.find orderId = some order ∧
      db.ledger.attempts.find locked.id = some row ∧ row.orderId = orderId ∧
      row.status = .processing ∧ locked = lockedRow order locked.id row now := by
  simp only [lockProcessingForOrder, Option.bind_eq_bind, Option.bind_eq_some_iff] at h
  obtain ⟨order, horder, entry, hentry, hlocked⟩ := h
  have hmem := List.mem_of_mem_head? hentry
  obtain ⟨hrow, hcond⟩ := (db.ledger.attempts.mem_select _ entry.1 entry.2).mp hmem
  simp only [Bool.and_eq_true, decide_eq_true_eq] at hcond
  cases hlocked
  exact ⟨order, entry.2, horder, hrow, hcond.1, hcond.2, rfl⟩

theorem lockProcessingForOrder_none {db : Db} {orderId : String} {now : Time} {order : OrderRow}
    (h : lockProcessingForOrder db orderId now = none)
    (horder : db.inventory.orders.find orderId = some order) (k : String) (row : AttemptRow)
    (hrow : db.ledger.attempts.find k = some row) (hid : row.orderId = orderId) :
    row.status ≠ .processing := by
  simp only [lockProcessingForOrder, Option.bind_eq_bind, Option.bind_eq_none_iff] at h
  have hhead := h order horder
  intro hstatus
  have hmem : (k, row) ∈ db.ledger.attempts.select fun _ row =>
      decide (row.orderId = orderId) && decide (row.status = .processing) :=
    (db.ledger.attempts.mem_select _ k row).mpr ⟨hrow, by simp [hid, hstatus]⟩
  cases hs : db.ledger.attempts.select fun _ row =>
      decide (row.orderId = orderId) && decide (row.status = .processing) with
  | nil => rw [hs] at hmem; cases hmem
  | cons entry rest =>
      have hnone := hhead entry (by rw [hs]; rfl)
      cases hnone

/-- The partial unique index: no order has two PROCESSING attempts. -/
def OneProcessing (attempts : Table String AttemptRow) : Prop :=
  ∀ k k' row row', attempts.find k = some row → attempts.find k' = some row' →
    row.status = .processing → row'.status = .processing → row.orderId = row'.orderId → k = k'

/-- Once the PROCESSING attempt of an order is timed out, the order has none. -/
theorem none_processing_after_timeOut {db : Db} {orderId : String} {now later : Time}
    {locked : LockedPaymentAttempt} (hone : OneProcessing db.ledger.attempts)
    (hlock : lockProcessingForOrder db orderId now = some locked)
    (hcount : (markTimedOut db.ledger.attempts locked.id later).1 = 1) (k : String)
    (row : AttemptRow) (hrow : (markTimedOut db.ledger.attempts locked.id later).2.find k =
      some row) (hid : row.orderId = orderId) : row.status ≠ .processing := by
  obtain ⟨old, new, hreplaced, -, htimedOut, -, -⟩ := markTimedOut_replaces hcount
  obtain ⟨order, found, -, hfound, hfoundId, hprocessing, -⟩ := lockProcessingForOrder_some hlock
  intro hstatus
  rcases hreplaced.cases hrow with ⟨-, rfl⟩ | ⟨hne, hold⟩
  · rw [htimedOut] at hstatus
    cases hstatus
  · exact hne (hone k locked.id row found hold hfound hstatus hprocessing (hid.trans hfoundId.symm))

theorem lockByIdForOrder_some {db : Db} {attemptId orderId : String} {now : Time}
    {locked : LockedPaymentAttempt}
    (h : lockByIdForOrder db attemptId orderId now = some locked) :
    ∃ order row, db.inventory.orders.find orderId = some order ∧
      db.ledger.attempts.find attemptId = some row ∧ row.orderId = orderId ∧
      locked = lockedRow order attemptId row now := by
  simp only [lockByIdForOrder, Option.bind_eq_bind, Option.bind_eq_some_iff] at h
  obtain ⟨order, horder, row, hrow, hlocked⟩ := h
  obtain ⟨hfound, hid⟩ := Option.filter_eq_some_iff.mp hrow
  cases hlocked
  exact ⟨order, row, horder, hfound, by simpa using hid, rfl⟩

end PaymentRepository
end Ticketing
