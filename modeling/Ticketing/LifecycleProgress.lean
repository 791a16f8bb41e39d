import Ticketing.LifecycleEffects

/-!
# A success callback that commits

On a pending order whose reservation is active and holds its seats, the success
of a live attempt takes the accepting branch, and every guarded update of that
branch counts its row.
-/

namespace Ticketing.OrderLifecycle

open Relational Transition
open OrderRepository (listed lockReservationSeatsForExpiry)

/-- An order as it waits for its payment. -/
structure Payable (inv : Inventory) (order : OrderRow) : Prop where
  pending : order.status = .pendingPayment
  active : ∃ reservation, inv.reservations.find order.reservationId = some reservation ∧
    reservation.status = .active
  held : AllHeld inv order.reservationId
  nonempty : ∃ s row, listed inv order.reservationId s = true ∧ inv.seats.find s = some row

theorem length_lockReservationSeatsForExpiry (inv : Inventory) (reservationId : String) :
    (lockReservationSeatsForExpiry inv reservationId).length =
      inv.seats.count fun id _ => listed inv reservationId id := by
  unfold lockReservationSeatsForExpiry Table.count
  rw [List.length_insertionSort, List.length_map]

theorem any_lockReservationSeatsForExpiry {inv : Inventory} {reservationId : String}
    (h : AllHeld inv reservationId) :
    ((lockReservationSeatsForExpiry inv reservationId).any fun seat =>
      decide (seat.status ≠ .held) ||
        decide (seat.currentReservationId ≠ some reservationId)) = false := by
  rw [List.any_eq_false]
  intro seat hseat
  unfold lockReservationSeatsForExpiry at hseat
  rw [List.mem_insertionSort, List.mem_map] at hseat
  obtain ⟨entry, hentry, rfl⟩ := hseat
  obtain ⟨hrow, hl⟩ := (inv.seats.mem_select _ entry.1 entry.2).mp hentry
  obtain ⟨hstatus, hholder⟩ := h entry.1 entry.2 hl hrow
  simp [hstatus, hholder]

theorem Payable.lockReservationSeats_ne_nil {inv : Inventory} {order : OrderRow}
    (h : Payable inv order) : lockReservationSeatsForExpiry inv order.reservationId ≠ [] := by
  obtain ⟨s, row, hl, hrow⟩ := h.nonempty
  intro hnil
  have hzero := length_lockReservationSeatsForExpiry inv order.reservationId
  rw [hnil, List.length_nil, eq_comm, Table.count_eq_zero] at hzero
  rw [hzero s row hrow] at hl
  cases hl

theorem transitionReservation_counts {inv : Inventory} {reservationId : String}
    {target : ReservationStatus} {row : ReservationRow}
    (hrow : inv.reservations.find reservationId = some row) (hactive : row.status = .active) :
    (OrderRepository.transitionReservation inv reservationId target).1 = 1 := by
  unfold OrderRepository.transitionReservation
  simp only
  rw [Table.updateRow_count]
  exact ⟨row, hrow, by simp [hactive]⟩

theorem continueIfOne_one {updated : ℕ × Inventory} (db : Db) (next : Db → Result)
    (h : updated.1 = 1) :
    continueIfOne updated db next = next { db with inventory := updated.2 } := by
  unfold continueIfOne
  rw [if_neg (not_not.mpr h)]

theorem moveOrder_counts {inv : Inventory} {orderId : String} {target : OrderStatus} {now : Time}
    {row : OrderRow} (hrow : inv.orders.find orderId = some row)
    (hpending : row.status = .pendingPayment) :
    (if target = .paid then OrderRepository.payOrder inv orderId now
      else OrderRepository.transitionOrder inv orderId target).1 = 1 := by
  unfold OrderRepository.payOrder OrderRepository.transitionOrder
  split
  all_goals
    simp only
    rw [Table.updateRow_count]
    exact ⟨row, hrow, by simp [hpending]⟩

/-- Moving the seats, the reservation and the order each counts its rows. -/
theorem continueTerminalTransition_commits (state : FlowState) (target : OrderStatus)
    (order : OrderRow) (db : Db) (hlocked : Locked state order db)
    (hpayable : Payable db.inventory order)
    (hcount : state.expectedSeatCount =
      (lockReservationSeatsForExpiry db.inventory order.reservationId).length) :
    ∃ db', continueTerminalTransition state target db = .commit state.successOutcome db' := by
  obtain ⟨reservation, hreservation, hactive⟩ := hpayable.active
  have hmoved : (db.inventory.toSeatStore.updateSeats (OrderRepository.ownedHold db.inventory
      order.reservationId) (settlementOf target).seatAfter none).1 = state.expectedSeatCount := by
    rw [hcount, length_lockReservationSeatsForExpiry]
    exact db.inventory.seats.count_congr fun s row hrow => ownedHold_eq_listed hpayable.held hrow
  unfold continueTerminalTransition transitionReservation transitionOrder
  simp only [moveSeats_eq, hlocked.reservationId]
  rw [if_neg (not_not.mpr hmoved), continueIfOne_one, continueIfOne_one]
  · exact ⟨_, rfl⟩
  · exact moveOrder_counts hlocked.1 hpayable.pending
  · exact transitionReservation_counts hreservation hactive

/-- The snapshot is of the attempt's own payment, sent by the holder of the lease if it
names one. -/
structure OwnSnapshot (snapshot : PaymentTerminalSnapshot) (attemptId : String) (row : AttemptRow)
    (order : OrderRow) (attempts : Table String AttemptRow) : Prop where
  provider : snapshot.provider = row.provider
  amount : snapshot.amount = order.totalAmount
  named : snapshot.providerPaymentId ≠ ""
  known : ∀ known, row.providerPaymentId = some known → known = snapshot.providerPaymentId
  lease : snapshot.leaseToken = "" ∨ row.leaseToken = some snapshot.leaseToken
  untaken : PaymentRepository.providerPaymentTaken attempts attemptId snapshot.provider
    (some snapshot.providerPaymentId) = false

theorem OwnSnapshot.identity {snapshot : PaymentTerminalSnapshot} {attemptId : String}
    {row : AttemptRow} {order : OrderRow} {attempts : Table String AttemptRow} {state : FlowState}
    {locked : LockedPaymentAttempt} (h : OwnSnapshot snapshot attemptId row order attempts)
    (hvalue : locked.value = row) (htotal : state.order.totalAmount = order.totalAmount) :
    identityMismatch state locked snapshot = false := by
  unfold identityMismatch
  rw [hvalue, htotal]
  cases hpayment : row.providerPaymentId with
  | none => simp [h.provider, h.amount, h.named]
  | some known => simp [h.provider, h.amount, h.named, h.known known hpayment]

theorem OwnSnapshot.leased {snapshot : PaymentTerminalSnapshot} {attemptId : String}
    {row : AttemptRow} {order : OrderRow} {attempts : Table String AttemptRow}
    {locked : LockedPaymentAttempt} (h : OwnSnapshot snapshot attemptId row order attempts)
    (hlease : locked.leaseToken = row.leaseToken) : leaseLost locked snapshot = false := by
  unfold leaseLost
  rcases h.lease with h | h <;> simp [hlease, h]

/-- The payment another attempt took is still the same after this attempt's own update. -/
theorem providerPaymentTaken_updateRow (attempts : Table String AttemptRow)
    (attemptId provider : String) (paymentId : Option String) (guard : AttemptRow → Bool)
    (f : AttemptRow → AttemptRow)
    (h : PaymentRepository.providerPaymentTaken attempts attemptId provider paymentId = false) :
    PaymentRepository.providerPaymentTaken (attempts.updateRow attemptId guard f).2 attemptId
      provider paymentId = false := by
  unfold PaymentRepository.providerPaymentTaken at h ⊢
  rw [Bool.and_eq_false_iff, List.any_eq_false] at h ⊢
  refine h.imp_right fun h entry hentry => ?_
  have hfound := (Table.find_eq_some _ entry.1 entry.2).mpr hentry
  by_cases hid : entry.1 = attemptId
  · simp [hid]
  · rw [Table.find_updateRow_of_ne attempts guard f hid] at hfound
    exact h entry ((Table.find_eq_some _ _ _).mp hfound)

theorem markSucceeded_counts {attempts : Table String AttemptRow} {attemptId : String}
    {accepted : Bool} {now : Time} {row : AttemptRow} (hrow : attempts.find attemptId = some row)
    (hunsettled : row.Unsettled) :
    (PaymentRepository.markSucceeded attempts attemptId accepted now).1 = 1 := by
  unfold PaymentRepository.markSucceeded
  rw [Table.updateRow_count]
  exact ⟨row, hrow, (PaymentRepository.unsettled_iff row).mpr hunsettled⟩

/-- A settled attempt takes the snapshot of its own payment. -/
theorem recordTerminalSnapshot_counts {attempts : Table String AttemptRow} {attemptId : String}
    {snapshot : PaymentTerminalSnapshot} {row marked : AttemptRow} {order : OrderRow} (now : Time)
    (h : OwnSnapshot snapshot attemptId row order attempts)
    (hmarked : attempts.find attemptId = some marked) (hsucceeded : marked.status = .succeeded)
    (hcont : marked.provider = row.provider ∧
      marked.providerPaymentId = row.providerPaymentId) :
    ∃ attempts', PaymentRepository.recordTerminalSnapshot attempts attemptId snapshot now =
      some (1, attempts') := by
  unfold PaymentRepository.recordTerminalSnapshot
  rw [if_neg (by simp [h.untaken])]
  refine ⟨_, congrArg some (Prod.ext ?_ rfl)⟩
  rw [Table.updateRow_count]
  refine ⟨marked, hmarked, ?_⟩
  rw [hcont.1, hcont.2, h.provider]
  cases hpayment : row.providerPaymentId with
  | none => simp [hsucceeded]
  | some known => simp [hsucceeded, h.known known hpayment]

theorem OwnSnapshot.updateRow {snapshot : PaymentTerminalSnapshot} {attemptId : String}
    {row : AttemptRow} {order : OrderRow} {attempts : Table String AttemptRow}
    (h : OwnSnapshot snapshot attemptId row order attempts) (guard : AttemptRow → Bool)
    (f : AttemptRow → AttemptRow) :
    OwnSnapshot snapshot attemptId row order (attempts.updateRow attemptId guard f).2 :=
  { h with untaken := providerPaymentTaken_updateRow attempts attemptId _ _ guard f h.untaken }

theorem OwnSnapshot.markSucceeded {snapshot : PaymentTerminalSnapshot} {attemptId : String}
    {row : AttemptRow} {order : OrderRow} {attempts : Table String AttemptRow}
    (h : OwnSnapshot snapshot attemptId row order attempts) (accepted : Bool) (now : Time) :
    OwnSnapshot snapshot attemptId row order
      (PaymentRepository.markSucceeded attempts attemptId accepted now).2 := by
  unfold PaymentRepository.markSucceeded
  exact h.updateRow _ _

theorem recordTerminalSnapshot_continues (state : FlowState) (row : AttemptRow)
    (order : OrderRow) (db : Db) {marked : AttemptRow}
    (hmarked : db.ledger.attempts.find state.paymentAttemptId = some marked)
    (hsucceeded : marked.status = .succeeded)
    (hcont : marked.provider = row.provider ∧ marked.providerPaymentId = row.providerPaymentId)
    (hsnapshot : ∀ snapshot, state.terminalSnapshot = some snapshot →
      OwnSnapshot snapshot state.paymentAttemptId row order db.ledger.attempts) :
    ∃ attempts' row', db.ledger.attempts.Replaced state.paymentAttemptId marked row' attempts' ∧
      row'.status = .succeeded ∧ recordTerminalSnapshot state db = afterPaymentResult state
        { db with ledger := { db.ledger with attempts := attempts' } } := by
  unfold recordTerminalSnapshot
  cases hterminal : state.terminalSnapshot with
  | none => exact ⟨db.ledger.attempts, marked, Table.replaced_refl hmarked, hsucceeded, rfl⟩
  | some snapshot =>
      obtain ⟨attempts', hrecorded⟩ := recordTerminalSnapshot_counts state.clock.recordSnapshot
        (hsnapshot snapshot hterminal) hmarked hsucceeded hcont
      obtain ⟨old, row', hreplaced, hsynced⟩ :=
        PaymentRepository.recordTerminalSnapshot_replaces hrecorded
      cases hreplaced.found.symm.trans hmarked
      refine ⟨attempts', row', hreplaced, hsynced.status.trans hsucceeded, ?_⟩
      simp only [hrecorded, ne_eq, not_true_eq_false, if_false]

/-- The success of an open attempt is recorded. -/
theorem mutatePaymentResult_succeeds (state : FlowState) (order : OrderRow) {row : AttemptRow}
    {db : Db} (hrow : db.ledger.attempts.find state.paymentAttemptId = some row)
    (hunsettled : row.Unsettled) (hsucceeded : state.paymentSucceeded = true)
    (hsnapshot : ∀ snapshot, state.terminalSnapshot = some snapshot →
      OwnSnapshot snapshot state.paymentAttemptId row order db.ledger.attempts) :
    ∃ attempts' row', db.ledger.attempts.Replaced state.paymentAttemptId row row' attempts' ∧
      row'.status = .succeeded ∧ mutatePaymentResult state db =
        afterPaymentResult { state with paymentResultRecorded := true }
          { db with ledger := { db.ledger with attempts := attempts' } } := by
  have hcount : (PaymentRepository.markSucceeded db.ledger.attempts state.paymentAttemptId
      (decide (state.targetStatus = some .paid)) state.clock.markAttempt).1 = 1 :=
    markSucceeded_counts hrow hunsettled
  have hstep : mutatePaymentResult state db =
      recordTerminalSnapshot { state with paymentResultRecorded := true }
        { db with ledger := { db.ledger with
          attempts := (PaymentRepository.markSucceeded db.ledger.attempts state.paymentAttemptId
            (decide (state.targetStatus = some .paid)) state.clock.markAttempt).2 } } := by
    unfold mutatePaymentResult
    simp only [if_pos hsucceeded, hcount, ne_eq, not_true_eq_false, if_false]
  obtain ⟨old, marked, hreplaced, -, hstatus, -, -⟩ :=
    PaymentRepository.markSucceeded_replaces hcount
  cases hreplaced.found.symm.trans hrow
  have hkept : marked.provider = row.provider ∧
      marked.providerPaymentId = row.providerPaymentId := by
    have hmarked := hreplaced.find_self
    unfold PaymentRepository.markSucceeded at hmarked
    rw [Table.find_updateRow, hrow, Option.map_some,
      if_pos ⟨rfl, (PaymentRepository.unsettled_iff row).mpr hunsettled⟩] at hmarked
    cases hmarked
    exact ⟨rfl, rfl⟩
  obtain ⟨attempts', row', hrecorded, hstatus', hnext⟩ := recordTerminalSnapshot_continues
    { state with paymentResultRecorded := true } row order
    { db with ledger := { db.ledger with
      attempts := (PaymentRepository.markSucceeded db.ledger.attempts state.paymentAttemptId
        (decide (state.targetStatus = some .paid)) state.clock.markAttempt).2 } }
    hreplaced.find_self hstatus hkept
    fun snapshot hterminal => (hsnapshot snapshot hterminal).markSucceeded _ _
  exact ⟨attempts', row', (hreplaced.trans hrecorded).2, hstatus', hstep.trans hnext⟩

/-- A first visit of a callback hands over to the recording of its result, a later visit
goes on to the terminal transition. -/
theorem lockSeats_continues (recordResult : FlowState → Db → Result) (state : FlowState)
    (target : OrderStatus) {order : OrderRow} {db : Db} (hpayable : Payable db.inventory order)
    (hid : state.order.reservationId = order.reservationId) :
    lockSeats recordResult state target db =
      if state.mode = .paymentCallback ∧ state.paymentResultRecorded = false then
        recordResult { state with expectedSeatCount :=
          (lockReservationSeatsForExpiry db.inventory order.reservationId).length } db
      else continueTerminalTransition { state with expectedSeatCount :=
          (lockReservationSeatsForExpiry db.inventory order.reservationId).length } target db := by
  unfold lockSeats
  simp only [hid]
  rw [if_neg hpayable.lockReservationSeats_ne_nil,
    if_neg (by rw [any_lockReservationSeatsForExpiry hpayable.held]; simp)]

theorem lockReservation_continues (recordResult : FlowState → Db → Result) (state : FlowState)
    (target : OrderStatus) {order : OrderRow} {db : Db} (hpayable : Payable db.inventory order)
    (hid : state.order.reservationId = order.reservationId) :
    lockReservation recordResult state target db = lockSeats recordResult state target db := by
  obtain ⟨reservation, hreservation, hactive⟩ := hpayable.active
  unfold lockReservation OrderRepository.lockReservationForExpiry
  simp only [hid, hreservation, Option.map_some, hactive]

/-- With the payment still in time, the accepting branch commits. -/
theorem lockReservation_accepts {state : FlowState} {row : AttemptRow} {order : OrderRow}
    {db : Db} (hopen : Open state order row db) (hpayable : Payable db.inventory order)
    (hunsettled : row.Unsettled) (hsucceeded : state.paymentSucceeded = true)
    (hsnapshot : ∀ snapshot, state.terminalSnapshot = some snapshot →
      OwnSnapshot snapshot state.paymentAttemptId row order db.ledger.attempts) :
    ∃ db', lockReservation mutatePaymentResult { state with targetStatus := some .paid } .paid db =
      .commit state.successOutcome db' := by
  have hid := hopen.locked.reservationId
  rw [lockReservation_continues mutatePaymentResult { state with targetStatus := some .paid }
      .paid hpayable hid,
    lockSeats_continues mutatePaymentResult { state with targetStatus := some .paid } .paid
      hpayable hid,
    if_pos ⟨hopen.callback, hopen.fresh.2.2⟩]
  obtain ⟨attempts', row', -, -, hmutated⟩ := mutatePaymentResult_succeeds
    { state with
      targetStatus := some .paid
      expectedSeatCount := (lockReservationSeatsForExpiry db.inventory order.reservationId).length }
    order hopen.attempt hunsettled hsucceeded hsnapshot
  rw [hmutated]
  obtain ⟨db', hcommitted⟩ := continueTerminalTransition_commits
    { state with
      targetStatus := some .paid
      expectedSeatCount := (lockReservationSeatsForExpiry db.inventory order.reservationId).length
      paymentResultRecorded := true }
    .paid order { db with ledger := { db.ledger with attempts := attempts' } } hopen.locked hpayable
    rfl
  refine ⟨db', Eq.trans ?_ hcommitted⟩
  simp [afterPaymentResult, hopen.fresh.1]

/-- Once the payment result is recorded, closing the order commits. -/
theorem lockReservation_closes_commits (state : FlowState) (target : OrderStatus)
    (order : OrderRow) (db : Db) (hrecorded : state.paymentResultRecorded = true)
    (hlocked : Locked state order db) (hpayable : Payable db.inventory order) :
    ∃ db', lockReservation recordedTwice state target db = .commit state.successOutcome db' := by
  rw [lockReservation_continues _ _ _ hpayable hlocked.reservationId,
    lockSeats_continues _ _ _ hpayable hlocked.reservationId, if_neg (by simp [hrecorded])]
  exact continueTerminalTransition_commits _ target order db hlocked hpayable rfl

theorem markTimedOut_counts {attempts : Table String AttemptRow} {attemptId : String}
    {now : Time} {row : AttemptRow} (hrow : attempts.find attemptId = some row)
    (hprocessing : row.status = .processing) :
    (PaymentRepository.markTimedOut attempts attemptId now).1 = 1 := by
  unfold PaymentRepository.markTimedOut
  rw [Table.updateRow_count]
  exact ⟨row, hrow, by simp [hprocessing]⟩

/-- A live other attempt keeps the order, otherwise the expiry goes through. -/
theorem checkOtherProcessingBeforeExpiry_commits (state : FlowState) (target : OrderStatus)
    (order : OrderRow) (db : Db) (hrecorded : state.paymentResultRecorded = true)
    (hlocked : Locked state order db) (hpayable : Payable db.inventory order) :
    ∃ db', checkOtherProcessingBeforeExpiry state target db =
      .commit state.successOutcome db' := by
  unfold checkOtherProcessingBeforeExpiry inspectOtherProcessingBeforeExpiry
  cases hlock : PaymentRepository.lockProcessingForOrder db state.orderId
      state.clock.checkOther with
  | none => exact lockReservation_closes_commits state target order db hrecorded hlocked hpayable
  | some other =>
      obtain ⟨-, row, -, hrow, -, hprocessing, -⟩ :=
        PaymentRepository.lockProcessingForOrder_some hlock
      simp only
      split_ifs with hlive hcount
      · exact ⟨db, rfl⟩
      · exact absurd (markTimedOut_counts hrow hprocessing) hcount
      · exact lockReservation_closes_commits state target order _ hrecorded hlocked hpayable

/-- The refund of a captured payment is written, or was written before. -/
theorem insertRefund_inserts (ledger : Ledger) {refundId attemptId : String} (orderId : String)
    {amount : ℕ} (reason : RefundReason) (provider : String) (now : Time) {attempt : AttemptRow}
    (hattempt : ledger.attempts.find attemptId = some attempt) (hamount : amount ≠ 0)
    (hfresh : ledger.refunds.find refundId = none) :
    ∃ ledger', PaymentRepository.insertRefund ledger refundId attemptId orderId amount reason
      provider now = some ledger' := by
  unfold PaymentRepository.insertRefund
  simp only [hattempt]
  rw [if_neg hamount]
  split
  · exact ⟨ledger, rfl⟩
  · obtain ⟨refunds, hinsert⟩ := Table.insert_of_find_none ledger.refunds _ hfresh
    exact ⟨_, by rw [hinsert]; rfl⟩

/-- A payment that comes too late is captured with its refund, and the order may expire. -/
theorem mutatePaymentResult_captures {state : FlowState} {row : AttemptRow} {order : OrderRow}
    {db : Db} {target : Option OrderStatus} (hopen : Open state order row db)
    (htarget : target = none ∨ (target = some .expired ∧ Payable db.inventory order))
    (hunsettled : row.Unsettled) (hsucceeded : state.paymentSucceeded = true)
    (htotal : order.totalAmount ≠ 0)
    (hrefund : db.ledger.refunds.find ("RFD-" ++ state.refundUuid) = none)
    (hsnapshot : ∀ snapshot, state.terminalSnapshot = some snapshot →
      OwnSnapshot snapshot state.paymentAttemptId row order db.ledger.attempts) :
    ∃ db', mutatePaymentResult { state with refundRequired := true, targetStatus := target } db =
      .commit state.successOutcome db' := by
  obtain ⟨attempts', row', hreplaced, -, hmutated⟩ := mutatePaymentResult_succeeds
    { state with refundRequired := true, targetStatus := target } order hopen.attempt hunsettled
    hsucceeded hsnapshot
  have hamount : state.order.totalAmount = order.totalAmount := by rw [hopen.locked.2]; rfl
  obtain ⟨ledger, hledger⟩ := insertRefund_inserts { db.ledger with attempts := attempts' }
    state.orderId (refundReason state.order.status)
    ((state.attempt.map fun attempt => attempt.value.provider).getD "") state.clock.insertRefund
    hreplaced.find_self (hamount ▸ htotal) hrefund
  rw [hmutated]
  unfold afterPaymentResult insertRefund
  simp only [if_true, hledger]
  rcases htarget with rfl | ⟨rfl, hpayable⟩
  · exact ⟨_, rfl⟩
  · exact checkOtherProcessingBeforeExpiry_commits
      { state with
        refundRequired := true
        targetStatus := some .expired
        paymentResultRecorded := true }
      .expired order { db with ledger := ledger } rfl hopen.locked hpayable

/-- The locked attempt of a callback. -/
def lockedAttempt (state : FlowState) (order : OrderRow) (row : AttemptRow) :
    LockedPaymentAttempt :=
  PaymentRepository.lockedRow order state.paymentAttemptId row state.clock.lockAttempt

/-- The flow state of a callback that has locked its order and its attempt. -/
def openedState (state : FlowState) (order : OrderRow) (row : AttemptRow) : FlowState :=
  { state with
    order := OrderRepository.expirable state.orderId order state.clock.lockOrder
    attempt := some (lockedAttempt state order row) }

/-- A callback of an open attempt reaches its completion. -/
theorem lockOrder_opens {state : FlowState} {row : AttemptRow} {order : OrderRow} {db : Db}
    (hmode : state.mode = .paymentCallback)
    (horder : db.inventory.orders.find state.orderId = some order)
    (hrow : db.ledger.attempts.find state.paymentAttemptId = some row)
    (hid : row.orderId = state.orderId) (hunsettled : row.Unsettled)
    (hsnapshot : ∀ snapshot, state.terminalSnapshot = some snapshot →
      OwnSnapshot snapshot state.paymentAttemptId row order db.ledger.attempts) :
    lockOrder state false db = completeOpenAttempt (openedState state order row)
      (lockedAttempt state order row) db := by
  have hlock : lockOrder state false db = inspectOrder state
      (OrderRepository.lockOrderForPayment db.inventory state.orderId state.clock.lockOrder) db := by
    simp only [lockOrder, hmode]
  have hattempt : PaymentRepository.lockByIdForOrder db state.paymentAttemptId state.orderId
      state.clock.lockAttempt = some (lockedAttempt state order row) := by
    simp [PaymentRepository.lockByIdForOrder, horder, hrow, hid, Option.filter, lockedAttempt]
  have hidentity : state.terminalSnapshot.any (identityMismatch (openedState state order row)
      (lockedAttempt state order row)) = false := by
    cases hterminal : state.terminalSnapshot with
    | none => rfl
    | some snapshot => exact (hsnapshot snapshot hterminal).identity rfl rfl
  have hlease : state.terminalSnapshot.any (leaseLost (lockedAttempt state order row)) = false := by
    cases hterminal : state.terminalSnapshot with
    | none => rfl
    | some snapshot => exact (hsnapshot snapshot hterminal).leased rfl
  have hinspected : inspectCallbackAttempt { state with
      order := OrderRepository.expirable state.orderId order state.clock.lockOrder }
      (some (lockedAttempt state order row)) db =
      completeOpenAttempt (openedState state order row) (lockedAttempt state order row) db := by
    have hsame : (lockedAttempt state order row).value.status = row.status := rfl
    unfold inspectCallbackAttempt
    rcases hunsettled with hstatus | hstatus
    all_goals
      simp only [hsame, hstatus]
      rw [if_neg (by rw [← Bool.not_eq_true] at hidentity; exact hidentity),
        if_neg (by rw [hlease]; simp)]
      rfl
  rw [hlock, OrderRepository.lockOrderForPayment, horder, Option.map_some,
    inspectOrder_callback hmode, lockCallbackAttempt]
  simp only [hattempt]
  exact hinspected

theorem openedState_open {state : FlowState} {row : AttemptRow} {order : OrderRow} {db : Db}
    (hmode : state.mode = .paymentCallback)
    (hfresh : state.refundRequired = false ∧ state.targetStatus = none ∧
      state.paymentResultRecorded = false)
    (horder : db.inventory.orders.find state.orderId = some order)
    (hrow : db.ledger.attempts.find state.paymentAttemptId = some row)
    (hid : row.orderId = state.orderId) : Open (openedState state order row) order row db :=
  ⟨⟨horder, rfl⟩, hmode, hfresh, hrow, hid⟩

/-- A success of a live attempt of a payable order commits as its acceptance. -/
theorem callback_accepts {state : FlowState} {row : AttemptRow} {order : OrderRow} {db : Db}
    (hmode : state.mode = .paymentCallback)
    (hfresh : state.refundRequired = false ∧ state.targetStatus = none ∧
      state.paymentResultRecorded = false)
    (hsucceeded : state.paymentSucceeded = true)
    (horder : db.inventory.orders.find state.orderId = some order)
    (hpayable : Payable db.inventory order)
    (hrow : db.ledger.attempts.find state.paymentAttemptId = some row)
    (hid : row.orderId = state.orderId) (hunsettled : row.Unsettled)
    (hstarted : row.startedAt < order.expiresAt)
    (hdeadline : state.clock.lockAttempt < row.processingDeadline)
    (hsnapshot : ∀ snapshot, state.terminalSnapshot = some snapshot →
      OwnSnapshot snapshot state.paymentAttemptId row order db.ledger.attempts) :
    ∃ db', lockOrder state false db = .commit state.successOutcome db' ∧
      Effect (.accept state.paymentAttemptId state.orderId) db db' := by
  have hopen := openedState_open hmode hfresh horder hrow hid
  obtain ⟨db', hcommitted⟩ := lockReservation_accepts hopen hpayable hunsettled hsucceeded
    hsnapshot
  have haccept := accept_commit hopen hsucceeded hcommitted
  refine ⟨db', ?_, haccept⟩
  rw [lockOrder_opens hmode horder hrow hid hunsettled hsnapshot]
  have hlive : (openedState state order row).order.status = .pendingPayment ∧
      (lockedAttempt state order row).deadlinePassed = false ∧
      (lockedAttempt state order row).startedBeforeOrderExpiry = true :=
    ⟨hpayable.pending, decide_eq_false (not_le.mpr hdeadline), decide_eq_true hstarted⟩
  unfold completeOpenAttempt
  rw [if_pos (show (openedState state order row).paymentSucceeded = true from hsucceeded),
    if_pos hlive]
  exact hcommitted

/-- Any success of an open attempt commits: as its acceptance, or captured with a refund. -/
theorem callback_succeeds {state : FlowState} {row : AttemptRow} {order : OrderRow} {db : Db}
    (hmode : state.mode = .paymentCallback)
    (hfresh : state.refundRequired = false ∧ state.targetStatus = none ∧
      state.paymentResultRecorded = false)
    (hsucceeded : state.paymentSucceeded = true)
    (horder : db.inventory.orders.find state.orderId = some order)
    (hpayable : order.status = .pendingPayment → Payable db.inventory order)
    (hrow : db.ledger.attempts.find state.paymentAttemptId = some row)
    (hid : row.orderId = state.orderId) (hunsettled : row.Unsettled)
    (htotal : order.totalAmount ≠ 0)
    (hrefund : db.ledger.refunds.find ("RFD-" ++ state.refundUuid) = none)
    (hone : PaymentRepository.OneProcessing db.ledger.attempts)
    (hsnapshot : ∀ snapshot, state.terminalSnapshot = some snapshot →
      OwnSnapshot snapshot state.paymentAttemptId row order db.ledger.attempts) :
    ∃ db' a actions, lockOrder state false db = .commit state.successOutcome db' ∧
      (a = .accept state.paymentAttemptId state.orderId ∨
        a = .capture state.paymentAttemptId state.orderId) ∧ Effects db (a :: actions) db' := by
  have hopen := openedState_open hmode hfresh horder hrow hid
  rw [lockOrder_opens hmode horder hrow hid hunsettled hsnapshot]
  have hopened : (openedState state order row).paymentSucceeded = true := hsucceeded
  unfold completeOpenAttempt
  rw [if_pos hopened]
  split_ifs with haccept hexpired
  · obtain ⟨db', hcommitted⟩ := lockReservation_accepts hopen (hpayable haccept.1) hunsettled
      hsucceeded hsnapshot
    have heffect := accept_commit hopen hopened hcommitted
    exact ⟨db', _, [], hcommitted, Or.inl rfl, Trace.single heffect⟩
  · obtain ⟨db', hcommitted⟩ := mutatePaymentResult_captures hopen
      (Or.inr ⟨rfl, hpayable hexpired.1⟩) hunsettled hsucceeded htotal hrefund hsnapshot
    obtain ⟨actions, htrace, -⟩ := capture_commit hopen hopened hone _ (Or.inr rfl) hcommitted
    exact ⟨db', _, actions, hcommitted, Or.inr rfl, htrace⟩
  · obtain ⟨db', hcommitted⟩ := mutatePaymentResult_captures hopen (Or.inl rfl) hunsettled
      hsucceeded htotal hrefund hsnapshot
    obtain ⟨actions, htrace, -⟩ := capture_commit hopen hopened hone _ (Or.inl rfl) hcommitted
    refine ⟨db', _, actions, ?_, Or.inr rfl, htrace⟩
    rw [← hopen.fresh.2.1] at hcommitted
    exact hcommitted

end Ticketing.OrderLifecycle
