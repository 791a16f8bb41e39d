import Ticketing.Effects
import Ticketing.OrderLifecycle

/-!
# What the order lifecycle transaction commits

Each step of the chain is inverted from its commit. The steps that end a chain
come first; the callback then composes its own update of the attempt with them.
-/

namespace Ticketing.OrderLifecycle

open Relational Transition

/-- The order row the transaction locked, as the flow state carries it. -/
def Locked (state : FlowState) (order : OrderRow) (db : Db) : Prop :=
  db.inventory.orders.find state.orderId = some order ∧
    state.order = OrderRepository.expirable state.orderId order state.clock.lockOrder

theorem Locked.reservationId {state : FlowState} {order : OrderRow} {db : Db}
    (h : Locked state order db) : state.order.reservationId = order.reservationId := by
  rw [h.2]
  rfl

/-- The settlement that belongs to a target status of the order. -/
def settlementOf : OrderStatus → Settlement
  | .paid => .paid
  | .expired => .expired
  | _ => .cancelled

/-- Every listed seat is held by the reservation. -/
def AllHeld (inv : Inventory) (reservationId : String) : Prop :=
  ∀ s row, OrderRepository.listed inv reservationId s = true → inv.seats.find s = some row →
    row.status = .held ∧ row.currentReservationId = some reservationId

theorem ownedHold_eq_listed {inv : Inventory} {reservationId : String}
    (h : AllHeld inv reservationId) {s : String} {row : SessionSeatRow}
    (hrow : inv.seats.find s = some row) :
    OrderRepository.ownedHold inv reservationId s row =
      OrderRepository.listed inv reservationId s := by
  unfold OrderRepository.ownedHold
  cases hl : OrderRepository.listed inv reservationId s with
  | false => simp
  | true =>
      obtain ⟨hstatus, hholder⟩ := h s row hl hrow
      simp [hstatus, hholder]

theorem find_ownedHold_moved {inv : Inventory} {reservationId : String}
    (h : AllHeld inv reservationId) (status : SeatStatus) (s : String) :
    (inv.toSeatStore.updateSeats (OrderRepository.ownedHold inv reservationId)
      status none).2.seats.find s = (inv.seats.find s).map fun row =>
        if OrderRepository.listed inv reservationId s = true then row.assign status none
        else row := by
  rw [SeatStore.find_updateSeats]
  cases hrow : inv.seats.find s with
  | none => rfl
  | some row =>
      rw [Option.map_some, Option.map_some, ownedHold_eq_listed h hrow]

theorem allHeld_of_locked {inv : Inventory} {reservationId : String}
    (h : ¬ ((OrderRepository.lockReservationSeatsForExpiry inv reservationId).any fun seat =>
      decide (seat.status ≠ .held) ||
        decide (seat.currentReservationId ≠ some reservationId)) = true) :
    AllHeld inv reservationId := by
  intro s row hl hrow
  simp only [List.any_eq_true, not_exists, not_and] at h
  have hmem : (⟨s, row.status, row.currentReservationId⟩ : ExpirySessionSeatRow) ∈
      OrderRepository.lockReservationSeatsForExpiry inv reservationId := by
    unfold OrderRepository.lockReservationSeatsForExpiry
    rw [List.mem_insertionSort, List.mem_map]
    exact ⟨(s, row), (inv.seats.mem_select _ s row).mpr ⟨hrow, hl⟩, rfl⟩
  have hseat := h _ hmem
  simpa using hseat

theorem insertNotification_commit {state : FlowState} {db db' : Db}
    {out : OrderLifecycleOutcome} (h : insertNotification state db = .commit out db') :
    db'.inventory = db.inventory ∧ db'.ledger = db.ledger := by
  unfold insertNotification commit at h
  cases h
  exact ⟨rfl, rfl⟩

theorem continueIfOne_commit {updated : ℕ × Inventory} {db db' : Db} {next : Db → Result}
    {out : OrderLifecycleOutcome} (h : continueIfOne updated db next = .commit out db') :
    updated.1 = 1 ∧ next { db with inventory := updated.2 } = .commit out db' := by
  unfold continueIfOne at h
  split_ifs at h with hcount
  · cases h
  · exact ⟨not_not.mp hcount, h⟩

theorem transitionOrder_commit {state : FlowState} {target : OrderStatus} {db db' : Db}
    {out : OrderLifecycleOutcome} (h : transitionOrder state target db = .commit out db') :
    (∃ order order', OrderRepository.OrderMoves .pendingPayment target state.orderId order order'
      db.inventory db'.inventory ∧ order'.refundedAt = order.refundedAt) ∧
      db'.ledger = db.ledger := by
  unfold transitionOrder at h
  obtain ⟨hcount, hnext⟩ := continueIfOne_commit h
  obtain ⟨hinv, hledger⟩ := insertNotification_commit hnext
  refine ⟨?_, hledger⟩
  rw [hinv]
  by_cases hpaid : target = .paid
  · subst target
    exact OrderRepository.payOrder_moves hcount
  · rw [if_neg hpaid] at hcount ⊢
    exact OrderRepository.transitionOrder_moves hcount

theorem transitionReservation_commit {state : FlowState} {target : OrderStatus} {db db' : Db}
    {out : OrderLifecycleOutcome} (h : transitionReservation state target db = .commit out db') :
    ∃ inv reservation, OrderRepository.ReservationMoves .active (reservationTarget target)
      state.order.reservationId reservation db.inventory inv ∧
      transitionOrder state target { db with inventory := inv } = .commit out db' := by
  obtain ⟨hcount, hnext⟩ := continueIfOne_commit h
  obtain ⟨reservation, hmoves⟩ := OrderRepository.transitionReservation_moves hcount
  exact ⟨_, reservation, hmoves, hnext⟩

/-- Selling and releasing are one update with the seat status of the settlement. -/
theorem moveSeats_eq (inv : Inventory) (reservationId : String) (target : OrderStatus) :
    (if target = .paid then OrderRepository.sellReservationSeats inv reservationId
      else OrderRepository.releaseReservationSeats inv reservationId) =
    ((inv.toSeatStore.updateSeats (OrderRepository.ownedHold inv reservationId)
      (settlementOf target).seatAfter none).1,
      { inv with toSeatStore := (inv.toSeatStore.updateSeats
        (OrderRepository.ownedHold inv reservationId) (settlementOf target).seatAfter none).2 }) := by
  cases target <;> rfl

/-- With all seats held, the terminal transition settles order, reservation and seats. -/
theorem continueTerminalTransition_commit {state : FlowState} {target : OrderStatus}
    (order : OrderRow) {db db' : Db} {out : OrderLifecycleOutcome}
    (h : continueTerminalTransition state target db = .commit out db')
    (htarget : target ≠ .pendingPayment) (hlocked : Locked state order db)
    (hheld : AllHeld db.inventory order.reservationId) :
    (∃ order', Settles (settlementOf target) state.orderId order order' db.inventory
      db'.inventory) ∧ db'.ledger = db.ledger := by
  have hid := hlocked.reservationId
  unfold continueTerminalTransition at h
  simp only [moveSeats_eq] at h
  split_ifs at h with hcount
  · cases h
  obtain ⟨inv, reservation, hreservation, h₁⟩ := transitionReservation_commit h
  obtain ⟨⟨row, row', hmoves, hrefunded⟩, hledger⟩ := transitionOrder_commit h₁
  rw [hid] at hreservation
  have hrow : row = order := by
    have hfound := hmoves.orders.found
    rw [hreservation.orders] at hfound
    exact Option.some.inj (hfound.symm.trans hlocked.1)
  subst hrow
  refine ⟨⟨row', ?_⟩, hledger⟩
  -- a target of the flow starts from PENDING_PAYMENT, ACTIVE and HELD
  have hkind : (settlementOf target).orderAfter = target ∧
      (settlementOf target).orderBefore = .pendingPayment ∧
      (settlementOf target).reservationBefore = .active ∧
      (settlementOf target).reservationAfter = reservationTarget target ∧
      (settlementOf target).seatBefore = .held ∧
      (settlementOf target).holderBefore row.reservationId = some row.reservationId ∧
      settlementOf target ≠ .refunded := by
    cases target <;> first | exact absurd rfl htarget | simp [settlementOf, Settlement.orderAfter,
      Settlement.orderBefore, Settlement.reservationBefore, Settlement.reservationAfter,
      Settlement.seatBefore, Settlement.holderBefore, reservationTarget]
  obtain ⟨hafter, hbefore, hresBefore, hresAfter, hseatBefore, hholder, hkindne⟩ := hkind
  constructor
  case orders => exact hreservation.orders ▸ hmoves.orders
  case before => rw [hbefore, hmoves.before]
  case after => rw [hafter, hmoves.after]
  case continues => exact hmoves.continues
  case refundedAt => rw [if_neg hkindne]; exact hrefunded
  case reservations =>
    refine ⟨reservation, hreservation.before.trans hresBefore.symm, ?_⟩
    rw [hresAfter, hmoves.reservations]
    exact hreservation.reservations
  case held => rw [hseatBefore, hholder]; exact hheld
  case seats =>
    intro s
    rw [hmoves.seatStore, hreservation.seatStore]
    exact find_ownedHold_moved hheld _ s
  case items => exact hmoves.items.trans hreservation.items

theorem lockSeats_commit {recordResult : FlowState → Db → Result} {state : FlowState}
    {target : OrderStatus} {db db' : Db} {out : OrderLifecycleOutcome}
    (h : lockSeats recordResult state target db = .commit out db') :
    AllHeld db.inventory state.order.reservationId ∧ ∃ n,
      if state.mode = .paymentCallback ∧ state.paymentResultRecorded = false then
        recordResult { state with expectedSeatCount := n } db = .commit out db'
      else continueTerminalTransition { state with expectedSeatCount := n } target db =
        .commit out db' := by
  unfold lockSeats at h
  simp only at h
  split_ifs at h with hempty hany hfirst
  · cases h
  · cases h
  · exact ⟨allHeld_of_locked hany, _, by rw [if_pos hfirst]; exact h⟩
  · exact ⟨allHeld_of_locked hany, _, by rw [if_neg hfirst]; exact h⟩

theorem lockReservation_commit {recordResult : FlowState → Db → Result} {state : FlowState}
    {target : OrderStatus} {db db' : Db} {out : OrderLifecycleOutcome}
    (h : lockReservation recordResult state target db = .commit out db') :
    lockSeats recordResult state target db = .commit out db' := by
  unfold lockReservation at h
  split at h
  · exact h
  · cases h

/-- A locked reservation that is not to record a result first closes the order. -/
theorem lockReservation_closes {recordResult : FlowState → Db → Result} {state : FlowState}
    {target : OrderStatus} (order : OrderRow) {db db' : Db} {out : OrderLifecycleOutcome}
    (h : lockReservation recordResult state target db = .commit out db')
    (htarget : target = .cancelled ∨ target = .expired)
    (hlater : ¬ (state.mode = .paymentCallback ∧ state.paymentResultRecorded = false))
    (hlocked : Locked state order db)
    (hsettled : target = .expired → ∀ k row, db.ledger.attempts.find k = some row →
      row.orderId = state.orderId → row.status ≠ .processing) :
    Effect (.close state.orderId (settlementOf target)) db db' := by
  obtain ⟨hheld, n, hnext⟩ := lockSeats_commit (lockReservation_commit h)
  rw [if_neg hlater] at hnext
  rw [hlocked.reservationId] at hheld
  have hpending : target ≠ .pendingPayment := by rcases htarget with rfl | rfl <;> simp
  obtain ⟨⟨order', hsettles⟩, hledger⟩ :=
    continueTerminalTransition_commit order hnext hpending hlocked hheld
  refine Effect.close ?_ hsettles hledger ?_
  · rcases htarget with rfl | rfl <;> simp [settlementOf]
  · intro hkind
    apply hsettled
    rcases htarget with rfl | rfl
    · cases hkind
    · rfl

theorem timeOut_effect {db : Db} {orderId : String} {now later : Time}
    {locked : LockedPaymentAttempt}
    (hlock : PaymentRepository.lockProcessingForOrder db orderId now = some locked)
    (hstale : ¬ (locked.deadlinePassed = false ∧ locked.startedBeforeOrderExpiry = true))
    (hcount : (PaymentRepository.markTimedOut db.ledger.attempts locked.id later).1 = 1) :
    Effect (.timeOut locked.id orderId now) db { db with ledger := { db.ledger with
      attempts := (PaymentRepository.markTimedOut db.ledger.attempts locked.id later).2 } } := by
  obtain ⟨old, new, hreplaced, hold, hnew, haccepted, hcont⟩ :=
    PaymentRepository.markTimedOut_replaces hcount
  obtain ⟨order, row, horder, hrow, hid, hprocessing, hvalue⟩ :=
    PaymentRepository.lockProcessingForOrder_some hlock
  have hsame : old = row := Option.some.inj (hreplaced.found.symm.trans hrow)
  subst hsame
  rw [hvalue] at hstale
  simp only [PaymentRepository.lockedRow, decide_eq_false_iff_not, decide_eq_true_eq,
    not_and_or, not_not, not_lt] at hstale
  subst hid
  exact Effect.timeOut rfl rfl horder hstale hold hnew haccepted hcont hreplaced

/-- The labels an expiry decided at `now` can leave. -/
def ExpiryAction (orderId : String) (now : Time) (a : Action) : Prop :=
  a = .close orderId .expired ∨ ∃ k, a = .timeOut k orderId now

/-- Before an expiry a live other attempt keeps the order, a stale one is timed out. -/
theorem checkOtherProcessingBeforeExpiry_commit {state : FlowState} (order : OrderRow)
    {db db' : Db} {out : OrderLifecycleOutcome}
    (h : checkOtherProcessingBeforeExpiry state .expired db = .commit out db')
    (hrecorded : state.paymentResultRecorded = true) (hlocked : Locked state order db)
    (hone : PaymentRepository.OneProcessing db.ledger.attempts) :
    ∃ actions, Effects db actions db' ∧
      ∀ a ∈ actions, ExpiryAction state.orderId state.clock.checkOther a := by
  have hlater : ¬ (state.mode = .paymentCallback ∧ state.paymentResultRecorded = false) := by
    simp [hrecorded]
  unfold checkOtherProcessingBeforeExpiry inspectOtherProcessingBeforeExpiry at h
  cases hlock : PaymentRepository.lockProcessingForOrder db state.orderId
      state.clock.checkOther with
  | none =>
      rw [hlock] at h
      have hclose := lockReservation_closes order h (Or.inr rfl) hlater hlocked
        fun _ => PaymentRepository.lockProcessingForOrder_none hlock hlocked.1
      exact ⟨_, Trace.single hclose, by simp [ExpiryAction, settlementOf]⟩
  | some other =>
      rw [hlock] at h
      simp only at h
      split_ifs at h with hlive hcount
      · cases h
        exact ⟨[], Trace.nil _, by simp⟩
      · cases h
      · rw [not_not] at hcount
        have htimeOut := timeOut_effect hlock hlive hcount
        have hclose := lockReservation_closes order h (Or.inr rfl) hlater hlocked
          fun _ => PaymentRepository.none_processing_after_timeOut hone hlock hcount
        refine ⟨_, Trace.cons htimeOut (Trace.single hclose), ?_⟩
        simp [ExpiryAction, settlementOf]

theorem recordTerminalSnapshot_commit {state : FlowState} {db db' : Db}
    {out : OrderLifecycleOutcome} (h : recordTerminalSnapshot state db = .commit out db') :
    ∃ attempts', (attempts' = db.ledger.attempts ∨ ∃ row row',
        db.ledger.attempts.Replaced state.paymentAttemptId row row' attempts' ∧
        row.Synced row') ∧
      afterPaymentResult state { db with ledger := { db.ledger with attempts := attempts' } } =
        .commit out db' := by
  unfold recordTerminalSnapshot at h
  cases hsnapshot : state.terminalSnapshot with
  | none =>
      rw [hsnapshot] at h
      exact ⟨_, Or.inl rfl, h⟩
  | some snapshot =>
      rw [hsnapshot] at h
      simp only at h
      cases hrecord : PaymentRepository.recordTerminalSnapshot db.ledger.attempts
          state.paymentAttemptId snapshot state.clock.recordSnapshot with
      | none => rw [hrecord] at h; cases h
      | some recorded =>
          rw [hrecord] at h
          simp only at h
          split_ifs at h with hcount
          · cases h
          · rw [not_not] at hcount
            obtain ⟨row, row', hreplaced, hsynced⟩ :=
              PaymentRepository.recordTerminalSnapshot_replaces
                (hrecord.trans (by rw [← hcount]))
            exact ⟨recorded.2, Or.inr ⟨row, row', hreplaced, hsynced⟩, h⟩

/-- The callback's own update of its attempt, with the terminal snapshot on top. -/
theorem mutatePaymentResult_commit {state : FlowState} {db db' : Db}
    {out : OrderLifecycleOutcome} (h : mutatePaymentResult state db = .commit out db') :
    ∃ row row' attempts',
      db.ledger.attempts.Replaced state.paymentAttemptId row row' attempts' ∧ row.Unsettled ∧
      row.Continues row' ∧
      row'.status = (if state.paymentSucceeded then .succeeded else .failed) ∧
      row'.acceptedAt.isSome =
        (state.paymentSucceeded && decide (state.targetStatus = some .paid)) ∧
      afterPaymentResult { state with paymentResultRecorded := true }
        { db with ledger := { db.ledger with attempts := attempts' } } = .commit out db' := by
  have hmarked : ∃ row row₁ attempts₁,
      db.ledger.attempts.Replaced state.paymentAttemptId row row₁ attempts₁ ∧ row.Unsettled ∧
      row.Continues row₁ ∧
      row₁.status = (if state.paymentSucceeded then .succeeded else .failed) ∧
      row₁.acceptedAt.isSome =
        (state.paymentSucceeded && decide (state.targetStatus = some .paid)) ∧
      recordTerminalSnapshot { state with paymentResultRecorded := true }
        { db with ledger := { db.ledger with attempts := attempts₁ } } = .commit out db' := by
    unfold mutatePaymentResult at h
    cases hsucceeded : state.paymentSucceeded with
    | true =>
        simp only [hsucceeded, if_true] at h
        split_ifs at h with hcount
        · cases h
        rw [not_not] at hcount
        obtain ⟨row, row₁, hreplaced, hunsettled, hstatus, haccepted, hcont⟩ :=
          PaymentRepository.markSucceeded_replaces hcount
        refine ⟨row, row₁, _, hreplaced, hunsettled, hcont, hstatus, ?_, h⟩
        rw [haccepted]
        by_cases htarget : state.targetStatus = some .paid <;> simp [htarget]
    | false =>
        simp only [hsucceeded, Bool.false_eq_true, if_false] at h
        split_ifs at h with hcount
        · cases h
        rw [not_not] at hcount
        obtain ⟨row, row₁, hreplaced, hunsettled, hstatus, haccepted, hcont⟩ :=
          PaymentRepository.markFailed_replaces hcount
        refine ⟨row, row₁, _, hreplaced, hunsettled, hcont, hstatus, ?_, h⟩
        rw [haccepted]
        rfl
  obtain ⟨row, row₁, attempts₁, hreplaced, hunsettled, hcont, hstatus, haccepted, hnext⟩ := hmarked
  obtain ⟨attempts', hrecorded, hafter⟩ := recordTerminalSnapshot_commit hnext
  rcases hrecorded with rfl | ⟨row₂, row', hsnapshot, hsynced⟩
  · exact ⟨row, row₁, attempts', hreplaced, hunsettled, hcont, hstatus, haccepted, hafter⟩
  · obtain ⟨rfl, hboth⟩ := hreplaced.trans hsnapshot
    refine ⟨row, row', attempts', hboth, hunsettled, hcont.trans hsynced.toContinues,
      hsynced.status.trans hstatus, ?_, hafter⟩
    rw [hsynced.acceptedAt, haccepted]

theorem insertRefund_refundsSystem {ledger ledger' : Ledger} {refundId attemptId orderId : String}
    {amount : ℕ} {reason : RefundReason} {provider : String} {now : Time} {attempt : AttemptRow}
    (h : PaymentRepository.insertRefund ledger refundId attemptId orderId amount reason provider
      now = some ledger') (hattempt : ledger.attempts.find attemptId = some attempt) :
    RefundsSystem attemptId orderId amount ledger.refunds ledger'.refunds ∧
      ledger'.attempts = ledger.attempts := by
  unfold PaymentRepository.insertRefund at h
  simp only [hattempt] at h
  split_ifs at h with hamount hexists
  · cases h
    obtain ⟨entry, hentry, hid⟩ := List.any_eq_true.mp hexists
    exact ⟨⟨Or.inr ⟨rfl, entry.1, entry.2, (ledger.refunds.find_eq_some _ _).mpr hentry,
      of_decide_eq_true hid⟩⟩, rfl⟩
  · obtain ⟨refunds, hinsert, rfl⟩ := Option.map_eq_some_iff.mp h
    refine ⟨⟨Or.inl ⟨refundId, _, ?_, ?_, ?_, ?_, ?_, Table.inserted_of_insert hinsert⟩⟩, rfl⟩
    · rfl
    · rfl
    · rfl
    · rfl
    · intro k row hrow hid
      apply hexists
      exact List.any_eq_true.mpr
        ⟨(k, row), (ledger.refunds.find_eq_some k row).mp hrow, decide_eq_true hid⟩

/-- The labels a callback for one attempt can leave, by its result. -/
def CallbackAction (orderId attemptId : String) (succeeded : Bool) (now : Time) (a : Action) :
    Prop :=
  (succeeded = true ∧ (a = .accept attemptId orderId ∨ a = .capture attemptId orderId)) ∨
    (succeeded = false ∧ a = .decline attemptId orderId) ∨ ExpiryAction orderId now a

/-- A callback that found its attempt open, as it enters the completion. -/
structure Open (state : FlowState) (order : OrderRow) (row : AttemptRow) (db : Db) : Prop where
  locked : Locked state order db
  callback : state.mode = .paymentCallback
  fresh : state.refundRequired = false ∧ state.targetStatus = none ∧
    state.paymentResultRecorded = false
  attempt : db.ledger.attempts.find state.paymentAttemptId = some row
  orderId : row.orderId = state.orderId

theorem oneProcessing_of_replaced {attempts attempts' : Table String AttemptRow} {id : String}
    {row row' : AttemptRow} (h : attempts.Replaced id row row' attempts')
    (hstatus : row'.status ≠ .processing) (hone : PaymentRepository.OneProcessing attempts) :
    PaymentRepository.OneProcessing attempts' := by
  intro k k' r r' hr hr' hp hp' hid
  rcases h.cases hr with ⟨-, rfl⟩ | ⟨-, hold⟩
  · exact absurd hp hstatus
  · rcases h.cases hr' with ⟨-, rfl⟩ | ⟨-, hold'⟩
    · exact absurd hp' hstatus
    · exact hone k k' r r' hold hold' hp hp' hid

/-- The accepting branch: the attempt, the order and its seats in one transaction. -/
theorem accept_commit {state : FlowState} {order : OrderRow} {row : AttemptRow} {db db' : Db}
    {out : OrderLifecycleOutcome} (hopen : Open state order row db)
    (hsucceeded : state.paymentSucceeded = true)
    (h : lockReservation mutatePaymentResult { state with targetStatus := some .paid } .paid db =
      .commit out db') :
    Effect (.accept state.paymentAttemptId state.orderId) db db' := by
  obtain ⟨hheld, n, hnext⟩ := lockSeats_commit (lockReservation_commit h)
  rw [if_pos ⟨hopen.callback, hopen.fresh.2.2⟩] at hnext
  obtain ⟨old, new, attempts', hreplaced, hunsettled, hcont, hstatus, haccepted, hafter⟩ :=
    mutatePaymentResult_commit hnext
  have hold : old = row := Option.some.inj (hreplaced.found.symm.trans hopen.attempt)
  subst hold
  unfold afterPaymentResult at hafter
  simp only [hopen.fresh.1, Bool.false_eq_true, if_false, reduceCtorEq] at hafter
  obtain ⟨⟨order', hsettles⟩, hledger⟩ := continueTerminalTransition_commit order hafter
    (by simp) hopen.locked (by rw [← hopen.locked.reservationId]; exact hheld)
  rw [← hopen.orderId] at hsettles ⊢
  refine Effect.accept hsettles (by rw [hledger]) hunsettled ?_ ?_ hcont
    (by rw [hledger]; exact hreplaced)
  · simpa [hsucceeded] using hstatus
  · simpa [hsucceeded] using haccepted

/-- A captured payment that is not accepted gets its refund, then perhaps an expiry. -/
theorem capture_commit {state : FlowState} {order : OrderRow} {row : AttemptRow} {db db' : Db}
    {out : OrderLifecycleOutcome} (hopen : Open state order row db)
    (hsucceeded : state.paymentSucceeded = true)
    (hone : PaymentRepository.OneProcessing db.ledger.attempts)
    (target : Option OrderStatus) (htarget : target = none ∨ target = some .expired)
    (h : mutatePaymentResult { state with refundRequired := true, targetStatus := target } db =
      .commit out db') :
    ∃ actions, Effects db (.capture state.paymentAttemptId state.orderId :: actions) db' ∧
      ∀ a ∈ actions, ExpiryAction state.orderId state.clock.checkOther a := by
  obtain ⟨old, new, attempts', hreplaced, hunsettled, hcont, hstatus, haccepted, hafter⟩ :=
    mutatePaymentResult_commit h
  have hold : old = row := Option.some.inj (hreplaced.found.symm.trans hopen.attempt)
  subst hold
  have hnotpaid : target ≠ some .paid := by rcases htarget with rfl | rfl <;> simp
  simp only [hsucceeded, if_true] at hstatus
  simp only [hnotpaid, decide_false, Bool.and_false] at haccepted
  unfold afterPaymentResult insertRefund at hafter
  simp only [if_true] at hafter
  cases hrefund : PaymentRepository.insertRefund { db.ledger with attempts := attempts' }
      ("RFD-" ++ state.refundUuid) state.paymentAttemptId state.orderId state.order.totalAmount
      (refundReason state.order.status)
      ((state.attempt.map fun attempt => attempt.value.provider).getD "")
      state.clock.insertRefund with
  | none => rw [hrefund] at hafter; cases hafter
  | some ledger =>
      rw [hrefund] at hafter
      simp only at hafter
      obtain ⟨hsystem, hattempts⟩ := insertRefund_refundsSystem hrefund hreplaced.find_self
      have hamount : state.order.totalAmount = order.totalAmount := by rw [hopen.locked.2]; rfl
      have hcapture : Effect (.capture state.paymentAttemptId state.orderId) db
          { db with ledger := ledger } := by
        rw [← hopen.orderId]
        refine @Effect.capture _ _ _ old _ order rfl ?_ ?_ hunsettled hstatus ?_ hcont ?_
        · rw [hopen.orderId]
          exact hopen.locked.1
        · rw [hopen.orderId, ← hamount]
          exact hsystem
        · simpa using haccepted
        · rw [hattempts]
          exact hreplaced
      rcases htarget with rfl | rfl
      · cases hafter
        exact ⟨[], Trace.single hcapture, by simp⟩
      · have hnew : new.status ≠ .processing := by simp [hstatus]
        obtain ⟨actions, htrace, hall⟩ := checkOtherProcessingBeforeExpiry_commit order hafter
          rfl hopen.locked
          (by rw [hattempts]; exact oneProcessing_of_replaced hreplaced hnew hone)
        exact ⟨actions, Trace.cons hcapture htrace, hall⟩

theorem decline_commit {state : FlowState} {order : OrderRow} {row : AttemptRow} {db db' : Db}
    {out : OrderLifecycleOutcome} (hopen : Open state order row db)
    (hfailed : state.paymentSucceeded = false)
    (hone : PaymentRepository.OneProcessing db.ledger.attempts)
    (target : Option OrderStatus) (htarget : target = none ∨ target = some .expired)
    (h : mutatePaymentResult { state with targetStatus := target } db = .commit out db') :
    ∃ actions, Effects db (.decline state.paymentAttemptId state.orderId :: actions) db' ∧
      ∀ a ∈ actions, ExpiryAction state.orderId state.clock.checkOther a := by
  obtain ⟨old, new, attempts', hreplaced, hunsettled, hcont, hstatus, haccepted, hafter⟩ :=
    mutatePaymentResult_commit h
  have hold : old = row := Option.some.inj (hreplaced.found.symm.trans hopen.attempt)
  subst hold
  simp only [hfailed, Bool.false_eq_true, if_false] at hstatus
  simp only [hfailed, Bool.false_and] at haccepted
  unfold afterPaymentResult at hafter
  simp only [hopen.fresh.1, Bool.false_eq_true, if_false] at hafter
  have hdecline : Effect (.decline state.paymentAttemptId state.orderId) db
      { db with ledger := { db.ledger with attempts := attempts' } } := by
    rw [← hopen.orderId]
    exact Effect.decline rfl rfl hunsettled hstatus (by simpa using haccepted) hcont hreplaced
  rcases htarget with rfl | rfl
  · cases hafter
    exact ⟨[], Trace.single hdecline, by simp⟩
  · have hnew : new.status ≠ .processing := by simp [hstatus]
    obtain ⟨actions, htrace, hall⟩ := checkOtherProcessingBeforeExpiry_commit order hafter rfl
      hopen.locked (oneProcessing_of_replaced hreplaced hnew hone)
    exact ⟨actions, Trace.cons hdecline htrace, hall⟩

theorem completeOpenAttempt_commit {state : FlowState} {order : OrderRow} {row : AttemptRow}
    {attempt : LockedPaymentAttempt} {db db' : Db} {out : OrderLifecycleOutcome}
    (hopen : Open state order row db)
    (hone : PaymentRepository.OneProcessing db.ledger.attempts)
    (h : completeOpenAttempt state attempt db = .commit out db') :
    ∃ actions, Effects db actions db' ∧
      ∀ a ∈ actions, CallbackAction state.orderId state.paymentAttemptId state.paymentSucceeded
        state.clock.checkOther a := by
  unfold completeOpenAttempt at h
  split_ifs at h with hsucceeded haccept hexpired hexpired
  · refine ⟨_, Trace.single (accept_commit hopen hsucceeded h), ?_⟩
    simp [CallbackAction, hsucceeded]
  · obtain ⟨actions, htrace, hall⟩ := capture_commit hopen hsucceeded hone _ (Or.inr rfl) h
    refine ⟨_, htrace, List.forall_mem_cons.mpr
      ⟨Or.inl ⟨hsucceeded, Or.inr rfl⟩, fun a ha => Or.inr (Or.inr (hall a ha))⟩⟩
  · obtain ⟨actions, htrace, hall⟩ := capture_commit hopen hsucceeded hone none
      (Or.inl rfl) (by rw [← hopen.fresh.2.1]; exact h)
    refine ⟨_, htrace, List.forall_mem_cons.mpr
      ⟨Or.inl ⟨hsucceeded, Or.inr rfl⟩, fun a ha => Or.inr (Or.inr (hall a ha))⟩⟩
  · rw [Bool.not_eq_true] at hsucceeded
    obtain ⟨actions, htrace, hall⟩ := decline_commit hopen hsucceeded hone _ (Or.inr rfl) h
    refine ⟨_, htrace, List.forall_mem_cons.mpr
      ⟨Or.inr (Or.inl ⟨hsucceeded, rfl⟩), fun a ha => Or.inr (Or.inr (hall a ha))⟩⟩
  · rw [Bool.not_eq_true] at hsucceeded
    obtain ⟨actions, htrace, hall⟩ := decline_commit hopen hsucceeded hone none (Or.inl rfl)
      (by rw [← hopen.fresh.2.1]; exact h)
    refine ⟨_, htrace, List.forall_mem_cons.mpr
      ⟨Or.inr (Or.inl ⟨hsucceeded, rfl⟩), fun a ha => Or.inr (Or.inr (hall a ha))⟩⟩

/-- The labels of a user cancel or of the expiry worker. -/
def TerminalAction (mode : Mode) (orderId : String) (now : Time) (a : Action) : Prop :=
  (mode = .cancel ∧ a = .close orderId .cancelled) ∨ ExpiryAction orderId now a

theorem chooseTerminalTransition_commit {state : FlowState} (order : OrderRow)
    {hasValidProcessing : Bool} {db db' : Db} {out : OrderLifecycleOutcome}
    (h : chooseTerminalTransition state hasValidProcessing db = .commit out db')
    (hmode : state.mode ≠ .paymentCallback) (hlocked : Locked state order db)
    (hnone : hasValidProcessing = false → ∀ k row, db.ledger.attempts.find k = some row →
      row.orderId = state.orderId → row.status ≠ .processing) :
    ∃ a, Effect a db db' ∧ TerminalAction state.mode state.orderId state.clock.lockAttempt a := by
  unfold chooseTerminalTransition at h
  split_ifs at h with hskip hcancel hmodeCancel
  · cases h
  · have hclose := lockReservation_closes order h (Or.inl rfl) (fun hfirst => hmode hfirst.1)
      hlocked (fun hne => by cases hne)
    exact ⟨_, hclose, Or.inl ⟨hcancel.1, rfl⟩⟩
  all_goals
    have hinvalid : hasValidProcessing = false := by
      cases hm : state.mode <;> simp_all
    have hclose := lockReservation_closes order h (Or.inr rfl) (fun hfirst => hmode hfirst.1)
      hlocked (fun _ => hnone hinvalid)
    exact ⟨_, hclose, Or.inr (Or.inl rfl)⟩

theorem lockAttempt_commit {state : FlowState} (order : OrderRow) {db db' : Db}
    {out : OrderLifecycleOutcome} (h : lockAttempt state db = .commit out db')
    (hmode : state.mode ≠ .paymentCallback) (hlocked : Locked state order db)
    (hone : PaymentRepository.OneProcessing db.ledger.attempts) :
    ∃ actions, Effects db actions db' ∧
      ∀ a ∈ actions, TerminalAction state.mode state.orderId state.clock.lockAttempt a := by
  unfold lockAttempt inspectAttempt at h
  cases hlock : PaymentRepository.lockProcessingForOrder db state.orderId
      state.clock.lockAttempt with
  | none =>
      rw [hlock] at h
      obtain ⟨a, heffect, ha⟩ := chooseTerminalTransition_commit order h hmode hlocked
        fun _ => PaymentRepository.lockProcessingForOrder_none hlock hlocked.1
      exact ⟨_, Trace.single heffect, by simpa using ha⟩
  | some locked =>
      rw [hlock] at h
      simp only at h
      split_ifs at h with hlive
      · obtain ⟨a, heffect, ha⟩ := chooseTerminalTransition_commit order h hmode
          hlocked (fun hne => by cases hne)
        exact ⟨_, Trace.single heffect, by simpa using ha⟩
      · unfold markAttemptTimedOut at h
        simp only at h
        split_ifs at h with hcount
        · cases h
        · rw [not_not] at hcount
          have htimeOut := timeOut_effect hlock hlive hcount
          obtain ⟨a, heffect, ha⟩ := chooseTerminalTransition_commit order h hmode
            hlocked fun _ => PaymentRepository.none_processing_after_timeOut hone hlock hcount
          refine ⟨_, Trace.cons htimeOut (Trace.single heffect), ?_⟩
          rintro b (_ | ⟨_, _ | ⟨_, hb⟩⟩)
          · exact Or.inr (Or.inr ⟨_, rfl⟩)
          · exact ha
          · cases hb

theorem inspectCallbackAttempt_commit {state : FlowState} {order : OrderRow} {row : AttemptRow}
    {attempt : LockedPaymentAttempt} {db db' : Db} {out : OrderLifecycleOutcome}
    (hopen : Open state order row db)
    (hone : PaymentRepository.OneProcessing db.ledger.attempts)
    (h : inspectCallbackAttempt state (some attempt) db = .commit out db') :
    ∃ actions, Effects db actions db' ∧
      ∀ a ∈ actions, CallbackAction state.orderId state.paymentAttemptId state.paymentSucceeded
        state.clock.checkOther a := by
  have hopen' : Open { state with attempt := some attempt } order row db :=
    ⟨hopen.locked, hopen.callback, hopen.fresh, hopen.attempt, hopen.orderId⟩
  unfold inspectCallbackAttempt at h
  simp only at h
  split_ifs at h
  · cases h
  · cases h
  · cases hstatus : attempt.value.status with
    | succeeded => rw [hstatus] at h; cases h
    | failed => rw [hstatus] at h; cases h
    | processing =>
        rw [hstatus] at h
        have hcompleted := completeOpenAttempt_commit hopen' hone h
        exact hcompleted
    | timedOut =>
        rw [hstatus] at h
        have hcompleted := completeOpenAttempt_commit hopen' hone h
        exact hcompleted

theorem locked_of_find {state : FlowState} {order : OrderRow} {db : Db}
    (horder : db.inventory.orders.find state.orderId = some order) :
    Locked { state with
      order := OrderRepository.expirable state.orderId order state.clock.lockOrder } order db :=
  ⟨horder, rfl⟩

theorem inspectOrder_callback {state : FlowState} (hmode : state.mode = .paymentCallback)
    (row : ExpirableOrderRow) (db : Db) :
    inspectOrder state (some row) db = lockCallbackAttempt { state with order := row } db := by
  simp only [inspectOrder, hmode]

/-- What a payment callback commits. -/
theorem callback_commit {state : FlowState} {db db' : Db} {out : OrderLifecycleOutcome}
    (hmode : state.mode = .paymentCallback)
    (hfresh : state.refundRequired = false ∧ state.targetStatus = none ∧
      state.paymentResultRecorded = false)
    (hone : PaymentRepository.OneProcessing db.ledger.attempts)
    (h : lockOrder state false db = .commit out db') :
    ∃ actions, Effects db actions db' ∧
      ∀ a ∈ actions, CallbackAction state.orderId state.paymentAttemptId state.paymentSucceeded
        state.clock.checkOther a := by
  have hlock : lockOrder state false db = inspectOrder state
      (OrderRepository.lockOrderForPayment db.inventory state.orderId state.clock.lockOrder) db := by
    simp only [lockOrder, hmode]
  rw [hlock, OrderRepository.lockOrderForPayment] at h
  cases horder : db.inventory.orders.find state.orderId with
  | none => rw [horder] at h; cases h
  | some order =>
      rw [horder, Option.map_some, inspectOrder_callback hmode, lockCallbackAttempt] at h
      simp only at h
      cases hattempt : PaymentRepository.lockByIdForOrder db state.paymentAttemptId
          state.orderId state.clock.lockAttempt with
      | none => rw [hattempt] at h; cases h
      | some attempt =>
          rw [hattempt] at h
          obtain ⟨order₁, row, -, hrow, hid, -⟩ := PaymentRepository.lockByIdForOrder_some hattempt
          have hopen : Open { state with
              order := OrderRepository.expirable state.orderId order state.clock.lockOrder }
              order row db :=
            ⟨locked_of_find horder, hmode, hfresh, hrow, hid⟩
          have hcommitted := inspectCallbackAttempt_commit hopen hone h
          exact hcommitted

theorem cancel_commit {orderId userId : String} {clock : Clock} {db db' : Db}
    {out : OrderLifecycleOutcome} (hone : PaymentRepository.OneProcessing db.ledger.attempts)
    (h : cancel orderId userId clock db = .commit out db') :
    ∃ actions, Effects db actions db' ∧
      ∀ a ∈ actions, TerminalAction .cancel orderId clock.lockAttempt a := by
  unfold cancel lockOrder OrderRepository.lockOrderForUser at h
  simp only at h
  cases horder : (db.inventory.orders.find orderId).filter
      fun row => decide (row.userId = userId) with
  | none => rw [horder] at h; cases h
  | some order =>
      rw [horder] at h
      obtain ⟨hfound, -⟩ := Option.filter_eq_some_iff.mp horder
      simp only [Option.map_some, inspectOrder] at h
      cases hstatus : (OrderRepository.expirable orderId order clock.lockOrder).status with
      | paid => rw [hstatus] at h; cases h
      | cancelled => rw [hstatus] at h; cases h
      | expired => rw [hstatus] at h; cases h
      | pendingPayment =>
          rw [hstatus] at h
          exact lockAttempt_commit order h (by simp) ⟨hfound, rfl⟩ hone

theorem expireForWorker_commit {orderId : String} {locked : Bool} {clock : Clock} {db db' : Db}
    {out : OrderLifecycleOutcome} (hone : PaymentRepository.OneProcessing db.ledger.attempts)
    (h : expireForWorker orderId locked clock db = .commit out db') :
    ∃ actions, Effects db actions db' ∧
      ∀ a ∈ actions, TerminalAction .expire orderId clock.lockAttempt a := by
  unfold expireForWorker lockOrder OrderRepository.lockOrderForExpiry at h
  simp only at h
  split_ifs at h
  · cases h
  · cases horder : db.inventory.orders.find orderId with
    | none => rw [horder] at h; cases h
    | some order =>
        rw [horder] at h
        simp only [Option.map_some, inspectOrder] at h
        split_ifs at h
        · cases h
        · exact lockAttempt_commit order h (by simp) ⟨horder, rfl⟩ hone

theorem completePayment_commit {orderId attemptId refundUuid : String} {succeeded : Bool}
    {clock : Clock} {db db' : Db} {out : OrderLifecycleOutcome}
    (hone : PaymentRepository.OneProcessing db.ledger.attempts)
    (h : completePayment orderId attemptId succeeded clock refundUuid db = .commit out db') :
    ∃ actions, Effects db actions db' ∧
      ∀ a ∈ actions, CallbackAction orderId attemptId succeeded clock.checkOther a :=
  callback_commit rfl ⟨rfl, rfl, rfl⟩ hone h

theorem completeProviderPayment_commit {orderId attemptId refundUuid : String}
    {snapshot : PaymentTerminalSnapshot} {clock : Clock} {db db' : Db}
    {out : OrderLifecycleOutcome} (hone : PaymentRepository.OneProcessing db.ledger.attempts)
    (h : completeProviderPayment orderId attemptId snapshot clock refundUuid db =
      .commit out db') :
    ∃ actions, Effects db actions db' ∧
      ∀ a ∈ actions, CallbackAction orderId attemptId snapshot.succeeded clock.checkOther a :=
  callback_commit rfl ⟨rfl, rfl, rfl⟩ hone h

end Ticketing.OrderLifecycle
