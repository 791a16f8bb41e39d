import Ticketing.LifecycleEffects
import Ticketing.PaymentFlow
import Ticketing.RefundFlow

/-!
# What payment starts and buyer refunds commit

A payment start times out at most one attempt and opens at most one. A refund
completion settles its refund row; only a buyer refund that succeeded also takes
back order, reservation and seats.
-/

namespace Ticketing

open Relational Transition

namespace PaymentFlow

/-- The labels a payment start can leave. -/
def StartAction (state : StartState) (a : Action) : Prop :=
  (∃ k, a = .timeOut k state.orderId state.clock.lockAttempt) ∨
    a = .start ("PAY-" ++ state.attemptUuid) state.orderId

theorem start_effect {db : Db} {attempts : Table String AttemptRow} {attemptId orderId : String}
    {row : AttemptRow} {order : OrderRow}
    (hinserted : db.ledger.attempts.Inserted attemptId row attempts)
    (hid : row.orderId = orderId) (horder : db.inventory.orders.find orderId = some order)
    (hpending : order.status = .pendingPayment)
    (halone : ∀ k other, db.ledger.attempts.find k = some other → other.orderId = orderId →
      other.status ≠ .processing)
    (hprocessing : row.status = .processing) (haccepted : row.acceptedAt = none) :
    Effect (.start attemptId orderId) db
      { db with ledger := { db.ledger with attempts := attempts } } := by
  subst hid
  exact Effect.start rfl rfl horder hpending halone hprocessing haccepted hinserted

theorem createAttempt_effect {state : StartState} {order : OrderRow} {db db' : Db}
    {out : Continuation} (h : createAttempt state db = .commit out db')
    (horder : db.inventory.orders.find state.orderId = some order)
    (hpending : order.status = .pendingPayment) :
    Effect (.start ("PAY-" ++ state.attemptUuid) state.orderId) db db' := by
  unfold createAttempt at h
  simp only at h
  cases hcreate : PaymentRepository.createAttempt db.ledger.attempts
      ("PAY-" ++ state.attemptUuid) state.orderId state.provider.scheduledDelay
      state.provider.processingGrace state.provider.name state.provider.currency
      state.clock.createAttempt with
  | none => rw [hcreate] at h; cases h
  | some attempts =>
      rw [hcreate] at h
      cases h
      unfold PaymentRepository.createAttempt at hcreate
      simp only at hcreate
      split at hcreate
      · cases hcreate
      rename_i hallowed
      simp only [not_or, not_not, Table.count_eq_zero] at hallowed
      have halone : ∀ k other, db.ledger.attempts.find k = some other →
          other.orderId = state.orderId → other.status ≠ .processing := by
        intro k other hother hid hprocessing
        have hnone := hallowed.2 k other hother
        simp [hid, hprocessing] at hnone
      exact start_effect (Table.inserted_of_insert hcreate) rfl horder hpending halone rfl rfl

theorem startPayment_commit {state : StartState} {db db' : Db} {out : Continuation}
    (h : startPayment state db = .commit out db') :
    ∃ actions, Effects db actions db' ∧ ∀ a ∈ actions, StartAction state a := by
  unfold startPayment lockOrder OrderRepository.lockOrderForUser at h
  split at h
  · cases h
  cases horder : (db.inventory.orders.find state.orderId).filter
      fun row => decide (row.userId = state.userId) with
  | none => rw [horder] at h; cases h
  | some order =>
      rw [horder] at h
      obtain ⟨hfound, -⟩ := Option.filter_eq_some_iff.mp horder
      simp only [Option.map_some, inspectOrder] at h
      cases hstatus : (OrderRepository.expirable state.orderId order state.clock.lockOrder).status with
      | paid => rw [hstatus] at h; cases h
      | cancelled => rw [hstatus] at h; cases h
      | expired => rw [hstatus] at h; cases h
      | pendingPayment =>
          rw [hstatus] at h
          simp only [lockProcessingAttempt, inspectProcessingAttempt] at h
          cases hlock : PaymentRepository.lockProcessingForOrder db state.orderId
              state.clock.lockAttempt with
          | none =>
              rw [hlock] at h
              simp only at h
              split_ifs at h
              exact ⟨_, Trace.single (createAttempt_effect h hfound hstatus),
                by simp [StartAction]⟩
          | some locked =>
              rw [hlock] at h
              simp only [timeOutAttempt] at h
              split_ifs at h with hlive hcount hexpired
              · cases h
              · rw [not_not] at hcount
                have htimeOut := OrderLifecycle.timeOut_effect hlock hlive hcount
                cases h
                exact ⟨_, Trace.single htimeOut, by simp [StartAction]⟩
              · rw [not_not] at hcount
                have htimeOut := OrderLifecycle.timeOut_effect hlock hlive hcount
                have hstart := createAttempt_effect h hfound hstatus
                exact ⟨_, Trace.cons htimeOut (Trace.single hstart), by simp [StartAction]⟩

end PaymentFlow

namespace RefundService

/-- A buyer refund that was written belongs to the accepted attempt and has the order total. -/
theorem create_inserted {db : Db} {refundId orderId attemptId : String} {now : Time}
    {refund : RefundRow} {refunds : Table String RefundRow}
    (h : RefundRepository.create db refundId orderId attemptId now = some (refund, refunds)) :
    ∃ order attempt, db.inventory.orders.find refund.orderId = some order ∧
      refund.amount = order.totalAmount ∧ refund.source = .buyer ∧
      db.ledger.attempts.find refund.paymentAttemptId = some attempt ∧
      attempt.orderId = refund.orderId ∧ attempt.acceptedAt.isSome ∧
      (∀ k row, db.ledger.refunds.find k = some row →
        row.paymentAttemptId ≠ refund.paymentAttemptId) ∧
      db.ledger.refunds.Inserted refundId refund refunds := by
  simp only [RefundRepository.create, Option.bind_eq_bind, Option.bind_eq_some_iff] at h
  obtain ⟨order, horder, attempt, hattempt, h⟩ := h
  obtain ⟨hfound, hcond⟩ := Option.filter_eq_some_iff.mp hattempt
  split at h
  · cases h
  rename_i hsingle
  simp only [Option.bind_eq_some_iff] at h
  obtain ⟨inserted, hinsert, heq⟩ := h
  cases heq
  simp only [Bool.and_eq_true, decide_eq_true_eq] at hcond
  refine ⟨order, attempt, horder, rfl, rfl, hfound, hcond.1.1, hcond.2, ?_,
    Table.inserted_of_insert hinsert⟩
  intro k row hrow hid
  apply hsingle
  rw [List.any_eq_true]
  exact ⟨(k, row), (db.ledger.refunds.find_eq_some k row).mp hrow, by simp [hid]⟩

/-- A request that commits has changed nothing or written a refund. -/
theorem create_commit {state : State} {attemptId : String} {db db' : Db} {out : RefundResponse}
    (h : create state attemptId db = .commit out db') :
    db' = db ∨ ∃ refund refunds,
      RefundRepository.create db ("RFD-" ++ state.refundUuid) state.order attemptId
        state.clock.create = some (refund, refunds) ∧
      db' = { db with ledger := { db.ledger with refunds := refunds } } := by
  unfold create at h
  simp only at h
  cases hcreate : RefundRepository.create db ("RFD-" ++ state.refundUuid) state.order attemptId
      state.clock.create with
  | none =>
      rw [hcreate] at h
      simp only [existingRaced] at h
      cases hbuyer : RefundRepository.buyerForOrder db.ledger.refunds state.order with
      | nil => rw [hbuyer] at h; cases h
      | cons entry rest =>
          rw [hbuyer] at h
          simp only [reuse] at h
          split at h <;> cases h <;> exact Or.inl rfl
  | some created =>
      rw [hcreate] at h
      cases h
      exact Or.inr ⟨created.1, created.2, rfl, rfl⟩

theorem request_created {state : State} {db db' : Db} {out : RefundResponse}
    (h : request state db = .commit out db') :
    db' = db ∨ ∃ attemptId refund refunds,
      RefundRepository.create db ("RFD-" ++ state.refundUuid) state.order attemptId
        state.clock.create = some (refund, refunds) ∧
      db' = { db with ledger := { db.ledger with refunds := refunds } } := by
  unfold request at h
  split at h
  · cases h
  split at h
  · cases h
  unfold existing at h
  split at h
  · unfold reuse at h
    split at h <;> cases h <;> exact Or.inl rfl
  unfold eligibility at h
  split at h
  · cases h
  split at h
  · cases h
  split at h
  · cases h
  unfold acceptedPayment at h
  split at h
  · split at h
    · cases h
    · rcases create_commit h with rfl | ⟨refund, refunds, hcreate, rfl⟩
      · exact Or.inl rfl
      · exact Or.inr ⟨_, refund, refunds, hcreate, rfl⟩
  · cases h

theorem request_commit {state : State} {db db' : Db} {out : RefundResponse}
    (h : request state db = .commit out db') :
    db' = db ∨ Effect (.requestRefund ("RFD-" ++ state.refundUuid)) db db' := by
  rcases request_created h with rfl | ⟨attemptId, refund, refunds, hcreate, rfl⟩
  · exact Or.inl rfl
  · obtain ⟨order, attempt, horder, hamount, hbuyer, hattempt, -, haccepted, hsingle, hinserted⟩ :=
      create_inserted hcreate
    exact Or.inr (Effect.requestRefund rfl rfl hattempt haccepted horder hamount hbuyer hsingle
      hinserted)

end RefundService

namespace RefundLifecycle

theorem notify_commit {state : State} {db db' : Db} {out : RefundLifecycleOutcome}
    (h : notify state db = .commit out db') :
    db'.inventory = db.inventory ∧ db'.ledger = db.ledger := by
  cases h
  exact ⟨rfl, rfl⟩

/-- Every listed seat is sold and has no holder. -/
def AllSold (inv : Inventory) (reservationId : String) : Prop :=
  ∀ s row, OrderRepository.listed inv reservationId s = true → inv.seats.find s = some row →
    row.status = .sold ∧ row.currentReservationId = none

theorem allSold_of_locked {inv : Inventory} {reservationId : String}
    (h : ¬ ((OrderRepository.lockReservationSeatsForExpiry inv reservationId).any fun seat =>
      decide (seat.status ≠ .sold) || seat.currentReservationId.isSome) = true) :
    AllSold inv reservationId := by
  intro s row hl hrow
  simp only [List.any_eq_true, not_exists, not_and] at h
  have hmem : (⟨s, row.status, row.currentReservationId⟩ : ExpirySessionSeatRow) ∈
      OrderRepository.lockReservationSeatsForExpiry inv reservationId := by
    unfold OrderRepository.lockReservationSeatsForExpiry
    rw [List.mem_insertionSort, List.mem_map]
    exact ⟨(s, row), (inv.seats.mem_select _ s row).mpr ⟨hrow, hl⟩, rfl⟩
  have hseat := h _ hmem
  simpa using hseat

theorem find_releasedSold {inv : Inventory} {reservationId : String}
    (h : AllSold inv reservationId) (s : String) :
    (OrderRepository.releaseSoldSeatsForBuyerRefund inv reservationId).2.seats.find s =
      (inv.seats.find s).map fun row =>
        if OrderRepository.listed inv reservationId s = true then row.assign .available none
        else row := by
  unfold OrderRepository.releaseSoldSeatsForBuyerRefund
  rw [SeatStore.find_updateSeats]
  cases hrow : inv.seats.find s with
  | none => rfl
  | some row =>
      cases hl : OrderRepository.listed inv reservationId s with
      | false => simp
      | true =>
          obtain ⟨hstatus, hholder⟩ := h s row hl hrow
          simp [hstatus, hholder]

/-- Taking the rights back settles order, reservation and seats together. -/
theorem cancelRights_commit {state : State} {db db' : Db} {out : RefundLifecycleOutcome}
    {order : OrderRow} (h : cancelRights state db = .commit out db')
    (horder : db.inventory.orders.find state.order.id = some order)
    (hid : state.order.reservationId = order.reservationId)
    (hsold : AllSold db.inventory order.reservationId) :
    (∃ order', Settles .refunded state.order.id order order' db.inventory db'.inventory) ∧
      db'.ledger = db.ledger := by
  unfold cancelRights at h
  split at h
  · cases h
  rename_i cancelled hcancel
  split at h
  · cases h
  rename_i hcount
  rw [not_not] at hcount
  obtain ⟨row, row', hmoves, hrefunded⟩ :=
    OrderRepository.cancelPaidOrderForBuyerRefund_moves (hcancel.trans (by rw [← hcount]))
  have hrow : row = order := Option.some.inj (hmoves.orders.found.symm.trans horder)
  subst hrow
  unfold cancelReservation at h
  simp only at h
  split at h
  · cases h
  rename_i hcount₂
  rw [not_not] at hcount₂
  obtain ⟨reservation, hreservation⟩ :=
    OrderRepository.cancelConfirmedReservationForBuyerRefund_moves hcount₂
  rw [hid] at hreservation
  unfold releaseRights at h
  simp only [hid] at h
  split at h
  · cases h
  obtain ⟨hinv, hledger⟩ := notify_commit h
  refine ⟨⟨row', ?_⟩, hledger⟩
  rw [hinv]
  -- the first two updates leave seats and items, the release leaves the rest
  have hitems := hreservation.items.trans hmoves.items
  have hstore := hreservation.seatStore.trans hmoves.seatStore
  have hsold' : AllSold (OrderRepository.cancelConfirmedReservationForBuyerRefund cancelled.2
      row.reservationId).2 row.reservationId := by
    intro s seat hl hseat
    unfold OrderRepository.listed at hl
    rw [hitems] at hl
    rw [hstore] at hseat
    exact hsold s seat hl hseat
  constructor
  case orders => exact hreservation.orders ▸ hmoves.orders
  case before => exact hmoves.before
  case after => exact hmoves.after
  case continues => exact hmoves.continues
  case refundedAt => simp [hrefunded]
  case reservations =>
    refine ⟨reservation, hreservation.before, ?_⟩
    rw [← hmoves.reservations]
    exact hreservation.reservations
  case held => exact hsold
  case seats =>
    intro s
    rw [find_releasedSold hsold' s, hstore]
    unfold OrderRepository.listed
    rw [hitems]
    rfl
  case items => exact hitems

theorem settle_replaces {refunds : Table String RefundRow} {state : State}
    (h : (settle refunds state).1 = 1) :
    ∃ row row', refunds.Replaced state.id row row' (settle refunds state).2 ∧
      row.status = .processing ∧ row.leaseToken = some state.snapshot.leaseToken ∧
      row.Continues row' ∧ row'.status = (if state.succeeded then .succeeded else .failed) := by
  obtain ⟨row, hguard, hreplaced⟩ := Table.replaced_of_count h
  simp only [Bool.and_eq_true, decide_eq_true_eq] at hguard
  refine ⟨row, _, hreplaced, hguard.1.1, hguard.1.2, ?_, ?_⟩
  · exact ⟨rfl, rfl, rfl, rfl⟩
  · rfl

/-- A completion under the lease makes the one terminal transition of the refund; the rights end
with a buyer refund that succeeded, and are left alone otherwise. -/
structure Completes (id : String) (snapshot : RefundTerminalSnapshot) (row row' : RefundRow)
    (db db' : Db) : Prop where
  refunds : db.ledger.refunds.Replaced id row row' db'.ledger.refunds
  attempts : db'.ledger.attempts = db.ledger.attempts
  belongs : row.orderId = snapshot.orderId
  processing : row.status = .processing
  leased : row.leaseToken = some snapshot.leaseToken
  continues : row.Continues row'
  terminal : row'.status = if snapshotSucceeded snapshot then .succeeded else .failed
  rights : if row.source = .buyer ∧ snapshotSucceeded snapshot = true then
      ∃ order order', Settles .refunded row.orderId order order' db.inventory db'.inventory
    else db'.inventory = db.inventory

theorem Completes.effect {id : String} {snapshot : RefundTerminalSnapshot} {row row' : RefundRow}
    {db db' : Db} (h : Completes id snapshot row row' db db') :
    Effect (.settleRefund id) db db' ∨ Effect (.revoke snapshot.orderId) db db' := by
  have hrights := h.rights
  split at hrights
  · rename_i hbuyer
    obtain ⟨order, order', hsettles⟩ := hrights
    right
    rw [← h.belongs]
    refine Effect.revoke hsettles h.attempts hbuyer.1 h.processing ?_ h.continues h.refunds
    simpa [hbuyer.2] using h.terminal
  · exact Or.inl (Effect.settleRefund hrights h.attempts h.processing h.continues h.refunds)

/-- The terminal step settles the refund, and takes the rights back for a buyer. -/
theorem terminal_completes {state : State} {db db' : Db} {out : RefundLifecycleOutcome}
    {refund : RefundRow} {order : OrderRow} (h : terminal state db = .commit out db')
    (hrefund : db.ledger.refunds.find state.id = some refund)
    (hsource : refund.source = state.source) (hrefundOrder : refund.orderId = state.order.id)
    (hsnapshot : state.order.id = state.snapshot.orderId)
    (horder : db.inventory.orders.find state.order.id = some order)
    (hid : state.order.reservationId = order.reservationId)
    (hsold : state.source = .buyer ∧ state.succeeded = true →
      AllSold db.inventory order.reservationId) :
    ∃ row row', Completes state.id state.snapshot row row' db db' := by
  unfold terminal at h
  split at h
  · cases h
  simp only at h
  split at h
  · cases h
  rename_i hcount
  rw [not_not] at hcount
  obtain ⟨row, row', hreplaced, hprocessing, hleased, hcont, hstatus⟩ := settle_replaces hcount
  have hrow : row = refund := Option.some.inj (hreplaced.found.symm.trans hrefund)
  subst hrow
  split at h
  · rename_i hbuyer
    obtain ⟨⟨order', hsettles⟩, hledger⟩ := cancelRights_commit h horder hid (hsold hbuyer)
    rw [← hrefundOrder] at hsettles
    exact ⟨row, row',
      { refunds := hledger ▸ hreplaced
        attempts := by rw [hledger]
        belongs := hrefundOrder.trans hsnapshot
        processing := hprocessing
        leased := hleased
        continues := hcont
        terminal := hstatus
        rights := by
          rw [if_pos ⟨hsource.trans hbuyer.1, hbuyer.2⟩]
          exact ⟨order, order', hsettles⟩ }⟩
  · rename_i hnot
    obtain ⟨hinv, hledger⟩ := notify_commit h
    exact ⟨row, row',
      { refunds := hledger ▸ hreplaced
        attempts := by rw [hledger]
        belongs := hrefundOrder.trans hsnapshot
        processing := hprocessing
        leased := hleased
        continues := hcont
        terminal := hstatus
        rights := by
          rw [if_neg (hsource ▸ hnot)]
          exact hinv }⟩

theorem lock_some {ledger : Ledger} {refundId : String} {row : RefundRow} {attempt : AttemptRow}
    (h : RefundRepository.lock ledger refundId = some (row, attempt)) :
    ledger.refunds.find refundId = some row ∧
      ledger.attempts.find row.paymentAttemptId = some attempt ∧
      attempt.orderId = row.orderId := by
  simp only [RefundRepository.lock, Option.bind_eq_bind, Option.bind_eq_some_iff] at h
  obtain ⟨refund, hrefund, found, hfound, heq⟩ := h
  cases heq
  obtain ⟨hattempt, hid⟩ := Option.filter_eq_some_iff.mp hfound
  exact ⟨hrefund, hattempt, by simpa using hid⟩

/-- The rights path checks that every seat is sold before the terminal step. -/
theorem lockReservation_commit {state : State} {db db' : Db} {out : RefundLifecycleOutcome}
    (h : lockReservation state db = .commit out db') :
    AllSold db.inventory state.order.reservationId ∧
      ∃ n, terminal { state with count := n } db = .commit out db' := by
  unfold lockReservation at h
  split at h
  · cases h
  split at h
  · cases h
  simp only at h
  split at h
  · cases h
  unfold lockSeats at h
  simp only at h
  split at h
  · cases h
  split at h
  · cases h
  rename_i hsold
  unfold ownership at h
  simp only at h
  split at h
  · cases h
  split at h
  · cases h
  exact ⟨allSold_of_locked hsold, _, h⟩

theorem complete_completes {id : String} {snapshot : RefundTerminalSnapshot} {clock : Clock}
    {db db' : Db} {out : RefundLifecycleOutcome}
    (h : complete id snapshot clock db = .commit out db') :
    ∃ row row', Completes id snapshot row row' db db' := by
  unfold complete OrderRepository.lockOrderForPayment at h
  split at h
  · cases h
  cases horder : db.inventory.orders.find snapshot.orderId with
  | none => rw [horder] at h; cases h
  | some order =>
      rw [horder] at h
      simp only [Option.map_some, lockRefund] at h
      cases hlock : RefundRepository.lock db.ledger id with
      | none => rw [hlock] at h; cases h
      | some pair =>
          obtain ⟨row, attempt⟩ := pair
          rw [hlock] at h
          obtain ⟨hrefund, -, -⟩ := lock_some hlock
          simp only at h
          split at h
          · cases h
          split at h
          · cases h
          rename_i hidentity
          have hrowOrder : row.orderId = snapshot.orderId := by
            by_contra hne
            exact hidentity (by simp [identityMismatch, hne])
          cases hsource : row.source with
          | buyer =>
              simp only [hsource] at h
              split at h
              · cases h
              split at h
              · obtain ⟨hsold, n, hterminal⟩ := lockReservation_commit h
                exact terminal_completes hterminal hrefund hsource hrowOrder rfl horder rfl
                  fun _ => hsold
              · rename_i hnot
                exact terminal_completes h hrefund hsource hrowOrder rfl horder rfl
                  fun hbuyer => absurd hbuyer.2 hnot
          | system =>
              simp only [hsource] at h
              split at h
              · cases h
              exact terminal_completes h hrefund hsource hrowOrder rfl horder rfl
                fun hbuyer => by cases hbuyer.1

/-- What a refund completion commits. -/
theorem complete_commit {id : String} {snapshot : RefundTerminalSnapshot} {clock : Clock}
    {db db' : Db} {out : RefundLifecycleOutcome}
    (h : complete id snapshot clock db = .commit out db') :
    Effect (.settleRefund id) db db' ∨ Effect (.revoke snapshot.orderId) db db' := by
  obtain ⟨_, _, hcompletes⟩ := complete_completes h
  exact hcompletes.effect

end RefundLifecycle
end Ticketing
