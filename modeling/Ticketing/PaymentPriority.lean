import Ticketing.LifecycleProgress
import Ticketing.PaymentLedger

/-!
# A valid payment wins against expiry

While an attempt that was started in time is processing, no transaction but a
user cancel, its own callback or the acceptance of another attempt can end its
order. Its success therefore finds the order as it waits for its payment.
-/

namespace Ticketing

open Relational Transition

/-- The times at which a transaction judges the attempts of the order; it reads them while
it holds the lock of the order. -/
def Transaction.lockedReadings (orderId : String) : Transaction → List Time
  | .startPayment state => if state.orderId = orderId then [state.clock.lockAttempt] else []
  | .cancel id _ clock => if id = orderId then [clock.lockAttempt] else []
  | .expireForWorker id _ clock => if id = orderId then [clock.lockAttempt] else []
  | .completePayment id _ _ clock _ =>
      if id = orderId then [clock.lockAttempt, clock.checkOther] else []
  | .completeProviderPayment id _ _ clock _ =>
      if id = orderId then [clock.lockAttempt, clock.checkOther] else []
  | _ => []

/-- The transaction is neither a user cancel of the order nor a callback of the attempt. -/
def Transaction.Spares (orderId attemptId : String) : Transaction → Prop
  | .cancel id _ _ => id ≠ orderId
  | .completePayment id attempt _ _ _ => ¬ (id = orderId ∧ attempt = attemptId)
  | .completeProviderPayment id attempt _ _ _ => ¬ (id = orderId ∧ attempt = attemptId)
  | _ => True

/-- A label that neither settles the attempt nor judges it later than `limit`. -/
def Action.Calm (orderId attemptId : String) (limit : Time) : Action → Prop
  | .accept attempt order => ¬ (order = orderId ∧ attempt = attemptId)
  | .decline attempt order => ¬ (order = orderId ∧ attempt = attemptId)
  | .capture attempt order => ¬ (order = orderId ∧ attempt = attemptId)
  | .timeOut _ order now => order = orderId → now ≤ limit
  | .close order kind => order = orderId → kind ≠ .cancelled
  | _ => True

/-- The attempt was started in time and is still processing, its order still pending. -/
structure Db.Live (db : Db) (attemptId : String) (attempt : AttemptRow) : Prop where
  attempts : ∃ row, db.ledger.attempts.find attemptId = some row ∧ attempt.Continues row ∧
    row.status = .processing
  orders : ∃ order, db.inventory.orders.find attempt.orderId = some order ∧
    order.status = .pendingPayment ∧ attempt.startedAt < order.expiresAt

/-- Another attempt is the order's accepted payment. -/
def Db.Beaten (db : Db) (attemptId orderId : String) : Prop :=
  ∃ other row, other ≠ attemptId ∧ db.ledger.attempts.find other = some row ∧
    row.orderId = orderId ∧ row.acceptedAt.isSome

/-- The order is paid with its reservation confirmed and all seats of it sold. -/
structure Db.PaidUp (db : Db) (orderId : String) : Prop where
  paid : ∃ order, db.inventory.orders.find orderId = some order ∧ order.status = .paid ∧
    (∃ reservation, db.inventory.reservations.find order.reservationId = some reservation ∧
      reservation.status = .confirmed) ∧
    (∃ s, OrderRepository.listed db.inventory order.reservationId s = true) ∧
    ∀ s, OrderRepository.listed db.inventory order.reservationId s = true →
      ∃ row, db.inventory.seats.find s = some row ∧ row.status = .sold

section Steps

variable {db db' : Db} {attemptId : String} {attempt : AttemptRow}

/-- A replaced attempt other than the live one leaves it alone. -/
theorem live_of_replaced {id : String} {row row' : AttemptRow} (hlive : db.Live attemptId attempt)
    (hreplaced : db.ledger.attempts.Replaced id row row' db'.ledger.attempts)
    (hne : row.orderId = attempt.orderId → id ≠ attemptId)
    (horders : ∃ order, db'.inventory.orders.find attempt.orderId = some order ∧
      order.status = .pendingPayment ∧ attempt.startedAt < order.expiresAt) :
    db'.Live attemptId attempt := by
  obtain ⟨live, hfound, hcont, hprocessing⟩ := hlive.attempts
  refine ⟨⟨live, ?_, hcont, hprocessing⟩, horders⟩
  rw [hreplaced.find_of_ne]
  · exact hfound
  · rintro rfl
    have hsame := Option.some.inj (hreplaced.found.symm.trans hfound)
    exact hne (hsame ▸ hcont.orderId) rfl

/-- A calm effect keeps the attempt live unless it accepts another one. -/
theorem live_effect {a : Action} {limit : Time} (heffect : Effect a db db')
    (hlive : db.Live attemptId attempt) (hcalm : a.Calm attempt.orderId attemptId limit)
    (hdeadline : limit < attempt.processingDeadline) :
    db'.Live attemptId attempt ∨ db'.Beaten attemptId attempt.orderId := by
  obtain ⟨live, hfound, hcont, hprocessing⟩ := hlive.attempts
  obtain ⟨order, horder, hpending, hstarted⟩ := hlive.orders
  cases heffect with
  | reserve inventory ledger =>
      left
      exact ⟨⟨live, by rw [ledger]; exact hfound, hcont, hprocessing⟩,
        ⟨order, inventory.orders.find_old horder, hpending, hstarted⟩⟩
  | start inventory _ _ _ _ _ _ attempts =>
      left
      exact ⟨⟨live, attempts.find_old hfound, hcont, hprocessing⟩, by rw [inventory]; exact hlive.orders⟩
  | @timeOut _ _ id row row' _ now inventory _ order_found stale _ _ _ _ attempts =>
      left
      refine live_of_replaced hlive attempts ?_ (by rw [inventory]; exact hlive.orders)
      rintro hid rfl
      have hsame := Option.some.inj (attempts.found.symm.trans hfound)
      subst hsame
      rw [hid, horder] at order_found
      cases order_found
      have hnow := hcalm hid
      rcases stale with hstale | hstale
      · rw [hcont.processingDeadline] at hstale
        exact absurd (hstale.trans hnow) (not_le.mpr hdeadline)
      · rw [hcont.startedAt] at hstale
        exact absurd hstarted (not_lt.mpr hstale)
  | @accept _ _ id row row' paid paid' inventory _ _ _ accepted continues attempts =>
      by_cases hid : row.orderId = attempt.orderId
      · right
        refine ⟨id, row', ?_, attempts.find_self, continues.orderId.trans hid, accepted⟩
        rintro rfl
        exact hcalm ⟨hid, rfl⟩
      · left
        refine live_of_replaced hlive attempts (fun h => absurd h hid) ?_
        rw [inventory.orders.find_of_ne (Ne.symm hid)]
        exact hlive.orders
  | decline inventory _ _ _ _ _ attempts =>
      left
      refine live_of_replaced hlive attempts ?_ (by rw [inventory]; exact hlive.orders)
      exact fun hid hne => hcalm ⟨hid, hne⟩
  | capture inventory _ _ _ _ _ _ attempts =>
      left
      refine live_of_replaced hlive attempts ?_ (by rw [inventory]; exact hlive.orders)
      exact fun hid hne => hcalm ⟨hid, hne⟩
  | @close _ _ orderId kind closed _ closing inventory ledger settled =>
      left
      refine ⟨⟨live, by rw [ledger]; exact hfound, hcont, hprocessing⟩, ?_⟩
      rw [inventory.orders.find_of_ne]
      · exact hlive.orders
      · rintro rfl
        -- only an expiry is calm, and it found no PROCESSING attempt
        have hexpired := closing.resolve_left (hcalm rfl)
        exact settled hexpired attemptId live hfound hcont.orderId hprocessing
  | requestRefund inventory attempts =>
      left
      exact ⟨by rw [attempts]; exact hlive.attempts, by rw [inventory]; exact hlive.orders⟩
  | settleRefund inventory attempts =>
      left
      exact ⟨by rw [attempts]; exact hlive.attempts, by rw [inventory]; exact hlive.orders⟩
  | @revoke _ _ _ row _ revoked _ inventory attempts =>
      left
      refine ⟨by rw [attempts]; exact hlive.attempts, ?_⟩
      rw [inventory.orders.find_of_ne]
      · exact hlive.orders
      · intro hid
        have hsame := Option.some.inj (inventory.orders.found.symm.trans (hid ▸ horder))
        subst hsame
        have hpaid := inventory.before
        rw [hpending] at hpaid
        cases hpaid
  | sync inventory attempts _ =>
      left
      obtain ⟨row, hrow, hsynced⟩ := rowsRelate_find_old attempts hfound
      exact ⟨⟨row, hrow, hcont.trans hsynced.toContinues, hsynced.status.trans hprocessing⟩,
        by rw [inventory]; exact hlive.orders⟩

/-- An accepted attempt stays accepted. -/
theorem beaten_effect {a : Action} {orderId : String} (heffect : Effect a db db')
    (hbalanced : db.Balanced) (hbeaten : db.Beaten attemptId orderId) :
    db'.Beaten attemptId orderId := by
  obtain ⟨other, found, hne, hfound, hid, haccepted⟩ := hbeaten
  obtain ⟨row, hrow, -, hrowId, hrowAccepted⟩ :=
    succeeded_effect heffect hfound (hbalanced.succeeded other found hfound haccepted)
  exact ⟨other, row, hne, hrow, hrowId.trans hid, by rw [hrowAccepted]; exact haccepted⟩

end Steps

/-- Only calm labels come from a transaction that spares the attempt and reads the clock by
the limit. -/
theorem Transaction.Spares.calm {tx : Transaction} {orderId attemptId : String} {limit : Time}
    (hspares : tx.Spares orderId attemptId) (hreadings : ∀ t ∈ tx.lockedReadings orderId, t ≤ limit)
    {a : Action} (hallows : tx.Allows a) : a.Calm orderId attemptId limit := by
  cases tx with
  | startPayment state =>
      rcases hallows with ⟨k, rfl⟩ | rfl
      · intro hid
        exact hreadings _ (by simp [lockedReadings, hid])
      · trivial
  | cancel id _ clock =>
      rcases hallows with ⟨-, rfl⟩ | rfl | ⟨k, rfl⟩
      · exact fun hid => absurd hid hspares
      · exact fun hid => absurd hid hspares
      · exact fun hid => absurd hid hspares
  | expireForWorker id _ clock =>
      rcases hallows with ⟨hmode, -⟩ | rfl | ⟨k, rfl⟩
      · cases hmode
      · exact fun _ => by simp
      · intro hid
        exact hreadings _ (by simp [lockedReadings, hid])
  | completePayment id attempt _ clock _ =>
      rcases hallows with ⟨-, rfl | rfl⟩ | ⟨-, rfl⟩ | rfl | ⟨k, rfl⟩
      · exact hspares
      · exact hspares
      · exact hspares
      · exact fun _ => by simp
      · intro hid
        exact hreadings _ (by simp [lockedReadings, hid])
  | completeProviderPayment id attempt _ clock _ =>
      rcases hallows with ⟨-, rfl | rfl⟩ | ⟨-, rfl⟩ | rfl | ⟨k, rfl⟩
      · exact hspares
      · exact hspares
      · exact hspares
      · exact fun _ => by simp
      · intro hid
        exact hreadings _ (by simp [lockedReadings, hid])
  | completeRefund =>
      rcases hallows with rfl | rfl <;> trivial
  | _ =>
      cases hallows
      trivial

/-- A run of transactions that spare the attempt keeps it live or finds it beaten. -/
theorem live_run {attemptId : String} {attempt : AttemptRow} {limit : Time}
    (hdeadline : limit < attempt.processingDeadline) (txs : List Transaction) {db : Db}
    (hspares : ∀ tx ∈ txs, tx.Spares attempt.orderId attemptId)
    (hreadings : ∀ tx ∈ txs, ∀ t ∈ tx.lockedReadings attempt.orderId, t ≤ limit)
    (hone : PaymentRepository.OneProcessing db.ledger.attempts) (hbalanced : db.Balanced)
    (hlive : db.Live attemptId attempt ∨ db.Beaten attemptId attempt.orderId) :
    (applyAll txs db).Live attemptId attempt ∨
      (applyAll txs db).Beaten attemptId attempt.orderId := by
  have hstep : ∀ (a : Action) (db db' : Db), a.Calm attempt.orderId attemptId limit →
      db.Balanced ∧ (db.Live attemptId attempt ∨ db.Beaten attemptId attempt.orderId) →
      Effect a db db' →
      db'.Balanced ∧ (db'.Live attemptId attempt ∨ db'.Beaten attemptId attempt.orderId) := by
    rintro a db db' hcalm ⟨hbalanced, hlive | hbeaten⟩ heffect
    · exact ⟨balanced_effect hbalanced heffect, live_effect heffect hlive hcalm hdeadline⟩
    · exact ⟨balanced_effect hbalanced heffect, Or.inr (beaten_effect heffect hbalanced hbeaten)⟩
  exact (applyAll_preserves hstep txs
    (fun tx htx a ha => (hspares tx htx).calm (hreadings tx htx) ha) hone
    ⟨hbalanced, hlive⟩).2.2

namespace PaymentFlow

theorem createAttempt_started {state : StartState} {db db' : Db} {attemptId : String}
    (h : createAttempt state db = .commit (.startProvider attemptId .startedNew) db') :
    db'.inventory = db.inventory ∧ ∃ row, db'.ledger.attempts.find attemptId = some row ∧
      row.orderId = state.orderId ∧ row.status = .processing := by
  unfold createAttempt at h
  simp only at h
  split at h
  · cases h
  rename_i attempts hcreate
  cases h
  unfold PaymentRepository.createAttempt at hcreate
  simp only at hcreate
  split at hcreate
  · cases hcreate
  exact ⟨rfl, _, (Table.inserted_of_insert hcreate).find_self, rfl, rfl⟩

/-- A newly started payment is processing, and its order is pending. -/
theorem startPayment_started {state : StartState} {db db' : Db} {attemptId : String}
    (h : startPayment state db = .commit (.startProvider attemptId .startedNew) db') :
    (∃ row, db'.ledger.attempts.find attemptId = some row ∧ row.orderId = state.orderId ∧
      row.status = .processing) ∧
    ∃ order, db'.inventory.orders.find state.orderId = some order ∧
      order.status = .pendingPayment := by
  unfold startPayment lockOrder OrderRepository.lockOrderForUser at h
  split at h
  · cases h
  cases horder : (db.inventory.orders.find state.orderId).filter
      fun row => decide (row.userId = state.userId) with
  | none => rw [horder] at h; cases h
  | some order =>
      rw [horder] at h
      obtain ⟨hfound, -⟩ := Option.filter_eq_some_iff.mp horder
      simp only [Option.map_some, inspectOrder] at h
      cases hstatus : (OrderRepository.expirable state.orderId order state.clock.lockOrder).status with
      | paid => rw [hstatus] at h; cases h
      | cancelled => rw [hstatus] at h; cases h
      | expired => rw [hstatus] at h; cases h
      | pendingPayment =>
          rw [hstatus] at h
          simp only [lockProcessingAttempt, inspectProcessingAttempt] at h
          split at h
          · simp only [timeOutAttempt] at h
            split_ifs at h
            · cases h
            · cases h
            · obtain ⟨hinv, hrow⟩ := createAttempt_started h
              exact ⟨hrow, order, by rw [hinv]; exact hfound, hstatus⟩
          · split_ifs at h
            obtain ⟨hinv, hrow⟩ := createAttempt_started h
            exact ⟨hrow, order, by rw [hinv]; exact hfound, hstatus⟩

end PaymentFlow

open OrderLifecycle (OwnSnapshot Payable)

theorem Inventory.Sound.payable {inv : Inventory} (hs : inv.Sound) {orderId : String}
    {order : OrderRow} (horder : inv.orders.find orderId = some order)
    (hpending : order.status = .pendingPayment) : Payable inv order := by
  obtain ⟨reservation, hreservation, hpaired⟩ := hs.reservedOf orderId order horder
  have hactive : reservation.status = .active := by
    rw [hpaired, hpending]
    rfl
  have hclaims : ∀ s, OrderRepository.listed inv order.reservationId s = true →
      inv.Claims .active order.reservationId s :=
    fun s hl => ⟨hl, reservation, hreservation, hactive⟩
  refine ⟨hpending, ⟨reservation, hreservation, hactive⟩, ?_, ?_⟩
  · intro s row hl hrow
    obtain ⟨found, hfound, hheld, hholder⟩ := hs.active _ s (hclaims s hl)
    rw [hrow] at hfound
    cases hfound
    exact ⟨hheld, hholder⟩
  · obtain ⟨s, hl⟩ := hs.listsSome _ reservation hreservation
    obtain ⟨row, hrow, -⟩ := hs.active _ s (hclaims s hl)
    exact ⟨s, row, hl, hrow⟩

/-- An acceptance leaves the order paid up. -/
theorem paidUp_of_accept {attemptId orderId : String} {db db' : Db} (hs : db.inventory.Sound)
    (heffect : Effect (.accept attemptId orderId) db db') : db'.PaidUp orderId := by
  have hs' := sound_effect hs heffect
  cases heffect with
  | @accept _ _ _ row _ order order' inventory =>
      obtain ⟨reservation, -, hreplaced⟩ := inventory.reservations
      have hid := inventory.continues.reservationId
      have hconfirmed : db'.inventory.reservations.find order'.reservationId =
          some { reservation with status := .confirmed } := by
        rw [hid]
        exact hreplaced.find_self
      refine ⟨order', inventory.orders.find_self, inventory.after, ⟨_, hconfirmed, rfl⟩,
        hs'.listsSome _ _ hconfirmed, fun s hl => ?_⟩
      exact hs'.confirmed order'.reservationId s ⟨hl, _, hconfirmed, rfl⟩

/-- A success callback of the attempt: of the simulated provider, or of a real one with a
snapshot of the attempt's own payment. -/
inductive Transaction.SuccessOf (orderId attemptId : String) (clock : OrderLifecycle.Clock)
    (db : Db) : Transaction → Prop where
  | simulated (refundUuid : String) : SuccessOf orderId attemptId clock db
      (.completePayment orderId attemptId true clock refundUuid)
  | provider (snapshot : PaymentTerminalSnapshot) (refundUuid : String)
      (succeeded : snapshot.succeeded = true)
      (own : ∀ row order, db.ledger.attempts.find attemptId = some row →
        db.inventory.orders.find orderId = some order →
        OwnSnapshot snapshot attemptId row order db.ledger.attempts) :
      SuccessOf orderId attemptId clock db
        (.completeProviderPayment orderId attemptId snapshot clock refundUuid)

theorem Transaction.SuccessOf.readings {orderId attemptId : String} {clock : OrderLifecycle.Clock}
    {db : Db} {tx : Transaction} (h : tx.SuccessOf orderId attemptId clock db) :
    tx.lockedReadings orderId = [clock.lockAttempt, clock.checkOther] := by
  cases h <;> simp [lockedReadings]

/-- The success of a live attempt commits as its acceptance. -/
theorem Db.Live.accepted {db : Db} {attemptId : String} {attempt : AttemptRow}
    {clock : OrderLifecycle.Clock} {tx : Transaction} (hlive : db.Live attemptId attempt)
    (hs : db.inventory.Sound) (hsuccess : tx.SuccessOf attempt.orderId attemptId clock db)
    (hdeadline : clock.lockAttempt < attempt.processingDeadline) :
    Effect (.accept attemptId attempt.orderId) db (tx.apply db) := by
  obtain ⟨row, hrow, hcont, hprocessing⟩ := hlive.attempts
  obtain ⟨order, horder, hpending, hstarted⟩ := hlive.orders
  have hpayable := hs.payable horder hpending
  rw [← hcont.startedAt] at hstarted
  rw [← hcont.processingDeadline] at hdeadline
  cases hsuccess with
  | simulated refundUuid =>
      let state : OrderLifecycle.FlowState :=
        { mode := .paymentCallback
          orderId := attempt.orderId
          paymentAttemptId := attemptId
          paymentSucceeded := true
          successOutcome := .paymentCompleted
          clock := clock
          refundUuid := refundUuid }
      obtain ⟨db', hcommit, heffect⟩ := OrderLifecycle.callback_accepts (show state.mode = _ from rfl)
        ⟨rfl, rfl, rfl⟩ rfl horder hpayable hrow hcont.orderId (Or.inl hprocessing) hstarted
        hdeadline (fun _ hsnapshot => by cases hsnapshot)
      have happly : (Transaction.completePayment attempt.orderId attemptId true clock
          refundUuid).apply db = db' := by
        simp only [Transaction.apply, OrderLifecycle.completePayment]
        rw [hcommit]
        rfl
      rw [happly]
      exact heffect
  | provider snapshot refundUuid succeeded own =>
      let state : OrderLifecycle.FlowState :=
        { mode := .paymentCallback
          orderId := attempt.orderId
          paymentAttemptId := attemptId
          paymentSucceeded := snapshot.succeeded
          terminalSnapshot := some snapshot
          successOutcome := .paymentCompleted
          clock := clock
          refundUuid := refundUuid }
      obtain ⟨db', hcommit, heffect⟩ := OrderLifecycle.callback_accepts (show state.mode = _ from rfl)
        ⟨rfl, rfl, rfl⟩ succeeded horder hpayable hrow hcont.orderId (Or.inl hprocessing) hstarted
        hdeadline (fun _ hsnapshot => by cases hsnapshot; exact own row order hrow horder)
      have happly : (Transaction.completeProviderPayment attempt.orderId attemptId snapshot clock
          refundUuid).apply db = db' := by
        simp only [Transaction.apply, OrderLifecycle.completeProviderPayment]
        rw [hcommit]
        rfl
      rw [happly]
      exact heffect

/-- An order whose attempt is live or beaten has not been expired. -/
theorem not_expired_of_live {db : Db} {attemptId : String} {attempt : AttemptRow}
    (hbalanced : db.Balanced)
    (h : db.Live attemptId attempt ∨ db.Beaten attemptId attempt.orderId) {order : OrderRow}
    (horder : db.inventory.orders.find attempt.orderId = some order) :
    order.status ≠ .expired := by
  rcases h with hlive | ⟨other, row, -, hrow, hid, haccepted⟩
  · obtain ⟨found, hfound, hpending, -⟩ := hlive.orders
    rw [horder] at hfound
    cases hfound
    simp [hpending]
  · rcases hbalanced.settled other row order hrow haccepted (hid ▸ horder) with hpaid | ⟨hs, -⟩
    · simp [hpaid]
    · simp [hs]

/-- What a payment start in time leads to: when its success comes the order is sound, has not
been expired, and waits for this attempt unless another one was accepted. -/
structure Db.Awaits (db : Db) (attemptId : String) (attempt : AttemptRow) : Prop where
  sound : db.inventory.Sound
  balanced : db.Balanced
  waiting : db.Live attemptId attempt ∨ db.Beaten attemptId attempt.orderId

theorem awaits_of_start (earlier later : List Transaction) {db created : Db}
    {state : PaymentFlow.StartState} {attemptId : String} {attempt : AttemptRow}
    {order : OrderRow} {success : Transaction} {clock : OrderLifecycle.Clock} (hfresh : db.Fresh)
    (hstart : PaymentFlow.startPayment state (applyAll earlier db) =
      .commit (.startProvider attemptId .startedNew) created)
    (hattempt : created.ledger.attempts.find attemptId = some attempt)
    (horder : created.inventory.orders.find state.orderId = some order)
    (hstarted : attempt.startedAt < order.expiresAt)
    (hspares : ∀ tx ∈ later, tx.Spares state.orderId attemptId)
    (hclock : ((later ++ [success]).flatMap
      (Transaction.lockedReadings state.orderId)).Pairwise (· ≤ ·))
    (hsuccess : success.SuccessOf state.orderId attemptId clock (applyAll later created))
    (hdeadline : clock.lockAttempt < attempt.processingDeadline) :
    attempt.orderId = state.orderId ∧ (applyAll later created).Awaits attemptId attempt := by
  obtain ⟨⟨found, hfound, hid, hprocessing⟩, pending, hpendingFound, hpending⟩ :=
    PaymentFlow.startPayment_started hstart
  rw [hattempt] at hfound
  cases hfound
  rw [horder] at hpendingFound
  cases hpendingFound
  -- the start is one more transaction of the run from the fresh database
  have hcreated : created = applyAll (earlier ++ [.startPayment state]) db := by
    rw [applyAll_append, applyAll_cons]
    simp only [Transaction.apply, hstart, TransactionResult.after_commit]
    rfl
  have hreached : applyAll later created =
      applyAll (earlier ++ [.startPayment state] ++ later) db := by
    rw [applyAll_append, hcreated]
  obtain ⟨hone, hbalanced⟩ := balanced_reachable (earlier ++ [.startPayment state]) hfresh
  have hbalancedLater := (balanced_reachable (earlier ++ [.startPayment state] ++ later) hfresh).2
  have hsound := sound_reachable (earlier ++ [.startPayment state] ++ later) hfresh
  rw [← hcreated] at hone hbalanced
  rw [← hreached] at hbalancedLater hsound
  have hreadings : ∀ tx ∈ later, ∀ t ∈ tx.lockedReadings attempt.orderId,
      t ≤ clock.lockAttempt := by
    intro tx htx t ht
    rw [List.flatMap_append, List.pairwise_append] at hclock
    refine hclock.2.2 t (List.mem_flatMap.mpr ⟨tx, htx, hid ▸ ht⟩) clock.lockAttempt ?_
    simp [hsuccess.readings]
  have hlive : created.Live attemptId attempt := by
    refine ⟨⟨attempt, hattempt, AttemptRow.Continues.refl attempt, hprocessing⟩, order, ?_,
      hpending, hstarted⟩
    rw [hid]
    exact horder
  rw [← hid] at hspares
  exact ⟨hid, hsound, hbalancedLater,
    live_run hdeadline later hspares hreadings hone hbalanced (Or.inl hlive)⟩

/-- A payment started on a pending order before it expires, whose success comes before the
deadline of the attempt and after no failure of it, pays the order unless another attempt was
accepted before; until then nothing expires the order. The clock never goes back and the
user does not cancel. -/
theorem valid_payment_wins (earlier later : List Transaction) (db created : Db)
    (state : PaymentFlow.StartState) (attemptId : String) (attempt : AttemptRow)
    (order : OrderRow) (success : Transaction) (clock : OrderLifecycle.Clock) (hfresh : db.Fresh)
    (hstart : PaymentFlow.startPayment state (applyAll earlier db) =
      .commit (.startProvider attemptId .startedNew) created)
    (hattempt : created.ledger.attempts.find attemptId = some attempt)
    (horder : created.inventory.orders.find state.orderId = some order)
    (hstarted : attempt.startedAt < order.expiresAt)
    (hspares : ∀ tx ∈ later, tx.Spares state.orderId attemptId)
    (hclock : ((later ++ [success]).flatMap
      (Transaction.lockedReadings state.orderId)).Pairwise (· ≤ ·))
    (hsuccess : success.SuccessOf state.orderId attemptId clock (applyAll later created))
    (hdeadline : clock.lockAttempt < attempt.processingDeadline) :
    (∀ row, (applyAll later created).inventory.orders.find state.orderId = some row →
      row.status ≠ .expired) ∧
    ((applyAll later created).Beaten attemptId state.orderId ∨
      (success.apply (applyAll later created)).PaidUp state.orderId) := by
  obtain ⟨hid, hawaits⟩ := awaits_of_start earlier later hfresh hstart hattempt horder hstarted
    hspares hclock hsuccess hdeadline
  rw [← hid] at hsuccess ⊢
  refine ⟨fun row hrow => not_expired_of_live hawaits.balanced hawaits.waiting hrow, ?_⟩
  rcases hawaits.waiting with hlive | hbeaten
  · exact Or.inr (paidUp_of_accept hawaits.sound (hlive.accepted hawaits.sound hsuccess hdeadline))
  · exact Or.inl hbeaten

/-- The payment of the single seat starts ten microseconds before the order expires. -/
def startedSingleSeat : Db :=
  applyAll [startSingleSeat "1" 900000000] (applyAll [reserveSingleSeat "1" "1" "key"] singleSeat)

/-- The provider's success for that payment. -/
def singleSeatSuccess : PaymentTerminalSnapshot where
  provider := "stripe"
  providerPaymentId := "pi_1"
  providerStatus := "succeeded"
  amount := 500
  succeeded := true
  failureReason := ""
  leaseToken := ""

/-- The worker comes after the order's own expiry and before the success. -/
theorem valid_payment_wins_singleSeat :
    (∀ row, (applyAll [.expireForWorker "TKT-1" false (.at 900000020)]
      startedSingleSeat).inventory.orders.find "TKT-1" = some row → row.status ≠ .expired) ∧
    ((applyAll [.expireForWorker "TKT-1" false (.at 900000020)] startedSingleSeat).Beaten
        "PAY-1" "TKT-1" ∨
      (Transaction.apply (.completeProviderPayment "TKT-1" "PAY-1" singleSeatSuccess
        (.at 900000030) "1") (applyAll [.expireForWorker "TKT-1" false (.at 900000020)]
          startedSingleSeat)).PaidUp "TKT-1") := by
  let attempt : AttemptRow :=
    { orderId := "TKT-1"
      status := .processing
      startedAt := 900000000
      processingDeadline := 960000000
      scheduledCompleteAt := none
      completedAt := none
      timedOutAt := none
      acceptedAt := none
      failureReason := none
      provider := "stripe"
      providerPaymentId := none
      providerStatus := none
      currency := "usd"
      providerLastSyncAt := none
      providerTerminalAt := none
      providerRetryCount := 0
      nextReconcileAt := some 900000000
      leaseUntil := none
      leaseToken := none }
  let order : OrderRow :=
    { userId := "buyer"
      reservationId := "RSV-1"
      status := .pendingPayment
      totalAmount := 500
      expiresAt := 900000010
      createdAt := 10
      paidAt := none
      refundedAt := none }
  refine valid_payment_wins [reserveSingleSeat "1" "1" "key"] _ singleSeat startedSingleSeat
    (singleSeatPayment "1" 900000000) "PAY-1" attempt order _ (.at 900000030) singleSeat_fresh rfl
    (by decide) (by decide) (by decide) ?_ (by decide) (.provider _ _ rfl ?_) (by decide)
  · intro tx htx
    rw [List.mem_singleton.mp htx]
    trivial
  · intro row found hrow hfound
    have hattempt : (applyAll [.expireForWorker "TKT-1" false (.at 900000020)]
        startedSingleSeat).ledger.attempts.find "PAY-1" = some attempt := by decide
    have horder : (applyAll [.expireForWorker "TKT-1" false (.at 900000020)]
        startedSingleSeat).inventory.orders.find "TKT-1" = some order := by decide
    cases hattempt.symm.trans hrow
    cases horder.symm.trans hfound
    exact ⟨rfl, rfl, by decide, by rintro _ ⟨⟩, Or.inl rfl, by decide⟩

end Ticketing
