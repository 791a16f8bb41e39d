import Ticketing.Inventory
import Ticketing.ReservationCalls

/-!
# Arbitration between concurrent reservation calls

Open transactions exclude each other on idempotency keys and on seats, so what
one of them has found on its way is still true of the committed rows when it
commits. Its writes then reach the database together, and every reservation is
the answer of the call that created it.
-/

namespace Ticketing

open Relational JsonCpp

namespace ReservationFlow

open OrderRepository (listed)

/-- The request names this session and exactly these seats. -/
def Asks (input : CreateReservationInput) (sessionId : String) (seatIds : List String) : Prop :=
  ∃ seats ids, input.body.get "sessionId" = .ok (.string sessionId) ∧
    input.body.get "seatIds" = .ok (.array seats) ∧ seats.mapM seatIdOf = some ids ∧
      ∀ s, s ∈ ids ↔ s ∈ seatIds

theorem start_normalizes {input : CreateReservationInput} {draws : Draws} {state : FlowState}
    (h : start input draws = some state) : state.seatIds.Nodup ∧
      state.seatIds.Pairwise (· ≤ ·) ∧ Asks input state.sessionId state.seatIds := by
  obtain ⟨normalized, hnormalized, rfl⟩ := Option.map_eq_some_iff.mp h
  unfold validateAndNormalize at hnormalized
  split at hnormalized
  · cases hnormalized
  split at hnormalized
  · rename_i session seats hsession hseats
    split at hnormalized
    · cases hnormalized
    split at hnormalized
    · cases hnormalized
    rename_i seatIds hseatIds
    split at hnormalized
    · rename_i hnodup
      cases hnormalized
      refine ⟨(List.perm_insertionSort _ _).nodup_iff.mpr hnodup,
        List.pairwise_insertionSort _ _, seats, seatIds, hsession, hseats, hseatIds, ?_⟩
      intro s
      exact (List.mem_insertionSort _).symm
    · cases hnormalized
  · cases hnormalized

/-- Sorted lists without repetition are equal when they name the same seats. -/
theorem eq_of_same_seats {xs ys : List String} (hx : xs.Nodup) (hy : ys.Nodup)
    (hxs : xs.Pairwise (· ≤ ·)) (hys : ys.Pairwise (· ≤ ·)) (h : ∀ s, s ∈ xs ↔ s ∈ ys) :
    xs = ys :=
  ((List.perm_ext_iff_of_nodup hx hy).mpr h).eq_of_pairwise
    (fun _ _ _ _ hab hba => String.le_antisymm hab hba) hxs hys

/-- The reservation is committed with its order and its seats. -/
structure Stored (inv : Inventory) (value : ReservationResult) : Prop where
  reservation : inv.reservations.find value.reservationId = some value.reservation
  order : inv.orders.find value.orderId = some value.order
  belongs : value.order.reservationId = value.reservationId
  seats : ∀ s, s ∈ value.seatIds ↔ listed inv value.reservationId s = true
  nodup : value.seatIds.Nodup
  sorted : value.seatIds.Pairwise (· ≤ ·)

theorem findComplete_stored {db : Db} {userId idempotencyKey : String}
    {existing : ReservationResult}
    (h : ReservationRepository.findCompleteByIdempotency db userId idempotencyKey =
      some existing) :
    Stored db.inventory existing ∧ existing.reservation.userId = userId ∧
      existing.reservation.idempotencyKey = some idempotencyKey := by
  simp only [ReservationRepository.findCompleteByIdempotency, Option.bind_eq_bind,
    Option.bind_eq_some_iff] at h
  obtain ⟨reservation, hreservation, order, horder, session, -, h⟩ := h
  split at h
  · cases h
  cases h
  obtain ⟨hfound, hkey⟩ := (db.inventory.reservations.mem_select _ reservation.1
    reservation.2).mp (List.mem_of_mem_head? hreservation)
  obtain ⟨hordered, hbelongs⟩ := (db.inventory.orders.mem_select _ order.1 order.2).mp
    (List.mem_of_mem_head? horder)
  simp only [Bool.and_eq_true, decide_eq_true_eq] at hkey hbelongs
  refine ⟨⟨hfound, hordered, hbelongs, ?_, ?_, List.pairwise_insertionSort _ _⟩, hkey.1, hkey.2⟩
  · intro s
    rw [List.mem_insertionSort, Inventory.mem_seatIdsOf]
    rfl
  · exact (List.perm_insertionSort _ _).nodup_iff.mpr (db.inventory.seatIdsOf_nodup _)

/-- Comparing the sorted lists compares the sets of seats. -/
theorem sameRequest_iff {input : CreateReservationInput} {draws : Draws} {state : FlowState}
    (hstart : start input draws = some state) {inv : Inventory} {existing : ReservationResult}
    (hstored : Stored inv existing) :
    sameRequest existing state.sessionId state.seatIds = true ↔
      Asks input existing.reservation.sessionId existing.seatIds := by
  obtain ⟨hnodup, hsorted, hasks⟩ := start_normalizes hstart
  unfold sameRequest
  rw [Bool.and_eq_true, decide_eq_true_iff, decide_eq_true_iff]
  constructor
  · rintro ⟨hsession, hseats⟩
    rw [hsession, hseats]
    exact hasks
  · rintro ⟨seats, ids, hsession, hseats, hids, hmem⟩
    obtain ⟨seats', ids', hsession', hseats', hids', hmem'⟩ := hasks
    have hsame : existing.reservation.sessionId = state.sessionId := by
      exact Value.string.inj (Except.ok.inj (hsession.symm.trans hsession'))
    have hvalues : seats = seats' :=
      Value.array.inj (Except.ok.inj (hseats.symm.trans hseats'))
    subst hvalues
    rw [hids] at hids'
    cases hids'
    exact ⟨hsame, eq_of_same_seats hstored.nodup hnodup hstored.sorted hsorted
      fun s => (hmem s).symm.trans (hmem' s)⟩


/-- The row an insert of the call writes. -/
def newReservation (state : FlowState) : ReservationRow where
  userId := state.userId
  sessionId := state.sessionId
  status := .active
  expiresAt := state.draws.clock.transactionStart + ReservationRepository.holdingTime
  createdAt := state.draws.clock.transactionStart
  idempotencyKey := some state.idempotencyKey

def newOrder (state : FlowState) (locked : Locked) : OrderRow where
  userId := state.userId
  reservationId := state.reservationId
  status := .pendingPayment
  totalAmount := locked.totalAmount
  expiresAt := state.draws.clock.transactionStart + ReservationRepository.holdingTime
  createdAt := state.draws.clock.transactionStart
  paidAt := none
  refundedAt := none

/-- The answer of the call that commits. -/
def createdValue (state : FlowState) (locked : Locked) : ReservationResult where
  reservationId := state.reservationId
  reservation := newReservation state
  orderId := state.orderId
  order := newOrder state locked
  eventId := locked.eventId
  seatIds := state.seatIds

/-- The constraints of the schema on reservations, orders, their seats and the holders. -/
structure Referenced (inv : Inventory) : Prop where
  items : ∀ r s, listed inv r s = true → ∃ row, inv.reservations.find r = some row
  orders : ∀ o order, inv.orders.find o = some order →
    ∃ row, inv.reservations.find order.reservationId = some row
  holders : ∀ s row, inv.seats.find s = some row → ∀ r, row.currentReservationId = some r →
    ∃ row', inv.reservations.find r = some row'
  keys : ∀ r r' row row' key, inv.reservations.find r = some row →
    inv.reservations.find r' = some row' → row.userId = row'.userId →
      row.idempotencyKey = some key → row'.idempotencyKey = some key → r = r'

/-- The open transaction's reservation is new to the committed rows. -/
structure Entered (state : FlowState) (inv : Inventory) : Prop where
  fresh : inv.reservations.find state.reservationId = none
  freshKey : ∀ r row, inv.reservations.find r = some row →
    ¬ (row.userId = state.userId ∧ row.idempotencyKey = some state.idempotencyKey)

/-- The seats it has locked are as it found them. -/
structure Seated (state : FlowState) (locked : Locked) (inv : Inventory) : Prop
    extends Entered state inv where
  reservation : locked.reservation = newReservation state
  seats : ReservationRepository.lockSessionSeats inv state.seatIds = locked.seats
  length : locked.seats.length = state.seatIds.length
  session : ¬ (locked.seats.any fun seat => decide (seat.sessionId ≠ state.sessionId)) = true
  total : locked.seats.foldlM addSeat 0 = .ok locked.totalAmount

/-- Its order is new, and its answer is fixed. -/
structure Ordered (state : FlowState) (locked : Locked) (value : ReservationResult)
    (inv : Inventory) : Prop extends Seated state locked inv where
  freshOrder : inv.orders.find state.orderId = none
  value : value = createdValue state locked

def notificationKey (state : FlowState) : String := "order-created:" ++ state.orderId

/-- What an open transaction has found on its way to a phase, read from the committed rows. -/
def Reached (state : FlowState) (db : Db) : Phase → Prop
  | .locking _ reservation =>
      Entered state db.inventory ∧ reservation = newReservation state
  | .checkingGate locked | .holding locked | .snapshotting locked | .ordering locked =>
      Seated state locked db.inventory
  | .notifying locked value => Ordered state locked value db.inventory
  | .committing locked value =>
      Ordered state locked value db.inventory ∧
        db.notifications.find (notificationKey state) = none
  | _ => True

/-- What one statement of a call can do. -/
inductive Moves (state : FlowState) (db : Db) : Phase → Phase → Prop where
  | queried {required : Bool} {result : CreateReservationResult}
      (found : queryExisting state required db = some result) :
      Moves state db (.querying required) (.answered result)
  | unknown {required : Bool} : Moves state db (.querying required) .validatingUser
  | user : Moves state db .validatingUser .validatingSession
  | session {gate : SessionSalesGate} : Moves state db .validatingSession (.arbitrating gate)
  | lost {gate : SessionSalesGate} : Moves state db (.arbitrating gate) (.querying true)
  | entered {gate : SessionSalesGate} (entered : Entered state db.inventory) :
      Moves state db (.arbitrating gate) (.locking gate.eventId (newReservation state))
  | seated {locked : Locked}
      (seats : ReservationRepository.lockSessionSeats db.inventory state.seatIds = locked.seats)
      (length : locked.seats.length = state.seatIds.length)
      (session : ¬ (locked.seats.any fun seat =>
        decide (seat.sessionId ≠ state.sessionId)) = true)
      (total : locked.seats.foldlM addSeat 0 = .ok locked.totalAmount) :
      Moves state db (.locking locked.eventId locked.reservation) (.checkingGate locked)
  | passed {locked : Locked} : Moves state db (.checkingGate locked) (.holding locked)
  | held {locked : Locked} : Moves state db (.holding locked) (.snapshotting locked)
  | listed {locked : Locked} : Moves state db (.snapshotting locked) (.ordering locked)
  | ordered {locked : Locked} (fresh : db.inventory.orders.find state.orderId = none) :
      Moves state db (.ordering locked)
        (.notifying locked { createdValue state locked with reservation := locked.reservation })
  | notified {locked : Locked} {value : ReservationResult}
      (fresh : db.notifications.find (notificationKey state) = none) :
      Moves state db (.notifying locked value) (.committing locked value)
  | committed {locked : Locked} {value : ReservationResult} :
      Moves state db (.committing locked value)
        (.answered { outcome := .created, value := some value })
  | refused {phase : Phase} {outcome : CreateReservationOutcome} (hcreated : outcome ≠ .created)
      (hreplayed : outcome ≠ .replayed) : Moves state db phase (refuse outcome)

theorem addSeat_refusal {seats : List LockedSessionSeatRow} {total : ℕ}
    {outcome : CreateReservationOutcome} (h : seats.foldlM addSeat total = .error outcome) :
    outcome ≠ .created ∧ outcome ≠ .replayed := by
  induction seats generalizing total with
  | nil => cases h
  | cons seat rest ih =>
      rw [List.foldlM_cons] at h
      unfold addSeat at h
      split_ifs at h with hstatus hprice
      · cases h
        exact ⟨by simp, by simp⟩
      · cases h
        exact ⟨by simp, by simp⟩
      · exact ih h

theorem gateRefusal_refusal {gate : SessionSalesGate} {outcome : CreateReservationOutcome}
    (h : gateRefusal gate = some outcome) : outcome ≠ .created ∧ outcome ≠ .replayed := by
  unfold gateRefusal at h
  split at h
  · cases h
    exact ⟨by simp, by simp⟩
  split at h <;> cases h <;> exact ⟨by simp, by simp⟩

theorem insertReservation_row {state : FlowState} {inv inv' : Inventory} {row : ReservationRow}
    (h : ReservationRepository.insertReservation inv state.reservationId state.userId
      state.sessionId state.idempotencyKey state.draws.clock.transactionStart =
        .inserted (row, inv')) : row = newReservation state := by
  unfold ReservationRepository.insertReservation at h
  split at h
  · cases h
  simp only at h
  split at h
  · cases h
    rfl
  · cases h

theorem insertOrder_row {state : FlowState} {locked : Locked} {inv inv' : Inventory}
    {order : OrderRow}
    (h : ReservationRepository.insertOrder inv state.orderId state.reservationId
      locked.totalAmount = some (order, inv'))
    (hfound : inv.reservations.find state.reservationId = some (newReservation state)) :
    order = newOrder state locked ∧ inv.orders.find state.orderId = none := by
  obtain ⟨hinserted, -⟩ := insertOrder_inserted h
  refine ⟨?_, hinserted.fresh⟩
  simp only [ReservationRepository.insertOrder, hfound, Option.bind_eq_bind, Option.bind_some] at h
  split at h
  · cases h
  obtain ⟨orders, -, heq⟩ := Option.bind_eq_some_iff.mp h
  cases heq
  rfl

theorem insertNotification_fresh {state : FlowState} {db : Db}
    (h : (insertNotification state db).1 = 1) :
    db.notifications.find (notificationKey state) = none := by
  unfold insertNotification NotificationRepository.insert at h
  split at h
  · exact Table.insert_fresh ‹_›
  · cases h

theorem inserted_spec {state : FlowState} {inv inv' : Inventory}
    (h : inserted state inv = some inv') :
    inv.reservations.Inserted state.reservationId (newReservation state) inv'.reservations ∧
      inv'.toSeatStore = inv.toSeatStore ∧ inv'.items = inv.items ∧ inv'.orders = inv.orders := by
  unfold inserted at h
  split at h
  · rename_i row inv₁ hinsert
    cases h
    have hrow : row = newReservation state := insertReservation_row hinsert
    obtain ⟨hinserted, -, -, -, -, -, hstore, hitems, horders⟩ := insertReservation_inserted hinsert
    exact ⟨hrow ▸ hinserted, hstore, hitems, horders⟩
  · cases h

theorem snapshotted_spec {state : FlowState} {locked : Locked} {inv inv' : Inventory}
    (h : snapshotted state locked inv = some inv') :
    inv.reservations.Inserted state.reservationId (newReservation state) inv'.reservations ∧
      inv'.toSeatStore = (ReservationRepository.holdSessionSeats inv state.reservationId
        state.sessionId state.seatIds).2.toSeatStore ∧ inv'.orders = inv.orders ∧
      locked.seats.foldlM (fun items seat =>
        items.insert (state.reservationId, seat.id) seat.price) inv.items = some inv'.items := by
  unfold snapshotted held at h
  simp only [Option.bind_eq_bind, Option.bind_assoc, Option.bind_eq_some_iff, Option.pure_def,
    Option.some.injEq] at h
  obtain ⟨inv₁, hinserted, inv₂, rfl, result, hitems, rfl⟩ := h
  obtain ⟨hreservations, hstore, hsame, horders⟩ := inserted_spec hinserted
  simp only [ReservationRepository.insertReservationSeats, Option.bind_eq_bind,
    Option.bind_eq_some_iff] at hitems
  obtain ⟨items, hfold, heq⟩ := hitems
  cases heq
  refine ⟨hreservations, ?_, horders, ?_⟩
  · show _ = (ReservationRepository.holdSessionSeats inv _ _ _).2.toSeatStore
    unfold ReservationRepository.holdSessionSeats
    rw [← hstore]
  · rw [← hsame]
    exact hfold

theorem advance_moves {state : FlowState} {db : Db} {phase phase' : Phase}
    (h : advance state db phase = some phase') : Moves state db phase phase' := by
  cases phase with
  | querying required =>
      cases h
      split
      · exact Moves.queried ‹_›
      · exact Moves.unknown
  | validatingUser =>
      cases h
      split
      · exact Moves.user
      · exact Moves.refused (by simp) (by simp)
  | validatingSession =>
      cases h
      split
      · exact Moves.refused (by simp) (by simp)
      · exact Moves.session
  | arbitrating gate =>
      cases h
      split
      · exact Moves.refused (by simp) (by simp)
      · exact Moves.lost
      rename_i reservation inv hinsert
      split
      · obtain ⟨hcreated, hreplayed⟩ := gateRefusal_refusal ‹_›
        exact Moves.refused hcreated hreplayed
      obtain ⟨hinserted, -, -, -, -, hfresh, -⟩ := insertReservation_inserted hinsert
      have hrow : reservation = newReservation state := insertReservation_row hinsert
      subst hrow
      exact Moves.entered ⟨hinserted.fresh, hfresh⟩
  | locking eventId reservation =>
      obtain ⟨inv, hinserted, rfl⟩ := Option.map_eq_some_iff.mp h
      obtain ⟨-, hstore, -, -⟩ := inserted_spec hinserted
      have hseats : ReservationRepository.lockSessionSeats inv state.seatIds =
          ReservationRepository.lockSessionSeats db.inventory state.seatIds := by
        unfold ReservationRepository.lockSessionSeats
        rw [hstore]
      rw [hseats]
      unfold examine
      split
      · exact Moves.refused (by simp) (by simp)
      rename_i hlength
      split
      · exact Moves.refused (by simp) (by simp)
      rename_i hsession
      split
      · obtain ⟨hcreated, hreplayed⟩ := addSeat_refusal ‹_›
        exact Moves.refused hcreated hreplayed
      rename_i totalAmount hfold
      let seats := ReservationRepository.lockSessionSeats db.inventory state.seatIds
      let locked : Locked := ⟨eventId, reservation, seats, totalAmount⟩
      have hlocked : seats = locked.seats := rfl
      exact Moves.seated hlocked (not_not.mp hlength) hsession hfold
  | checkingGate locked =>
      cases h
      split
      · exact Moves.refused (by simp) (by simp)
      split
      · obtain ⟨hcreated, hreplayed⟩ := gateRefusal_refusal ‹_›
        exact Moves.refused hcreated hreplayed
      · exact Moves.passed
  | holding locked =>
      obtain ⟨inv, -, rfl⟩ := Option.map_eq_some_iff.mp h
      split
      · exact Moves.refused (by simp) (by simp)
      · exact Moves.held
  | snapshotting locked =>
      obtain ⟨inv, -, rfl⟩ := Option.map_eq_some_iff.mp h
      split
      · exact Moves.refused (by simp) (by simp)
      split
      · exact Moves.refused (by simp) (by simp)
      · exact Moves.listed
  | ordering locked =>
      obtain ⟨inv, hsnapshotted, rfl⟩ := Option.map_eq_some_iff.mp h
      obtain ⟨hreservations, -, horders, -⟩ := snapshotted_spec hsnapshotted
      split
      · exact Moves.refused (by simp) (by simp)
      rename_i order inv' horder
      obtain ⟨hrow, hfresh⟩ := insertOrder_row horder hreservations.find_self
      split
      · exact Moves.refused (by simp) (by simp)
      rw [horders] at hfresh
      rw [hrow]
      exact Moves.ordered hfresh
  | notifying locked value =>
      cases h
      split
      · exact Moves.refused (by simp) (by simp)
      rename_i hcount
      exact Moves.notified (insertNotification_fresh (not_not.mp hcount))
  | committing locked value =>
      cases h
      exact Moves.committed
  | answered result => cases h

/-- A move keeps what the transaction has found and adds what the statement found. -/
theorem Moves.reached {state : FlowState} {db : Db} {phase phase' : Phase}
    (h : Moves state db phase phase') (hr : Reached state db phase) :
    Reached state db phase' := by
  cases h with
  | queried => trivial
  | unknown => trivial
  | user => trivial
  | session => trivial
  | lost => trivial
  | entered hentered => exact ⟨hentered, rfl⟩
  | seated hseats hlength hsession htotal =>
      obtain ⟨hentered, hreservation⟩ := hr
      exact ⟨hentered, hreservation, hseats, hlength, hsession, htotal⟩
  | passed => exact hr
  | held => exact hr
  | listed => exact hr
  | ordered hfresh =>
      have hseated : Seated _ _ _ := hr
      refine ⟨hseated, hfresh, ?_⟩
      rw [hseated.reservation]
      rfl
  | notified hfresh => exact ⟨hr, hfresh⟩
  | committed => trivial
  | refused => trivial

theorem Moves.inserted {state : FlowState} {db : Db} {phase phase' : Phase}
    (h : Moves state db phase phase') (hp : phase'.inserted = true) :
    phase.inserted = true ∨ ∃ gate, phase = .arbitrating gate := by
  cases h <;> first | exact Or.inl rfl | exact Or.inr ⟨_, rfl⟩ | cases hp

theorem Moves.locked {state : FlowState} {db : Db} {phase phase' : Phase}
    (h : Moves state db phase phase') (hp : phase'.locked = true) :
    phase.locked = true ∨ ∃ eventId reservation, phase = .locking eventId reservation := by
  cases h <;> first | exact Or.inl rfl | exact Or.inr ⟨_, _, rfl⟩ | cases hp

theorem Moves.hasOrder {state : FlowState} {db : Db} {phase phase' : Phase}
    (h : Moves state db phase phase') (hp : phase'.ordered = true) :
    phase.ordered = true ∨ ∃ locked, phase = .ordering locked := by
  cases h <;> first | exact Or.inl rfl | exact Or.inr ⟨_, rfl⟩ | cases hp

theorem Seated.free {state : FlowState} {locked : Locked} {inv : Inventory}
    (h : Seated state locked inv) : SeatsFree inv state.sessionId state.seatIds := by
  have hseats := h.seats
  apply seatsFree_of_locked
  · rw [hseats]
    exact h.length
  · rw [hseats]
    exact h.session
  · rw [hseats]
    exact h.total

theorem Seated.ids {state : FlowState} {locked : Locked} {inv : Inventory}
    (h : Seated state locked inv) : (locked.seats.map LockedSessionSeatRow.id).Perm state.seatIds := by
  rw [← h.seats]
  apply lockSessionSeats_perm
  rw [h.seats]
  exact h.length

section Items

variable {reservationId : String} {seats : List LockedSessionSeatRow}
  {items items' : Table (String × String) ℕ}

theorem rows_of_foldlM_insert
    (h : seats.foldlM (fun items seat => items.insert (reservationId, seat.id) seat.price) items =
      some items') :
    items'.rows = items.rows ++ seats.map fun seat => ((reservationId, seat.id), seat.price) := by
  induction seats generalizing items with
  | nil =>
      cases h
      simp
  | cons seat rest ih =>
      rw [List.foldlM_cons] at h
      obtain ⟨items₁, hinsert, hrest⟩ := Option.bind_eq_some_iff.mp h
      rw [ih hrest, Table.rows_of_insert hinsert]
      simp

/-- Snapshots under new keys can be inserted. -/
theorem exists_foldlM_insert (hnodup : (seats.map LockedSessionSeatRow.id).Nodup)
    (hfresh : ∀ s, items.find (reservationId, s) = none) :
    ∃ items', seats.foldlM (fun items seat => items.insert (reservationId, seat.id) seat.price)
      items = some items' := by
  have hgeneral : ∀ (rest : List LockedSessionSeatRow) (items : Table (String × String) ℕ),
      (rest.map LockedSessionSeatRow.id).Nodup →
      (∀ seat ∈ rest, items.find (reservationId, seat.id) = none) →
      ∃ items', rest.foldlM (fun items seat => items.insert (reservationId, seat.id) seat.price)
        items = some items' := by
    intro rest
    induction rest with
    | nil => exact fun items _ _ => ⟨items, rfl⟩
    | cons seat rest ih =>
        intro items hnodup hfresh
        rw [List.map_cons, List.nodup_cons] at hnodup
        obtain ⟨items₁, hinsert⟩ :=
          items.insert_of_find_none seat.price (hfresh seat List.mem_cons_self)
        have hrest : ∀ other ∈ rest, items₁.find (reservationId, other.id) = none := by
          intro other hother
          rw [Table.find_insert hinsert, if_neg, hfresh other (List.mem_cons_of_mem _ hother)]
          intro heq
          have hid : other.id = seat.id := (Prod.mk.inj heq).2
          exact hnodup.1 (hid ▸ List.mem_map_of_mem hother)
        obtain ⟨items', hitems'⟩ := ih items₁ hnodup.2 hrest
        refine ⟨items', ?_⟩
        rw [List.foldlM_cons, hinsert]
        exact hitems'
  exact hgeneral seats items hnodup fun seat _ => hfresh seat.id

end Items

/-- The row of the notification that goes with the order. -/
def notification (state : FlowState) : NotificationRow := ⟨state.userId, state.orderId, .orderCreated⟩

/-- What a commit adds to the committed rows. -/
structure Books (state : FlowState) (locked : Locked) (db db' : Db) : Prop where
  reservations : db.inventory.reservations.Inserted state.reservationId (newReservation state)
    db'.inventory.reservations
  orders : db.inventory.orders.Inserted state.orderId (newOrder state locked) db'.inventory.orders
  store : db'.inventory.toSeatStore = (ReservationRepository.holdSessionSeats db.inventory
    state.reservationId state.sessionId state.seatIds).2.toSeatStore
  items : db'.inventory.items.rows = db.inventory.items.rows ++
    locked.seats.map fun seat => ((state.reservationId, seat.id), seat.price)
  notifications : db.notifications.Inserted (notificationKey state) (notification state)
    db'.notifications
  frame : db' = { db with inventory := db'.inventory, notifications := db'.notifications }

theorem ordered_spec {state : FlowState} {locked : Locked} {inv inv' : Inventory}
    (h : ordered state locked inv = some inv') :
    ∃ inv₁, snapshotted state locked inv = some inv₁ ∧
      inv.orders.Inserted state.orderId (newOrder state locked) inv'.orders ∧
      inv'.toSeatStore = inv₁.toSeatStore ∧ inv'.items = inv₁.items ∧
      inv'.reservations = inv₁.reservations := by
  unfold ordered at h
  simp only [Option.bind_eq_bind, Option.bind_eq_some_iff, Option.pure_def,
    Option.some.injEq] at h
  obtain ⟨inv₁, hsnapshotted, result, hresult, rfl⟩ := h
  obtain ⟨hreservations, -, horders, -⟩ := snapshotted_spec hsnapshotted
  obtain ⟨hinserted, -, -, -, -, hstore, hitems, hsame⟩ := insertOrder_inserted hresult
  obtain ⟨hrow, -⟩ := insertOrder_row hresult hreservations.find_self
  rw [horders, hrow] at hinserted
  exact ⟨inv₁, hsnapshotted, hinserted, hstore, hitems, hsame⟩

theorem written_books {state : FlowState} {locked : Locked} {db db' : Db}
    (hfresh : db.notifications.find (notificationKey state) = none)
    (h : written state locked db = some db') : Books state locked db db' := by
  unfold written at h
  simp only [Option.bind_eq_bind, Option.bind_eq_some_iff, Option.pure_def,
    Option.some.injEq] at h
  obtain ⟨inv, hordered, rfl⟩ := h
  obtain ⟨inv₁, hsnapshotted, horders, hstore, hitems, hsame⟩ := ordered_spec hordered
  obtain ⟨hreservations, hstore₁, -, hfold⟩ := snapshotted_spec hsnapshotted
  constructor
  case reservations =>
    show Table.Inserted _ _ _ inv.reservations
    rw [hsame]
    exact hreservations
  case orders => exact horders
  case store => exact hstore.trans hstore₁
  case items =>
    show inv.items.rows = _
    rw [hitems]
    exact rows_of_foldlM_insert hfold
  case notifications =>
    obtain ⟨notifications, hinsert⟩ :=
      db.notifications.insert_of_find_none (notification state) hfresh
    have hnotification : (insertNotification state db).2 = notifications := by
      unfold insertNotification NotificationRepository.insert
      simp only [notification, notificationKey] at hinsert
      rw [hinsert]
    show Table.Inserted _ _ _ (insertNotification state db).2
    rw [hnotification]
    exact Table.inserted_of_insert hinsert
  case frame => rfl

section Possible

variable {state : FlowState} {locked : Locked} {inv : Inventory}

/-- While the reservation is new, its insert can be repeated on the committed rows. -/
theorem Entered.insertable (h : Entered state inv) : ∃ inv', inserted state inv = some inv' := by
  obtain ⟨reservations, hinsert⟩ :=
    inv.reservations.insert_of_find_none (newReservation state) h.fresh
  have hfree : ¬ (inv.reservations.rows.any (fun entry =>
      decide (entry.2.userId = state.userId) &&
        decide (entry.2.idempotencyKey = some state.idempotencyKey)) = true) := by
    rw [List.any_eq_true]
    rintro ⟨entry, hentry, hkey⟩
    rw [Bool.and_eq_true, decide_eq_true_iff, decide_eq_true_iff] at hkey
    exact h.freshKey entry.1 entry.2 ((Table.find_eq_some _ _ _).mpr hentry) hkey
  have heval : ReservationRepository.insertReservation inv state.reservationId state.userId
      state.sessionId state.idempotencyKey state.draws.clock.transactionStart =
        .inserted (newReservation state, { inv with reservations := reservations }) := by
    unfold ReservationRepository.insertReservation
    rw [if_neg hfree]
    simp only [newReservation] at hinsert
    simp only [hinsert]
    rfl
  refine ⟨{ inv with reservations := reservations }, ?_⟩
  unfold ReservationFlow.inserted
  rw [heval]

theorem Entered.holdable (h : Entered state inv) : ∃ inv', held state inv = some inv' := by
  obtain ⟨inv', hinserted⟩ := h.insertable
  unfold held
  rw [hinserted]
  exact ⟨_, rfl⟩

theorem held_items {inv' : Inventory} (h : held state inv = some inv') :
    inv'.items = inv.items := by
  unfold held at h
  obtain ⟨inv₁, hinserted, heq⟩ := Option.bind_eq_some_iff.mp h
  cases heq
  obtain ⟨-, -, hitems, -⟩ := inserted_spec hinserted
  exact hitems

theorem Seated.listable (h : Seated state locked inv) (href : Referenced inv)
    (hnodup : state.seatIds.Nodup) : ∃ inv', snapshotted state locked inv = some inv' := by
  obtain ⟨inv₁, hheld⟩ := h.toEntered.holdable
  have hfresh : ∀ s, inv₁.items.find (state.reservationId, s) = none := by
    intro s
    rw [held_items hheld]
    by_contra hne
    obtain ⟨row, hrow⟩ := href.items state.reservationId s (Option.isSome_iff_ne_none.mpr hne)
    rw [h.fresh] at hrow
    cases hrow
  obtain ⟨items, hfold⟩ := exists_foldlM_insert (h.ids.nodup_iff.mpr hnodup) hfresh
  refine ⟨{ inv₁ with items := items }, ?_⟩
  unfold snapshotted
  rw [hheld]
  simp only [ReservationRepository.insertReservationSeats, hfold, Option.bind_eq_bind,
    Option.bind_some]
  rfl

theorem Seated.orderable (h : Seated state locked inv) (href : Referenced inv)
    (hnodup : state.seatIds.Nodup) (hfresh : inv.orders.find state.orderId = none) :
    ∃ inv', ordered state locked inv = some inv' := by
  obtain ⟨inv₁, hsnapshotted⟩ := h.listable href hnodup
  obtain ⟨hreservations, -, horders, -⟩ := snapshotted_spec hsnapshotted
  have hfree : ¬ (inv₁.orders.rows.any (fun entry =>
      decide (entry.2.reservationId = state.reservationId)) = true) := by
    rw [horders, List.any_eq_true]
    rintro ⟨entry, hentry, hid⟩
    obtain ⟨row, hrow⟩ := href.orders entry.1 entry.2 ((Table.find_eq_some _ _ _).mpr hentry)
    rw [of_decide_eq_true hid, h.fresh] at hrow
    cases hrow
  obtain ⟨orders, hinsert⟩ := inv₁.orders.insert_of_find_none (newOrder state locked)
    (by rw [horders]; exact hfresh)
  unfold ordered
  rw [hsnapshotted]
  refine ⟨{ inv₁ with orders := orders }, ?_⟩
  show (ReservationRepository.insertOrder inv₁ _ _ _).bind _ = _
  simp only [ReservationRepository.insertOrder, hreservations.find_self, Option.bind_eq_bind,
    Option.bind_some, if_neg hfree]
  simp only [newOrder, newReservation] at hinsert ⊢
  rw [hinsert]
  rfl

end Possible

/-- Every phase but an answer has a next statement. -/
theorem advance_isSome {state : FlowState} {db : Db} {phase : Phase}
    (hr : Reached state db phase) (href : Referenced db.inventory)
    (hnodup : state.seatIds.Nodup) (hopen : ∀ result, phase ≠ .answered result) :
    (advance state db phase).isSome = true := by
  cases phase with
  | locking eventId reservation =>
      obtain ⟨inv, hinserted⟩ := Entered.insertable hr.1
      simp [advance, hinserted]
  | holding locked =>
      have hseated : Seated state locked db.inventory := hr
      obtain ⟨inv, hinserted⟩ := hseated.toEntered.insertable
      simp [advance, hinserted]
  | snapshotting locked =>
      have hseated : Seated state locked db.inventory := hr
      obtain ⟨inv, hheld⟩ := hseated.toEntered.holdable
      simp [advance, hheld]
  | ordering locked =>
      obtain ⟨inv, hsnapshotted⟩ := Seated.listable hr href hnodup
      simp [advance, hsnapshotted]
  | answered result => exact absurd rfl (hopen result)
  | _ => rfl

end ReservationFlow
end Ticketing
