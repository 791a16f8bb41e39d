import Ticketing.Effects
import Ticketing.ReservationFlow

/-!
# What a reservation commits

A committed reservation found its key free and all its seats available, and
leaves exactly these seats held by it, listed under it and ordered.
-/

namespace Ticketing.ReservationFlow

open Relational

/-- The locked rows are all the requested seats, each one present. -/
theorem lockSessionSeats_perm {inv : Inventory} {seatIds : List String}
    (h : (ReservationRepository.lockSessionSeats inv seatIds).length = seatIds.length) :
    ((ReservationRepository.lockSessionSeats inv seatIds).map LockedSessionSeatRow.id).Perm
      seatIds := by
  have hkeys : ((inv.seats.select fun id _ => decide (id ∈ seatIds)).map Prod.fst).Nodup :=
    inv.seats.nodup.sublist (List.filter_sublist.map Prod.fst)
  have hsub : (inv.seats.select fun id _ => decide (id ∈ seatIds)).map Prod.fst ⊆ seatIds := by
    intro s hs
    obtain ⟨entry, hentry, rfl⟩ := List.mem_map.mp hs
    exact of_decide_eq_true ((inv.seats.mem_select _ entry.1 entry.2).mp hentry).2
  have hlength : seatIds.length ≤
      ((inv.seats.select fun id _ => decide (id ∈ seatIds)).map Prod.fst).length := by
    rw [← h]
    simp [ReservationRepository.lockSessionSeats, List.length_insertionSort]
  have hperm := (List.Nodup.subperm hkeys hsub).perm_of_length_le hlength
  refine List.Perm.trans ?_ hperm
  unfold ReservationRepository.lockSessionSeats
  refine ((List.perm_insertionSort _ _).map _).trans ?_
  rw [List.map_map]
  exact List.Perm.refl _

theorem mem_lockSessionSeats {inv : Inventory} {seatIds : List String}
    {seat : LockedSessionSeatRow}
    (h : seat ∈ ReservationRepository.lockSessionSeats inv seatIds) :
    ∃ row, inv.seats.find seat.id = some row ∧ seat.id ∈ seatIds ∧
      seat.sessionId = row.sessionId ∧ seat.status = row.status ∧ seat.price = row.price := by
  unfold ReservationRepository.lockSessionSeats at h
  rw [List.mem_insertionSort, List.mem_map] at h
  obtain ⟨entry, hentry, rfl⟩ := h
  obtain ⟨hfound, hmem⟩ := (inv.seats.mem_select _ entry.1 entry.2).mp hentry
  exact ⟨entry.2, hfound, of_decide_eq_true hmem, rfl, rfl, rfl⟩

theorem addSeat_available {seats : List LockedSessionSeatRow} {total amount : ℕ}
    (h : seats.foldlM addSeat total = .ok amount) : ∀ seat ∈ seats, seat.status = .available := by
  induction seats generalizing total with
  | nil => simp
  | cons seat rest ih =>
      rw [List.foldlM_cons] at h
      unfold addSeat at h
      split_ifs at h with hstatus hprice
      · cases h
      · cases h
      · intro s hs
        rcases List.mem_cons.mp hs with rfl | hrest
        · exact not_not.mp hstatus
        · exact ih h s hrest

/-- Every requested seat is available in the requested session. -/
structure SeatsFree (inv : Inventory) (sessionId : String) (seatIds : List String) : Prop where
  present : ∀ s ∈ seatIds, ∃ row, inv.seats.find s = some row
  session : ∀ s ∈ seatIds, ∀ row, inv.seats.find s = some row → row.sessionId = sessionId
  available : ∀ s ∈ seatIds, ∀ row, inv.seats.find s = some row → row.status = .available

theorem seatsFree_of_locked {inv : Inventory} {sessionId : String} {seatIds : List String}
    {amount : ℕ}
    (hlength : (ReservationRepository.lockSessionSeats inv seatIds).length = seatIds.length)
    (hsession : ¬ ((ReservationRepository.lockSessionSeats inv seatIds).any fun seat =>
      decide (seat.sessionId ≠ sessionId)) = true)
    (hfold : (ReservationRepository.lockSessionSeats inv seatIds).foldlM addSeat 0 = .ok amount) :
    SeatsFree inv sessionId seatIds := by
  have hperm := lockSessionSeats_perm hlength
  have hlocked : ∀ s ∈ seatIds, ∃ row, inv.seats.find s = some row ∧
      row.sessionId = sessionId ∧ row.status = .available := by
    intro s hs
    obtain ⟨seat, hseat, rfl⟩ := List.mem_map.mp (hperm.mem_iff.mpr hs)
    obtain ⟨row, hrow, -, hsame, hstatus, -⟩ := mem_lockSessionSeats hseat
    refine ⟨row, hrow, ?_, hstatus ▸ addSeat_available hfold seat hseat⟩
    rw [← hsame]
    by_contra hne
    exact hsession (List.any_eq_true.mpr ⟨seat, hseat, decide_eq_true hne⟩)
  constructor
  case present =>
    intro s hs
    obtain ⟨row, hrow, -⟩ := hlocked s hs
    exact ⟨row, hrow⟩
  case session =>
    intro s hs row hrow
    obtain ⟨row', hrow', hsess, -⟩ := hlocked s hs
    rw [hrow] at hrow'
    exact Option.some.inj hrow' ▸ hsess
  case available =>
    intro s hs row hrow
    obtain ⟨row', hrow', -, havail⟩ := hlocked s hs
    rw [hrow] at hrow'
    exact Option.some.inj hrow' ▸ havail

theorem find_holdSessionSeats {inv : Inventory} {reservationId sessionId : String}
    {seatIds : List String} (h : SeatsFree inv sessionId seatIds) (s : String) :
    (ReservationRepository.holdSessionSeats inv reservationId sessionId seatIds).2.seats.find s =
      (inv.seats.find s).map fun row =>
        if s ∈ seatIds then row.assign .held (some reservationId) else row := by
  unfold ReservationRepository.holdSessionSeats
  rw [SeatStore.find_updateSeats]
  cases hrow : inv.seats.find s with
  | none => rfl
  | some row =>
      by_cases hs : s ∈ seatIds
      · simp [hs, h.session s hs row hrow, h.available s hs row hrow]
      · simp [hs]

theorem find_foldlM_insert {reservationId : String} {seats : List LockedSessionSeatRow}
    {items items' : Table (String × String) ℕ}
    (h : seats.foldlM (fun items seat => items.insert (reservationId, seat.id) seat.price) items =
      some items') (r s : String) :
    (items'.find (r, s)).isSome = true ↔ (items.find (r, s)).isSome = true ∨
      (r = reservationId ∧ s ∈ seats.map LockedSessionSeatRow.id) := by
  induction seats generalizing items with
  | nil =>
      cases h
      simp
  | cons seat rest ih =>
      rw [List.foldlM_cons] at h
      obtain ⟨items₁, hinsert, hrest⟩ := Option.bind_eq_some_iff.mp h
      rw [ih hrest, Table.find_insert hinsert]
      by_cases hkey : (r, s) = (reservationId, seat.id)
      · obtain ⟨rfl, rfl⟩ := Prod.mk.inj hkey
        simp
      · rw [if_neg hkey]
        have hne : ¬ (r = reservationId ∧ s = seat.id) := fun hrs => hkey (Prod.ext hrs.1 hrs.2)
        simp only [List.map_cons, List.mem_cons]
        tauto

theorem insertReservation_inserted {inv inv' : Inventory} {reservationId userId sessionId
    idempotencyKey : String} {now : Time} {row : ReservationRow}
    (h : ReservationRepository.insertReservation inv reservationId userId sessionId idempotencyKey
      now = .inserted (row, inv')) :
    inv.reservations.Inserted reservationId row inv'.reservations ∧ row.status = .active ∧
      row.userId = userId ∧ row.idempotencyKey = some idempotencyKey ∧
      row.sessionId = sessionId ∧
      (∀ r other, inv.reservations.find r = some other →
        ¬ (other.userId = userId ∧ other.idempotencyKey = some idempotencyKey)) ∧
      inv'.toSeatStore = inv.toSeatStore ∧ inv'.items = inv.items ∧ inv'.orders = inv.orders := by
  unfold ReservationRepository.insertReservation at h
  split at h
  · cases h
  rename_i hfree
  simp only at h
  split at h
  · rename_i reservations hinsert
    cases h
    refine ⟨Table.inserted_of_insert hinsert, rfl, rfl, rfl, rfl, ?_, rfl, rfl, rfl⟩
    intro r other hother hsame
    apply hfree
    rw [List.any_eq_true]
    exact ⟨(r, other), (inv.reservations.find_eq_some r other).mp hother, by simp [hsame]⟩
  · cases h

theorem insertOrder_inserted {inv inv' : Inventory} {orderId reservationId : String}
    {totalAmount : ℕ} {row : OrderRow}
    (h : ReservationRepository.insertOrder inv orderId reservationId totalAmount =
      some (row, inv')) :
    inv.orders.Inserted orderId row inv'.orders ∧ row.status = .pendingPayment ∧
      row.reservationId = reservationId ∧ row.refundedAt = none ∧
      (∀ o other, inv.orders.find o = some other → other.reservationId ≠ reservationId) ∧
      inv'.toSeatStore = inv.toSeatStore ∧ inv'.items = inv.items ∧
      inv'.reservations = inv.reservations := by
  simp only [ReservationRepository.insertOrder, Option.bind_eq_bind, Option.bind_eq_some_iff] at h
  obtain ⟨reservation, -, h⟩ := h
  split at h
  · cases h
  rename_i hfree
  simp only [Option.bind_eq_some_iff] at h
  obtain ⟨orders, hinsert, heq⟩ := h
  cases heq
  refine ⟨Table.inserted_of_insert hinsert, rfl, rfl, rfl, ?_, rfl, rfl, rfl⟩
  intro o other hother hsame
  apply hfree
  rw [List.any_eq_true]
  exact ⟨(o, other), (inv.orders.find_eq_some o other).mp hother, decide_eq_true hsame⟩

/-- From the seat snapshots on: items, order and notification. -/
theorem insertSeatSnapshots_commit {state : FlowState} {eventId : String}
    {reservation : ReservationRow} {seats : List LockedSessionSeatRow} {amount : ℕ} {db db' : Db}
    {out : Option CreateReservationResult}
    (h : insertSeatSnapshots state eventId reservation seats amount db = .commit out db') :
    db'.ledger = db.ledger ∧ db'.inventory.toSeatStore = db.inventory.toSeatStore ∧
      db'.inventory.reservations = db.inventory.reservations ∧
      (∀ r s, OrderRepository.listed db'.inventory r s = true ↔
        OrderRepository.listed db.inventory r s = true ∨
          (r = state.reservationId ∧ s ∈ seats.map LockedSessionSeatRow.id)) ∧
      ∃ order, db.inventory.orders.Inserted state.orderId order db'.inventory.orders ∧
        order.status = .pendingPayment ∧ order.reservationId = state.reservationId ∧
        order.refundedAt = none ∧
        ∀ o other, db.inventory.orders.find o = some other →
          other.reservationId ≠ state.reservationId := by
  unfold insertSeatSnapshots at h
  split at h
  · cases h
  rename_i inserted inv hitems
  simp only [ReservationRepository.insertReservationSeats, Option.bind_eq_bind,
    Option.bind_eq_some_iff] at hitems
  obtain ⟨items, hfold, heq⟩ := hitems
  cases heq
  split at h
  · cases h
  unfold createOrder at h
  split at h
  · cases h
  rename_i order inv' horder
  obtain ⟨hinserted, hpending, hid, hrefunded, hfree, hstore, hitems', hres⟩ :=
    insertOrder_inserted horder
  split at h
  · cases h
  unfold createOrderNotification at h
  simp only at h
  split at h
  · cases h
  cases h
  refine ⟨rfl, hstore, hres, ?_, order, hinserted, hpending, hid, hrefunded, hfree⟩
  intro r s
  unfold OrderRepository.listed
  rw [hitems']
  exact find_foldlM_insert hfold r s

/-- What the reservation transaction commits. -/
theorem startTransaction_commit {state : FlowState} {db db' : Db}
    {out : Option CreateReservationResult} (hne : state.seatIds ≠ [])
    (h : startTransaction state db = .commit out db') :
    ∃ reservation order, Reserves state.reservationId reservation state.orderId order
      state.seatIds db.inventory db'.inventory ∧ db'.ledger = db.ledger ∧
      reservation.userId = state.userId ∧
      reservation.idempotencyKey = some state.idempotencyKey := by
  unfold startTransaction validateUser at h
  split at h
  case isFalse => cases h
  unfold validateSession at h
  split at h
  · cases h
  unfold arbitrateIdempotency at h
  split at h
  · cases h
  · cases h
  rename_i reservation inv hinsert
  obtain ⟨hreservations, hactive, huser, hkey, -, hfresh, hstore, hitems, horders⟩ :=
    insertReservation_inserted hinsert
  split at h
  · cases h
  unfold lockSeats at h
  simp only at h
  split at h
  · cases h
  rename_i hlength
  rw [not_not] at hlength
  split at h
  · cases h
  rename_i hsession
  split at h
  · cases h
  rename_i amount hfold
  have hfree := seatsFree_of_locked hlength hsession hfold
  have hperm := lockSessionSeats_perm hlength
  unfold checkFinalGate at h
  split at h
  · cases h
  split at h
  · cases h
  unfold holdSeats at h
  simp only at h
  split at h
  · cases h
  obtain ⟨hledger, hstore', hres', hlisted, order, horder, hpending, hid, hrefunded, hunref⟩ :=
    insertSeatSnapshots_commit h
  refine ⟨reservation, order, ?_, hledger, huser, hkey⟩
  constructor
  case reservations =>
    rw [hres']
    exact hreservations
  case active => exact hactive
  case freshKey =>
    intro r row hrow hsame
    rw [huser, hkey] at hsame
    exact hfresh r row hrow hsame
  case orders => rw [← horders]; exact horder
  case pending => exact hpending
  case refundedAt => exact hrefunded
  case belongs => exact hid
  case unreferenced => rw [← horders]; exact hunref
  case nonempty => exact hne
  case available =>
    intro s hs
    obtain ⟨row, hrow⟩ := hfree.present s hs
    refine ⟨row, ?_, hfree.available s hs row hrow⟩
    rw [← hstore]
    exact hrow
  case seats =>
    intro s
    rw [hstore', ← hstore]
    exact find_holdSessionSeats hfree s
  case items =>
    intro r s
    rw [hlisted r s, hperm.mem_iff]
    unfold OrderRepository.listed ReservationRepository.holdSessionSeats
    rw [← hitems]

/-- Only a commit answers with a value, and the value names the new reservation. -/
theorem startTransaction_answer {state : FlowState} {db : Db} {result : CreateReservationResult}
    {value : ReservationResult} (h : (startTransaction state db).outcome = some result)
    (hvalue : result.value = some value) :
    (∃ db', startTransaction state db = .commit (some result) db') ∧
      value.reservationId = state.reservationId := by
  generalize hr : startTransaction state db = r at h ⊢
  have hfail : ∀ {outcome : CreateReservationOutcome}, fail outcome ≠ r := by
    rintro outcome rfl
    rw [← Option.some.inj h] at hvalue
    cases hvalue
  unfold startTransaction validateUser at hr
  split at hr
  case isFalse => exact absurd hr hfail
  unfold validateSession at hr
  split at hr
  · exact absurd hr hfail
  unfold arbitrateIdempotency at hr
  split at hr
  · exact absurd hr hfail
  · subst hr
    cases h
  split at hr
  · exact absurd hr hfail
  unfold lockSeats at hr
  simp only at hr
  split at hr
  · exact absurd hr hfail
  split at hr
  · exact absurd hr hfail
  split at hr
  · exact absurd hr hfail
  unfold checkFinalGate at hr
  split at hr
  · exact absurd hr hfail
  split at hr
  · exact absurd hr hfail
  unfold holdSeats at hr
  simp only at hr
  split at hr
  · exact absurd hr hfail
  unfold insertSeatSnapshots at hr
  split at hr
  · exact absurd hr hfail
  split at hr
  · exact absurd hr hfail
  unfold createOrder at hr
  split at hr
  · exact absurd hr hfail
  split at hr
  · exact absurd hr hfail
  unfold createOrderNotification at hr
  simp only at hr
  split at hr
  · exact absurd hr hfail
  subst hr
  cases Option.some.inj h
  cases hvalue
  exact ⟨⟨_, rfl⟩, rfl⟩

/-- A fallible map keeps the length of the list. -/
theorem length_of_mapM {α β : Type} {f : α → Option β} :
    ∀ {xs : List α} {ys : List β}, xs.mapM f = some ys → ys.length = xs.length := by
  intro xs
  induction xs with
  | nil =>
    intro ys h
    cases h
    rfl
  | cons x xs ih =>
    intro ys h
    rw [List.mapM_cons] at h
    obtain ⟨y, -, h⟩ := Option.bind_eq_some_iff.mp h
    obtain ⟨rest, hrest, h⟩ := Option.bind_eq_some_iff.mp h
    cases h
    simp [ih hrest]

/-- A valid request names at least one seat. -/
theorem start_seatIds_ne_nil {input : CreateReservationInput} {draws : Draws} {state : FlowState}
    (h : start input draws = some state) : state.seatIds ≠ [] := by
  obtain ⟨normalized, hnormalized, rfl⟩ := Option.map_eq_some_iff.mp h
  unfold validateAndNormalize at hnormalized
  split at hnormalized
  · cases hnormalized
  split at hnormalized
  · rename_i session seats _ _
    split at hnormalized
    · cases hnormalized
    rename_i hbounds
    split at hnormalized
    · cases hnormalized
    rename_i seatIds hseatIds
    split at hnormalized
    · cases hnormalized
      have hlength : seatIds.length = seats.length := length_of_mapM hseatIds
      intro hnil
      have hzero := congrArg List.length hnil
      simp only [List.length_insertionSort, List.length_nil] at hzero
      omega
    · cases hnormalized
  · cases hnormalized

theorem createReservation_commit {input : CreateReservationInput} {draws : Draws} {db db' : Db}
    {out : Option CreateReservationResult}
    (h : createReservation input draws db = .commit out db') :
    Effect (.reserve ("RSV-" ++ draws.reservationUuid)) db db' := by
  unfold createReservation at h
  split at h
  · cases h
  rename_i state hstart
  split at h
  · cases h
  obtain ⟨reservation, order, hreserves, hledger, -, -⟩ :=
    startTransaction_commit (start_seatIds_ne_nil hstart) h
  obtain ⟨normalized, -, rfl⟩ := Option.map_eq_some_iff.mp hstart
  exact Effect.reserve hreserves hledger

end Ticketing.ReservationFlow
