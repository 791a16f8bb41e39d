import Ticketing.ReservationArbitration

/-!
# Concurrent reservation calls commit once, wholly or not at all

Open transactions exclude each other on idempotency keys and on seats, so what
one of them has found on its way is still true of the committed rows when it
commits. Its writes then reach the database together, and every new row is part
of the answer of the call that created it.
-/

namespace Ticketing

open Relational JsonCpp
open OrderRepository (listed)
open ReservationFlow

namespace ReservationFlow

section Commit

variable {state : FlowState} {locked : Locked} {db db' : Db}

theorem Books.find_seat (h : Books state locked db db') (hfree : SeatsFree db.inventory
    state.sessionId state.seatIds) (s : String) :
    db'.inventory.seats.find s = (db.inventory.seats.find s).map fun row =>
      if s ∈ state.seatIds then row.assign .held (some state.reservationId) else row := by
  rw [h.store]
  exact find_holdSessionSeats hfree s

theorem Books.find_item (h : Books state locked db db') (hperm : (locked.seats.map
    LockedSessionSeatRow.id).Perm state.seatIds) (r s : String) :
    listed db'.inventory r s = true ↔ listed db.inventory r s = true ∨
      (r = state.reservationId ∧ s ∈ state.seatIds) := by
  unfold listed
  rw [← Table.mem_keys_iff, ← Table.mem_keys_iff, h.items, List.map_append, List.mem_append,
    ← hperm.mem_iff]
  constructor
  · rintro (hold | hnew)
    · exact Or.inl hold
    · rw [List.map_map, List.mem_map] at hnew
      obtain ⟨seat, hseat, heq⟩ := hnew
      obtain ⟨hr, hs⟩ := Prod.mk.inj heq
      exact Or.inr ⟨hr.symm, hs ▸ List.mem_map_of_mem hseat⟩
  · rintro (hold | ⟨rfl, hs⟩)
    · exact Or.inl hold
    · obtain ⟨seat, hseat, rfl⟩ := List.mem_map.mp hs
      right
      rw [List.map_map, List.mem_map]
      exact ⟨seat, hseat, rfl⟩

/-- Seats the commit does not hold are read as before. -/
theorem Books.lockSessionSeats_of_disjoint (h : Books state locked db db') {seatIds : List String}
    (hdisjoint : ∀ s ∈ state.seatIds, s ∉ seatIds) :
    ReservationRepository.lockSessionSeats db'.inventory seatIds =
      ReservationRepository.lockSessionSeats db.inventory seatIds := by
  have hseats : db'.inventory.seats = (ReservationRepository.holdSessionSeats db.inventory
      state.reservationId state.sessionId state.seatIds).2.seats := congrArg SeatStore.seats h.store
  have hselect : (db'.inventory.seats.select fun id _ => decide (id ∈ seatIds)) =
      db.inventory.seats.select fun id _ => decide (id ∈ seatIds) := by
    rw [hseats]
    simp only [ReservationRepository.holdSessionSeats, SeatStore.updateSeats]
    apply Table.select_update_of_disjoint
    intro s row hs
    simp only [Bool.and_eq_true, decide_eq_true_eq] at hs
    exact ⟨decide_eq_false (hdisjoint s hs.2), decide_eq_false (hdisjoint s hs.2)⟩
  unfold ReservationRepository.lockSessionSeats
  rw [hselect]

/-- The snapshots of a reservation. -/
def snapshots (inv : Inventory) (reservationId : String) : List ℕ :=
  (inv.items.select fun key _ => decide (key.1 = reservationId)).map Prod.snd

theorem Books.snapshots_of_ne (h : Books state locked db db') {r : String}
    (hne : r ≠ state.reservationId) : snapshots db'.inventory r = snapshots db.inventory r := by
  have hnew : (locked.seats.map fun seat => ((state.reservationId, seat.id), seat.price)).filter
      (fun entry => decide (entry.1.1 = r)) = [] := by
    rw [List.filter_eq_nil_iff]
    intro entry hentry
    obtain ⟨seat, -, rfl⟩ := List.mem_map.mp hentry
    simp [Ne.symm hne]
  unfold snapshots Table.select
  rw [h.items, List.filter_append, hnew, List.append_nil]

theorem Books.snapshots_self (h : Books state locked db db')
    (hnone : ∀ s, ¬ listed db.inventory state.reservationId s = true) :
    snapshots db'.inventory state.reservationId =
      locked.seats.map LockedSessionSeatRow.price := by
  have hold : db.inventory.items.rows.filter
      (fun entry => decide (entry.1.1 = state.reservationId)) = [] := by
    rw [List.filter_eq_nil_iff]
    intro entry hentry hr
    apply hnone entry.1.2
    unfold listed
    rw [← of_decide_eq_true hr, ← Table.mem_keys_iff]
    exact List.mem_map_of_mem hentry
  have hnew : (locked.seats.map fun seat => ((state.reservationId, seat.id), seat.price)).filter
      (fun entry => decide (entry.1.1 = state.reservationId)) =
        locked.seats.map fun seat => ((state.reservationId, seat.id), seat.price) := by
    rw [List.filter_eq_self]
    intro entry hentry
    obtain ⟨seat, -, rfl⟩ := List.mem_map.mp hentry
    simp
  unfold snapshots Table.select
  rw [h.items, List.filter_append, hold, hnew, List.nil_append, List.map_map]
  rfl

end Commit

/-- The total is the sum of the prices, and no addition has left the 64 bits. -/
theorem addSeat_total {seats : List LockedSessionSeatRow} {total amount : ℕ}
    (h : seats.foldlM addSeat total = .ok amount) (hbound : total ≤ maxInt64) :
    amount = total + (seats.map LockedSessionSeatRow.price).sum ∧ amount ≤ maxInt64 := by
  induction seats generalizing total with
  | nil =>
      cases h
      exact ⟨by simp, hbound⟩
  | cons seat rest ih =>
      rw [List.foldlM_cons] at h
      unfold addSeat at h
      split_ifs at h with hstatus hprice
      · cases h
      · cases h
      · obtain ⟨hsum, hle⟩ := ih h (by omega)
        refine ⟨?_, hle⟩
        rw [hsum, List.map_cons, List.sum_cons]
        omega

/-- The committed reservation a call returns, and what the call asked for. -/
structure Returned (inv : Inventory) (input : CreateReservationInput)
    (value : ReservationResult) : Prop extends Stored inv value where
  user : value.reservation.userId = input.userId
  key : value.reservation.idempotencyKey = some input.idempotencyKey
  asked : Asks input value.reservation.sessionId value.seatIds

/-- The reservation holds exactly its seats, at the total of their snapshots. -/
structure Holding (inv : Inventory) (value : ReservationResult) : Prop where
  seats : ∀ s, s ∈ value.seatIds ↔ ∃ row, inv.seats.find s = some row ∧ row.status = .held ∧
    row.currentReservationId = some value.reservationId
  total : value.order.totalAmount = (snapshots inv value.reservationId).sum
  bounded : value.order.totalAmount ≤ maxInt64

/-- What an answer says about the committed rows. -/
def Answered (inv : Inventory) (input : CreateReservationInput)
    (result : CreateReservationResult) : Prop :=
  match result.outcome with
  | .created => ∃ value, result.value = some value ∧ Returned inv input value ∧ Holding inv value
  | .replayed => ∃ value, result.value = some value ∧ Returned inv input value
  | _ => result.value = none

end ReservationFlow

namespace ReservationSystem

/-- Open transactions have no key, no seat and no order in common. -/
structure Apart (call other : ReservationCall) : Prop where
  keys : call.phase.inserted = true → other.phase.inserted = true →
    ¬ (other.state.userId = call.state.userId ∧
      other.state.idempotencyKey = call.state.idempotencyKey) ∧
    other.state.reservationId ≠ call.state.reservationId
  seats : call.phase.locked = true → other.phase.locked = true →
    ∀ s ∈ other.state.seatIds, s ∉ call.state.seatIds
  orders : call.phase.ordered = true → other.phase.ordered = true →
    other.state.orderId ≠ call.state.orderId

theorem Apart.symm {call other : ReservationCall} (h : Apart call other) : Apart other call where
  keys := by
    intro ho hc
    obtain ⟨hkey, hid⟩ := h.keys hc ho
    exact ⟨fun hsame => hkey ⟨hsame.1.symm, hsame.2.symm⟩, hid.symm⟩
  seats := fun ho hc s hs hs' => h.seats hc ho s hs' hs
  orders := fun ho hc => (h.orders hc ho).symm

/-- A call has answered that it created the reservation. -/
def Created (sys : ReservationSystem) (value : ReservationResult) : Prop :=
  ∃ id call, sys.calls.find id = some call ∧
    call.phase = .answered { outcome := .created, value := some value }

/-- Every row that was not there before is part of a reservation some call has created. -/
structure Attributed (before : Inventory) (sys : ReservationSystem) : Prop where
  reservations : ∀ r row, sys.db.inventory.reservations.find r = some row →
    before.reservations.find r = some row ∨
      ∃ value, sys.Created value ∧ value.reservationId = r ∧ value.reservation = row
  orders : ∀ o order, sys.db.inventory.orders.find o = some order →
    before.orders.find o = some order ∨
      ∃ value, sys.Created value ∧ value.orderId = o ∧ value.order = order
  items : ∀ r s, listed sys.db.inventory r s = true → listed before r s = true ∨
    ∃ value, sys.Created value ∧ value.reservationId = r ∧ s ∈ value.seatIds
  seats : ∀ s row, sys.db.inventory.seats.find s = some row → before.seats.find s = some row ∨
    ∃ value, sys.Created value ∧ s ∈ value.seatIds ∧
      row.currentReservationId = some value.reservationId

structure Sound (before : Inventory) (sys : ReservationSystem) : Prop where
  referenced : Referenced sys.db.inventory
  started : ∀ id call, sys.calls.find id = some call →
    start call.input call.draws = some call.state
  reached : ∀ id call, sys.calls.find id = some call → Reached call.state sys.db call.phase
  apart : ∀ id call id' call', sys.calls.find id = some call → sys.calls.find id' = some call' →
    id ≠ id' → Apart call call'
  answers : ∀ id call result, sys.calls.find id = some call → call.phase = .answered result →
    Answered sys.db.inventory call.input result
  attributed : Attributed before sys

theorem find_withPhase (sys : ReservationSystem) {id : ℕ} {call : ReservationCall} (phase : Phase)
    (h : sys.calls.find id = some call) (j : ℕ) :
    (sys.withPhase id phase).calls.find j =
      if j = id then some { call with phase := phase } else sys.calls.find j := by
  unfold withPhase
  rw [Table.find_updateRow]
  by_cases hj : j = id
  · subst j
    simp [h]
  · rw [if_neg hj]
    cases sys.calls.find j <;> simp [hj]

/-- What a call that moves excludes: the keys, seats and orders it adds are free. -/
theorem apart_of_moves {call other : ReservationCall} {db : Db} {phase : Phase}
    (hmoves : Moves call.state db call.phase phase) (hunblocked : unblocked call other = true)
    (h : Apart call other) : Apart { call with phase := phase } other where
  keys := by
    intro hc ho
    rcases hmoves.inserted hc with hbefore | ⟨gate, hgate⟩
    · exact h.keys hbefore ho
    · unfold unblocked at hunblocked
      rw [hgate] at hunblocked
      simp only [ho, Bool.true_and, Bool.not_eq_true', Bool.or_eq_false_iff,
        Bool.and_eq_false_iff, decide_eq_false_iff_not] at hunblocked
      refine ⟨?_, hunblocked.2⟩
      rintro ⟨huser, hkey⟩
      rcases hunblocked.1 with hne | hne
      · exact hne huser
      · exact hne hkey
  seats := by
    intro hc ho s hs hsc
    rcases hmoves.locked hc with hbefore | ⟨eventId, reservation, hphase⟩
    · exact h.seats hbefore ho s hs hsc
    · unfold unblocked at hunblocked
      rw [hphase] at hunblocked
      simp only [ho, Bool.true_and, Bool.not_eq_true', List.any_eq_false] at hunblocked
      exact hunblocked s hs (decide_eq_true hsc)
  orders := by
    intro hc ho
    rcases hmoves.hasOrder hc with hbefore | ⟨locked, hphase⟩
    · exact h.orders hbefore ho
    · unfold unblocked at hunblocked
      rw [hphase] at hunblocked
      simpa [ho] using hunblocked

/-- A commit of one open transaction leaves alone what another has found. -/
theorem reached_of_books {call other : ReservationCall} {locked : Locked}
    {value : ReservationResult} {db db' : Db}
    (hphase : call.phase = .committing locked value)
    (hbooks : Books call.state locked db db') (hapart : Apart call other)
    (h : Reached other.state db other.phase) : Reached other.state db' other.phase := by
  have hinserted : call.phase.inserted = true := by rw [hphase]; rfl
  have hlocked : call.phase.locked = true := by rw [hphase]; rfl
  have hordered : call.phase.ordered = true := by rw [hphase]; rfl
  have hentered : other.phase.inserted = true → Entered other.state db.inventory →
      Entered other.state db'.inventory := by
    intro ho he
    obtain ⟨hkey, hid⟩ := hapart.keys hinserted ho
    constructor
    · rw [hbooks.reservations.find_of_ne hid]
      exact he.fresh
    · intro r row hrow
      rcases hbooks.reservations.cases hrow with ⟨-, rfl⟩ | hold
      · rintro ⟨huser, hsame⟩
        exact hkey ⟨huser.symm, (Option.some.inj hsame).symm⟩
      · exact he.freshKey r row hold
  have hseated : other.phase.inserted = true → other.phase.locked = true →
      ∀ found, Seated other.state found db.inventory → Seated other.state found db'.inventory := by
    intro hoi hol found hs
    refine ⟨hentered hoi hs.toEntered, hs.reservation, ?_, hs.length, hs.session, hs.total⟩
    rw [hbooks.lockSessionSeats_of_disjoint fun s hs' hout => hapart.seats hlocked hol s hout hs']
    exact hs.seats
  have hfresh : other.phase.inserted = true → other.phase.locked = true →
      other.phase.ordered = true → ∀ found answer, Ordered other.state found answer db.inventory →
        Ordered other.state found answer db'.inventory := by
    intro hoi hol hoo found answer ho
    refine ⟨hseated hoi hol found ho.toSeated, ?_, ho.value⟩
    rw [hbooks.orders.find_of_ne (hapart.orders hordered hoo)]
    exact ho.freshOrder
  cases hp : other.phase with
  | locking eventId reservation =>
      rw [hp] at h hentered
      exact ⟨hentered rfl h.1, h.2⟩
  | checkingGate found =>
      rw [hp] at h hseated
      exact hseated rfl rfl found h
  | holding found =>
      rw [hp] at h hseated
      exact hseated rfl rfl found h
  | snapshotting found =>
      rw [hp] at h hseated
      exact hseated rfl rfl found h
  | ordering found =>
      rw [hp] at h hseated
      exact hseated rfl rfl found h
  | notifying found answer =>
      rw [hp] at h hfresh
      exact hfresh rfl rfl rfl found answer h
  | committing found answer =>
      have hkeys : notificationKey other.state ≠ notificationKey call.state := by
        intro heq
        have hoo : other.phase.ordered = true := by rw [hp]; rfl
        exact hapart.orders hordered hoo ((String.append_right_inj "order-created:").mp heq)
      rw [hp] at h hfresh
      refine ⟨hfresh rfl rfl rfl found answer h.1, ?_⟩
      rw [hbooks.notifications.find_of_ne hkeys]
      exact h.2
  | _ => trivial

section Commit

variable {state : FlowState} {locked : Locked} {value : ReservationResult} {db db' : Db}

theorem referenced_of_books (href : Referenced db.inventory)
    (hordered : Ordered state locked value db.inventory) (hbooks : Books state locked db db') :
    Referenced db'.inventory := by
  have hkept : ∀ r, (∃ row, db.inventory.reservations.find r = some row) →
      ∃ row, db'.inventory.reservations.find r = some row := by
    rintro r ⟨row, hrow⟩
    exact ⟨row, hbooks.reservations.find_old hrow⟩
  have hnew : ∃ row, db'.inventory.reservations.find state.reservationId = some row :=
    ⟨_, hbooks.reservations.find_self⟩
  constructor
  case items =>
    intro r s hl
    rcases (hbooks.find_item hordered.ids r s).mp hl with hold | ⟨rfl, -⟩
    · exact hkept r (href.items r s hold)
    · exact hnew
  case orders =>
    intro o order horder
    rcases hbooks.orders.cases horder with ⟨-, rfl⟩ | hold
    · exact hnew
    · exact hkept _ (href.orders o order hold)
  case holders =>
    intro s row hrow r hr
    rw [hbooks.find_seat hordered.free] at hrow
    obtain ⟨old, hold, rfl⟩ := Option.map_eq_some_iff.mp hrow
    by_cases hs : s ∈ state.seatIds
    · rw [if_pos hs] at hr
      rw [← Option.some.inj hr]
      exact hnew
    · rw [if_neg hs] at hr
      exact hkept r (href.holders s old hold r hr)
  case keys =>
    intro r r' row row' key hrow hrow' huser hkey hkey'
    rcases hbooks.reservations.cases hrow with ⟨rfl, rfl⟩ | hold <;>
      rcases hbooks.reservations.cases hrow' with ⟨rfl, rfl⟩ | hold'
    · rfl
    · refine absurd ⟨huser.symm, ?_⟩ (hordered.freshKey r' row' hold')
      rw [hkey', ← hkey]
      rfl
    · refine absurd ⟨huser, ?_⟩ (hordered.freshKey r row hold)
      rw [hkey, ← hkey']
      rfl
    · exact href.keys r r' row row' key hold hold' huser hkey hkey'

/-- What was returned before a commit is still so after it. -/
theorem returned_of_books {input : CreateReservationInput} {other : ReservationResult}
    (hordered : Ordered state locked value db.inventory) (hbooks : Books state locked db db')
    (h : Returned db.inventory input other) : Returned db'.inventory input other := by
  have hne : other.reservationId ≠ state.reservationId := by
    intro heq
    have hfound := h.reservation
    rw [heq, hordered.fresh] at hfound
    cases hfound
  refine ⟨⟨hbooks.reservations.find_old h.reservation, hbooks.orders.find_old h.order, h.belongs,
    ?_, h.nodup, h.sorted⟩, h.user, h.key, h.asked⟩
  intro s
  rw [h.seats s, hbooks.find_item hordered.ids]
  constructor
  · exact Or.inl
  · rintro (hl | ⟨heq, -⟩)
    · exact hl
    · exact absurd heq hne

theorem holding_of_books {other : ReservationResult}
    (hordered : Ordered state locked value db.inventory) (hbooks : Books state locked db db')
    (hfound : ∃ row, db.inventory.reservations.find other.reservationId = some row)
    (h : Holding db.inventory other) : Holding db'.inventory other := by
  have hne : other.reservationId ≠ state.reservationId := by
    intro heq
    obtain ⟨row, hrow⟩ := hfound
    rw [heq, hordered.fresh] at hrow
    cases hrow
  refine ⟨?_, ?_, h.bounded⟩
  · intro s
    rw [h.seats s, hbooks.find_seat hordered.free]
    constructor
    · rintro ⟨row, hrow, hheld, hid⟩
      have hs : s ∉ state.seatIds := by
        intro hs
        have havailable := hordered.free.available s hs row hrow
        rw [hheld] at havailable
        cases havailable
      exact ⟨row, by rw [hrow, Option.map_some, if_neg hs], hheld, hid⟩
    · rintro ⟨row, hrow, hheld, hid⟩
      obtain ⟨old, hold, rfl⟩ := Option.map_eq_some_iff.mp hrow
      by_cases hs : s ∈ state.seatIds
      · rw [if_pos hs] at hid
        exact absurd (Option.some.inj hid).symm hne
      · rw [if_neg hs] at hheld hid
        exact ⟨old, hold, hheld, hid⟩
  · rw [hbooks.snapshots_of_ne hne]
    exact h.total

/-- What the committing call itself answers. -/
theorem created_of_books {input : CreateReservationInput} {draws : Draws}
    (hstart : start input draws = some state) (href : Referenced db.inventory)
    (hordered : Ordered state locked value db.inventory) (hbooks : Books state locked db db') :
    Returned db'.inventory input value ∧ Holding db'.inventory value := by
  obtain ⟨hnodup, hsorted, hasks⟩ := start_normalizes hstart
  have hnone : ∀ s, ¬ listed db.inventory state.reservationId s = true := by
    intro s hl
    obtain ⟨row, hrow⟩ := href.items _ s hl
    rw [hordered.fresh] at hrow
    cases hrow
  have hunheld : ∀ s row, db.inventory.seats.find s = some row →
      row.currentReservationId ≠ some state.reservationId := by
    intro s row hrow hid
    obtain ⟨row', hrow'⟩ := href.holders s row hrow _ hid
    rw [hordered.fresh] at hrow'
    cases hrow'
  have hinput : state.userId = input.userId ∧ state.idempotencyKey = input.idempotencyKey := by
    obtain ⟨normalized, -, rfl⟩ := Option.map_eq_some_iff.mp hstart
    exact ⟨rfl, rfl⟩
  obtain ⟨htotal, hbounded⟩ := addSeat_total hordered.total (by decide)
  rw [hordered.value]
  refine ⟨⟨⟨hbooks.reservations.find_self, hbooks.orders.find_self, rfl, ?_, hnodup, hsorted⟩,
    hinput.1, congrArg some hinput.2, hasks⟩, ⟨?_, ?_, hbounded⟩⟩
  · intro s
    rw [hbooks.find_item hordered.ids]
    constructor
    · exact fun hs => Or.inr ⟨rfl, hs⟩
    · rintro (hold | ⟨-, hs⟩)
      · exact absurd hold (hnone s)
      · exact hs
  · intro s
    rw [hbooks.find_seat hordered.free]
    constructor
    · intro (hs : s ∈ state.seatIds)
      obtain ⟨row, hrow⟩ := hordered.free.present s hs
      exact ⟨row.assign .held (some state.reservationId), by rw [hrow, Option.map_some, if_pos hs],
        rfl, rfl⟩
    · rintro ⟨row, hrow, -, hid⟩
      obtain ⟨old, hold, rfl⟩ := Option.map_eq_some_iff.mp hrow
      by_cases hs : s ∈ state.seatIds
      · exact hs
      · rw [if_neg hs] at hid
        exact absurd hid (hunheld s old hold)
  · show locked.totalAmount = (snapshots db'.inventory state.reservationId).sum
    rw [hbooks.snapshots_self hnone, htotal, Nat.zero_add]

end Commit

theorem find_submit {sys sys' : ReservationSystem} {id : ℕ} {input : CreateReservationInput}
    {draws : Draws} (h : sys.submit id input draws = some sys') : sys'.db = sys.db ∧
      (sys' = sys ∨ ∃ state, start input draws = some state ∧ sys.calls.Inserted id
        ⟨input, draws, state, .querying false⟩ sys'.calls) := by
  unfold submit at h
  split at h
  · cases h
    exact ⟨rfl, Or.inl rfl⟩
  · obtain ⟨calls, hinsert, rfl⟩ := Option.map_eq_some_iff.mp h
    exact ⟨rfl, Or.inr ⟨_, ‹_›, Table.inserted_of_insert hinsert⟩⟩

/-- An answer stays as it is, so what has been created stays attributed. -/
theorem Attributed.mono {before : Inventory} {sys sys' : ReservationSystem}
    (h : Attributed before sys) (hinv : sys'.db.inventory = sys.db.inventory)
    (hcreated : ∀ value, sys.Created value → sys'.Created value) : Attributed before sys' where
  reservations := by
    intro r row hrow
    rw [hinv] at hrow
    rcases h.reservations r row hrow with hold | ⟨value, hvalue, hr⟩
    · exact Or.inl hold
    · exact Or.inr ⟨value, hcreated value hvalue, hr⟩
  orders := by
    intro o order horder
    rw [hinv] at horder
    rcases h.orders o order horder with hold | ⟨value, hvalue, ho⟩
    · exact Or.inl hold
    · exact Or.inr ⟨value, hcreated value hvalue, ho⟩
  items := by
    intro r s hl
    rw [hinv] at hl
    rcases h.items r s hl with hold | ⟨value, hvalue, hr⟩
    · exact Or.inl hold
    · exact Or.inr ⟨value, hcreated value hvalue, hr⟩
  seats := by
    intro s row hrow
    rw [hinv] at hrow
    rcases h.seats s row hrow with hold | ⟨value, hvalue, hs⟩
    · exact Or.inl hold
    · exact Or.inr ⟨value, hcreated value hvalue, hs⟩

theorem Created.withPhase {sys : ReservationSystem} {id : ℕ} {call : ReservationCall}
    {phase : Phase} (hcall : sys.calls.find id = some call)
    (hopen : ∀ result, call.phase ≠ .answered result) {value : ReservationResult} (db : Db)
    (h : sys.Created value) : Created { sys.withPhase id phase with db := db } value := by
  obtain ⟨j, other, hother, hphase⟩ := h
  refine ⟨j, other, ?_, hphase⟩
  show (sys.withPhase id phase).calls.find j = some other
  rw [find_withPhase sys phase hcall, if_neg, hother]
  rintro rfl
  rw [hcall] at hother
  cases hother
  exact hopen _ hphase

/-- A call goes on without a commit. -/
theorem Sound.move {before : Inventory} {sys : ReservationSystem} (hs : Sound before sys) {id : ℕ}
    {call : ReservationCall} {phase : Phase} (hcall : sys.calls.find id = some call)
    (hopen : ∀ result, call.phase ≠ .answered result)
    (hreached : Reached call.state sys.db phase)
    (hapart : ∀ id' other, id' ≠ id → sys.calls.find id' = some other →
      Apart { call with phase := phase } other)
    (hanswer : ∀ result, phase = .answered result →
      Answered sys.db.inventory call.input result) :
    Sound before (sys.withPhase id phase) := by
  have hfind := find_withPhase sys phase hcall
  constructor
  case referenced => exact hs.referenced
  case started =>
    intro j other hother
    rw [hfind] at hother
    split_ifs at hother with hj
    · cases hother
      exact hs.started id call hcall
    · exact hs.started j other hother
  case reached =>
    intro j other hother
    rw [hfind] at hother
    split_ifs at hother with hj
    · cases hother
      exact hreached
    · exact hs.reached j other hother
  case apart =>
    intro j other j' other' hother hother' hne
    rw [hfind] at hother hother'
    split_ifs at hother with hj <;> split_ifs at hother' with hj'
    · exact absurd (hj.trans hj'.symm) hne
    · cases hother
      exact hapart j' other' hj' hother'
    · cases hother'
      exact (hapart j other hj hother).symm
    · exact hs.apart j other j' other' hother hother' hne
  case answers =>
    intro j other result hother hphase
    rw [hfind] at hother
    split_ifs at hother with hj
    · cases hother
      exact hanswer result hphase
    · exact hs.answers j other result hother hphase
  case attributed =>
    exact hs.attributed.mono rfl fun value => Created.withPhase hcall hopen sys.db

theorem answered_of_query {db : Db} {input : CreateReservationInput} {draws : Draws}
    {state : FlowState} {required : Bool} {result : CreateReservationResult}
    (hstart : start input draws = some state)
    (h : queryExisting state required db = some result) :
    Answered db.inventory input result := by
  have hinput : state.userId = input.userId ∧ state.idempotencyKey = input.idempotencyKey := by
    obtain ⟨normalized, -, rfl⟩ := Option.map_eq_some_iff.mp hstart
    exact ⟨rfl, rfl⟩
  unfold queryExisting at h
  split at h
  · split_ifs at h
    cases h
    rfl
  · rename_i existing hfound
    obtain ⟨hstored, huser, hkey⟩ := findComplete_stored hfound
    split_ifs at h with hsame
    · cases h
      have hasks := (sameRequest_iff hstart hstored).mp hsame
      exact ⟨existing, rfl, hstored, huser.trans hinput.1,
        hkey.trans (congrArg some hinput.2), hasks⟩
    · cases h
      rfl

theorem answered_of_refusal {inv : Inventory} {input : CreateReservationInput}
    {outcome : CreateReservationOutcome} (hcreated : outcome ≠ .created)
    (hreplayed : outcome ≠ .replayed) : Answered inv input { outcome := outcome } := by
  unfold Answered
  cases outcome <;> first | rfl | contradiction

theorem proceeds_unblocked {sys : ReservationSystem} {id : ℕ} {call : ReservationCall}
    (h : sys.proceeds id call = true) {id' : ℕ} {other : ReservationCall} (hne : id' ≠ id)
    (hother : sys.calls.find id' = some other) : unblocked call other = true := by
  unfold proceeds at h
  rw [List.all_eq_true] at h
  have hrow := h (id', other) ((Table.find_eq_some _ _ _).mp hother)
  simpa [hne] using hrow

/-- A commit: the writes of the transaction and its answer, at once. -/
theorem Sound.commit {before : Inventory} {sys : ReservationSystem} (hs : Sound before sys)
    {id : ℕ} {call : ReservationCall} {locked : Locked} {value : ReservationResult} {db : Db}
    (hcall : sys.calls.find id = some call) (hphase : call.phase = .committing locked value)
    (hwritten : written call.state locked sys.db = some db) :
    Sound before { sys.withPhase id (.answered { outcome := .created, value := some value })
      with db := db } := by
  have hfind := find_withPhase sys (.answered { outcome := .created, value := some value }) hcall
  have hreached := hs.reached id call hcall
  rw [hphase] at hreached
  obtain ⟨hordered, hfresh⟩ := hreached
  have hbooks := written_books hfresh hwritten
  have hopen : ∀ result, call.phase ≠ .answered result := by
    intro result hanswered
    rw [hphase] at hanswered
    cases hanswered
  have hcreated := created_of_books (hs.started id call hcall) hs.referenced hordered hbooks
  have hself : Created { sys.withPhase id (.answered { outcome := .created, value := some value })
      with db := db } value := ⟨id, _, by rw [hfind, if_pos rfl], rfl⟩
  have hvalue := hordered.value
  have hattributed := hs.attributed
  constructor
  case referenced => exact referenced_of_books hs.referenced hordered hbooks
  case started =>
    intro j other hother
    rw [hfind] at hother
    split_ifs at hother with hj
    · cases hother
      exact hs.started id call hcall
    · exact hs.started j other hother
  case reached =>
    intro j other hother
    rw [hfind] at hother
    split_ifs at hother with hj
    · cases hother
      trivial
    · exact reached_of_books hphase hbooks
        (hs.apart id call j other hcall hother (Ne.symm hj)) (hs.reached j other hother)
  case apart =>
    intro j other j' other' hother hother' hne
    rw [hfind] at hother hother'
    split_ifs at hother with hj <;> split_ifs at hother' with hj'
    · exact absurd (hj.trans hj'.symm) hne
    · cases hother
      constructor <;> intro habsurd <;> cases habsurd
    · cases hother'
      constructor <;> intro _ habsurd <;> cases habsurd
    · exact hs.apart j other j' other' hother hother' hne
  case answers =>
    intro j other result hother hanswered
    rw [hfind] at hother
    split_ifs at hother with hj
    · cases hother
      cases hanswered
      exact ⟨value, rfl, hcreated⟩
    · have hbefore := hs.answers j other result hother hanswered
      unfold Answered at hbefore ⊢
      split
      · simp only [*] at hbefore
        obtain ⟨old, hold, hreturned, hholding⟩ := hbefore
        exact ⟨old, hold, returned_of_books hordered hbooks hreturned,
          holding_of_books hordered hbooks ⟨_, hreturned.reservation⟩ hholding⟩
      · simp only [*] at hbefore
        obtain ⟨old, hold, hreturned⟩ := hbefore
        exact ⟨old, hold, returned_of_books hordered hbooks hreturned⟩
      · simp only [*] at hbefore
        exact hbefore
  case attributed =>
    have hkept : ∀ other, sys.Created other → Created { sys.withPhase id
        (.answered { outcome := .created, value := some value }) with db := db } other :=
      fun other => Created.withPhase hcall hopen db
    constructor
    case reservations =>
      intro r row hrow
      rcases hbooks.reservations.cases hrow with ⟨rfl, rfl⟩ | hold
      · exact Or.inr ⟨value, hself, by rw [hvalue]; rfl, by rw [hvalue]; rfl⟩
      · rcases hattributed.reservations r row hold with hbefore | ⟨other, hother, hr⟩
        · exact Or.inl hbefore
        · exact Or.inr ⟨other, hkept other hother, hr⟩
    case orders =>
      intro o order horder
      rcases hbooks.orders.cases horder with ⟨rfl, rfl⟩ | hold
      · exact Or.inr ⟨value, hself, by rw [hvalue]; rfl, by rw [hvalue]; rfl⟩
      · rcases hattributed.orders o order hold with hbefore | ⟨other, hother, ho⟩
        · exact Or.inl hbefore
        · exact Or.inr ⟨other, hkept other hother, ho⟩
    case items =>
      intro r s hl
      rcases (hbooks.find_item hordered.ids r s).mp hl with hold | ⟨rfl, hs'⟩
      · rcases hattributed.items r s hold with hbefore | ⟨other, hother, hr⟩
        · exact Or.inl hbefore
        · exact Or.inr ⟨other, hkept other hother, hr⟩
      · exact Or.inr ⟨value, hself, by rw [hvalue]; rfl, by rw [hvalue]; exact hs'⟩
    case seats =>
      intro s row hrow
      rw [show Table.find _ s = _ from hbooks.find_seat hordered.free s] at hrow
      obtain ⟨old, hold, rfl⟩ := Option.map_eq_some_iff.mp hrow
      by_cases hs' : s ∈ call.state.seatIds
      · rw [if_pos hs']
        exact Or.inr ⟨value, hself, by rw [hvalue]; exact hs', by rw [hvalue]; rfl⟩
      · rw [if_neg hs']
        rcases hattributed.seats s old hold with hbefore | ⟨other, hother, hin⟩
        · exact Or.inl hbefore
        · exact Or.inr ⟨other, hkept other hother, hin⟩

theorem Sound.statement {before : Inventory} {sys sys' : ReservationSystem} {id : ℕ}
    (hs : Sound before sys) (h : sys.statement id = some sys') : Sound before sys' := by
  unfold ReservationSystem.statement at h
  simp only [Option.bind_eq_bind, Option.bind_eq_some_iff] at h
  obtain ⟨call, hcall, h⟩ := h
  split at h
  case isFalse => cases h
  rename_i hproceeds
  simp only [Option.bind_eq_some_iff, Option.pure_def, Option.some.injEq] at h
  obtain ⟨phase, hadvance, db, hcommit, rfl⟩ := h
  have hmoves := advance_moves hadvance
  have hopen : ∀ result, call.phase ≠ .answered result := by
    intro result hanswered
    rw [hanswered] at hadvance
    cases hadvance
  by_cases hcommitting : ∃ locked value, call.phase = .committing locked value
  · obtain ⟨locked, value, hphase⟩ := hcommitting
    rw [hphase] at hadvance
    cases hadvance
    unfold commitOf at hcommit
    rw [hphase] at hcommit
    exact hs.commit hcall hphase hcommit
  -- Every other statement leaves the committed rows alone.
  have hdb : db = sys.db := by
    unfold commitOf at hcommit
    split at hcommit
    · exact absurd ⟨_, _, ‹_›⟩ hcommitting
    · exact (Option.some.inj hcommit).symm
  subst hdb
  refine hs.move hcall hopen (hmoves.reached (hs.reached id call hcall)) ?_ ?_
  · intro id' other hne hother
    exact apart_of_moves hmoves (proceeds_unblocked hproceeds hne hother)
      (hs.apart id call id' other hcall hother (Ne.symm hne))
  · rintro result rfl
    generalize hphase : call.phase = phase at hmoves
    cases hmoves with
    | queried hfound => exact answered_of_query (hs.started id call hcall) hfound
    | committed => exact absurd ⟨_, _, hphase⟩ hcommitting
    | refused hcreated hreplayed => exact answered_of_refusal hcreated hreplayed

theorem Sound.failure {before : Inventory} {sys sys' : ReservationSystem} {id : ℕ}
    (hs : Sound before sys) (h : sys.failure id = some sys') : Sound before sys' := by
  unfold ReservationSystem.failure at h
  simp only [Option.bind_eq_bind, Option.bind_eq_some_iff] at h
  obtain ⟨call, hcall, h⟩ := h
  split at h
  · cases h
  rename_i hopen
  cases h
  refine hs.move hcall (fun result hresult => hopen result hresult) trivial ?_ ?_
  · intro id' other hne hother
    constructor <;> intro habsurd <;> cases habsurd
  · rintro result hresult
    cases hresult
    exact answered_of_refusal (by simp) (by simp)

theorem Sound.submit {before : Inventory} {sys sys' : ReservationSystem} {id : ℕ}
    {input : CreateReservationInput} {draws : Draws} (hs : Sound before sys)
    (h : sys.submit id input draws = some sys') : Sound before sys' := by
  obtain ⟨hdb, rfl | ⟨state, hstart, hinserted⟩⟩ := find_submit h
  · exact hs
  constructor
  case referenced =>
    rw [hdb]
    exact hs.referenced
  case started =>
    intro j other hother
    rcases hinserted.cases hother with ⟨-, rfl⟩ | hold
    · exact hstart
    · exact hs.started j other hold
  case reached =>
    intro j other hother
    rw [hdb]
    rcases hinserted.cases hother with ⟨-, rfl⟩ | hold
    · trivial
    · exact hs.reached j other hold
  case apart =>
    intro j other j' other' hother hother' hne
    rcases hinserted.cases hother with ⟨-, rfl⟩ | hold
    · constructor <;> intro habsurd <;> cases habsurd
    rcases hinserted.cases hother' with ⟨-, rfl⟩ | hold'
    · constructor <;> intro _ habsurd <;> cases habsurd
    · exact hs.apart j other j' other' hold hold' hne
  case answers =>
    intro j other result hother hphase
    rw [hdb]
    rcases hinserted.cases hother with ⟨-, rfl⟩ | hold
    · cases hphase
    · exact hs.answers j other result hold hphase
  case attributed =>
    refine hs.attributed.mono (congrArg Db.inventory hdb) ?_
    rintro value ⟨j, other, hother, hphase⟩
    exact ⟨j, other, hinserted.find_old hother, hphase⟩

theorem Sound.step {before : Inventory} {sys sys' : ReservationSystem} {event : ReservationEvent}
    (hs : Sound before sys) (h : sys.step event = some sys') : Sound before sys' := by
  cases event with
  | submit id input draws => exact hs.submit h
  | statement id => exact hs.statement h
  | failure id => exact hs.failure h

theorem Sound.run {before : Inventory} {events : List ReservationEvent} :
    ∀ {sys sys' : ReservationSystem}, Sound before sys → sys.run events = some sys' →
      Sound before sys' := by
  induction events with
  | nil =>
      intro sys sys' hs h
      cases h
      exact hs
  | cons event events ih =>
      intro sys sys' hs h
      unfold ReservationSystem.run at h
      rw [List.foldlM_cons] at h
      obtain ⟨next, hstep, hrest⟩ := Option.bind_eq_some_iff.mp h
      exact ih (hs.step hstep) hrest

theorem sound_initial {db : Db} (h : Referenced db.inventory) :
    Sound db.inventory ⟨db, Table.empty⟩ where
  referenced := h
  started := by
    intro id call hcall
    cases hcall
  reached := by
    intro id call hcall
    cases hcall
  apart := by
    intro id call id' call' hcall
    cases hcall
  answers := by
    intro id call result hcall
    cases hcall
  attributed :=
    { reservations := fun _ _ h => Or.inl h
      orders := fun _ _ h => Or.inl h
      items := fun _ _ h => Or.inl h
      seats := fun _ _ h => Or.inl h }

/-- What calls leave behind in any order of their statements. -/
structure Arbitrated (before : Inventory) (sys : ReservationSystem) : Prop where
  once : ∀ r r' row row' key, sys.db.inventory.reservations.find r = some row →
    sys.db.inventory.reservations.find r' = some row' → row.userId = row'.userId →
      row.idempotencyKey = some key → row'.idempotencyKey = some key → r = r'
  answered : ∀ id call result, sys.calls.find id = some call → call.phase = .answered result →
    Answered sys.db.inventory call.input result
  replayed : ∀ id call required existing, sys.calls.find id = some call →
    call.phase = .querying required →
    ReservationRepository.findCompleteByIdempotency sys.db call.input.userId
      call.input.idempotencyKey = some existing →
    Asks call.input existing.reservation.sessionId existing.seatIds →
      sys.statement id = some (sys.withPhase id
        (.answered { outcome := .replayed, value := some existing }))
  conflict : ∀ id call required existing, sys.calls.find id = some call →
    call.phase = .querying required →
    ReservationRepository.findCompleteByIdempotency sys.db call.input.userId
      call.input.idempotencyKey = some existing →
    ¬ Asks call.input existing.reservation.sessionId existing.seatIds →
      sys.statement id = some (sys.withPhase id (.answered { outcome := .idempotencyConflict }))
  attributed : Attributed before sys
  enabled : ∀ id call, sys.calls.find id = some call →
    (∀ result, call.phase ≠ .answered result) → sys.proceeds id call = true →
      (sys.statement id).isSome = true

/-- A call that reads its key answers at once. -/
theorem statement_of_query {sys : ReservationSystem} {id : ℕ} {call : ReservationCall}
    {required : Bool} {result : CreateReservationResult} (hcall : sys.calls.find id = some call)
    (hphase : call.phase = .querying required)
    (hresult : queryExisting call.state required sys.db = some result) :
    sys.statement id = some (sys.withPhase id (.answered result)) := by
  have hproceeds : sys.proceeds id call = true := by
    unfold proceeds unblocked
    rw [hphase, List.all_eq_true]
    intro other _
    simp
  unfold ReservationSystem.statement
  rw [hcall]
  simp only [Option.bind_eq_bind, Option.bind_some, hproceeds, if_true]
  rw [hphase]
  simp only [advance, hresult, Option.bind_some, commitOf, hphase]
  rfl

theorem Sound.arbitrated {before : Inventory} {sys : ReservationSystem} (hs : Sound before sys) :
    Arbitrated before sys := by
  have hread : ∀ id call required existing, sys.calls.find id = some call →
      ReservationRepository.findCompleteByIdempotency sys.db call.input.userId
        call.input.idempotencyKey = some existing →
      (sameRequest existing call.state.sessionId call.state.seatIds = true ↔
        Asks call.input existing.reservation.sessionId existing.seatIds) ∧
      queryExisting call.state required sys.db =
        if sameRequest existing call.state.sessionId call.state.seatIds then
          some { outcome := .replayed, value := some existing }
        else some { outcome := .idempotencyConflict } := by
    intro id call required existing hcall hfound
    have hstart := hs.started id call hcall
    obtain ⟨hstored, -, -⟩ := findComplete_stored hfound
    refine ⟨sameRequest_iff hstart hstored, ?_⟩
    obtain ⟨normalized, -, hstate⟩ := Option.map_eq_some_iff.mp hstart
    have huser : call.state.userId = call.input.userId := by rw [← hstate]
    have hkey : call.state.idempotencyKey = call.input.idempotencyKey := by rw [← hstate]
    unfold queryExisting
    rw [huser, hkey, hfound]
  constructor
  case once => exact hs.referenced.keys
  case answered => exact hs.answers
  case replayed =>
    intro id call required existing hcall hphase hfound hasks
    obtain ⟨hsame, hquery⟩ := hread id call required existing hcall hfound
    rw [if_pos (hsame.mpr hasks)] at hquery
    exact statement_of_query hcall hphase hquery
  case conflict =>
    intro id call required existing hcall hphase hfound hasks
    obtain ⟨hsame, hquery⟩ := hread id call required existing hcall hfound
    rw [if_neg fun h => hasks (hsame.mp h)] at hquery
    exact statement_of_query hcall hphase hquery
  case attributed => exact hs.attributed
  case enabled =>
    intro id call hcall hopen hproceeds
    obtain ⟨hnodup, -, -⟩ := start_normalizes (hs.started id call hcall)
    obtain ⟨phase, hadvance⟩ := Option.isSome_iff_exists.mp
      (advance_isSome (hs.reached id call hcall) hs.referenced hnodup hopen)
    have hcommit : ∃ db, commitOf call sys.db = some db := by
      unfold commitOf
      split
      · rename_i locked value hphase
        have hreached := hs.reached id call hcall
        rw [hphase] at hreached
        obtain ⟨inv, hordered⟩ := hreached.1.toSeated.orderable hs.referenced hnodup
          hreached.1.freshOrder
        unfold written
        rw [hordered]
        exact ⟨_, rfl⟩
      · exact ⟨sys.db, rfl⟩
    obtain ⟨db, hdb⟩ := hcommit
    unfold ReservationSystem.statement
    rw [hcall]
    simp [hproceeds, hadvance, hdb]

end ReservationSystem

open ReservationSystem (Arbitrated)

/-- From any database that meets its constraints, any number of calls of any users, with their
statements, commits and failures in any order. -/
theorem reservations_arbitrated (events : List ReservationEvent) (db : Db)
    (sys : ReservationSystem) (href : Referenced db.inventory)
    (h : ReservationSystem.run events ⟨db, Table.empty⟩ = some sys) :
    Arbitrated db.inventory sys :=
  ((ReservationSystem.sound_initial href).run h).arbitrated

theorem singleSeat_referenced : Referenced singleSeat.inventory where
  items := by
    intro r s hl
    cases hl
  orders := by
    intro o order horder
    cases horder
  holders := by
    intro s row hrow r hr
    rw [(singleSeat_fresh.inventory.seats s row hrow).2] at hr
    cases hr
  keys := by
    intro r r' row row' key hrow
    cases hrow

/-- Two calls of one key: the second waits at the key, loses, and replays the first. -/
def rivalCalls : List ReservationEvent :=
  let input := checkoutInput "buyer" "key" "session" ["seat"]
  [.submit 1 input ⟨"1", "1", ⟨10, 10, 10⟩⟩, .submit 2 input ⟨"2", "2", ⟨11, 11, 11⟩⟩] ++
    List.replicate 3 (.statement 2) ++ List.replicate 11 (.statement 1) ++
    List.replicate 2 (.statement 2)

theorem reservations_arbitrated_rivalCalls :
    ∃ sys, ReservationSystem.run rivalCalls ⟨singleSeat, Table.empty⟩ = some sys ∧
      Arbitrated singleSeat.inventory sys ∧
      (sys.calls.rows.map fun entry => match entry.2.phase with
        | .answered result => some result.outcome
        | _ => none) = [some .created, some .replayed] := by
  have hrun : (ReservationSystem.run rivalCalls ⟨singleSeat, Table.empty⟩).map (fun sys =>
      sys.calls.rows.map fun entry => match entry.2.phase with
        | .answered result => some result.outcome
        | _ => none) = some [some .created, some .replayed] := by
    decide +kernel
  obtain ⟨sys, hsys, houtcomes⟩ := Option.map_eq_some_iff.mp hrun
  exact ⟨sys, hsys, reservations_arbitrated rivalCalls singleSeat sys singleSeat_referenced hsys,
    houtcomes⟩

end Ticketing
