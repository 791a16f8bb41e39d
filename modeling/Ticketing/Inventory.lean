import Ticketing.Transactions

/-!
# The inventory invariant

Seats, reservations and orders agree in every reachable state: a held seat has
one active owner, a sold seat one confirmed owner although it no longer names
it, and the statuses of an order and its reservation move together.
-/

namespace Ticketing

open Relational Transition
open OrderRepository (listed)
open OrderLifecycle (reservationTarget)

namespace Inventory

/-- The reservation has the status and lists the seat. -/
def Claims (inv : Inventory) (status : ReservationStatus) (reservationId seatId : String) : Prop :=
  listed inv reservationId seatId = true ∧
    ∃ row, inv.reservations.find reservationId = some row ∧ row.status = status

/-- The order of a reservation, with its status. -/
def OrderedAs (inv : Inventory) (status : OrderStatus) (reservationId : String) : Prop :=
  ∃ orderId order, inv.orders.find orderId = some order ∧ order.reservationId = reservationId ∧
    order.status = status

/-- The invariant in the form one effect preserves. -/
structure Sound (inv : Inventory) : Prop where
  held : ∀ s row, inv.seats.find s = some row → row.status = .held →
    ∃ r, row.currentReservationId = some r ∧ inv.Claims .active r s
  free : ∀ s row, inv.seats.find s = some row → row.status ≠ .held →
    row.currentReservationId = none
  active : ∀ r s, inv.Claims .active r s → ∃ row, inv.seats.find s = some row ∧
    row.status = .held ∧ row.currentReservationId = some r
  confirmed : ∀ r s, inv.Claims .confirmed r s → ∃ row, inv.seats.find s = some row ∧
    row.status = .sold
  sold : ∀ s row, inv.seats.find s = some row → row.status = .sold →
    ∃ r, inv.Claims .confirmed r s
  soldOnce : ∀ r r' s, inv.Claims .confirmed r s → inv.Claims .confirmed r' s → r = r'
  listedOf : ∀ r s, listed inv r s = true → ∃ row, inv.reservations.find r = some row
  listsSome : ∀ r row, inv.reservations.find r = some row → ∃ s, listed inv r s = true
  reservedOf : ∀ o order, inv.orders.find o = some order →
    ∃ row, inv.reservations.find order.reservationId = some row ∧
      row.status = reservationTarget order.status
  orderOf : ∀ r row, inv.reservations.find r = some row →
    ∃ o order, inv.orders.find o = some order ∧ order.reservationId = r
  orderedOnce : ∀ o o' order order', inv.orders.find o = some order →
    inv.orders.find o' = some order' → order.reservationId = order'.reservationId → o = o'

/-- All seats are available and nothing has been reserved. -/
structure Fresh (inv : Inventory) : Prop where
  seats : ∀ s row, inv.seats.find s = some row →
    row.status = .available ∧ row.currentReservationId = none
  reservations : inv.reservations.rows = []
  items : inv.items.rows = []
  orders : inv.orders.rows = []

theorem not_listed_of_items_nil {inv : Inventory} (h : inv.items.rows = []) (r s : String) :
    listed inv r s = false := by
  unfold listed
  rw [Table.find_of_rows_nil h]
  rfl

theorem Fresh.sound {inv : Inventory} (h : inv.Fresh) : inv.Sound := by
  have hreservations := Table.find_of_rows_nil h.reservations
  have horders := Table.find_of_rows_nil h.orders
  have hlisted := not_listed_of_items_nil h.items
  constructor
  case held =>
    intro s row hrow hheld
    rw [(h.seats s row hrow).1] at hheld
    cases hheld
  case free => exact fun s row hrow _ => (h.seats s row hrow).2
  case active =>
    rintro r s ⟨hl, -⟩
    simp [hlisted] at hl
  case confirmed =>
    rintro r s ⟨hl, -⟩
    simp [hlisted] at hl
  case sold =>
    intro s row hrow hsold
    rw [(h.seats s row hrow).1] at hsold
    cases hsold
  case soldOnce =>
    rintro r r' s ⟨hl, -⟩
    simp [hlisted] at hl
  case listedOf =>
    intro r s hl
    simp [hlisted] at hl
  case listsSome => simp [hreservations]
  case reservedOf => simp [horders]
  case orderOf => simp [hreservations]
  case orderedOnce => simp [horders]

end Inventory

namespace Settlement

@[simp] theorem seatAfter_ne_held (kind : Settlement) : kind.seatAfter ≠ .held := by
  cases kind <;> simp [seatAfter]

@[simp] theorem reservationAfter_ne_active (kind : Settlement) :
    kind.reservationAfter ≠ .active := by
  cases kind <;> simp [reservationAfter]

theorem seatAfter_sold {kind : Settlement} : kind.seatAfter = .sold ↔ kind = .paid := by
  cases kind <;> simp [seatAfter]

theorem reservationAfter_confirmed {kind : Settlement} :
    kind.reservationAfter = .confirmed ↔ kind = .paid := by
  cases kind <;> simp [reservationAfter]

theorem reservationTarget_after (kind : Settlement) :
    kind.reservationAfter = reservationTarget kind.orderAfter := by
  cases kind <;> rfl

end Settlement

section Reserve

variable {inv inv' : Inventory} {reservationId orderId : String} {reservation : ReservationRow}
  {order : OrderRow} {seatIds : List String}

theorem Reserves.fresh_not_listed
    (h : Reserves reservationId reservation orderId order seatIds inv inv') (hs : inv.Sound)
    (s : String) : ¬ listed inv reservationId s = true := by
  intro hl
  obtain ⟨row, hrow⟩ := hs.listedOf _ _ hl
  rw [h.reservations.fresh] at hrow
  cases hrow

/-- Claims after a reservation: the new one on its seats, and all old ones. -/
theorem Reserves.claims_cases
    (h : Reserves reservationId reservation orderId order seatIds inv inv') (hs : inv.Sound)
    {status : ReservationStatus} {r s : String} (hc : inv'.Claims status r s) :
    (r = reservationId ∧ s ∈ seatIds ∧ status = .active) ∨ inv.Claims status r s := by
  obtain ⟨hl, row, hrow, hstatus⟩ := hc
  rcases h.reservations.cases hrow with ⟨rfl, rfl⟩ | hold
  · rcases (h.items r s).mp hl with hl | ⟨-, hmem⟩
    · exact absurd hl (h.fresh_not_listed hs s)
    · exact Or.inl ⟨rfl, hmem, hstatus.symm.trans h.active⟩
  · rcases (h.items r s).mp hl with hl | ⟨rfl, -⟩
    · exact Or.inr ⟨hl, row, hold, hstatus⟩
    · rw [h.reservations.fresh] at hold
      cases hold

theorem Reserves.claims_old
    (h : Reserves reservationId reservation orderId order seatIds inv inv')
    {status : ReservationStatus} {r s : String} (hc : inv.Claims status r s) :
    inv'.Claims status r s := by
  obtain ⟨hl, row, hrow, hstatus⟩ := hc
  exact ⟨(h.items r s).mpr (Or.inl hl), row, h.reservations.find_old hrow, hstatus⟩

/-- A seat that was not available is not one of the new reservation's. -/
theorem Reserves.find_other
    (h : Reserves reservationId reservation orderId order seatIds inv inv') {s : String}
    {row : SessionSeatRow} (hrow : inv.seats.find s = some row) (hne : row.status ≠ .available) :
    inv'.seats.find s = some row := by
  have hmem : s ∉ seatIds := by
    intro hs
    obtain ⟨found, hfound, havailable⟩ := h.available s hs
    rw [hrow] at hfound
    cases hfound
    exact hne havailable
  rw [h.seats, hrow, Option.map_some, if_neg hmem]

theorem Reserves.seat_cases
    (h : Reserves reservationId reservation orderId order seatIds inv inv') {s : String}
    {row' : SessionSeatRow} (hrow' : inv'.seats.find s = some row') :
    (s ∈ seatIds ∧ row'.status = .held ∧ row'.currentReservationId = some reservationId) ∨
      inv.seats.find s = some row' := by
  rw [h.seats] at hrow'
  obtain ⟨row, hrow, heq⟩ := Option.map_eq_some_iff.mp hrow'
  split_ifs at heq with hmem
  · subst heq
    exact Or.inl ⟨hmem, rfl, rfl⟩
  · subst heq
    exact Or.inr hrow

theorem Reserves.preserves
    (h : Reserves reservationId reservation orderId order seatIds inv inv') (hs : inv.Sound) :
    inv'.Sound := by
  have hself : inv'.reservations.find reservationId = some reservation := h.reservations.find_self
  constructor
  case held =>
    intro s row' hrow' hheld
    rcases h.seat_cases hrow' with ⟨hmem, -, hholder⟩ | hold
    · refine ⟨reservationId, hholder, (h.items _ _).mpr (Or.inr ⟨rfl, hmem⟩), ?_⟩
      exact ⟨reservation, hself, h.active⟩
    · obtain ⟨r, hholder, hc⟩ := hs.held s row' hold hheld
      exact ⟨r, hholder, h.claims_old hc⟩
  case free =>
    intro s row' hrow' hne
    rcases h.seat_cases hrow' with ⟨-, hheld, -⟩ | hold
    · exact absurd hheld hne
    · exact hs.free s row' hold hne
  case active =>
    intro r s hc
    rcases h.claims_cases hs hc with ⟨rfl, hmem, -⟩ | hold
    · obtain ⟨row, hrow, -⟩ := h.available s hmem
      refine ⟨row.assign .held (some r), ?_, rfl, rfl⟩
      rw [h.seats, hrow, Option.map_some, if_pos hmem]
    · obtain ⟨row, hrow, hheld, hholder⟩ := hs.active r s hold
      exact ⟨row, h.find_other hrow (by simp [hheld]), hheld, hholder⟩
  case confirmed =>
    intro r s hc
    rcases h.claims_cases hs hc with ⟨-, -, hne⟩ | hold
    · cases hne
    · obtain ⟨row, hrow, hsold⟩ := hs.confirmed r s hold
      exact ⟨row, h.find_other hrow (by simp [hsold]), hsold⟩
  case sold =>
    intro s row' hrow' hsold
    rcases h.seat_cases hrow' with ⟨-, hheld, -⟩ | hold
    · rw [hsold] at hheld
      cases hheld
    · obtain ⟨r, hc⟩ := hs.sold s row' hold hsold
      exact ⟨r, h.claims_old hc⟩
  case soldOnce =>
    intro r r' s hc hc'
    rcases h.claims_cases hs hc with ⟨-, -, hne⟩ | hold
    · cases hne
    · rcases h.claims_cases hs hc' with ⟨-, -, hne⟩ | hold'
      · cases hne
      · exact hs.soldOnce r r' s hold hold'
  case listedOf =>
    intro r s hl
    rcases (h.items r s).mp hl with hl | ⟨rfl, -⟩
    · obtain ⟨row, hrow⟩ := hs.listedOf r s hl
      exact ⟨row, h.reservations.find_old hrow⟩
    · exact ⟨reservation, hself⟩
  case listsSome =>
    intro r row hrow
    rcases h.reservations.cases hrow with ⟨rfl, -⟩ | hold
    · obtain ⟨s, hmem⟩ := List.exists_mem_of_ne_nil seatIds h.nonempty
      exact ⟨s, (h.items r s).mpr (Or.inr ⟨rfl, hmem⟩)⟩
    · obtain ⟨s, hl⟩ := hs.listsSome r row hold
      exact ⟨s, (h.items r s).mpr (Or.inl hl)⟩
  case reservedOf =>
    intro o found hfound
    rcases h.orders.cases hfound with ⟨-, rfl⟩ | hold
    · refine ⟨reservation, h.belongs ▸ hself, ?_⟩
      rw [h.active, h.pending]
      rfl
    · obtain ⟨row, hrow, hpaired⟩ := hs.reservedOf o found hold
      exact ⟨row, h.reservations.find_old hrow, hpaired⟩
  case orderOf =>
    intro r row hrow
    rcases h.reservations.cases hrow with ⟨rfl, -⟩ | hold
    · exact ⟨orderId, order, h.orders.find_self, h.belongs⟩
    · obtain ⟨o, found, hfound, hid⟩ := hs.orderOf r row hold
      exact ⟨o, found, h.orders.find_old hfound, hid⟩
  case orderedOnce =>
    intro o o' x x' hx hx' hid
    rcases h.orders.cases hx with ⟨rfl, rfl⟩ | hold
    · rcases h.orders.cases hx' with ⟨rfl, rfl⟩ | hold'
      · rfl
      · exact absurd (hid.symm.trans h.belongs) (h.unreferenced o' x' hold')
    · rcases h.orders.cases hx' with ⟨rfl, rfl⟩ | hold'
      · exact absurd (hid.trans h.belongs) (h.unreferenced o x hold)
      · exact hs.orderedOnce o o' x x' hold hold' hid

end Reserve

section Settle

variable {kind : Settlement} {inv inv' : Inventory} {orderId : String} {order order' : OrderRow}

theorem Settles.listed_eq (h : Settles kind orderId order order' inv inv') (r s : String) :
    listed inv' r s = listed inv r s := by
  unfold listed
  rw [h.items]

/-- Claims after a settlement: those of the settled reservation under its new status,
and those of all others as they were. -/
theorem Settles.claims_cases (h : Settles kind orderId order order' inv inv')
    {status : ReservationStatus} {r s : String} (hc : inv'.Claims status r s) :
    (r = order.reservationId ∧ status = kind.reservationAfter ∧
      inv.Claims kind.reservationBefore r s) ∨
    (r ≠ order.reservationId ∧ inv.Claims status r s) := by
  obtain ⟨hl, row, hrow, hstatus⟩ := hc
  obtain ⟨reservation, hbefore, hreplaced⟩ := h.reservations
  rw [h.listed_eq] at hl
  rcases hreplaced.cases hrow with ⟨rfl, rfl⟩ | ⟨hne, hold⟩
  · exact Or.inl ⟨rfl, hstatus.symm, hl, reservation, hreplaced.found, hbefore⟩
  · exact Or.inr ⟨hne, hl, row, hold, hstatus⟩

theorem Settles.claims_other (h : Settles kind orderId order order' inv inv')
    {status : ReservationStatus} {r s : String} (hne : r ≠ order.reservationId)
    (hc : inv.Claims status r s) : inv'.Claims status r s := by
  obtain ⟨hl, row, hrow, hstatus⟩ := hc
  obtain ⟨reservation, -, hreplaced⟩ := h.reservations
  refine ⟨by rw [h.listed_eq]; exact hl, row, ?_, hstatus⟩
  rw [hreplaced.find_of_ne hne]
  exact hrow

theorem Settles.claims_self (h : Settles kind orderId order order' inv inv') {s : String}
    (hl : listed inv order.reservationId s = true) :
    inv'.Claims kind.reservationAfter order.reservationId s := by
  obtain ⟨reservation, -, hreplaced⟩ := h.reservations
  exact ⟨by rw [h.listed_eq]; exact hl, _, hreplaced.find_self, rfl⟩

theorem Settles.exists_reservation (h : Settles kind orderId order order' inv inv') {r : String}
    {row : ReservationRow} (hrow : inv'.reservations.find r = some row) :
    ∃ old, inv.reservations.find r = some old := by
  obtain ⟨reservation, -, hreplaced⟩ := h.reservations
  rcases hreplaced.cases hrow with ⟨rfl, -⟩ | ⟨-, hold⟩
  · exact ⟨reservation, hreplaced.found⟩
  · exact ⟨row, hold⟩

theorem Settles.seat_cases (h : Settles kind orderId order order' inv inv') {s : String}
    {row' : SessionSeatRow} (hrow' : inv'.seats.find s = some row') :
    (listed inv order.reservationId s = true ∧ row'.status = kind.seatAfter ∧
      row'.currentReservationId = none) ∨
    (listed inv order.reservationId s = false ∧ inv.seats.find s = some row') := by
  rw [h.seats] at hrow'
  obtain ⟨row, hrow, heq⟩ := Option.map_eq_some_iff.mp hrow'
  split_ifs at heq with hl
  · subst heq
    exact Or.inl ⟨hl, rfl, rfl⟩
  · subst heq
    exact Or.inr ⟨by simpa using hl, hrow⟩

theorem Settles.find_unlisted (h : Settles kind orderId order order' inv inv') {s : String}
    (hl : listed inv order.reservationId s = false) : inv'.seats.find s = inv.seats.find s := by
  rw [h.seats]
  simp [hl]

/-- Another reservation's claim on a seat keeps the settled reservation off it. -/
theorem Settles.unlisted_of_claim (h : Settles kind orderId order order' inv inv')
    (hs : inv.Sound) {r s : String} (hne : r ≠ order.reservationId)
    (hc : inv.Claims .active r s ∨ inv.Claims .confirmed r s) :
    listed inv order.reservationId s = false := by
  by_contra hl
  rw [Bool.not_eq_false] at hl
  obtain ⟨reservation, hbefore, hreplaced⟩ := h.reservations
  have hself : inv.Claims kind.reservationBefore order.reservationId s :=
    ⟨hl, reservation, hreplaced.found, hbefore⟩
  rcases hc with hc | hc
  · obtain ⟨row, hrow, hheld, hholder⟩ := hs.active r s hc
    obtain ⟨hbefore, hbeforeHolder⟩ := h.held s row hl hrow
    rw [hheld] at hbefore
    rw [hholder] at hbeforeHolder
    cases kind with
    | paid => exact hne (Option.some.inj hbeforeHolder)
    | cancelled => exact hne (Option.some.inj hbeforeHolder)
    | expired => exact hne (Option.some.inj hbeforeHolder)
    | refunded => cases hbefore
  · obtain ⟨row, hrow, hsold⟩ := hs.confirmed r s hc
    obtain ⟨hbefore, -⟩ := h.held s row hl hrow
    rw [hsold] at hbefore
    cases kind with
    | paid => cases hbefore
    | cancelled => cases hbefore
    | expired => cases hbefore
    | refunded => exact hne (hs.soldOnce r _ s hc hself)

theorem Settles.preserves (h : Settles kind orderId order order' inv inv') (hs : inv.Sound) :
    inv'.Sound := by
  constructor
  case held =>
    intro s row' hrow' hheld
    rcases h.seat_cases hrow' with ⟨-, hafter, -⟩ | ⟨hl, hold⟩
    · exact absurd (hafter.symm.trans hheld) kind.seatAfter_ne_held
    · obtain ⟨r, hholder, hc⟩ := hs.held s row' hold hheld
      refine ⟨r, hholder, h.claims_other ?_ hc⟩
      rintro rfl
      rw [hc.1] at hl
      cases hl
  case free =>
    intro s row' hrow' hne
    rcases h.seat_cases hrow' with ⟨-, -, hnone⟩ | ⟨-, hold⟩
    · exact hnone
    · exact hs.free s row' hold hne
  case active =>
    intro r s hc
    rcases h.claims_cases hc with ⟨-, hafter, -⟩ | ⟨hne, hold⟩
    · exact absurd hafter.symm kind.reservationAfter_ne_active
    · obtain ⟨row, hrow, hheld, hholder⟩ := hs.active r s hold
      have hl := h.unlisted_of_claim hs hne (Or.inl hold)
      exact ⟨row, by rw [h.find_unlisted hl]; exact hrow, hheld, hholder⟩
  case confirmed =>
    intro r s hc
    rcases h.claims_cases hc with ⟨rfl, hafter, hold⟩ | ⟨hne, hold⟩
    · obtain rfl := Settlement.reservationAfter_confirmed.mp hafter.symm
      obtain ⟨row, hrow, -⟩ := hs.active _ s hold
      refine ⟨row.assign .sold none, ?_, rfl⟩
      rw [h.seats, hrow, Option.map_some, if_pos hold.1]
      rfl
    · obtain ⟨row, hrow, hsold⟩ := hs.confirmed r s hold
      have hl := h.unlisted_of_claim hs hne (Or.inr hold)
      exact ⟨row, by rw [h.find_unlisted hl]; exact hrow, hsold⟩
  case sold =>
    intro s row' hrow' hsold
    rcases h.seat_cases hrow' with ⟨hl, hafter, -⟩ | ⟨hl, hold⟩
    · obtain rfl := Settlement.seatAfter_sold.mp (hafter.symm.trans hsold)
      exact ⟨_, h.claims_self hl⟩
    · obtain ⟨r, hc⟩ := hs.sold s row' hold hsold
      refine ⟨r, h.claims_other ?_ hc⟩
      rintro rfl
      rw [hc.1] at hl
      cases hl
  case soldOnce =>
    intro r r' s hc hc'
    rcases h.claims_cases hc with ⟨rfl, hafter, hold⟩ | ⟨hne, hold⟩
    · rcases h.claims_cases hc' with ⟨rfl, -, -⟩ | ⟨hne', hold'⟩
      · rfl
      · have hl := h.unlisted_of_claim hs hne' (Or.inr hold')
        rw [hold.1] at hl
        cases hl
    · rcases h.claims_cases hc' with ⟨rfl, hafter', hold'⟩ | ⟨hne', hold'⟩
      · have hl := h.unlisted_of_claim hs hne (Or.inr hold)
        rw [hold'.1] at hl
        cases hl
      · exact hs.soldOnce r r' s hold hold'
  case listedOf =>
    intro r s hl
    rw [h.listed_eq] at hl
    obtain ⟨row, hrow⟩ := hs.listedOf r s hl
    obtain ⟨reservation, -, hreplaced⟩ := h.reservations
    by_cases hne : r = order.reservationId
    · exact ⟨_, hne ▸ hreplaced.find_self⟩
    · exact ⟨row, by rw [hreplaced.find_of_ne hne]; exact hrow⟩
  case listsSome =>
    intro r row hrow
    obtain ⟨old, hold⟩ := h.exists_reservation hrow
    obtain ⟨s, hl⟩ := hs.listsSome r old hold
    exact ⟨s, by rw [h.listed_eq]; exact hl⟩
  case reservedOf =>
    intro o found hfound
    obtain ⟨reservation, -, hreplaced⟩ := h.reservations
    rcases h.orders.cases hfound with ⟨rfl, rfl⟩ | ⟨hne, hold⟩
    · refine ⟨_, by rw [h.continues.reservationId]; exact hreplaced.find_self, ?_⟩
      rw [h.after]
      exact kind.reservationTarget_after
    · obtain ⟨row, hrow, hpaired⟩ := hs.reservedOf o found hold
      refine ⟨row, ?_, hpaired⟩
      rw [hreplaced.find_of_ne]
      · exact hrow
      · exact fun hid => hne (hs.orderedOnce o orderId found order hold h.orders.found hid)
  case orderOf =>
    intro r row hrow
    obtain ⟨old, hold⟩ := h.exists_reservation hrow
    obtain ⟨o, found, hfound, hid⟩ := hs.orderOf r old hold
    by_cases ho : o = orderId
    · subst ho
      have hsame := Option.some.inj (hfound.symm.trans h.orders.found)
      subst hsame
      exact ⟨o, order', h.orders.find_self, h.continues.reservationId.trans hid⟩
    · exact ⟨o, found, by rw [h.orders.find_of_ne ho]; exact hfound, hid⟩
  case orderedOnce =>
    intro o o' x x' hx hx' hid
    have hkept : ∀ o x, inv'.orders.find o = some x → ∃ y, inv.orders.find o = some y ∧
        y.reservationId = x.reservationId := by
      intro o x hx
      rcases h.orders.cases hx with ⟨rfl, rfl⟩ | ⟨-, hold⟩
      · exact ⟨order, h.orders.found, h.continues.reservationId.symm⟩
      · exact ⟨x, hold, rfl⟩
    obtain ⟨y, hy, hyid⟩ := hkept o x hx
    obtain ⟨y', hy', hyid'⟩ := hkept o' x' hx'
    exact hs.orderedOnce o o' y y' hy hy' (by rw [hyid, hyid', hid])

end Settle

/-- One effect preserves the inventory. -/
theorem sound_effect {a : Action} {db db' : Db} (hs : db.inventory.Sound)
    (heffect : Effect a db db') : db'.inventory.Sound := by
  cases heffect with
  | reserve inventory _ => exact inventory.preserves hs
  | accept inventory => exact inventory.preserves hs
  | close _ inventory => exact inventory.preserves hs
  | revoke inventory => exact inventory.preserves hs
  | start inventory => rw [inventory]; exact hs
  | timeOut inventory => rw [inventory]; exact hs
  | decline inventory => rw [inventory]; exact hs
  | capture inventory => rw [inventory]; exact hs
  | requestRefund inventory => rw [inventory]; exact hs
  | settleRefund inventory => rw [inventory]; exact hs
  | sync inventory => rw [inventory]; exact hs

/-- No order, reservation or payment exists yet and every seat is available. -/
structure Db.Fresh (db : Db) : Prop where
  inventory : db.inventory.Fresh
  attempts : db.ledger.attempts.rows = []
  refunds : db.ledger.refunds.rows = []

theorem Db.Fresh.oneProcessing {db : Db} (h : db.Fresh) :
    PaymentRepository.OneProcessing db.ledger.attempts := by
  intro k k' row row' hrow
  rw [Table.find_of_rows_nil h.attempts] at hrow
  cases hrow

theorem sound_reachable (txs : List Transaction) {db : Db} (h : db.Fresh) :
    (applyAll txs db).inventory.Sound :=
  (applyAll_invariant (I := fun db => db.inventory.Sound) (fun _ _ _ => sound_effect) txs
    h.oneProcessing h.inventory.sound).2

/-- Neither oversold nor leaked: each status of a seat says which reservations list it. -/
structure Inventory.Consistent (inv : Inventory) : Prop where
  held : ∀ s row, inv.seats.find s = some row →
    (row.status = .held ↔ ∃! r, inv.Claims .active r s)
  heldBy : ∀ s row r, inv.seats.find s = some row → inv.Claims .active r s →
    inv.OrderedAs .pendingPayment r ∧ row.currentReservationId = some r
  sold : ∀ s row, inv.seats.find s = some row →
    (row.status = .sold ↔ ∃! r, inv.Claims .confirmed r s)
  soldBy : ∀ s row r, inv.seats.find s = some row → inv.Claims .confirmed r s →
    inv.OrderedAs .paid r ∧ row.currentReservationId = none
  available : ∀ s row, inv.seats.find s = some row →
    (row.status = .available ↔ ¬ ∃ r, inv.Claims .active r s ∨ inv.Claims .confirmed r s)
  unheld : ∀ s row, inv.seats.find s = some row → row.status = .available →
    row.currentReservationId = none
  paired : ∀ o order, inv.orders.find o = some order → ∃ row,
    inv.reservations.find order.reservationId = some row ∧
      (order.status = .pendingPayment ↔ row.status = .active) ∧
      (order.status = .paid ↔ row.status = .confirmed)
  everyReservationOrdered : ∀ r row, inv.reservations.find r = some row →
    ∃! o, ∃ order, inv.orders.find o = some order ∧ order.reservationId = r

theorem Inventory.Sound.orderedAs {inv : Inventory} (hs : inv.Sound) {status : OrderStatus}
    {r : String} {row : ReservationRow} (hrow : inv.reservations.find r = some row)
    (hstatus : row.status = reservationTarget status) : inv.OrderedAs status r := by
  obtain ⟨o, order, horder, hid⟩ := hs.orderOf r row hrow
  obtain ⟨found, hfound, hpaired⟩ := hs.reservedOf o order horder
  rw [hid, hrow] at hfound
  cases hfound
  refine ⟨o, order, horder, hid, ?_⟩
  rw [hstatus] at hpaired
  cases hs : status <;> cases ho : order.status <;> simp_all [reservationTarget]

theorem Inventory.Sound.activeOnce {inv : Inventory} (hs : inv.Sound) {r r' s : String}
    (hc : inv.Claims .active r s) (hc' : inv.Claims .active r' s) : r = r' := by
  obtain ⟨row, hrow, -, hholder⟩ := hs.active r s hc
  obtain ⟨row', hrow', -, hholder'⟩ := hs.active r' s hc'
  rw [hrow] at hrow'
  cases hrow'
  exact Option.some.inj (hholder.symm.trans hholder')

theorem Inventory.Sound.consistent {inv : Inventory} (hs : inv.Sound) : inv.Consistent := by
  have hheld : ∀ s row r, inv.seats.find s = some row → inv.Claims .active r s →
      row.status = .held ∧ row.currentReservationId = some r := by
    intro s row r hrow hc
    obtain ⟨found, hfound, hheld, hholder⟩ := hs.active r s hc
    rw [hrow] at hfound
    cases hfound
    exact ⟨hheld, hholder⟩
  have hsold : ∀ s row r, inv.seats.find s = some row → inv.Claims .confirmed r s →
      row.status = .sold := by
    intro s row r hrow hc
    obtain ⟨found, hfound, hsold⟩ := hs.confirmed r s hc
    rw [hrow] at hfound
    cases hfound
    exact hsold
  constructor
  case held =>
    intro s row hrow
    constructor
    · intro h
      obtain ⟨r, -, hc⟩ := hs.held s row hrow h
      exact ⟨r, hc, fun r' hc' => hs.activeOnce hc' hc⟩
    · rintro ⟨r, hc, -⟩
      exact (hheld s row r hrow hc).1
  case heldBy =>
    intro s row r hrow hc
    obtain ⟨-, reservation, hreservation, hactive⟩ := id hc
    exact ⟨hs.orderedAs hreservation hactive, (hheld s row r hrow hc).2⟩
  case sold =>
    intro s row hrow
    constructor
    · intro h
      obtain ⟨r, hc⟩ := hs.sold s row hrow h
      exact ⟨r, hc, fun r' hc' => hs.soldOnce r' r s hc' hc⟩
    · rintro ⟨r, hc, -⟩
      exact hsold s row r hrow hc
  case soldBy =>
    intro s row r hrow hc
    obtain ⟨-, reservation, hreservation, hconfirmed⟩ := id hc
    exact ⟨hs.orderedAs hreservation hconfirmed,
      hs.free s row hrow (by simp [hsold s row r hrow hc])⟩
  case available =>
    intro s row hrow
    constructor
    · rintro havailable ⟨r, hc | hc⟩
      · simp [(hheld s row r hrow hc).1] at havailable
      · simp [hsold s row r hrow hc] at havailable
    · intro hnone
      cases hstatus : row.status with
      | available => rfl
      | held =>
          obtain ⟨r, -, hc⟩ := hs.held s row hrow hstatus
          exact absurd ⟨r, Or.inl hc⟩ hnone
      | sold =>
          obtain ⟨r, hc⟩ := hs.sold s row hrow hstatus
          exact absurd ⟨r, Or.inr hc⟩ hnone
  case unheld => exact fun s row hrow havailable => hs.free s row hrow (by simp [havailable])
  case paired =>
    intro o order horder
    obtain ⟨row, hrow, hpaired⟩ := hs.reservedOf o order horder
    refine ⟨row, hrow, ?_, ?_⟩
    · rw [hpaired]
      cases order.status <;> simp [reservationTarget]
    · rw [hpaired]
      cases order.status <;> simp [reservationTarget]
  case everyReservationOrdered =>
    intro r row hrow
    obtain ⟨o, order, horder, hid⟩ := hs.orderOf r row hrow
    refine ⟨o, ⟨order, horder, hid⟩, ?_⟩
    rintro o' ⟨order', horder', hid'⟩
    exact hs.orderedOnce o' o order' order horder' horder (hid'.trans hid.symm)

/-- From a fresh database, every sequence of committed transactions of all services, in any
order and with any arguments, keeps seats, reservations and orders consistent. -/
theorem inventory_consistent (txs : List Transaction) (db : Db) (h : db.Fresh) :
    (applyAll txs db).inventory.Consistent :=
  (sound_reachable txs h).consistent

/-- A table with one row. -/
def Table.single {ρ : Type} (k : String) (row : ρ) : Table String ρ :=
  ⟨[(k, row)], List.nodup_singleton k⟩

/-- One user, one event on sale with one session of one seat. -/
def singleSeat : Db where
  users := ["buyer"]
  events := Table.single "event" ⟨true, 0, 1000000000000⟩
  sessions := Table.single "session" ⟨"event", true, 1000000000000⟩
  inventory :=
    { seats := Table.single "seat" ⟨"session", "A", .available, 500, none, 0⟩
      outbox := Serial.empty
      reservations := Table.empty
      items := Table.empty
      orders := Table.empty }
  ledger := ⟨Table.empty, Table.empty⟩
  notifications := Table.empty
  providerEvents := Table.empty

theorem singleSeat_fresh : singleSeat.Fresh where
  inventory :=
    { seats := by
        intro s row hrow
        rw [Table.find_eq_some] at hrow
        have hpair : (s, row) = ("seat", (⟨"session", "A", .available, 500, none, 0⟩ :
          SessionSeatRow)) := by simpa [singleSeat, Table.single] using hrow
        rw [(Prod.mk.inj hpair).2]
        exact ⟨rfl, rfl⟩
      reservations := rfl
      items := rfl
      orders := rfl }
  attempts := rfl
  refunds := rfl

/-- The buyer reserves the single seat at time 10. -/
def reserveSingleSeat (reservationUuid orderUuid idempotencyKey : String) : Transaction :=
  .createReservation (ReservationFlow.checkoutInput "buyer" idempotencyKey "session" ["seat"])
    ⟨reservationUuid, orderUuid, ⟨10, 10, 10⟩⟩

theorem inventory_consistent_singleSeat :
    (applyAll [reserveSingleSeat "1" "1" "key"] singleSeat).inventory.Consistent ∧
      ((applyAll [reserveSingleSeat "1" "1" "key"] singleSeat).inventory.seats.find "seat").map
        SessionSeatRow.status = some .held :=
  ⟨inventory_consistent _ _ singleSeat_fresh, by decide⟩

end Ticketing
