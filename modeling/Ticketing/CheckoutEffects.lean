import Ticketing.CheckoutFlow

/-!
# What a checkout step can do

Every transaction of the checkout service, and every other transaction of the
database, moves each checkout row by one of a few transitions and either keeps
the owners of all reservations or adds one reservation under a new key. The
label of a step names the confirm key it freezes, releases or reserves under.
-/

namespace Ticketing

open Relational

/-- User and idempotency key never change. -/
def ReservationRow.owner (row : ReservationRow) : String × Option String :=
  (row.userId, row.idempotencyKey)

namespace Db

/-- The reservation is committed for the user under the key. -/
def ReservedUnder (db : Db) (userId key reservationId : String) : Prop :=
  (db.inventory.reservations.find reservationId).map ReservationRow.owner =
    some (userId, some key)

def SameOwners (db db' : Db) : Prop :=
  ∀ r, (db'.inventory.reservations.find r).map ReservationRow.owner =
    (db.inventory.reservations.find r).map ReservationRow.owner

end Db

theorem sameOwners_refl (db : Db) : db.SameOwners db := fun _ => rfl

theorem sameOwners_of_settles {kind : Settlement} {orderId : String} {order order' : OrderRow}
    {db db' : Db} (h : Settles kind orderId order order' db.inventory db'.inventory) :
    db.SameOwners db' := by
  obtain ⟨reservation, -, hreplaced⟩ := h.reservations
  intro r
  by_cases hr : r = order.reservationId
  · rw [hr, hreplaced.find_self, hreplaced.found]
    rfl
  · rw [hreplaced.find_of_ne hr]

theorem sameOwners_of_inventory {db db' : Db} (h : db'.inventory = db.inventory) :
    db.SameOwners db' := by
  intro r
  rw [h]

/-- Only a reservation adds an owner. -/
theorem Effect.sameOwners {a : Action} {db db' : Db} (h : Effect a db db')
    (ha : ∀ reservationId, a ≠ .reserve reservationId) : db.SameOwners db' := by
  cases h with
  | reserve => exact absurd rfl (ha _)
  | start inventory => exact sameOwners_of_inventory inventory
  | timeOut inventory => exact sameOwners_of_inventory inventory
  | accept inventory => exact sameOwners_of_settles inventory
  | decline inventory => exact sameOwners_of_inventory inventory
  | capture inventory => exact sameOwners_of_inventory inventory
  | close _ inventory => exact sameOwners_of_settles inventory
  | requestRefund inventory => exact sameOwners_of_inventory inventory
  | settleRefund inventory => exact sameOwners_of_inventory inventory
  | revoke inventory => exact sameOwners_of_settles inventory
  | sync inventory => exact sameOwners_of_inventory inventory

/-- The key a step freezes a checkout under, releases it from or reserves under. -/
inductive CheckoutAction where
  | keep
  | freeze (checkoutId key : String)
  | release (checkoutId key : String)
  | reserve (userId key : String)
  deriving DecidableEq, Repr

inductive RowMoves (db : Db) :
    CheckoutAction → String → Option CheckoutRow → Option CheckoutRow → Prop where
  | kept {a : CheckoutAction} {c : String} {row : Option CheckoutRow} : RowMoves db a c row row
  | opened {a : CheckoutAction} {c : String} {row : CheckoutRow} (selecting : row.state = .selecting) :
      RowMoves db a c none (some row)
  | touched {a : CheckoutAction} {c : String} {row row' : CheckoutRow}
      (userId : row'.userId = row.userId) (state : row'.state = row.state) :
      RowMoves db a c (some row) (some row')
  | frozen {c key : String} {row row' : CheckoutRow} (userId : row'.userId = row.userId)
      (before : row.state = .selecting) (after : row'.state = .submitting key) :
      RowMoves db (.freeze c key) c (some row) (some row')
  | finished {a : CheckoutAction} {c key reservationId : String} {row row' : CheckoutRow}
      (userId : row'.userId = row.userId) (before : row.state = .submitting key)
      (after : row'.state = .reserved key reservationId)
      (reserved : db.ReservedUnder row.userId key reservationId) :
      RowMoves db a c (some row) (some row')
  | abandoned {a : CheckoutAction} {c : String} {row row' : CheckoutRow}
      (userId : row'.userId = row.userId) (before : row.state = .selecting)
      (after : row'.state = .abandoned) : RowMoves db a c (some row) (some row')
  | released {c key : String} {row row' : CheckoutRow} (userId : row'.userId = row.userId)
      (before : row.state = .submitting key)
      (after : row'.state = .selecting ∨ row'.state = .abandoned) :
      RowMoves db (.release c key) c (some row) (some row')

inductive ReservationMoves : CheckoutAction → Db → Db → Prop where
  | kept {a : CheckoutAction} {db db' : Db} (same : db.SameOwners db') : ReservationMoves a db db'
  | inserted {db db' : Db} {userId key reservationId : String} {row : ReservationRow}
      (owner : row.owner = (userId, some key))
      (fresh : ∀ r, ¬ db.ReservedUnder userId key r)
      (reservations : db.inventory.reservations.Inserted reservationId row
        db'.inventory.reservations) : ReservationMoves (.reserve userId key) db db'

open PaymentRepository (OneProcessing)

structure CheckoutEffect (a : CheckoutAction) (store store' : CheckoutStore) : Prop where
  rows : ∀ c, RowMoves store.db a c (store.checkouts.find c) (store'.checkouts.find c)
  reservations : ReservationMoves a store.db store'.db
  one : OneProcessing store.db.ledger.attempts → OneProcessing store'.db.ledger.attempts

namespace CheckoutEffect

theorem refl (a : CheckoutAction) (store : CheckoutStore) : CheckoutEffect a store store where
  rows _ := .kept
  reservations := .kept (sameOwners_refl _)
  one h := h

/-- A change of checkout rows alone. -/
theorem of_rows {a : CheckoutAction} {store store' : CheckoutStore} (hdb : store'.db = store.db)
    (hrows : ∀ c, RowMoves store.db a c (store.checkouts.find c) (store'.checkouts.find c)) :
    CheckoutEffect a store store' where
  rows := hrows
  reservations := by
    rw [hdb]
    exact .kept (sameOwners_refl _)
  one := by
    rw [hdb]
    exact id

/-- A change of the database alone. -/
theorem of_db {a : CheckoutAction} (store : CheckoutStore) {db : Db}
    (hreservations : ReservationMoves a store.db db)
    (hone : OneProcessing store.db.ledger.attempts → OneProcessing db.ledger.attempts) :
    CheckoutEffect a store { store with db := db } where
  rows _ := .kept
  reservations := hreservations
  one := hone

end CheckoutEffect

namespace CheckoutSessionRepository

theorem lockByIdForUser_some {store : CheckoutStore} {checkoutSessionId userId : String}
    {row : CheckoutRow} (h : lockByIdForUser store checkoutSessionId userId = some row) :
    store.checkouts.find checkoutSessionId = some row ∧ row.userId = userId := by
  obtain ⟨hfind, huser⟩ := Option.filter_eq_some_iff.mp h
  exact ⟨hfind, of_decide_eq_true huser⟩

/-- A guarded update moves at most the row it names. -/
theorem updateRow_effect {a : CheckoutAction} (store : CheckoutStore) (checkoutSessionId : String)
    {guard : CheckoutRow → Bool} {f : CheckoutRow → CheckoutRow}
    (h : ∀ row, store.checkouts.find checkoutSessionId = some row → guard row = true →
      RowMoves store.db a checkoutSessionId (some row) (some (f row))) :
    CheckoutEffect a store (updateRow store checkoutSessionId guard f).2 := by
  refine CheckoutEffect.of_rows (show _ = store.db from rfl) fun c => ?_
  show RowMoves store.db a c (store.checkouts.find c)
    ((store.checkouts.updateRow checkoutSessionId guard f).2.find c)
  rw [Table.find_updateRow]
  cases hrow : store.checkouts.find c with
  | none => exact .kept
  | some row =>
      rw [Option.map_some]
      by_cases hg : c = checkoutSessionId ∧ guard row = true
      · obtain ⟨rfl, hguard⟩ := hg
        rw [if_pos ⟨rfl, hguard⟩]
        exact h row hrow hguard
      · rw [if_neg hg]
        exact .kept

theorem setAbandoned_effect (store : CheckoutStore) (checkoutSessionId : String) (now : Time) :
    CheckoutEffect .keep store (setAbandoned store checkoutSessionId now).2 := by
  apply updateRow_effect
  intro row _ hguard
  exact .abandoned rfl (of_decide_eq_true hguard) rfl

theorem setSubmitting_effect {store frozen : CheckoutStore}
    {checkoutSessionId idempotencyKey : String} {now : Time} {count : ℕ}
    (h : setSubmitting store checkoutSessionId idempotencyKey now = some (count, frozen)) :
    CheckoutEffect (.freeze checkoutSessionId idempotencyKey) store frozen := by
  unfold setSubmitting at h
  split at h
  · cases h
  · obtain rfl := congrArg Prod.snd (Option.some.inj h)
    apply updateRow_effect
    intro row _ hguard
    exact .frozen rfl (of_decide_eq_true hguard) rfl

/-- The row is RESERVED by a reservation of its own user and key. -/
theorem setReserved_effect {store reserved : CheckoutStore}
    {checkoutSessionId idempotencyKey reservationId userId : String} {now : Time} {count : ℕ}
    {row : CheckoutRow} (hrow : store.checkouts.find checkoutSessionId = some row)
    (huser : row.userId = userId)
    (hreserved : store.db.ReservedUnder userId idempotencyKey reservationId)
    (h : setReserved store checkoutSessionId idempotencyKey reservationId now =
      some (count, reserved)) : CheckoutEffect .keep store reserved := by
  unfold setReserved at h
  simp only at h
  split at h
  · cases h
  · obtain rfl := congrArg Prod.snd (Option.some.inj h)
    apply updateRow_effect
    intro found hfound hguard
    have hsame : row = found := Option.some.inj (hrow.symm.trans hfound)
    subst hsame
    rw [← huser] at hreserved
    exact .finished rfl (of_decide_eq_true hguard) rfl hreserved

theorem resetSelecting_effect (store : CheckoutStore) (checkoutSessionId idempotencyKey : String)
    (now : Time) : CheckoutEffect (.release checkoutSessionId idempotencyKey) store
      (resetSelecting store checkoutSessionId idempotencyKey now).2 := by
  apply updateRow_effect
  intro row _ hguard
  exact .released rfl (of_decide_eq_true hguard) (Or.inl rfl)

theorem abandonSubmitting_effect (store : CheckoutStore)
    (checkoutSessionId idempotencyKey : String) (now : Time) :
    CheckoutEffect (.release checkoutSessionId idempotencyKey) store
      (abandonSubmitting store checkoutSessionId idempotencyKey now).2 := by
  apply updateRow_effect
  intro row _ hguard
  exact .released rfl (of_decide_eq_true hguard) (Or.inr rfl)

/-- A reservation selected by user and key is committed under them. -/
theorem reservedUnder_of_select {db : Db} {userId key : String}
    {reservation : String × ReservationRow}
    (h : (db.inventory.reservations.select fun _ row => decide (row.userId = userId) &&
      decide (row.idempotencyKey = some key)).head? = some reservation) :
    db.ReservedUnder userId key reservation.1 := by
  obtain ⟨hfind, hkeys⟩ := (db.inventory.reservations.mem_select _ reservation.1
    reservation.2).mp (List.mem_of_head? h)
  rw [Bool.and_eq_true_iff] at hkeys
  have huser : reservation.2.userId = userId := of_decide_eq_true hkeys.1
  have hkey : reservation.2.idempotencyKey = some key := of_decide_eq_true hkeys.2
  unfold Db.ReservedUnder
  rw [hfind, Option.map_some, ReservationRow.owner, huser, hkey]

theorem findCompleteByIdempotency_reserved {db : Db} {userId key : String}
    {formal : ReservationResult}
    (h : ReservationRepository.findCompleteByIdempotency db userId key = some formal) :
    db.ReservedUnder userId key formal.reservationId := by
  unfold ReservationRepository.findCompleteByIdempotency at h
  obtain ⟨reservation, hreservation, h⟩ := Option.bind_eq_some_iff.mp h
  obtain ⟨order, -, h⟩ := Option.bind_eq_some_iff.mp h
  obtain ⟨session, -, h⟩ := Option.bind_eq_some_iff.mp h
  simp only at h
  split at h
  · cases h
  · cases h
    exact reservedUnder_of_select hreservation

theorem repairableOf_some {db : Db} {entry : String × CheckoutRow} {repair : Repairable}
    (h : repairableOf db entry = some repair) :
    repair.id = entry.1 ∧ db.ReservedUnder entry.2.userId repair.activeConfirmIdempotencyKey
      repair.reservationId := by
  unfold repairableOf at h
  obtain ⟨key, -, h⟩ := Option.bind_eq_some_iff.mp h
  obtain ⟨reservation, hreservation, h⟩ := Option.bind_eq_some_iff.mp h
  split at h
  · cases h
    exact ⟨rfl, reservedUnder_of_select hreservation⟩
  · cases h

/-- Startup reconciliation finishes SUBMITTING checkouts only. -/
theorem reconcileSubmitting_effect {store repaired : CheckoutStore} {batchSize count : ℕ}
    {now : Time} (h : reconcileSubmitting store batchSize now = some (count, repaired)) :
    CheckoutEffect .keep store repaired := by
  unfold reconcileSubmitting at h
  simp only at h
  split at h
  · cases h
  obtain rfl := congrArg Prod.snd (Option.some.inj h)
  refine CheckoutEffect.of_rows (show _ = store.db from rfl) fun c => ?_
  rw [Table.find_update]
  cases hrow : store.checkouts.find c with
  | none => exact .kept
  | some row =>
      rw [Option.map_some]
      cases hrepair : repairOf (repairable store batchSize) c row with
      | none => exact .kept
      | some repair =>
          have hmem := List.mem_of_find?_eq_some hrepair
          have hguard := List.find?_some hrepair
          rw [Bool.and_eq_true_iff] at hguard
          have hid : repair.id = c := of_decide_eq_true hguard.1
          have hstate : row.state = .submitting repair.activeConfirmIdempotencyKey :=
            of_decide_eq_true hguard.2
          have hsorted := List.mem_of_mem_take hmem
          rw [List.mem_insertionSort] at hsorted
          obtain ⟨entry, hentry, hjoined⟩ := List.mem_filterMap.mp hsorted
          obtain ⟨hsame, hreserved⟩ := repairableOf_some hjoined
          have hfound := (store.checkouts.find_eq_some entry.1 entry.2).mpr hentry
          rw [← hsame, hid, hrow] at hfound
          rw [← Option.some.inj hfound] at hreserved
          exact .finished rfl hstate rfl hreserved

end CheckoutSessionRepository

/-- An invariant of all effects next to the unique index holds after a transaction. -/
theorem Transaction.sameOwners (tx : Transaction) {db : Db}
    (hone : OneProcessing db.ledger.attempts)
    (htx : ∀ a, tx.Allows a → ∀ reservationId, a ≠ .reserve reservationId) :
    db.SameOwners (tx.apply db) := by
  obtain ⟨actions, htrace, hallows⟩ := tx.apply_runs hone
  refine htrace.preserves (I := fun db' => db.SameOwners db')
    (P := fun a => ∀ reservationId, a ≠ .reserve reservationId) ?_
    (fun a ha => htx a (hallows a ha)) (sameOwners_refl db)
  intro a s t ha hs hst r
  rw [hst.sameOwners ha r, hs r]

theorem Transaction.oneProcessing (tx : Transaction) {db : Db}
    (hone : OneProcessing db.ledger.attempts) : OneProcessing (tx.apply db).ledger.attempts := by
  obtain ⟨actions, htrace, -⟩ := tx.apply_runs hone
  exact htrace.invariant (I := fun db => OneProcessing db.ledger.attempts)
    (fun _ _ _ hs hst => oneProcessing_effect hst hs) hone

namespace ReservationFlow

/-- The reservation transaction adds a reservation of its user under its new key. -/
theorem startTransaction_moves {state : FlowState} {db db' : Db}
    {out : Option CreateReservationResult} (hne : state.seatIds ≠ [])
    (h : startTransaction state db = .commit out db') :
    ReservationMoves (.reserve state.userId state.idempotencyKey) db db' ∧
      db'.ledger = db.ledger ∧
      db'.ReservedUnder state.userId state.idempotencyKey state.reservationId := by
  obtain ⟨reservation, order, hreserves, hledger, huser, hkey⟩ := startTransaction_commit hne h
  have howner : reservation.owner = (state.userId, some state.idempotencyKey) := by
    rw [ReservationRow.owner, huser, hkey]
  refine ⟨.inserted howner ?_ hreserves.reservations, hledger, ?_⟩
  · intro r hr
    obtain ⟨row, hrow, hsame⟩ := Option.map_eq_some_iff.mp hr
    refine hreserves.freshKey r row hrow ⟨?_, ?_⟩
    · rw [huser]
      exact congrArg Prod.fst hsame
    · rw [hkey]
      exact congrArg Prod.snd hsame
  · unfold Db.ReservedUnder
    rw [hreserves.reservations.find_self, Option.map_some, howner]

theorem start_keys {input : CreateReservationInput} {draws : Draws} {state : FlowState}
    (h : start input draws = some state) :
    state.userId = input.userId ∧ state.idempotencyKey = input.idempotencyKey := by
  obtain ⟨normalized, -, rfl⟩ := Option.map_eq_some_iff.mp h
  exact ⟨rfl, rfl⟩

/-- A replayed answer names a committed reservation of the user under the key. -/
theorem queryExisting_replayed {state : FlowState} {required : Bool} {db : Db}
    {result : CreateReservationResult} {formal : ReservationResult}
    (h : queryExisting state required db = some result) (hvalue : result.value = some formal) :
    db.ReservedUnder state.userId state.idempotencyKey formal.reservationId := by
  unfold queryExisting at h
  split at h
  · split at h
    · cases h
      cases hvalue
    · cases h
  rename_i existing hexisting
  split at h
  · cases h
    cases hvalue
    exact CheckoutSessionRepository.findCompleteByIdempotency_reserved hexisting
  · cases h
    cases hvalue

end ReservationFlow

/-- A direct reservation adds a reservation of its user under its new key, or nothing. -/
theorem createReservation_moves (input : CreateReservationInput) (draws : ReservationFlow.Draws)
    (db : Db) : ReservationMoves (.reserve input.userId input.idempotencyKey) db
      ((Transaction.createReservation input draws).apply db) := by
  show ReservationMoves _ db ((ReservationFlow.createReservation input draws db).after db)
  cases h : ReservationFlow.createReservation input draws db with
  | rollback out => exact .kept (sameOwners_refl db)
  | commit out db' =>
      unfold ReservationFlow.createReservation at h
      split at h
      · cases h
      rename_i state hstart
      split at h
      · cases h
      obtain ⟨huser, hkey⟩ := ReservationFlow.start_keys hstart
      rw [← huser, ← hkey]
      exact (ReservationFlow.startTransaction_moves
        (ReservationFlow.start_seatIds_ne_nil hstart) h).1

end Ticketing
