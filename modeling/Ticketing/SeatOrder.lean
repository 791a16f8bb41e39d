import Ticketing.CheckoutFlow
import Ticketing.Inventory
import Ticketing.ReservationArbitration
import Ticketing.Library.MergeSets
import Mathlib.Data.Prod.Lex
import Mathlib.Data.String.Basic

/-!
# The order of seat ids

The services sort the seat ids of a request by their bytes, while the statements leave the order of
the ids they return to the collation of the database. The comparisons of such lists are right where
the collation orders the ids at hand as their bytes do.
-/

namespace Ticketing

open Relational JsonCpp MergeSets

structure Collation where
  le : String → String → Prop
  decidable : DecidableRel le
  total : ∀ a b, le a b ∨ le b a
  trans : ∀ a b c, le a b → le b c → le a c
  antisymm : ∀ a b, le a b → le b a → a = b

namespace Collation

instance (c : Collation) : DecidableRel c.le := c.decidable

instance (c : Collation) : Std.Total c.le := ⟨c.total⟩

instance (c : Collation) : IsTrans String c.le := ⟨c.trans⟩

/-- The order of the UTF-8 bytes, which is the order of the code points. -/
def bytewise : Collation where
  le := (· ≤ ·)
  decidable := inferInstance
  total := String.le_total
  trans := fun _ _ _ => String.le_trans
  antisymm := fun _ _ => String.le_antisymm

def orderBy (c : Collation) (ids : List String) : List String := ids.insertionSort c.le

def Before (c : Collation) (a b : String) : Prop := c.le a b ∧ a ≠ b

/-- The ids stand in the order of their bytes. -/
def AgreesOn (c : Collation) (ids : List String) : Prop :=
  ∀ a ∈ ids, ∀ b ∈ ids, (c.le a b ↔ a ≤ b)

variable {c : Collation} {ids xs : List String} {a b : String}

@[simp] theorem mem_orderBy : a ∈ c.orderBy ids ↔ a ∈ ids := List.mem_insertionSort _

theorem orderBy_nodup (h : ids.Nodup) : (c.orderBy ids).Nodup :=
  (List.perm_insertionSort _ _).nodup_iff.mpr h

theorem orderBy_before (h : ids.Nodup) : (c.orderBy ids).Pairwise c.Before :=
  (List.pairwise_insertionSort c.le ids).and (orderBy_nodup h)

theorem before_asymm (c : Collation) (a b : String) (h : c.Before a b) : ¬c.Before b a :=
  fun h' => h.2 (c.antisymm a b h.1 h'.1)

theorem before_trichotomy (c : Collation) (a b : String) :
    c.Before a b ∨ a = b ∨ c.Before b a := by
  by_cases heq : a = b
  · exact .inr (.inl heq)
  · obtain h | h := c.total a b
    · exact .inl ⟨h, heq⟩
    · exact .inr (.inr ⟨h, Ne.symm heq⟩)

theorem before_trans {d : String} (h : c.Before a b) (h' : c.Before b d) : c.Before a d := by
  refine ⟨c.trans a b d h.1 h'.1, fun heq => ?_⟩
  exact h.2 (c.antisymm a b h.1 (heq ▸ h'.1))

/-- Two ids in a list that follows both orders are compared alike. -/
theorem agreesOn_of_both (hle : xs.Pairwise c.le) (hbytes : xs.Pairwise (· ≤ ·)) :
    c.AgreesOn xs := by
  have hsymm : Std.Symm fun a b : String => (c.le a b ↔ a ≤ b) ∧ (c.le b a ↔ b ≤ a) :=
    ⟨fun a b h => ⟨h.2, h.1⟩⟩
  have hsame : ∀ a ∈ xs, (c.le a a ↔ a ≤ a) ∧ (c.le a a ↔ a ≤ a) := fun a _ => by
    have hrefl : c.le a a := (c.total a a).elim id id
    exact ⟨iff_of_true hrefl (String.le_refl a), iff_of_true hrefl (String.le_refl a)⟩
  have hordered : xs.Pairwise fun a b => (c.le a b ↔ a ≤ b) ∧ (c.le b a ↔ b ≤ a) := by
    refine (hle.and hbytes).imp fun {a b} h => ⟨iff_of_true h.1 h.2, fun hback => ?_, fun hback => ?_⟩
    · rw [c.antisymm a b h.1 hback]
    · rw [String.le_antisymm h.2 hback]
      exact (c.total b b).elim id id
  exact fun a ha b hb => (hordered.forall_of_forall hsame ha hb).1

/-- The database returns the sorted list of the service exactly where the orders agree. -/
theorem orderBy_eq_iff (hids : ids.Nodup) (hxs : xs.Nodup) (hsorted : xs.Pairwise (· ≤ ·))
    (hmem : ∀ s, s ∈ xs ↔ s ∈ ids) : c.orderBy ids = xs ↔ c.AgreesOn xs := by
  constructor
  · rintro rfl
    exact agreesOn_of_both (List.pairwise_insertionSort c.le ids) hsorted
  · intro hagree
    have hle : xs.Pairwise c.le := hsorted.imp_of_mem fun ha hb h => (hagree _ ha _ hb).mpr h
    have hperm : (c.orderBy ids).Perm xs := (List.perm_ext_iff_of_nodup (orderBy_nodup hids) hxs).mpr
      fun s => mem_orderBy.trans (hmem s).symm
    exact hperm.eq_of_pairwise (fun a b _ _ => c.antisymm a b)
      (List.pairwise_insertionSort c.le ids) hle

/-! ## The statements under a collation -/

def findCompleteByIdempotency (c : Collation) (db : Db) (userId idempotencyKey : String) :
    Option ReservationResult :=
  (ReservationRepository.findCompleteByIdempotency db userId idempotencyKey).map fun existing =>
    { existing with seatIds := c.orderBy (db.inventory.seatIdsOf existing.reservationId) }

def findSessionSeatIds (c : Collation) (store : CheckoutStore) (sessionId : String)
    (seatIds : List String) : List String :=
  c.orderBy ((store.db.inventory.seats.select fun id row =>
    decide (row.sessionId = sessionId) && decide (id ∈ seatIds)).map Prod.fst)

def loadSeatIds (c : Collation) (store : CheckoutStore) (checkoutSessionId : String) :
    List String :=
  c.orderBy ((store.seats.select fun key _ => decide (key.1 = checkoutSessionId)).map
    fun row => row.1.2)

end Collation

/-- What a replacement adds, keeps and removes. -/
structure SeatChanges where
  addedSeatIds : List String
  retainedSeatIds : List String
  removedSeatIds : List String
  deriving DecidableEq

def replaceLoadCurrentSeats (seatIds oldSeatIds : List String) : SeatChanges where
  addedSeatIds := setDifference seatIds oldSeatIds
  retainedSeatIds := setIntersection seatIds oldSeatIds
  removedSeatIds := setDifference oldSeatIds seatIds

section Statements

variable {c : Collation}

theorem loadSeatIds_bytewise (store : CheckoutStore) (checkoutSessionId : String) :
    Collation.bytewise.loadSeatIds store checkoutSessionId =
      CheckoutSessionRepository.loadSeatIds store checkoutSessionId := rfl

theorem findSessionSeatIds_bytewise (store : CheckoutStore) (sessionId : String)
    (seatIds : List String) : Collation.bytewise.findSessionSeatIds store sessionId seatIds =
      CheckoutSessionRepository.findSessionSeatIds store sessionId seatIds := rfl

theorem normalizeSeatIds_sorted {seats : Value} {minimum : ℕ} {seatIds : List String}
    (h : CheckoutSessionService.normalizeSeatIds seats minimum = some seatIds) :
    seatIds.Nodup ∧ seatIds.Pairwise (· ≤ ·) := by
  unfold CheckoutSessionService.normalizeSeatIds at h
  split at h
  · split_ifs at h
    split at h
    · cases h
    · split_ifs at h with hnodup
      cases h
      exact ⟨(List.perm_insertionSort _ _).nodup_iff.mpr hnodup, List.pairwise_insertionSort _ _⟩
  · cases h

/-- What the request asks for, in terms of the normalized one. -/
theorem asks_iff {input : CreateReservationInput} {draws : ReservationFlow.Draws}
    {state : ReservationFlow.FlowState} (hstart : ReservationFlow.start input draws = some state)
    {sessionId : String} {seatIds : List String} :
    ReservationFlow.Asks input sessionId seatIds ↔
      sessionId = state.sessionId ∧ ∀ s, s ∈ state.seatIds ↔ s ∈ seatIds := by
  obtain ⟨-, -, seats, ids, hsession, hseats, hids, hmem⟩ := ReservationFlow.start_normalizes hstart
  constructor
  · rintro ⟨seats', ids', hsession', hseats', hids', hmem'⟩
    have hvalues : seats' = seats :=
      Value.array.inj (Except.ok.inj (hseats'.symm.trans hseats))
    rw [hvalues, hids] at hids'
    cases hids'
    exact ⟨Value.string.inj (Except.ok.inj (hsession'.symm.trans hsession)),
      fun s => (hmem s).symm.trans (hmem' s)⟩
  · rintro ⟨rfl, hsame⟩
    exact ⟨seats, ids, hsession, hseats, hids, fun s => (hmem s).trans (hsame s)⟩

theorem mem_loadSeatIds {store : CheckoutStore} {checkoutSessionId s : String} :
    s ∈ c.loadSeatIds store checkoutSessionId ↔
      (store.seats.find (checkoutSessionId, s)).isSome :=
  Collation.mem_orderBy.trans (store.seats.mem_seconds checkoutSessionId s)

theorem loadSeatIds_before (c : Collation) (store : CheckoutStore) (checkoutSessionId : String) :
    (c.loadSeatIds store checkoutSessionId).Pairwise c.Before :=
  Collation.orderBy_before (store.seats.seconds_nodup checkoutSessionId)

theorem mem_findSessionSeatIds {store : CheckoutStore} {sessionId s : String}
    {seatIds : List String} : s ∈ c.findSessionSeatIds store sessionId seatIds ↔
      (store.db.inventory.seats.find s).map SessionSeatRow.sessionId = some sessionId ∧
        s ∈ seatIds := by
  unfold Collation.findSessionSeatIds
  rw [Collation.mem_orderBy, List.mem_map]
  constructor
  · rintro ⟨row, hrow, rfl⟩
    obtain ⟨hfound, hkept⟩ := (store.db.inventory.seats.mem_select _ row.1 row.2).mp hrow
    obtain ⟨hsession, hasked⟩ := Bool.and_eq_true_iff.mp hkept
    rw [hfound, Option.map_some, of_decide_eq_true hsession]
    exact ⟨rfl, of_decide_eq_true hasked⟩
  · rintro ⟨hsession, hasked⟩
    obtain ⟨row, hfound, hrow⟩ := Option.map_eq_some_iff.mp hsession
    refine ⟨(s, row), (store.db.inventory.seats.mem_select _ _ _).mpr ⟨hfound, ?_⟩, rfl⟩
    rw [decide_eq_true hrow, decide_eq_true hasked, Bool.and_self]

/-! ## Where the comparisons are those of sets -/

/-- The replay check. -/
theorem sameRequest_collated {input : CreateReservationInput} {draws : ReservationFlow.Draws}
    {state : ReservationFlow.FlowState} (hstart : ReservationFlow.start input draws = some state)
    {db : Db} {existing : ReservationResult} (hfound : c.findCompleteByIdempotency db state.userId
      state.idempotencyKey = some existing) :
    (ReservationFlow.sameRequest existing state.sessionId state.seatIds = true ↔
        ReservationFlow.Asks input existing.reservation.sessionId existing.seatIds) ↔
      (ReservationFlow.Asks input existing.reservation.sessionId existing.seatIds →
        c.AgreesOn existing.seatIds) := by
  obtain ⟨stored, -, rfl⟩ := Option.map_eq_some_iff.mp hfound
  obtain ⟨hnodup, hsorted, -⟩ := ReservationFlow.start_normalizes hstart
  have hids := db.inventory.seatIdsOf_nodup stored.reservationId
  unfold ReservationFlow.sameRequest
  rw [Bool.and_eq_true, decide_eq_true_iff, decide_eq_true_iff, asks_iff hstart]
  dsimp only
  set old := db.inventory.seatIdsOf stored.reservationId with hold
  have hequal : (∀ s, s ∈ state.seatIds ↔ s ∈ c.orderBy old) →
      (c.orderBy old = state.seatIds ↔ c.AgreesOn (c.orderBy old)) := fun hsame => by
    have hagrees : c.AgreesOn (c.orderBy old) ↔ c.AgreesOn state.seatIds := by
      simp only [Collation.AgreesOn, hsame]
    rw [hagrees]
    exact Collation.orderBy_eq_iff hids hnodup hsorted fun s =>
      (hsame s).trans Collation.mem_orderBy
  constructor
  · intro h hasked
    exact (hequal hasked.2).mp (h.mpr hasked).2
  · intro h
    constructor
    · rintro ⟨hsession, hseats⟩
      exact ⟨hsession, fun s => by rw [hseats]⟩
    · intro hasked
      exact ⟨hasked.1, (hequal hasked.2).mpr (h hasked)⟩

/-- The check of the found ids. -/
theorem found_collated {seats : Value} {minimum : ℕ} {seatIds : List String}
    (hnormalized : CheckoutSessionService.normalizeSeatIds seats minimum = some seatIds)
    (store : CheckoutStore) (sessionId : String) :
    (c.findSessionSeatIds store sessionId seatIds = seatIds ↔ ∀ s ∈ seatIds,
        (store.db.inventory.seats.find s).map SessionSeatRow.sessionId = some sessionId) ↔
      ((∀ s ∈ seatIds,
        (store.db.inventory.seats.find s).map SessionSeatRow.sessionId = some sessionId) →
          c.AgreesOn seatIds) := by
  obtain ⟨hnodup, hsorted⟩ := normalizeSeatIds_sorted hnormalized
  have hequal : (∀ s ∈ seatIds,
      (store.db.inventory.seats.find s).map SessionSeatRow.sessionId = some sessionId) →
        (c.findSessionSeatIds store sessionId seatIds = seatIds ↔ c.AgreesOn seatIds) := by
    intro hall
    refine Collation.orderBy_eq_iff ?_ hnodup hsorted fun s => ?_
    · exact store.db.inventory.seats.nodup.sublist (List.filter_sublist.map Prod.fst)
    · have hfound : s ∈ c.findSessionSeatIds store sessionId seatIds ↔ _ := mem_findSessionSeatIds
      exact ⟨fun hin => Collation.mem_orderBy.mp (hfound.mpr ⟨hall s hin, hin⟩),
        fun hin => (hfound.mp (Collation.mem_orderBy.mpr hin)).2⟩
  constructor
  · intro h hall
    exact (hequal hall).mp (h.mpr hall)
  · intro h
    constructor
    · intro hsame s hin
      exact (mem_findSessionSeatIds.mp (hsame ▸ hin)).1
    · intro hall
      exact (hequal hall).mpr (h hall)

/-- No old seat before a kept one in the database is behind it in bytes. -/
def Collation.KeepsBefore (c : Collation) (seatIds old : List String) : Prop :=
  ∀ s ∈ seatIds, s ∈ old → ∀ t ∈ old, c.Before t s → t < s

/-- The three lists of a replacement go right or wrong together. -/
theorem changes_collated {seatIds old : List String} (hnodup : seatIds.Nodup)
    (hsorted : seatIds.Pairwise (· ≤ ·)) (hold : old.Pairwise c.Before) :
    ((∀ s, s ∈ (replaceLoadCurrentSeats seatIds old).retainedSeatIds ↔ s ∈ seatIds ∧ s ∈ old) ↔
      c.KeepsBefore seatIds old) ∧
    ((∀ s, s ∈ (replaceLoadCurrentSeats seatIds old).removedSeatIds ↔ s ∈ old ∧ s ∉ seatIds) ↔
      c.KeepsBefore seatIds old) ∧
    ((∀ s, s ∈ (replaceLoadCurrentSeats seatIds old).addedSeatIds ↔ s ∈ seatIds ∧ s ∉ old) ↔
      c.KeepsBefore seatIds old) := by
  have hascending : seatIds.Pairwise (· < ·) :=
    (hsorted.and hnodup).imp fun h => lt_of_le_of_ne h.1 h.2
  have hdistinct : old.Nodup := hold.imp fun h => h.2
  have hreached : ∀ s, Reached s old ↔ s ∈ old ∧ ∀ t ∈ old, c.Before t s → t < s := fun s =>
    reached_iff (Collation.before_asymm c) hold
  have hkeeps : c.KeepsBefore seatIds old ↔ ∀ s ∈ seatIds, s ∈ old → Reached s old :=
    forall₂_congr fun s _ => ⟨fun h hin => (hreached s).mpr ⟨hin, h hin⟩,
      fun h hin => ((hreached s).mp (h hin)).2⟩
  unfold replaceLoadCurrentSeats
  simp only [mem_setIntersection hascending, mem_setDifference hascending,
    mem_setDifference_ascending hascending hdistinct, hkeeps]
  have hmem : ∀ {s}, Reached s old → s ∈ old := Reached.mem
  grind

end Statements

/-- The comparisons and set operations on seat lists are those of the sets of their ids exactly
where the collation orders the ids that matter for them as their bytes do. -/
theorem seat_comparisons_collated (c : Collation) :
    (∀ input draws state db existing, ReservationFlow.start input draws = some state →
      c.findCompleteByIdempotency db state.userId state.idempotencyKey = some existing →
        ((ReservationFlow.sameRequest existing state.sessionId state.seatIds = true ↔
            ReservationFlow.Asks input existing.reservation.sessionId existing.seatIds) ↔
          (ReservationFlow.Asks input existing.reservation.sessionId existing.seatIds →
            c.AgreesOn existing.seatIds))) ∧
    (∀ store sessionId seats minimum seatIds,
      CheckoutSessionService.normalizeSeatIds seats minimum = some seatIds →
        ((c.findSessionSeatIds store sessionId seatIds = seatIds ↔ ∀ s ∈ seatIds,
            (store.db.inventory.seats.find s).map SessionSeatRow.sessionId = some sessionId) ↔
          ((∀ s ∈ seatIds,
            (store.db.inventory.seats.find s).map SessionSeatRow.sessionId = some sessionId) →
              c.AgreesOn seatIds))) ∧
    (∀ store checkoutSessionId seats seatIds,
      CheckoutSessionService.normalizeSeatIds seats 0 = some seatIds →
        let old := c.loadSeatIds store checkoutSessionId
        let changes := replaceLoadCurrentSeats seatIds old
        ((∀ s, s ∈ changes.retainedSeatIds ↔ s ∈ seatIds ∧ s ∈ old) ↔
          c.KeepsBefore seatIds old) ∧
        ((∀ s, s ∈ changes.removedSeatIds ↔ s ∈ old ∧ s ∉ seatIds) ↔
          c.KeepsBefore seatIds old) ∧
        ((∀ s, s ∈ changes.addedSeatIds ↔ s ∈ seatIds ∧ s ∉ old) ↔
          c.KeepsBefore seatIds old)) := by
  refine ⟨?_, ?_, ?_⟩
  · intro input draws state db existing hstart hfound
    exact sameRequest_collated hstart hfound
  · intro store sessionId seats minimum seatIds hnormalized
    exact found_collated hnormalized store sessionId
  · intro store checkoutSessionId seats seatIds hnormalized
    obtain ⟨hnodup, hsorted⟩ := normalizeSeatIds_sorted hnormalized
    exact changes_collated hnodup hsorted (loadSeatIds_before c store checkoutSessionId)

/-- A collation that passes over punctuation before it breaks ties by bytes. -/
def linguistic : Collation where
  le a b := toLex (a.toList.filter Char.isAlphanum, a) ≤ toLex (b.toList.filter Char.isAlphanum, b)
  decidable := fun _ _ => inferInstance
  total := fun _ _ => le_total _ _
  trans := fun _ _ _ => le_trans
  antisymm := fun _ _ h h' => (Prod.mk.inj (toLex.injective (le_antisymm h h'))).2

/-- Two seats of one session, in the first and in the eleventh row. -/
def rowsOnSale : CheckoutStore where
  db :=
    { singleSeat with
      inventory :=
        { singleSeat.inventory with
          seats := ⟨[("SS-1-2", ⟨"session", "A", .available, 500, none, 0⟩),
            ("SS-11-1", ⟨"session", "A", .available, 500, none, 0⟩)], by decide⟩ } }
  checkouts := Table.empty
  seats := ⟨[(("CHK", "SS-1-2"), "session"), (("CHK", "SS-11-1"), "session")], by decide⟩

def bothRows : Value := .array [.string "SS-11-1", .string "SS-1-2"]

def firstRow : Value := .array [.string "SS-1-2"]

def reserved : Db := applyAll [reserveSingleSeat "1" "1" "key"] singleSeat

def replayed : CreateReservationInput :=
  ReservationFlow.checkoutInput "buyer" "key" "session" ["seat"]

def replayedState : ReservationFlow.FlowState :=
  ⟨"buyer", "key", "session", ["seat"], ⟨"2", "2", ⟨20, 20, 20⟩⟩⟩

theorem agreesOn_singleton (c : Collation) (s : String) : c.AgreesOn [s] := by
  intro a ha b hb
  obtain rfl := List.mem_singleton.mp ha
  obtain rfl := List.mem_singleton.mp hb
  exact iff_of_true ((c.total b b).elim id id) (String.le_refl b)

theorem seat_comparisons_collated_rows :
    (∃ existing, linguistic.findCompleteByIdempotency reserved "buyer" "key" = some existing ∧
      (ReservationFlow.sameRequest existing "session" ["seat"] = true ↔
        ReservationFlow.Asks replayed existing.reservation.sessionId existing.seatIds)) ∧
    (Collation.bytewise.findSessionSeatIds rowsOnSale "session" ["SS-1-2", "SS-11-1"] =
        ["SS-1-2", "SS-11-1"] ↔ ∀ s ∈ ["SS-1-2", "SS-11-1"],
      (rowsOnSale.db.inventory.seats.find s).map SessionSeatRow.sessionId = some "session") ∧
    ¬∀ s, s ∈ (replaceLoadCurrentSeats ["SS-1-2"]
        (linguistic.loadSeatIds rowsOnSale "CHK")).retainedSeatIds ↔
      s ∈ ["SS-1-2"] ∧ s ∈ linguistic.loadSeatIds rowsOnSale "CHK" := by
  refine ⟨?_, ?_, ?_⟩
  · obtain ⟨existing, hfound⟩ : ∃ existing, linguistic.findCompleteByIdempotency reserved "buyer"
        "key" = some existing := Option.isSome_iff_exists.mp (by decide +kernel)
    have hseats : (linguistic.findCompleteByIdempotency reserved "buyer" "key").map
        ReservationResult.seatIds = some ["seat"] := by decide +kernel
    rw [hfound] at hseats
    refine ⟨existing, hfound, ((seat_comparisons_collated linguistic).1 replayed
      ⟨"2", "2", ⟨20, 20, 20⟩⟩ replayedState reserved existing (by decide +kernel) hfound).mpr ?_⟩
    intro _
    rw [Option.some.inj hseats]
    exact agreesOn_singleton linguistic "seat"
  · exact ((seat_comparisons_collated .bytewise).2.1 rowsOnSale "session" bothRows 1 _
      (by decide +kernel)).mpr fun _ a _ b _ => Iff.rfl
  · -- The seat of the eleventh row stands before the kept one, which is so taken for a new one.
    have hsplit := (seat_comparisons_collated linguistic).2.2 rowsOnSale "CHK" firstRow ["SS-1-2"]
      (by decide +kernel)
    intro hsame
    have hkeeps := hsplit.1.mp hsame "SS-1-2" List.mem_cons_self
      (mem_loadSeatIds.mpr (by decide)) "SS-11-1" (mem_loadSeatIds.mpr (by decide))
      ⟨by decide +kernel, by decide⟩
    exact absurd hkeeps (by decide)

theorem found_rows_refused :
    ¬∀ (c : Collation) store sessionId seats seatIds,
      CheckoutSessionService.normalizeSeatIds seats 1 = some seatIds →
        (c.findSessionSeatIds store sessionId seatIds = seatIds ↔ ∀ s ∈ seatIds,
          (store.db.inventory.seats.find s).map SessionSeatRow.sessionId = some sessionId) := by
  intro h
  have hsame := (h linguistic rowsOnSale "session" bothRows ["SS-1-2", "SS-11-1"]
    (by decide +kernel)).mpr (by decide)
  exact absurd hsame (by decide +kernel)

end Ticketing
