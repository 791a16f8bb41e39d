import Ticketing.Inventory
import Ticketing.Library.Backlog

/-!
# Progress of the webhook inbox

A round claims the oldest due events and marks those PROCESSED that woke a row
or carry no provider object. An event with an object that matches no local row
stays PENDING and due, so it is claimed again by every later round. The inbox
is drained exactly when no batch fills up with such events.
-/

namespace Ticketing

open Relational Transition

namespace Reconciliation

def due (now : Time) (event : ProviderEventRow) : Bool :=
  decide (event.status = .pending) && decide (event.nextRetryAt ≤ now)

/-- The due events in the order in which rounds claim them. -/
def dueEvents (db : Db) (now : Time) : List (String × ProviderEventRow) :=
  (db.providerEvents.select fun _ event => due now event).mergeSort
    fun a b => decide (a.2.receivedAt ≤ b.2.receivedAt)

/-- The join condition of `wake_payments`. -/
def meetsPayment (event : ProviderEventRow) (id : String) (row : AttemptRow) : Bool :=
  decide (event.objectKind = .payment) && decide (event.localReferenceId = some id) &&
    decide (event.provider = row.provider) &&
    (row.providerPaymentId.isNone ||
      (event.providerObjectId.isSome && decide (row.providerPaymentId = event.providerObjectId)))

/-- The join condition of `wake_refunds`. -/
def meetsRefund (event : ProviderEventRow) (id : String) (row : RefundRow) : Bool :=
  decide (event.objectKind = .refund) && decide (event.localReferenceId = some id) &&
    decide (event.provider = row.provider) &&
    (row.providerRefundId.isNone ||
      (event.providerObjectId.isSome && decide (row.providerRefundId = event.providerObjectId)))

/-- The event matches a local attempt or refund. -/
def matched (db : Db) (event : ProviderEventRow) : Bool :=
  (db.ledger.attempts.rows.any fun row => meetsPayment event row.1 row.2) ||
    db.ledger.refunds.rows.any fun row => meetsRefund event row.1 row.2

/-- An event no round can mark: it names a provider object and matches nothing. -/
def stuck (db : Db) (entry : String × ProviderEventRow) : Bool :=
  entry.2.providerObjectId.isSome && !matched db entry.2

/-- The due events that match one attempt name one provider object. -/
def EventsAgree (db : Db) (now : Time) : Prop :=
  ∀ entry ∈ dueEvents db now, ∀ other ∈ dueEvents db now, ∀ row ∈ db.ledger.attempts.rows,
    meetsPayment entry.2 row.1 row.2 = true → meetsPayment other.2 row.1 row.2 = true →
      entry.2.providerObjectId.isSome = true → other.2.providerObjectId.isSome = true →
        entry.2.providerObjectId = other.2.providerObjectId

/-- No batch fills up with stuck events before a matching one, and the events of each attempt
agree. -/
structure Unobstructed (limit : ℕ) (now : Time) (db : Db) : Prop where
  uncrowded : ∀ entry ∈ dueEvents db now, matched db entry.2 = true →
    Backlog.crowd (stuck db) (dueEvents db now) entry < limit
  agree : EventsAgree db now

structure InboxRound where
  pick : String → ℕ
  now : Time

/-- Other statements change no event and no provider identity. -/
structure KeepsIdentities (db db' : Db) : Prop where
  providerEvents : db'.providerEvents = db.providerEvents
  attempts : RowsRelate (fun row row' => row'.provider = row.provider ∧
    row'.providerPaymentId = row.providerPaymentId) db.ledger.attempts db'.ledger.attempts
  refunds : RowsRelate (fun row row' => row'.provider = row.provider ∧
    row'.providerRefundId = row.providerRefundId) db.ledger.refunds db'.ledger.refunds

/-- One processing statement that succeeds, after other statements that leave events and
provider identities alone. -/
def InboxStep (limit : ℕ) (round : InboxRound) (db db' : Db) : Prop :=
  ∃ mid, KeepsIdentities db mid ∧
    processInbox limit (fun _ => false) round.pick round.now mid = some db'

/-- The clock has not gone back, and no further event has become due. -/
structure NoArrival (db : Db) (start now : Time) : Prop where
  later : start ≤ now
  none_due : ∀ id event, db.providerEvents.find id = some event → event.status = .pending →
    event.nextRetryAt ≤ now → event.nextRetryAt ≤ start

theorem mem_paymentMatches {claimed : List (String × ProviderEventRow)} {id : String}
    {row : AttemptRow} {entry : String × ProviderEventRow} :
    entry ∈ paymentMatches claimed id row ↔
      entry ∈ claimed ∧ meetsPayment entry.2 id row = true :=
  List.mem_filter

theorem mem_refundMatches {claimed : List (String × ProviderEventRow)} {id : String}
    {row : RefundRow} {entry : String × ProviderEventRow} :
    entry ∈ refundMatches claimed id row ↔
      entry ∈ claimed ∧ meetsRefund entry.2 id row = true :=
  List.mem_filter

theorem claimEvents_eq (db : Db) (limit : ℕ) (now : Time) :
    claimEvents db (fun _ => false) limit now = (dueEvents db now).take limit := by
  have hcond : (fun (_ : String) (event : ProviderEventRow) =>
      (decide (event.status = .pending) && decide (event.nextRetryAt ≤ now)) && !false) =
      fun _ event => due now event := by
    funext _ event
    exact Bool.and_true _
  unfold claimEvents scan dueEvents
  rw [hcond]

theorem mem_dueEvents {db : Db} {now : Time} {entry : String × ProviderEventRow} :
    entry ∈ dueEvents db now ↔
      db.providerEvents.find entry.1 = some entry.2 ∧ due now entry.2 = true := by
  unfold dueEvents
  rw [List.mem_mergeSort]
  exact db.providerEvents.mem_select _ entry.1 entry.2

theorem joined_mem {pick : String → ℕ} {id : String} {found : List (String × ProviderEventRow)}
    {entry : String × ProviderEventRow} (h : joined pick id found = some entry) :
    entry ∈ found := List.mem_of_getElem? h

theorem exists_joined (pick : String → ℕ) (id : String)
    {found : List (String × ProviderEventRow)} {entry : String × ProviderEventRow}
    (h : entry ∈ found) : ∃ chosen, joined pick id found = some chosen := by
  have hpos : 0 < found.length := List.length_pos_of_mem h
  exact ⟨_, List.getElem?_eq_getElem (Nat.mod_lt _ hpos)⟩

/-- Whether a round marks an event. -/
def marks (db : Db) (claimed : List (String × ProviderEventRow)) (pick : String → ℕ) (id : String)
    (event : ProviderEventRow) : Bool :=
  decide (id ∈ claimed.map Prod.fst) &&
    (event.providerObjectId.isNone || decide (id ∈ wokenBy db claimed pick))

def processed (now : Time) (event : ProviderEventRow) : ProviderEventRow :=
  { event with status := .processed, processedAt := some now }

theorem processInbox_some {limit : ℕ} {pick : String → ℕ} {now : Time} {db db' : Db}
    (h : processInbox limit (fun _ => false) pick now db = some db') :
    db'.providerEvents = db.providerEvents.update
        (fun id event => marks db ((dueEvents db now).take limit) pick id event)
        (fun _ event => processed now event) ∧
      db'.ledger.attempts = wakePayments db.ledger.attempts ((dueEvents db now).take limit) pick
        now ∧
      db'.ledger.refunds = wakeRefunds db.ledger.refunds ((dueEvents db now).take limit) pick
        now := by
  unfold processInbox at h
  simp only [claimEvents_eq] at h
  split at h
  · cases h
    exact ⟨rfl, rfl, rfl⟩
  · cases h

theorem mem_wokenBy {db : Db} {claimed : List (String × ProviderEventRow)} {pick : String → ℕ}
    {id : String} : id ∈ wokenBy db claimed pick ↔
      (∃ attemptId row entry, db.ledger.attempts.find attemptId = some row ∧
        joined pick attemptId (paymentMatches claimed attemptId row) = some entry ∧
          entry.1 = id) ∨
      ∃ refundId row entry, db.ledger.refunds.find refundId = some row ∧
        joined pick refundId (refundMatches claimed refundId row) = some entry ∧ entry.1 = id := by
  unfold wokenBy
  rw [List.mem_append, List.mem_filterMap, List.mem_filterMap]
  constructor
  · rintro (⟨row, hrow, hentry⟩ | ⟨row, hrow, hentry⟩)
    · obtain ⟨entry, hjoined, hid⟩ := Option.map_eq_some_iff.mp hentry
      exact Or.inl ⟨row.1, row.2, entry, (Table.find_eq_some _ _ _).mpr hrow, hjoined, hid⟩
    · obtain ⟨entry, hjoined, hid⟩ := Option.map_eq_some_iff.mp hentry
      exact Or.inr ⟨row.1, row.2, entry, (Table.find_eq_some _ _ _).mpr hrow, hjoined, hid⟩
  · rintro (⟨attemptId, row, entry, hrow, hjoined, hid⟩ |
      ⟨refundId, row, entry, hrow, hjoined, hid⟩)
    · exact Or.inl ⟨(attemptId, row), (Table.find_eq_some _ _ _).mp hrow,
        Option.map_eq_some_iff.mpr ⟨entry, hjoined, hid⟩⟩
    · exact Or.inr ⟨(refundId, row), (Table.find_eq_some _ _ _).mp hrow,
        Option.map_eq_some_iff.mpr ⟨entry, hjoined, hid⟩⟩

/-- The event is as it was when the rounds began. -/
def waiting (db : Db) (entry : String × ProviderEventRow) : Bool :=
  decide (db.providerEvents.find entry.1 = some entry.2)

theorem waiting_iff {db : Db} {entry : String × ProviderEventRow} :
    waiting db entry = true ↔ db.providerEvents.find entry.1 = some entry.2 :=
  decide_eq_true_iff

/-- What the rounds have done to `db` since `start`. -/
structure Since (start : Time) (db db' : Db) : Prop where
  events : ∀ now, NoArrival db start now →
    db'.providerEvents.select (fun _ event => due now event) =
      (db.providerEvents.select fun _ event => due start event).filter (waiting db')
  attempts : ∀ id, (db.ledger.attempts.find id = none ∧ db'.ledger.attempts.find id = none) ∨
    ∃ row row', db.ledger.attempts.find id = some row ∧
      db'.ledger.attempts.find id = some row' ∧ row'.provider = row.provider ∧
      (row'.providerPaymentId = row.providerPaymentId ∨
        row.providerPaymentId = none ∧ ∃ entry ∈ dueEvents db start,
          meetsPayment entry.2 id row = true ∧ entry.2.providerObjectId.isSome = true ∧
            row'.providerPaymentId = entry.2.providerObjectId)
  refunds : RowsRelate (fun row row' => row'.provider = row.provider ∧
    row'.providerRefundId = row.providerRefundId) db.ledger.refunds db'.ledger.refunds
  settled : ∀ entry ∈ dueEvents db start, waiting db' entry = false →
    ∀ id row row', db.ledger.attempts.find id = some row →
      db'.ledger.attempts.find id = some row' → meetsPayment entry.2 id row = true →
        entry.2.providerObjectId.isSome = true →
          row'.providerPaymentId = entry.2.providerObjectId
  marked : ∀ entry ∈ dueEvents db start, waiting db' entry = false →
    ∃ event, db'.providerEvents.find entry.1 = some event ∧ event.status = .processed

theorem Since.refl (start : Time) (db : Db) : Since start db db where
  events := by
    intro now harrival
    have hdue : db.providerEvents.select (fun _ event => due now event) =
        db.providerEvents.select fun _ event => due start event := by
      refine List.filter_congr fun row hrow => ?_
      have hfind := (db.providerEvents.find_eq_some row.1 row.2).mpr hrow
      unfold due
      by_cases hpending : row.2.status = .pending
      · have hiff : row.2.nextRetryAt ≤ now ↔ row.2.nextRetryAt ≤ start :=
          ⟨harrival.none_due row.1 row.2 hfind hpending, fun h => h.trans harrival.later⟩
        simp [hiff]
      · simp [hpending]
    rw [hdue, eq_comm, List.filter_eq_self]
    intro entry hentry
    exact waiting_iff.mpr ((db.providerEvents.mem_select _ entry.1 entry.2).mp hentry).1
  attempts := by
    intro id
    cases h : db.ledger.attempts.find id with
    | none => exact Or.inl ⟨rfl, rfl⟩
    | some row => exact Or.inr ⟨row, row, rfl, rfl, rfl, Or.inl rfl⟩
  refunds := rowsRelate_refl (fun _ => ⟨rfl, rfl⟩) _
  settled := by
    intro entry hentry hwaiting
    have h := waiting_iff.mpr (mem_dueEvents.mp hentry).1
    rw [hwaiting] at h
    cases h
  marked := by
    intro entry hentry hwaiting
    have h := waiting_iff.mpr (mem_dueEvents.mp hentry).1
    rw [hwaiting] at h
    cases h

theorem Since.attempt {start : Time} {db db' : Db} (h : Since start db db') {id : String}
    {row' : AttemptRow} (hrow : db'.ledger.attempts.find id = some row') :
    ∃ row, db.ledger.attempts.find id = some row ∧ row'.provider = row.provider ∧
      (row'.providerPaymentId = row.providerPaymentId ∨
        row.providerPaymentId = none ∧ ∃ entry ∈ dueEvents db start,
          meetsPayment entry.2 id row = true ∧ entry.2.providerObjectId.isSome = true ∧
            row'.providerPaymentId = entry.2.providerObjectId) := by
  rcases h.attempts id with ⟨-, hnone⟩ | ⟨row, found, hfind, hfound, hrest⟩
  · rw [hnone] at hrow
    cases hrow
  · rw [hfound] at hrow
    cases hrow
    exact ⟨row, hfind, hrest⟩

theorem Since.keeps {start : Time} {db db' mid : Db} (h : Since start db db')
    (hkeeps : KeepsIdentities db' mid) :
    Since start db mid ∧ ∀ entry, waiting mid entry = waiting db' entry := by
  have hwaiting : ∀ entry, waiting mid entry = waiting db' entry := by
    intro entry
    unfold waiting
    rw [hkeeps.providerEvents]
  refine ⟨⟨?_, ?_, ?_, ?_, ?_⟩, hwaiting⟩
  · intro now harrival
    rw [hkeeps.providerEvents, h.events now harrival]
    exact List.filter_congr fun entry _ => (hwaiting entry).symm
  · intro id
    rcases h.attempts id with ⟨hnone, hnone'⟩ | ⟨row, row', hrow, hrow', hprovider, hid⟩
    · rcases hkeeps.attempts id with ⟨-, hmid⟩ | ⟨found, _, hfound, -, -⟩
      · exact Or.inl ⟨hnone, hmid⟩
      · rw [hnone'] at hfound
        cases hfound
    · obtain ⟨last, hlast, hsame, hsameId⟩ := rowsRelate_find_old hkeeps.attempts hrow'
      refine Or.inr ⟨row, last, hrow, hlast, hsame.trans hprovider, ?_⟩
      rwa [hsameId]
  · intro id
    rcases h.refunds id with ⟨hnone, hnone'⟩ | ⟨row, row', hrow, hrow', hprovider, hid⟩
    · rcases hkeeps.refunds id with ⟨-, hmid⟩ | ⟨found, _, hfound, -, -⟩
      · exact Or.inl ⟨hnone, hmid⟩
      · rw [hnone'] at hfound
        cases hfound
    · obtain ⟨last, hlast, hsame, hsameId⟩ := rowsRelate_find_old hkeeps.refunds hrow'
      exact Or.inr ⟨row, last, hrow, hlast, hsame.trans hprovider, hsameId.trans hid⟩
  · intro entry hentry hgone id row last hrow hlast hmeets hobject
    obtain ⟨row', hrow', -, hsameId⟩ := rowsRelate_find hkeeps.attempts hlast
    rw [hwaiting] at hgone
    rw [hsameId]
    exact h.settled entry hentry hgone id row row' hrow hrow' hmeets hobject
  · intro entry hentry hgone
    rw [hwaiting] at hgone
    rw [hkeeps.providerEvents]
    exact h.marked entry hentry hgone

theorem meetsPayment_iff {event : ProviderEventRow} {id : String} {row : AttemptRow} :
    meetsPayment event id row = true ↔ event.objectKind = .payment ∧
      event.localReferenceId = some id ∧ event.provider = row.provider ∧
      (row.providerPaymentId = none ∨ event.providerObjectId.isSome = true ∧
        row.providerPaymentId = event.providerObjectId) := by
  unfold meetsPayment
  simp [and_assoc]

/-- What matches an attempt after some rounds matched it before. -/
theorem Since.meets_of_later {start : Time} {db db' : Db} (h : Since start db db') {id : String}
    {row' : AttemptRow} {event : ProviderEventRow}
    (hrow : db'.ledger.attempts.find id = some row') (hmeets : meetsPayment event id row' = true) :
    ∃ row, db.ledger.attempts.find id = some row ∧ meetsPayment event id row = true := by
  obtain ⟨row, hfind, hprovider, hid⟩ := h.attempt hrow
  obtain ⟨hkind, hreference, hsame, hobject⟩ := meetsPayment_iff.mp hmeets
  refine ⟨row, hfind, meetsPayment_iff.mpr ⟨hkind, hreference, hsame.trans hprovider, ?_⟩⟩
  rcases hid with hid | ⟨hnone, -⟩
  · rwa [← hid]
  · exact Or.inl hnone

theorem matched_iff {db : Db} {event : ProviderEventRow} : matched db event = true ↔
    (∃ id row, db.ledger.attempts.find id = some row ∧ meetsPayment event id row = true) ∨
      ∃ id row, db.ledger.refunds.find id = some row ∧ meetsRefund event id row = true := by
  unfold matched
  rw [Bool.or_eq_true, List.any_eq_true, List.any_eq_true]
  constructor
  · rintro (⟨row, hrow, h⟩ | ⟨row, hrow, h⟩)
    · exact Or.inl ⟨row.1, row.2, (Table.find_eq_some _ _ _).mpr hrow, h⟩
    · exact Or.inr ⟨row.1, row.2, (Table.find_eq_some _ _ _).mpr hrow, h⟩
  · rintro (⟨id, row, hrow, h⟩ | ⟨id, row, hrow, h⟩)
    · exact Or.inl ⟨(id, row), (Table.find_eq_some _ _ _).mp hrow, h⟩
    · exact Or.inr ⟨(id, row), (Table.find_eq_some _ _ _).mp hrow, h⟩

theorem meetsRefund_congr {event : ProviderEventRow} {id : String} {row row' : RefundRow}
    (h : row'.provider = row.provider ∧ row'.providerRefundId = row.providerRefundId) :
    meetsRefund event id row' = meetsRefund event id row := by
  unfold meetsRefund
  rw [h.1, h.2]

theorem Since.matched_of_later {start : Time} {db db' : Db} (h : Since start db db')
    {event : ProviderEventRow} (hmatched : matched db' event = true) : matched db event = true := by
  rcases matched_iff.mp hmatched with ⟨id, row', hrow', hmeets⟩ | ⟨id, row', hrow', hmeets⟩
  · obtain ⟨row, hrow, hmeets'⟩ := h.meets_of_later hrow' hmeets
    exact matched_iff.mpr (Or.inl ⟨id, row, hrow, hmeets'⟩)
  · obtain ⟨row, hrow, hsame⟩ := rowsRelate_find h.refunds hrow'
    rw [meetsRefund_congr hsame] at hmeets
    exact matched_iff.mpr (Or.inr ⟨id, row, hrow, hmeets⟩)

/-- As long as the due events of an attempt agree, a matching event keeps matching. -/
theorem Since.matched_later {start : Time} {db db' : Db} (h : Since start db db')
    (hagree : EventsAgree db start)
    {entry : String × ProviderEventRow} (hentry : entry ∈ dueEvents db start)
    (hobject : entry.2.providerObjectId.isSome = true) (hmatched : matched db entry.2 = true) :
    matched db' entry.2 = true := by
  rcases matched_iff.mp hmatched with ⟨id, row, hrow, hmeets⟩ | ⟨id, row, hrow, hmeets⟩
  · rcases h.attempts id with ⟨hnone, -⟩ | ⟨found, row', hfound, hrow', hprovider, hid⟩
    · rw [hnone] at hrow
      cases hrow
    rw [hfound] at hrow
    cases hrow
    obtain ⟨hkind, hreference, hsame, hwanted⟩ := meetsPayment_iff.mp hmeets
    refine matched_iff.mpr (Or.inl ⟨id, row', hrow', meetsPayment_iff.mpr
      ⟨hkind, hreference, hsame.trans hprovider.symm, ?_⟩⟩)
    rcases hid with hid | ⟨-, other, hother, hotherMeets, hotherObject, hid⟩
    · rwa [hid]
    · refine Or.inr ⟨hobject, ?_⟩
      rw [hid]
      exact hagree other hother entry hentry (id, row) ((Table.find_eq_some _ _ _).mp hfound)
        hotherMeets hmeets hotherObject hobject
  · obtain ⟨row', hrow', hsame⟩ := rowsRelate_find_old h.refunds hrow
    rw [← meetsRefund_congr hsame] at hmeets
    exact matched_iff.mpr (Or.inr ⟨id, row', hrow', hmeets⟩)

theorem receivedAt_trans (a b c : String × ProviderEventRow) :
    decide (a.2.receivedAt ≤ b.2.receivedAt) = true →
      decide (b.2.receivedAt ≤ c.2.receivedAt) = true →
        decide (a.2.receivedAt ≤ c.2.receivedAt) = true := by
  simp only [decide_eq_true_eq]
  exact le_trans

theorem receivedAt_total (a b : String × ProviderEventRow) :
    (decide (a.2.receivedAt ≤ b.2.receivedAt) || decide (b.2.receivedAt ≤ a.2.receivedAt)) =
      true := by
  simp only [Bool.or_eq_true, decide_eq_true_eq]
  exact le_total _ _

/-- A round claims a batch of the events that are still waiting. -/
theorem Since.claimed {start now : Time} {db db' : Db} (h : Since start db db')
    (harrival : NoArrival db start now) (limit : ℕ) :
    (dueEvents db' now).take limit =
      Backlog.batch limit (waiting db') (dueEvents db start) := by
  unfold Backlog.batch dueEvents
  rw [h.events now harrival,
    Backlog.filter_mergeSort _ receivedAt_trans receivedAt_total]

theorem waiting_of_mem_batch {limit : ℕ} {db : Db} {queue : List (String × ProviderEventRow)}
    {entry : String × ProviderEventRow}
    (h : entry ∈ Backlog.batch limit (waiting db) queue) :
    entry ∈ queue ∧ db.providerEvents.find entry.1 = some entry.2 := by
  obtain ⟨hqueue, hwaiting⟩ := List.mem_filter.mp (List.mem_of_mem_take h)
  exact ⟨hqueue, waiting_iff.mp hwaiting⟩

theorem eq_of_waiting {db : Db} {entry other : String × ProviderEventRow}
    (h : db.providerEvents.find entry.1 = some entry.2)
    (h' : db.providerEvents.find other.1 = some other.2) (hid : other.1 = entry.1) :
    other = entry := by
  rw [hid, h] at h'
  exact Prod.ext hid (Option.some.inj h').symm

section Round

variable {limit : ℕ} {pick : String → ℕ} {start now : Time} {db mid db' : Db}

/-- An event that woke a row matches it. -/
theorem meets_of_woken {claimed : List (String × ProviderEventRow)}
    (hclaimed : ∀ entry ∈ claimed, mid.providerEvents.find entry.1 = some entry.2)
    {entry : String × ProviderEventRow}
    (hentry : mid.providerEvents.find entry.1 = some entry.2)
    (hwoken : entry.1 ∈ wokenBy mid claimed pick) :
    (∃ id row, mid.ledger.attempts.find id = some row ∧
        joined pick id (paymentMatches claimed id row) = some entry ∧
          meetsPayment entry.2 id row = true) ∨
      ∃ id row, mid.ledger.refunds.find id = some row ∧ meetsRefund entry.2 id row = true := by
  rcases mem_wokenBy.mp hwoken with ⟨id, row, chosen, hrow, hjoined, hid⟩ |
    ⟨id, row, chosen, hrow, hjoined, hid⟩
  · obtain ⟨hmem, hmeets⟩ := mem_paymentMatches.mp (joined_mem hjoined)
    obtain rfl := eq_of_waiting hentry (hclaimed chosen hmem) hid
    exact Or.inl ⟨id, row, hrow, hjoined, hmeets⟩
  · obtain ⟨hmem, hmeets⟩ := mem_refundMatches.mp (joined_mem hjoined)
    obtain rfl := eq_of_waiting hentry (hclaimed chosen hmem) hid
    exact Or.inr ⟨id, row, hrow, hmeets⟩

theorem matched_of_woken {claimed : List (String × ProviderEventRow)}
    (hclaimed : ∀ entry ∈ claimed, mid.providerEvents.find entry.1 = some entry.2)
    {entry : String × ProviderEventRow}
    (hentry : mid.providerEvents.find entry.1 = some entry.2)
    (hwoken : entry.1 ∈ wokenBy mid claimed pick) : matched mid entry.2 = true := by
  rcases meets_of_woken hclaimed hentry hwoken with ⟨id, row, hrow, -, hmeets⟩ |
    ⟨id, row, hrow, hmeets⟩
  · exact matched_iff.mpr (Or.inl ⟨id, row, hrow, hmeets⟩)
  · exact matched_iff.mpr (Or.inr ⟨id, row, hrow, hmeets⟩)

/-- An event still waits after a round when it did before and the round has not marked it. -/
theorem waiting_round (hround : processInbox limit (fun _ => false) pick now mid = some db')
    {entry : String × ProviderEventRow} (hpending : entry.2.status = .pending) :
    waiting db' entry = true ↔ waiting mid entry = true ∧
      marks mid ((dueEvents mid now).take limit) pick entry.1 entry.2 = false := by
  obtain ⟨hevents, -, -⟩ := processInbox_some hround
  rw [waiting_iff, waiting_iff, hevents, Table.find_update]
  cases hfind : mid.providerEvents.find entry.1 with
  | none => simp
  | some event =>
      rw [Option.map_some, Option.some_inj, Option.some_inj]
      by_cases hmarks : marks mid ((dueEvents mid now).take limit) pick entry.1 event = true
      · rw [if_pos hmarks]
        constructor
        · intro heq
          have hstatus := congrArg ProviderEventRow.status heq
          rw [hpending] at hstatus
          cases hstatus
        · rintro ⟨rfl, hno⟩
          rw [hmarks] at hno
          cases hno
      · rw [if_neg hmarks]
        constructor
        · rintro rfl
          exact ⟨rfl, by simpa using hmarks⟩
        · exact And.left

theorem marks_iff {claimed : List (String × ProviderEventRow)}
    (hclaimed : ∀ entry ∈ claimed, mid.providerEvents.find entry.1 = some entry.2)
    {entry : String × ProviderEventRow}
    (hentry : mid.providerEvents.find entry.1 = some entry.2) :
    marks mid claimed pick entry.1 entry.2 = true ↔ entry ∈ claimed ∧
      (entry.2.providerObjectId = none ∨ entry.1 ∈ wokenBy mid claimed pick) := by
  unfold marks
  rw [Bool.and_eq_true, Bool.or_eq_true, decide_eq_true_iff, decide_eq_true_iff,
    Option.isNone_iff_eq_none, List.mem_map]
  refine and_congr_left fun _ => ⟨?_, fun h => ⟨entry, h, rfl⟩⟩
  rintro ⟨other, hother, hid⟩
  rwa [← eq_of_waiting hentry (hclaimed other hother) hid]

/-- A round that succeeds is a round on the backlog of due events. -/
theorem Since.round (h : Since start db mid) (harrival : NoArrival db start now)
    (hagree : EventsAgree db start)
    (hround : processInbox limit (fun _ => false) pick now mid = some db') :
    Backlog.Round limit (stuck db) (dueEvents db start) (waiting mid) (waiting db') := by
  have hbatch := h.claimed harrival limit
  have hpending : ∀ entry ∈ dueEvents db start, entry.2.status = .pending := by
    intro entry hentry
    have hdue := (mem_dueEvents.mp hentry).2
    unfold due at hdue
    exact of_decide_eq_true (Bool.and_eq_true_iff.mp hdue).1
  have hclaimed : ∀ entry ∈ Backlog.batch limit (waiting mid) (dueEvents db start),
      mid.providerEvents.find entry.1 = some entry.2 := fun entry hentry =>
    (waiting_of_mem_batch hentry).2
  constructor
  case shrinks =>
    intro entry hentry hafter
    exact ((waiting_round hround (hpending entry hentry)).mp hafter).1
  case waits =>
    intro entry hentry hbefore hout
    refine (waiting_round hround (hpending entry hentry)).mpr ⟨hbefore, ?_⟩
    rw [hbatch]
    by_contra hmarks
    have hmarks := (marks_iff hclaimed (waiting_iff.mp hbefore)).mp (by simpa using hmarks)
    exact hout hmarks.1
  case stays =>
    intro entry hentry hstuck hbefore
    refine (waiting_round hround (hpending entry hentry)).mpr ⟨hbefore, ?_⟩
    rw [hbatch]
    by_contra hmarks
    obtain ⟨-, hreason⟩ := (marks_iff hclaimed (waiting_iff.mp hbefore)).mp (by simpa using hmarks)
    obtain ⟨hobject, hunmatched⟩ := Bool.and_eq_true_iff.mp hstuck
    rcases hreason with hnone | hwoken
    · rw [hnone] at hobject
      cases hobject
    · have hmatched := h.matched_of_later (matched_of_woken hclaimed (waiting_iff.mp hbefore) hwoken)
      rw [hmatched] at hunmatched
      cases hunmatched
  case moves =>
    intro entry hentry hfree
    obtain ⟨hqueue, hfind⟩ := waiting_of_mem_batch hentry
    -- An event without an object is marked; any other wakes its row, or another event does.
    have hmarked : ∃ other ∈ Backlog.batch limit (waiting mid) (dueEvents db start),
        other.2.providerObjectId = none ∨
          other.1 ∈ wokenBy mid (Backlog.batch limit (waiting mid) (dueEvents db start)) pick := by
      by_cases hobject : entry.2.providerObjectId = none
      · exact ⟨entry, hentry, Or.inl hobject⟩
      have hsome : entry.2.providerObjectId.isSome = true := Option.isSome_iff_ne_none.mpr hobject
      have hmatched : matched db entry.2 = true := by
        unfold stuck at hfree
        rw [hsome, Bool.true_and, Bool.not_eq_false'] at hfree
        exact hfree
      rcases matched_iff.mp (h.matched_later hagree hqueue hsome hmatched) with
        ⟨id, row, hrow, hmeets⟩ | ⟨id, row, hrow, hmeets⟩
      · obtain ⟨other, hother⟩ :=
          exists_joined pick id (mem_paymentMatches.mpr ⟨hentry, hmeets⟩)
        exact ⟨other, (mem_paymentMatches.mp (joined_mem hother)).1,
          Or.inr (mem_wokenBy.mpr (Or.inl ⟨id, row, other, hrow, hother, rfl⟩))⟩
      · obtain ⟨other, hother⟩ :=
          exists_joined pick id (mem_refundMatches.mpr ⟨hentry, hmeets⟩)
        exact ⟨other, (mem_refundMatches.mp (joined_mem hother)).1,
          Or.inr (mem_wokenBy.mpr (Or.inr ⟨id, row, other, hrow, hother, rfl⟩))⟩
    obtain ⟨other, hother, hreason⟩ := hmarked
    obtain ⟨hotherQueue, hotherFind⟩ := waiting_of_mem_batch hother
    refine ⟨other, hother, ?_⟩
    by_contra hstill
    have hafter := (waiting_round hround (hpending other hotherQueue)).mp (by simpa using hstill)
    rw [hbatch, (marks_iff hclaimed hotherFind).mpr ⟨hother, hreason⟩] at hafter
    cases hafter.2

theorem find_wakePayments (attempts : Table String AttemptRow)
    (claimed : List (String × ProviderEventRow)) (id : String) :
    (wakePayments attempts claimed pick now).find id = (attempts.find id).map fun row =>
      match joined pick id (paymentMatches claimed id row) with
      | some event => wakePayment now row event.2
      | none => row := by
  unfold wakePayments
  rw [Table.find_update]
  cases attempts.find id with
  | none => rfl
  | some row =>
      rw [Option.map_some, Option.map_some]
      cases joined pick id (paymentMatches claimed id row) <;> rfl

/-- A round keeps the record of what the rounds have done. -/
theorem Since.after_round (h : Since start db mid) (harrival : NoArrival db start now)
    (hround : processInbox limit (fun _ => false) pick now mid = some db') :
    Since start db db' := by
  have hbatch := h.claimed harrival limit
  obtain ⟨hevents, hattempts, hrefunds⟩ := processInbox_some hround
  have hclaimed : ∀ entry ∈ (dueEvents mid now).take limit,
      entry ∈ dueEvents db start ∧ mid.providerEvents.find entry.1 = some entry.2 := by
    intro entry hentry
    rw [hbatch] at hentry
    exact waiting_of_mem_batch hentry
  constructor
  case events =>
    intro later hlater
    rw [hevents, Table.select_update_dropped, h.events later hlater, List.filter_filter]
    · refine List.filter_congr fun entry hentry => ?_
      obtain ⟨-, hdue⟩ := (db.providerEvents.mem_select _ entry.1 entry.2).mp hentry
      have hpending : entry.2.status = .pending :=
        of_decide_eq_true (Bool.and_eq_true_iff.mp hdue).1
      rw [Bool.eq_iff_iff, waiting_round hround hpending, Bool.and_eq_true, Bool.not_eq_true',
        and_comm]
    · intro _ event
      rfl
  case attempts =>
    intro id
    rw [hattempts, find_wakePayments]
    rcases h.attempts id with ⟨hnone, hnone'⟩ | ⟨row, row', hrow, hrow', hprovider, hid⟩
    · exact Or.inl ⟨hnone, by rw [hnone']; rfl⟩
    · rw [hrow', Option.map_some]
      refine Or.inr ⟨row, _, hrow, rfl, ?_⟩
      cases hjoined : joined pick id
          (paymentMatches ((dueEvents mid now).take limit) id row') with
      | none => exact ⟨hprovider, hid⟩
      | some entry =>
          refine ⟨hprovider, ?_⟩
          obtain ⟨hentry, hmeets⟩ := mem_paymentMatches.mp (joined_mem hjoined)
          show (wakePayment now row' entry.2).providerPaymentId = row.providerPaymentId ∨
            row.providerPaymentId = none ∧ ∃ other ∈ dueEvents db start,
              meetsPayment other.2 id row = true ∧ other.2.providerObjectId.isSome = true ∧
                (wakePayment now row' entry.2).providerPaymentId = other.2.providerObjectId
          cases hknown : row'.providerPaymentId with
          | some known =>
              have hkept : (wakePayment now row' entry.2).providerPaymentId =
                  row'.providerPaymentId := by
                simp [wakePayment, hknown]
              rw [hkept]
              exact hid
          | none =>
              have hnone : row.providerPaymentId = none := by
                rcases hid with hid | ⟨hnone, -⟩
                · rw [← hid, hknown]
                · exact hnone
              cases hobject : entry.2.providerObjectId with
              | none => exact Or.inl (by simp [wakePayment, hknown, hobject, hnone])
              | some object =>
                  obtain ⟨found, hfound, hmeets'⟩ := h.meets_of_later hrow' hmeets
                  rw [hrow] at hfound
                  cases hfound
                  exact Or.inr ⟨hnone, entry, (hclaimed entry hentry).1, hmeets',
                    by rw [hobject]; rfl, by simp [wakePayment, hknown, hobject]⟩
  case refunds =>
    intro id
    rw [hrefunds]
    unfold wakeRefunds
    rw [Table.find_update]
    rcases h.refunds id with ⟨hnone, hnone'⟩ | ⟨row, row', hrow, hrow', hprovider, hid⟩
    · exact Or.inl ⟨hnone, by rw [hnone']; rfl⟩
    · rw [hrow', Option.map_some]
      refine Or.inr ⟨row, _, hrow, rfl, ?_⟩
      split
      · exact ⟨hprovider, hid⟩
      · exact ⟨hprovider, hid⟩
  case settled =>
    intro entry hentry hgone id row last hrow hlast hmeets hobject
    rw [hattempts, find_wakePayments] at hlast
    obtain ⟨row', hrow', rfl⟩ := Option.map_eq_some_iff.mp hlast
    obtain ⟨object, hknown⟩ := Option.isSome_iff_exists.mp hobject
    have hpending : entry.2.status = .pending := by
      have hdue := (mem_dueEvents.mp hentry).2
      exact of_decide_eq_true (Bool.and_eq_true_iff.mp hdue).1
    by_cases hbefore : waiting mid entry = true
    · have hmarks : marks mid ((dueEvents mid now).take limit) pick entry.1 entry.2 = true := by
        by_contra hno
        have hafter := (waiting_round hround hpending).mpr ⟨hbefore, by simpa using hno⟩
        rw [hgone] at hafter
        cases hafter
      obtain ⟨-, hreason⟩ := (marks_iff (fun entry hentry => (hclaimed entry hentry).2)
        (waiting_iff.mp hbefore)).mp hmarks
      have hwoken := hreason.resolve_left (by rw [hknown]; exact Option.some_ne_none _)
      rcases meets_of_woken (fun entry hentry => (hclaimed entry hentry).2)
        (waiting_iff.mp hbefore) hwoken with ⟨id', found, hfound, hjoined, hmeets'⟩ |
          ⟨id', found, -, hmeets'⟩
      · have hsame : id' = id := by
          obtain ⟨-, hreference, -⟩ := meetsPayment_iff.mp hmeets
          obtain ⟨-, hreference', -⟩ := meetsPayment_iff.mp hmeets'
          exact Option.some.inj (hreference'.symm.trans hreference)
        subst id'
        rw [hrow'] at hfound
        cases hfound
        rw [hjoined]
        show (row'.providerPaymentId <|> entry.2.providerObjectId) = entry.2.providerObjectId
        obtain ⟨-, -, -, hwanted⟩ := meetsPayment_iff.mp hmeets'
        rcases hwanted with hnone | ⟨-, heq⟩
        · rw [hnone]
          rfl
        · rw [heq, hknown]
          rfl
      · obtain ⟨hkind, -⟩ := meetsPayment_iff.mp hmeets
        have hkind' : entry.2.objectKind = .refund := by
          unfold meetsRefund at hmeets'
          simp only [Bool.and_eq_true, decide_eq_true_eq] at hmeets'
          exact hmeets'.1.1.1
        rw [hkind] at hkind'
        cases hkind'
    · have hkept := h.settled entry hentry (by simpa using hbefore) id row row' hrow hrow' hmeets
        hobject
      cases joined pick id (paymentMatches ((dueEvents mid now).take limit) id row') with
      | none => exact hkept
      | some other =>
          show (row'.providerPaymentId <|> other.2.providerObjectId) = entry.2.providerObjectId
          rw [hkept, hknown]
          rfl
  case marked =>
    intro entry hentry hgone
    rw [hevents, Table.find_update]
    have hpending : entry.2.status = .pending := by
      have hdue := (mem_dueEvents.mp hentry).2
      exact of_decide_eq_true (Bool.and_eq_true_iff.mp hdue).1
    by_cases hbefore : waiting mid entry = true
    · rw [waiting_iff.mp hbefore, Option.map_some]
      refine ⟨_, rfl, ?_⟩
      split
      · rfl
      · next hno =>
          have hafter := (waiting_round hround hpending).mpr ⟨hbefore, by simpa using hno⟩
          rw [hgone] at hafter
          cases hafter
    · obtain ⟨event, hfind, hstatus⟩ := h.marked entry hentry (by simpa using hbefore)
      rw [hfind, Option.map_some]
      refine ⟨_, rfl, ?_⟩
      split
      · rfl
      · exact hstatus

end Round

section Run

variable {limit : ℕ} {start : Time} {db db' : Db} {rounds : List InboxRound}

theorem run_since (hrun : Trace (InboxStep limit) db rounds db')
    (hquiet : ∀ round ∈ rounds, NoArrival db start round.now) : Since start db db' := by
  refine hrun.preserves (I := Since start db) (P := fun round => NoArrival db start round.now)
    ?_ hquiet (Since.refl start db)
  rintro round s t harrival hsince ⟨mid, hkeeps, hround⟩
  exact (hsince.keeps hkeeps).1.after_round harrival hround

/-- A run of rounds is a run on the backlog of due events. -/
theorem Since.backlog {mid : Db} (hsince : Since start db mid)
    (hrun : Trace (InboxStep limit) mid rounds db')
    (hquiet : ∀ round ∈ rounds, NoArrival db start round.now) (hagree : EventsAgree db start) :
    Trace (fun _ : InboxRound => Backlog.Round limit (stuck db) (dueEvents db start))
      (waiting mid) rounds (waiting db') := by
  induction hrun with
  | nil => exact Trace.nil _
  | cons head _ ih =>
      obtain ⟨before, hkeeps, hround⟩ := head
      obtain ⟨hbefore, hwaiting⟩ := hsince.keeps hkeeps
      have harrival := hquiet _ List.mem_cons_self
      have hfirst := hbefore.round harrival hagree hround
      rw [funext hwaiting] at hfirst
      exact Trace.cons hfirst (ih (hbefore.after_round harrival hround)
        fun round hmem => hquiet round (List.mem_cons_of_mem _ hmem))

theorem run_backlog (hrun : Trace (InboxStep limit) db rounds db')
    (hquiet : ∀ round ∈ rounds, NoArrival db start round.now) (hagree : EventsAgree db start) :
    Trace (fun _ : InboxRound => Backlog.Round limit (stuck db) (dueEvents db start))
      (waiting db) rounds (waiting db') :=
  (Since.refl start db).backlog hrun hquiet hagree

theorem waiting_start {entry : String × ProviderEventRow} (hentry : entry ∈ dueEvents db start) :
    waiting db entry = true := waiting_iff.mpr (mem_dueEvents.mp hentry).1

/-- An event behind a batch of stuck events is never processed. -/
theorem crowded_waits (hrun : Trace (InboxStep limit) db rounds db')
    (hquiet : ∀ round ∈ rounds, NoArrival db start round.now) (hagree : EventsAgree db start)
    {entry : String × ProviderEventRow} (hentry : entry ∈ dueEvents db start)
    (hcrowd : limit ≤ Backlog.crowd (stuck db) (dueEvents db start) entry) :
    waiting db' entry = true :=
  Backlog.never_leaves (run_backlog hrun hquiet hagree) hentry hcrowd
    (fun _ hother _ => waiting_start hother) (waiting_start hentry)

theorem not_waiting_of_processed {entry : String × ProviderEventRow}
    (hentry : entry ∈ dueEvents db start) {event : ProviderEventRow}
    (hfind : db'.providerEvents.find entry.1 = some event) (hstatus : event.status = .processed) :
    waiting db' entry = false := by
  by_contra hwaiting
  have hsame := waiting_iff.mp (by simpa using hwaiting)
  rw [hfind] at hsame
  cases hsame
  have hdue := (mem_dueEvents.mp hentry).2
  unfold due at hdue
  simp [hstatus] at hdue

/-- The rounds drain the due events that match local rows exactly when no batch fills up with
unmatched events and the events of each attempt agree. -/
theorem inbox_drained_iff (limit : ℕ) (start : Time) (db db' : Db) (rounds : List InboxRound)
    (hrun : Trace (InboxStep limit) db rounds db')
    (hquiet : ∀ round ∈ rounds, NoArrival db start round.now)
    (hlong : db.providerEvents.count (fun _ event => decide (event.status = .pending)) ≤
      rounds.length) :
    (∀ entry ∈ dueEvents db start, matched db entry.2 = true →
      ∃ event, db'.providerEvents.find entry.1 = some event ∧ event.status = .processed) ↔
      Unobstructed limit start db := by
  have hsince := run_since hrun hquiet
  constructor
  · intro hdrained
    have hagree : EventsAgree db start := by
      intro entry hentry other hother row hrow hmeets hmeets' hobject hobject'
      have hfind := (db.ledger.attempts.find_eq_some row.1 row.2).mpr hrow
      have hgone : ∀ event ∈ dueEvents db start, meetsPayment event.2 row.1 row.2 = true →
          waiting db' event = false := by
        intro event hevent hmatch
        obtain ⟨after, hafter, hstatus⟩ := hdrained event hevent
          (matched_iff.mpr (Or.inl ⟨row.1, row.2, hfind, hmatch⟩))
        exact not_waiting_of_processed hevent hafter hstatus
      rcases hsince.attempts row.1 with ⟨hnone, -⟩ | ⟨found, row', hfound, hrow', -⟩
      · rw [hnone] at hfind
        cases hfind
      · have hkept := hsince.settled entry hentry (hgone entry hentry hmeets) row.1 row.2 row' hfind
          hrow' hmeets hobject
        have hkept' := hsince.settled other hother (hgone other hother hmeets') row.1 row.2 row'
          hfind hrow' hmeets' hobject'
        exact hkept.symm.trans hkept'
    refine ⟨?_, hagree⟩
    intro entry hentry hmatched
    by_contra hcrowd
    have hwaits := crowded_waits hrun hquiet hagree hentry (by omega)
    obtain ⟨event, hfind, hstatus⟩ := hdrained entry hentry hmatched
    rw [not_waiting_of_processed hentry hfind hstatus] at hwaits
    cases hwaits
  · intro hclear entry hentry hmatched
    refine hsince.marked entry hentry ?_
    refine Backlog.leaves (run_backlog hrun hquiet hclear.agree) hentry ?_
      (hclear.uncrowded entry hentry hmatched) ?_
    · unfold stuck
      rw [hmatched, Bool.not_true, Bool.and_false]
    · refine le_trans ?_ hlong
      have hdue : (dueEvents db start).length ≤
          db.providerEvents.count fun _ event => decide (event.status = .pending) := by
        unfold dueEvents Table.count
        rw [List.length_mergeSort]
        refine (List.monotone_filter_right _ fun row hrow => ?_).length_le
        exact (Bool.and_eq_true_iff.mp hrow).1
      exact List.filter_sublist.length_le.trans hdue

end Run

/-- The claims that follow the inbox in every reconciliation round change no identity. -/
theorem claims_keepIdentities (limit : ℕ) (maxBackoff : Time) (leaseToken : String)
    (skip : String → Bool) (now : Time) (db : Db) :
    KeepsIdentities db (claimPayments limit maxBackoff leaseToken skip now db).2 ∧
      KeepsIdentities db (claimRefunds limit maxBackoff leaseToken skip now db).2 := by
  constructor
  · refine ⟨rfl, ?_, rowsRelate_refl (fun _ => ⟨rfl, rfl⟩) _⟩
    exact rowsRelate_update (fun _ => ⟨rfl, rfl⟩) _ _ _ fun _ _ _ => ⟨rfl, rfl⟩
  · refine ⟨rfl, rowsRelate_refl (fun _ => ⟨rfl, rfl⟩) _, ?_⟩
    exact rowsRelate_update (fun _ => ⟨rfl, rfl⟩) _ _ _ fun _ _ _ => ⟨rfl, rfl⟩

/-- A payment that waits for its provider id, and the events of an inbox. -/
def inboxOf (events : Table String ProviderEventRow) : Db :=
  { singleSeat with
    ledger :=
      { attempts := Table.single "PAY-1"
          { orderId := "TKT-1"
            status := .processing
            startedAt := 0
            processingDeadline := 60
            scheduledCompleteAt := none
            completedAt := none
            timedOutAt := none
            acceptedAt := none
            failureReason := none
            provider := "stripe"
            providerPaymentId := none
            providerStatus := none
            currency := "usd"
            providerLastSyncAt := none
            providerTerminalAt := none
            providerRetryCount := 0
            nextReconcileAt := some 0
            leaseUntil := none
            leaseToken := none }
        refunds := Table.empty }
    providerEvents := events }

def paymentEvent (eventId objectId referenceId : String) (receivedAt : Time) :
    ProviderEventRow where
  provider := "stripe"
  providerEventId := eventId
  objectKind := .payment
  providerObjectId := some objectId
  localReferenceId := some referenceId
  status := .pending
  receivedAt := receivedAt
  processedAt := none
  nextRetryAt := receivedAt

/-- The oldest event is about a payment of another environment, the other two about the local
one. -/
def mixedEvents (second third : ProviderEventRow) : Table String ProviderEventRow :=
  ⟨[("PVE-1", paymentEvent "evt_1" "pi_1" "PAY-0" 0), ("PVE-2", second), ("PVE-3", third)],
    by simp⟩

def secondEvent : ProviderEventRow := paymentEvent "evt_2" "pi_2" "PAY-1" 1

def thirdEvent : ProviderEventRow := paymentEvent "evt_3" "pi_2" "PAY-1" 2

def mixedInbox : Db := inboxOf (mixedEvents secondEvent thirdEvent)

/-- A round at time 2 has processed the event. -/
def processedEvent (event : ProviderEventRow) : ProviderEventRow :=
  { event with status := .processed, processedAt := some 2 }

/-- The local payment has got its provider id. -/
def wokenInbox (events : Table String ProviderEventRow) : Db :=
  { inboxOf events with
    ledger :=
      { (inboxOf events).ledger with
        attempts := (inboxOf events).ledger.attempts.update (fun _ _ => true) fun _ row =>
          { row with providerPaymentId := some "pi_2", nextReconcileAt := some 2 } } }

/-- An older event about a payment of another environment comes first. -/
def blockedInbox : Db :=
  inboxOf ⟨[("PVE-1", paymentEvent "evt_1" "pi_1" "PAY-0" 0),
    ("PVE-2", paymentEvent "evt_2" "pi_2" "PAY-1" 1)], by decide⟩

def firstRound : InboxRound := ⟨fun _ => 0, 1⟩

theorem noArrival_now (db : Db) (now : Time) : NoArrival db now now :=
  ⟨le_rfl, fun _ _ _ _ h => h⟩

theorem keepsIdentities_refl (db : Db) : KeepsIdentities db db :=
  ⟨rfl, rowsRelate_refl (fun _ => ⟨rfl, rfl⟩) _, rowsRelate_refl (fun _ => ⟨rfl, rfl⟩) _⟩

theorem dueEvents_blockedInbox :
    dueEvents blockedInbox 1 = [("PVE-1", paymentEvent "evt_1" "pi_1" "PAY-0" 0),
      ("PVE-2", paymentEvent "evt_2" "pi_2" "PAY-1" 1)] :=
  List.mergeSort_of_pairwise (by decide)

/-- After one round, and after two. -/
def mixedOnce : Db := wokenInbox (mixedEvents (processedEvent secondEvent) thirdEvent)

def mixedTwice : Db :=
  wokenInbox (mixedEvents (processedEvent secondEvent) (processedEvent thirdEvent))

def mixedRound : InboxRound := ⟨fun _ => 0, 2⟩

/-- Three rounds with batches of two, of which the unmatched event takes up one place each time. -/
theorem mixedInbox_run :
    Trace (InboxStep 2) mixedInbox [mixedRound, mixedRound, mixedRound] mixedTwice := by
  have hfirst : dueEvents mixedInbox 2 = [("PVE-1", paymentEvent "evt_1" "pi_1" "PAY-0" 0),
      ("PVE-2", secondEvent), ("PVE-3", thirdEvent)] :=
    List.mergeSort_of_pairwise (by decide)
  have hsecond : dueEvents mixedOnce 2 = [("PVE-1", paymentEvent "evt_1" "pi_1" "PAY-0" 0),
      ("PVE-3", thirdEvent)] :=
    List.mergeSort_of_pairwise (by decide)
  have hthird : dueEvents mixedTwice 2 = [("PVE-1", paymentEvent "evt_1" "pi_1" "PAY-0" 0)] :=
    List.mergeSort_of_pairwise (by decide)
  have hone : InboxStep 2 mixedRound mixedInbox mixedOnce := by
    refine ⟨mixedInbox, keepsIdentities_refl _, ?_⟩
    unfold processInbox
    rw [claimEvents_eq, show mixedRound.now = 2 from rfl, hfirst]
    rfl
  have htwo : InboxStep 2 mixedRound mixedOnce mixedTwice := by
    refine ⟨mixedOnce, keepsIdentities_refl _, ?_⟩
    unfold processInbox
    rw [claimEvents_eq, show mixedRound.now = 2 from rfl, hsecond]
    rfl
  have hthree : InboxStep 2 mixedRound mixedTwice mixedTwice := by
    refine ⟨mixedTwice, keepsIdentities_refl _, ?_⟩
    unfold processInbox
    rw [claimEvents_eq, show mixedRound.now = 2 from rfl, hthird]
    rfl
  exact Trace.cons hone (Trace.cons htwo (Trace.single hthree))

theorem inbox_drained_iff_mixedInbox :
    (∀ entry ∈ dueEvents mixedInbox 2, matched mixedInbox entry.2 = true →
      ∃ event, mixedTwice.providerEvents.find entry.1 = some event ∧
        event.status = .processed) ↔ Unobstructed 2 2 mixedInbox := by
  refine inbox_drained_iff 2 2 mixedInbox mixedTwice [mixedRound, mixedRound, mixedRound]
    mixedInbox_run ?_ (by decide)
  intro round hmem
  have hround : round = mixedRound := by simpa using hmem
  rw [hround]
  exact noArrival_now mixedInbox 2

/-- With batches of one the older event is claimed in every round, and the other never is. -/
theorem unmatched_event_blocks_inbox :
    ¬ ∀ (limit : ℕ) (start : Time) (db db' : Db) (rounds : List InboxRound), 1 ≤ limit →
      Trace (InboxStep limit) db rounds db' →
      (∀ round ∈ rounds, NoArrival db start round.now) →
      db.providerEvents.count (fun _ event => decide (event.status = .pending)) ≤ rounds.length →
      ∀ entry ∈ dueEvents db start, matched db entry.2 = true →
        ∃ event, db'.providerEvents.find entry.1 = some event ∧ event.status = .processed := by
  intro hclaim
  have hround : processInbox 1 (fun _ => false) firstRound.pick firstRound.now blockedInbox =
      some blockedInbox := by
    unfold processInbox
    rw [claimEvents_eq, show firstRound.now = 1 from rfl, dueEvents_blockedInbox]
    rfl
  have hstep : InboxStep 1 firstRound blockedInbox blockedInbox :=
    ⟨blockedInbox, keepsIdentities_refl blockedInbox, hround⟩
  have hquiet : ∀ round ∈ [firstRound, firstRound], NoArrival blockedInbox 1 round.now := by
    intro round hmem
    have hfirst : round = firstRound := by simpa using hmem
    rw [hfirst]
    exact noArrival_now blockedInbox 1
  obtain ⟨event, hfind, hstatus⟩ := hclaim 1 1 blockedInbox blockedInbox [firstRound, firstRound]
    le_rfl (Trace.cons hstep (Trace.single hstep)) hquiet (by decide)
    ("PVE-2", paymentEvent "evt_2" "pi_2" "PAY-1" 1)
    (by rw [dueEvents_blockedInbox]; exact List.mem_cons_of_mem _ List.mem_cons_self) (by decide)
  have hpending : blockedInbox.providerEvents.find "PVE-2" =
      some (paymentEvent "evt_2" "pi_2" "PAY-1" 1) := by decide
  rw [hpending] at hfind
  cases hfind
  cases hstatus

end Reconciliation
end Ticketing
