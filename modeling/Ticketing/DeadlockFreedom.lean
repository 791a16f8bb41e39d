import Ticketing.LockFlows

/-!
# Waiting transactions form no cycle

Below its order every transaction locks rows that belong to the order, and seats in the order of
their ids. Only the inbox locks payment attempts and refunds without their order, so a cycle needs
an inbox statement that waits while it holds one of these.
-/

namespace Ticketing.Locks

open Locking Relational

/-! ## The lock discipline -/

section Discipline

variable (c : Collation) (cat : Catalogue)

/-- The row without which no transaction on orders locks this one. -/
def guard : Row → Option Row
  | .reservation id => some (.order (cat.orderOfReservation id))
  | .reservationSeat id _ | .orderReservationKey id => some (.reservation id)
  | .availabilityChange id => some (.sessionSeat id)
  | .attempt id | .refundAttemptKey id => some (.order (cat.orderOfAttempt id))
  | .refund id => some (.order (cat.orderOfRefund id))
  | .processingKey id | .buyerRefundKey id => some (.order id)
  | .notificationKey .refundTerminal id => some (.order (cat.orderOfRefund id))
  | .notificationKey .autoRefund id | .notificationKey .autoRefundFailed id =>
      some (.order (cat.orderOfAttempt id))
  | .notificationKey _ id => some (.order id)
  | .reservationKey _ _ | .sessionSeat _ | .order _ | .providerEvent _ => none

/-- Orders and reservation keys come first, seats in the order of their ids, and every other row
after its guard. -/
def OrderRule (drawn : List Row) (held : List Row) (row : Row) : Prop :=
  row ∈ drawn ∨
    match row with
    | .order _ | .reservationKey _ _ => ∀ r ∈ held, r ∈ drawn
    | .sessionSeat id => ∀ other, .sessionSeat other ∈ held → c.Before other id
    | .providerEvent _ => False
    | row => ∃ g, guard cat row = some g ∧ g ∈ held

def isWorkerRow (row : Row) : Bool := isEvent row || isAttempt row || isRefund row

def Flow.isWorker : Flow → Bool
  | .processInbox | .claimPayments | .claimRefunds => true
  | _ => false

/-- The workers skip locked rows; only the inbox also waits, for attempts and refunds. -/
def Flow.admits (flow : Flow) : Rule Row := fun skipLocked held row =>
  if flow.isWorker then
    (skipLocked = true ∧ isWorkerRow row = true) ∨
      (flow = .processInbox ∧ (isAttempt row || isRefund row) = true)
  else OrderRule c cat flow.drawn held row

/-- What the rule keeps true of the rows held. -/
def Flow.keeps (flow : Flow) (held : List Row) : Prop :=
  if flow.isWorker then ∀ row ∈ held, isWorkerRow row = true
  else ∀ row ∈ held, row ∈ flow.drawn ∨ ∀ g, guard cat row = some g → g ∈ held

/-- No attempt or refund among the rows of an inbox statement. -/
def calm (flow : Flow) (held : List Row) : Bool :=
  decide (flow ≠ .processInbox) || held.all isEvent

variable {c cat} {flow : Flow} {held : List Row} {row : Row} {skipLocked : Bool}

theorem keeps_lockRow (h : flow.keeps cat held)
    (hrow : row ∈ held ∨ flow.admits c cat skipLocked held row) :
    flow.keeps cat (lockRow held row) := by
  unfold Flow.keeps at h ⊢
  unfold Flow.admits at hrow
  split_ifs at h hrow ⊢ with hworker
  · intro r hr
    obtain hr | rfl := mem_lockRow.mp hr
    · exact h r hr
    · obtain hheld | ⟨-, hr⟩ | ⟨-, hr⟩ := hrow
      · exact h r hheld
      · exact hr
      · rw [isWorkerRow, Bool.or_assoc, hr, Bool.or_true]
  · intro r hr
    obtain hr | rfl := mem_lockRow.mp hr
    · exact (h r hr).imp id fun hg g hguard => mem_lockRow.mpr (.inl (hg g hguard))
    · obtain hheld | hdrawn | hrule := hrow
      · exact (h r hheld).imp id fun hg g hguard => mem_lockRow.mpr (.inl (hg g hguard))
      · exact .inl hdrawn
      · refine .inr fun g hguard => mem_lockRow.mpr (.inl ?_)
        cases r with
        | order | reservationKey | sessionSeat | providerEvent => cases hguard
        | _ =>
            obtain ⟨g', hg', hheld⟩ := hrule
            obtain rfl := Option.some.inj (hguard.symm.trans hg')
            exact hheld

end Discipline

/-! ## The scripts follow the discipline -/

section Scripts

variable {c : Collation} {cat : Catalogue} {flow : Flow} {must held rows : List Row}
  {seatIds : List String} {row : Row} {script : List (LockStatement Row)}
  {statement : LockStatement Row}

/-- The rows that a flow has locked by now, and all of its seats. -/
structure Holds (must : List Row) (seatIds : List String) (held : List Row) : Prop where
  rows : ∀ row ∈ must, row ∈ held
  seats : ∀ id, .sessionSeat id ∈ held ↔ id ∈ seatIds

/-- A row that the held rows admit, and that is no new seat. -/
def Covered (cat : Catalogue) (drawn must : List Row) (seatIds : List String) (row : Row) : Prop :=
  row ∈ must ∨ (∃ id ∈ seatIds, row = .sessionSeat id) ∨
    ((∀ id, row ≠ .sessionSeat id) ∧ (row ∈ drawn ∨ ∃ g, guard cat row = some g ∧
      (g ∈ must ∨ ∃ id ∈ seatIds, g = .sessionSeat id)))

theorem Covered.admitted (h : Covered cat flow.drawn must seatIds row) (hflow : flow.isWorker = false)
    (hholds : Holds must seatIds held) (skipLocked : Bool) :
    row ∈ held ∨ flow.admits c cat skipLocked held row := by
  rw [Flow.admits, hflow, if_neg Bool.false_ne_true]
  obtain hmust | ⟨id, hid, rfl⟩ | ⟨hseat, hdrawn | ⟨g, hguard, hg⟩⟩ := h
  · exact .inl (hholds.rows row hmust)
  · exact .inl ((hholds.seats id).mpr hid)
  · exact .inr (.inl hdrawn)
  · have hheld : g ∈ held := by
      obtain hg | ⟨id, hid, rfl⟩ := hg
      · exact hholds.rows g hg
      · exact (hholds.seats id).mpr hid
    refine .inr (.inr ?_)
    cases row with
    | order | reservationKey | sessionSeat | providerEvent => cases hguard
    | _ => exact ⟨g, hguard, hheld⟩

theorem Covered.kept (h : Covered cat flow.drawn must seatIds row)
    (hholds : Holds must seatIds held) : Holds must seatIds (lockRow held row) := by
  refine ⟨fun r hr => mem_lockRow.mpr (.inl (hholds.rows r hr)), fun seatId => ?_⟩
  rw [mem_lockRow, hholds.seats]
  refine ⟨fun hid => hid.elim id fun heq => ?_, .inl⟩
  obtain hmust | ⟨other, hother, rfl⟩ | ⟨hseat, -⟩ := h
  · exact (hholds.seats seatId).mp (heq ▸ hholds.rows row hmust)
  · cases heq
    exact hother
  · exact absurd heq.symm (hseat seatId)

/-- A statement on covered rows, and on rows that are held when it starts. -/
theorem disciplined_covered (hflow : flow.isWorker = false) (hholds : Holds must seatIds held)
    (hrows : ∀ rows, statement.chooses held rows = true → ∀ row ∈ rows,
      row ∈ held ∨ Covered cat flow.drawn must seatIds row)
    (hrest : ∀ held, Holds must seatIds held → Disciplined (flow.admits c cat) script held) :
    Disciplined (flow.admits c cat) (statement :: script) held := by
  refine disciplined_of_kept
    (Q := fun held' => Holds must seatIds held' ∧ ∀ row ∈ held, row ∈ held')
    ⟨hholds, fun row hrow => hrow⟩ ?_ ?_ fun held' h => hrest held' h.1
  · intro rows hchosen held' h row hrow
    obtain hheld | hcovered := hrows rows hchosen row hrow
    · exact .inl (h.2 row hheld)
    · exact hcovered.admitted hflow h.1 _
  · intro rows hchosen held' h row hrow
    refine ⟨?_, fun r hr => mem_lockRow.mpr (.inl (h.2 r hr))⟩
    obtain hheld | hcovered := hrows rows hchosen row hrow
    · rw [lockRow, if_pos (h.2 row hheld)]
      exact h.1
    · exact hcovered.kept h.1

/-- Rows that a statement must lock, none of them a seat, are held after it. -/
theorem disciplined_required (hflow : flow.isWorker = false) (hholds : Holds must seatIds held)
    (hseats : ∀ row ∈ rows, ∀ id, row ≠ .sessionSeat id)
    (hrows : ∀ row ∈ rows, Covered cat flow.drawn must seatIds row)
    (hrest : ∀ held, Holds (rows ++ must) seatIds held →
      Disciplined (flow.admits c cat) script held) :
    Disciplined (flow.admits c cat) (.forUpdate rows :: script) held := by
  intro chosen hchosen
  obtain rfl : chosen = rows := of_decide_eq_true hchosen
  have hunordered : chosen.Pairwise fun _ _ => True := List.pairwise_of_forall fun _ _ => trivial
  refine locks_in_order hunordered ?_ ?_
  · intro held' row hrow hsub hheld'
    refine (hrows row hrow).admitted hflow ⟨fun r hr => hsub r (hholds.rows r hr), fun id => ?_⟩ _
    rw [← hholds.seats]
    refine ⟨fun hid => ?_, hsub _⟩
    obtain hold | ⟨hnew, -⟩ := hheld' _ hid
    · exact hold
    · exact absurd rfl (hseats _ hnew id)
  · intro held' hheld'
    refine hrest held' ⟨fun r hr => ?_, fun seatId => ?_⟩
    · rw [hheld']
      exact (List.mem_append.mp hr).symm.imp (hholds.rows r) id
    · rw [hheld', hholds.seats]
      exact ⟨fun h => h.elim id fun hid => absurd rfl (hseats _ hid seatId), .inl⟩

theorem mem_seatRows {id : String} : .sessionSeat id ∈ seatRows c seatIds ↔ id ∈ seatIds := by
  rw [seatRows, List.mem_map]
  simp

/-- Two seats in the order of their ids. -/
def SeatsInOrder (c : Collation) (row row' : Row) : Prop :=
  ∀ id, row = .sessionSeat id → ∀ id', row' = .sessionSeat id' → c.Before id id'

theorem seatRows_ordered : (seatRows c seatIds).Pairwise (SeatsInOrder c) := by
  rw [seatRows, List.pairwise_map]
  refine (Collation.orderBy_before seatIds.nodup_dedup).imp fun h id hid id' hid' => ?_
  cases hid
  cases hid'
  exact h

/-- The seats are locked in the order of their ids, after no other seat. -/
theorem disciplined_seats (hflow : flow.isWorker = false) (hholds : Holds must [] held)
    (hrest : ∀ held, Holds must seatIds held → Disciplined (flow.admits c cat) script held) :
    Disciplined (flow.admits c cat) (lockSessionSeats c seatIds :: script) held := by
  intro chosen hchosen
  obtain rfl : chosen = seatRows c seatIds := of_decide_eq_true hchosen
  refine locks_in_order seatRows_ordered ?_ ?_
  · intro held' row hrow hsub hheld'
    obtain ⟨id, -, rfl⟩ := List.mem_map.mp hrow
    rw [Flow.admits, hflow, if_neg Bool.false_ne_true]
    refine .inr (.inr fun other hother => ?_)
    obtain hold | ⟨-, hbefore⟩ := hheld' _ hother
    · exact absurd ((hholds.seats other).mp hold) List.not_mem_nil
    · exact hbefore other rfl id rfl
  · intro held' hheld'
    refine hrest held' ⟨fun r hr => (hheld' r).mpr (.inl (hholds.rows r hr)), fun id => ?_⟩
    rw [hheld', hholds.seats, mem_seatRows]
    simp

theorem covered_of_guard {drawn : List Row} {g : Row} (hseat : ∀ id, row ≠ .sessionSeat id)
    (hguard : guard cat row = some g) (hg : g ∈ must) : Covered cat drawn must seatIds row :=
  .inr (.inr ⟨hseat, .inr ⟨g, hguard, .inl hg⟩⟩)

theorem covered_seatChange {drawn : List Row} (h : isSeatChange seatIds row = true) :
    Covered cat drawn must seatIds row := by
  cases row with
  | sessionSeat id => exact .inr (.inl ⟨id, of_decide_eq_true h, rfl⟩)
  | availabilityChange id =>
      refine .inr (.inr ⟨fun other heq => (by cases heq), .inr ⟨.sessionSeat id, rfl, .inr ?_⟩⟩)
      exact ⟨id, of_decide_eq_true h, rfl⟩
  | _ => cases h

section Flow

variable (hflow : flow.isWorker = false)

include hflow

theorem disciplined_updateRow (hholds : Holds must seatIds held) (hrow : row ∈ must)
    (hrest : ∀ held, Holds must seatIds held → Disciplined (flow.admits c cat) script held) :
    Disciplined (flow.admits c cat) (updateRow row :: script) held := by
  refine disciplined_covered hflow hholds (fun rows hrows r hr => .inr (.inl ?_)) hrest
  obtain rfl := of_decide_eq_true (List.all_eq_true.mp hrows r hr)
  exact hrow

theorem disciplined_seatChanges (hholds : Holds must seatIds held)
    (hrest : ∀ held, Holds must seatIds held → Disciplined (flow.admits c cat) script held) :
    Disciplined (flow.admits c cat) (updateSessionSeats seatIds :: script) held :=
  disciplined_covered hflow hholds
    (fun _ hrows r hr => .inr (covered_seatChange (List.all_eq_true.mp hrows r hr))) hrest

theorem disciplined_attempts {orderId : String} (hholds : Holds must seatIds held)
    (horder : .order orderId ∈ must)
    (hrest : ∀ held, Holds must seatIds held → Disciplined (flow.admits c cat) script held) :
    Disciplined (flow.admits c cat)
      (lockProcessingForOrder cat orderId :: markTimedOut cat orderId :: script) held := by
  refine disciplined_covered hflow hholds (fun rows hrows r hr => .inr ?_) fun held' hholds' => ?_
  · have hattempt : cat.isAttemptOf orderId r = true := List.all_eq_true.mp hrows r hr
    cases r with
    | attempt id =>
        refine covered_of_guard (fun _ heq => by cases heq) ?_ horder
        rw [guard, of_decide_eq_true hattempt]
    | _ => cases hattempt
  · refine disciplined_covered hflow hholds' (fun rows hrows r hr => .inl ?_) hrest
    exact of_decide_eq_true (Bool.and_eq_true_iff.mp (List.all_eq_true.mp hrows r hr)).1

theorem disciplined_ignoring (hholds : Holds must seatIds held)
    (hrows : ∀ row ∈ rows, Covered cat flow.drawn must seatIds row)
    (hrest : ∀ held, Holds must seatIds held → Disciplined (flow.admits c cat) script held) :
    Disciplined (flow.admits c cat) (.insertOrIgnore rows :: script) held := by
  refine disciplined_covered hflow hholds (fun chosen hchosen r hr => .inr ?_) hrest
  obtain rfl : chosen = rows := of_decide_eq_true hchosen
  exact hrows r hr

theorem disciplined_notification {kind : NotificationKind} {id : String} {g : Row}
    (hholds : Holds must seatIds held) (hguard : guard cat (.notificationKey kind id) = some g)
    (hg : g ∈ must) : Disciplined (flow.admits c cat) [insertNotification kind id] held := by
  refine disciplined_ignoring hflow hholds (fun row hrow => ?_) fun _ _ => trivial
  obtain rfl := List.mem_singleton.mp hrow
  exact covered_of_guard (fun _ heq => by cases heq) hguard hg

/-- The lock of one row below a row that is held. -/
theorem disciplined_below {g : Row} (hholds : Holds must seatIds held)
    (hseat : ∀ id, row ≠ .sessionSeat id) (hguard : guard cat row = some g) (hg : g ∈ must)
    (hrest : ∀ held, Holds (row :: must) seatIds held → Disciplined (flow.admits c cat) script held) :
    Disciplined (flow.admits c cat) (.forUpdate [row] :: script) held := by
  refine disciplined_required hflow hholds (fun r hr => ?_) (fun r hr => ?_) hrest
  · obtain rfl := List.mem_singleton.mp hr
    exact hseat
  · obtain rfl := List.mem_singleton.mp hr
    exact covered_of_guard hseat hguard hg

theorem disciplined_entry {orderId : String} {skipLocked : Bool}
    (hrest : ∀ held, Holds [.order orderId] [] held → Disciplined (flow.admits c cat) script held) :
    Disciplined (flow.admits c cat)
      (⟨fun _ chosen => decide (chosen = [.order orderId]), skipLocked, true⟩ :: script) [] := by
  intro chosen hchosen
  obtain rfl : chosen = [.order orderId] := of_decide_eq_true hchosen
  refine ⟨.inr ?_, hrest _ ⟨fun r hr => hr, fun id => ?_⟩, trivial⟩
  · rw [Flow.admits, hflow, if_neg Bool.false_ne_true]
    exact .inr fun r hr => by cases hr
  · show Row.sessionSeat id ∈ [Row.order orderId] ↔ id ∈ []
    simp

/-- The end of the flows that settle an order. -/
theorem disciplined_settle {orderId reservationId : String} {kind : NotificationKind}
    (hholds : Holds must seatIds held) (horder : .order orderId ∈ must)
    (hreservation : .reservation reservationId ∈ must)
    (hguard : guard cat (.notificationKey kind orderId) = some (.order orderId)) :
    Disciplined (flow.admits c cat) [updateSessionSeats seatIds,
      updateRow (.reservation reservationId), updateRow (.order orderId),
      insertNotification kind orderId] held := by
  refine disciplined_seatChanges hflow hholds fun held hholds => ?_
  refine disciplined_updateRow hflow hholds hreservation fun held hholds => ?_
  refine disciplined_updateRow hflow hholds horder fun held hholds => ?_
  exact disciplined_notification hflow hholds hguard horder

theorem disciplined_terminal {orderId : String} {kind : NotificationKind}
    {marks : List (LockStatement Row)} (hholds : Holds must [] held)
    (horder : .order orderId ∈ must)
    (hguard : guard cat (.notificationKey kind orderId) = some (.order orderId))
    (hmarks : ∀ mark ∈ marks, ∃ row ∈ must, mark = updateRow row) :
    Disciplined (flow.admits c cat) (terminalTransition c cat orderId marks kind) held := by
  refine disciplined_below hflow hholds (fun _ heq => by cases heq)
    (by rw [guard, cat.orderOfReservation_of]) horder fun held hholds => ?_
  refine disciplined_seats hflow hholds fun held hholds => ?_
  have hsettle : ∀ held, Holds (.reservation (cat.reservationOfOrder orderId) :: must)
      (cat.seatsOfReservation (cat.reservationOfOrder orderId)) held →
      Disciplined (flow.admits c cat)
        [updateSessionSeats (cat.seatsOfReservation (cat.reservationOfOrder orderId)),
          updateRow (.reservation (cat.reservationOfOrder orderId)), updateRow (.order orderId),
          insertNotification kind orderId] held :=
    fun held hholds => disciplined_settle hflow hholds (List.mem_cons_of_mem _ horder)
      List.mem_cons_self hguard
  induction marks generalizing held with
  | nil => exact hsettle held hholds
  | cons mark marks ih =>
      obtain ⟨row, hrow, rfl⟩ := hmarks mark List.mem_cons_self
      refine disciplined_updateRow hflow hholds (List.mem_cons_of_mem _ hrow) fun held hholds => ?_
      exact ih (fun mark hmark => hmarks mark (List.mem_cons_of_mem _ hmark)) held hholds

theorem script_createReservation (userId idempotencyKey reservationId orderId : String)
    (seatIds : List String)
    (hdrawn : flow.drawn = [.reservation reservationId, .order orderId]) :
    Disciplined (flow.admits c cat)
      (createReservation c userId idempotencyKey reservationId orderId seatIds) [] := by
  have hself : Row.reservation reservationId ∈ flow.drawn := hdrawn ▸ List.mem_cons_self
  -- The key of the request is locked on top of the new reservation alone.
  have hfirst : ∀ script, (∀ held, Holds [.reservation reservationId] [] held →
      Disciplined (flow.admits c cat) script held) → Disciplined (flow.admits c cat)
        (.insert [.reservation reservationId, .reservationKey userId idempotencyKey] :: script)
        [] := by
    intro script hrest chosen hchosen
    obtain rfl : chosen = [.reservation reservationId, .reservationKey userId idempotencyKey] :=
      of_decide_eq_true hchosen
    have hkey : ∀ held : List Row, (∀ r ∈ held, r = .reservation reservationId) →
        flow.admits c cat false held (.reservationKey userId idempotencyKey) := fun held hheld => by
      rw [Flow.admits, hflow, if_neg Bool.false_ne_true]
      exact .inr fun r hr => hheld r hr ▸ hself
    refine ⟨.inr ?_, ⟨.inr (hkey _ fun r hr => ?_), ?_, trivial⟩, .inr (hkey _ fun r hr => ?_),
      trivial, trivial⟩
    · rw [Flow.admits, hflow, if_neg Bool.false_ne_true]
      exact .inl hself
    · exact List.mem_singleton.mp hr
    · exact hrest _ ⟨by simp [lockRow], by simp [lockRow]⟩
    · cases hr
  refine hfirst _ fun held hholds => ?_
  refine disciplined_seats hflow hholds fun held hholds => ?_
  refine disciplined_seatChanges hflow hholds fun held hholds => ?_
  refine disciplined_required hflow hholds ?_ ?_ fun held hholds => ?_
  · intro row hrow id
    obtain ⟨_, -, rfl⟩ := List.mem_map.mp hrow
    exact fun heq => by cases heq
  · intro row hrow
    obtain ⟨_, -, rfl⟩ := List.mem_map.mp hrow
    exact covered_of_guard (fun _ heq => by cases heq) rfl List.mem_cons_self
  refine disciplined_required hflow hholds ?_ ?_ fun held hholds => ?_
  · rintro row hrow id rfl
    simp at hrow
  · intro row hrow
    obtain rfl | hrow := List.mem_cons.mp hrow
    · refine .inr (.inr ⟨fun _ heq => (by cases heq), .inl ?_⟩)
      rw [hdrawn]
      exact List.mem_cons_of_mem _ List.mem_cons_self
    · obtain rfl := List.mem_singleton.mp hrow
      exact covered_of_guard (fun _ heq => by cases heq) rfl
        (List.mem_append_right _ List.mem_cons_self)
  exact disciplined_notification hflow hholds rfl List.mem_cons_self

theorem script_cancel (orderId : String) (expired : Bool) :
    Disciplined (flow.admits c cat) (cancel c cat orderId expired) [] := by
  refine disciplined_entry hflow fun held hholds => ?_
  refine disciplined_attempts hflow hholds List.mem_cons_self fun held hholds => ?_
  refine disciplined_terminal hflow hholds List.mem_cons_self ?_ fun _ hmark => by cases hmark
  cases expired <;> rfl

theorem script_expire (orderId : String) :
    Disciplined (flow.admits c cat) (expire c cat orderId) [] := by
  refine disciplined_entry hflow fun held hholds => ?_
  refine disciplined_attempts hflow hholds List.mem_cons_self fun held hholds => ?_
  exact disciplined_terminal hflow hholds List.mem_cons_self rfl fun _ hmark => by cases hmark

theorem script_startPayment (orderId attemptId : String) (hdrawn : flow.drawn = [.attempt attemptId]) :
    Disciplined (flow.admits c cat) (startPayment cat orderId attemptId) [] := by
  refine disciplined_entry hflow fun held hholds => ?_
  refine disciplined_attempts hflow hholds List.mem_cons_self fun held hholds => ?_
  refine disciplined_required hflow hholds ?_ ?_ fun _ _ => trivial
  · rintro row hrow id rfl
    simp at hrow
  · intro row hrow
    obtain rfl | hrow := List.mem_cons.mp hrow
    · exact .inr (.inr ⟨fun _ heq => (by cases heq), .inl (hdrawn ▸ List.mem_cons_self)⟩)
    · obtain rfl := List.mem_singleton.mp hrow
      exact covered_of_guard (fun _ heq => by cases heq) rfl List.mem_cons_self

theorem script_paymentCallback (orderId attemptId refundId : String) (accepted : Bool)
    (hdrawn : flow.drawn = [.refund refundId]) : Disciplined (flow.admits c cat)
      (paymentCallback c cat orderId attemptId refundId accepted) [] := by
  unfold paymentCallback
  split_ifs with hattempt haccepted
  · refine disciplined_entry hflow fun held hholds => ?_
    refine disciplined_below hflow hholds (fun _ heq => by cases heq) (by rw [guard, hattempt])
      List.mem_cons_self fun held hholds => ?_
    refine disciplined_terminal hflow hholds (List.mem_cons_of_mem _ List.mem_cons_self) rfl ?_
    intro mark hmark
    refine ⟨.attempt attemptId, List.mem_cons_self, ?_⟩
    simpa using hmark
  · refine disciplined_entry hflow fun held hholds => ?_
    refine disciplined_below hflow hholds (fun _ heq => by cases heq) (by rw [guard, hattempt])
      List.mem_cons_self fun held hholds => ?_
    refine disciplined_updateRow hflow hholds List.mem_cons_self fun held hholds => ?_
    refine disciplined_updateRow hflow hholds List.mem_cons_self fun held hholds => ?_
    have horder : Row.order orderId ∈ [Row.attempt attemptId, .order orderId] :=
      List.mem_cons_of_mem _ List.mem_cons_self
    refine disciplined_ignoring hflow hholds (fun row hrow => ?_) fun held hholds => ?_
    · obtain rfl | hrow := List.mem_cons.mp hrow
      · exact .inr (.inr ⟨fun _ heq => (by cases heq), .inl (hdrawn ▸ List.mem_cons_self)⟩)
      · obtain rfl := List.mem_singleton.mp hrow
        exact covered_of_guard (fun _ heq => by cases heq) (by rw [guard, hattempt]) horder
    refine disciplined_attempts hflow hholds horder fun held hholds => ?_
    exact disciplined_terminal hflow hholds horder rfl fun _ hmark => by cases hmark
  · exact disciplined_entry hflow fun _ _ => trivial

theorem script_requestRefund (orderId attemptId refundId : String)
    (hdrawn : flow.drawn = [.refund refundId]) : Disciplined (flow.admits c cat)
      (requestRefund cat orderId attemptId refundId) [] := by
  unfold requestRefund
  split_ifs with hattempt
  · refine disciplined_entry hflow fun held hholds => ?_
    refine disciplined_ignoring hflow hholds (fun row hrow => ?_) fun _ _ => trivial
    obtain rfl | hrow := List.mem_cons.mp hrow
    · exact .inr (.inr ⟨fun _ heq => (by cases heq), .inl (hdrawn ▸ List.mem_cons_self)⟩)
    obtain rfl | hrow := List.mem_cons.mp hrow
    · exact covered_of_guard (fun _ heq => by cases heq) (by rw [guard, hattempt])
        List.mem_cons_self
    · obtain rfl := List.mem_singleton.mp hrow
      exact covered_of_guard (fun _ heq => by cases heq) rfl List.mem_cons_self
  · exact disciplined_entry hflow fun _ _ => trivial

theorem script_completeRefund (refundId : String) (buyer succeeded : Bool) :
    Disciplined (flow.admits c cat) (completeRefund c cat refundId buyer succeeded) [] := by
  have hlocks : ∀ script, (∀ held, Holds [.refund refundId, .order (cat.orderOfRefund refundId)] []
      held → Disciplined (flow.admits c cat) script held) → Disciplined (flow.admits c cat)
        (lockOrder (cat.orderOfRefund refundId) :: lockRefund refundId :: script) [] := by
    intro script hrest
    refine disciplined_entry hflow fun held hholds => ?_
    exact disciplined_below hflow hholds (fun _ heq => by cases heq) rfl List.mem_cons_self hrest
  have hsystem : ∀ kind, guard cat (.notificationKey kind (cat.attemptOfRefund refundId)) =
      some (.order (cat.orderOfRefund refundId)) → Disciplined (flow.admits c cat)
        [lockOrder (cat.orderOfRefund refundId), lockRefund refundId, updateRow (.refund refundId),
          insertNotification kind (cat.attemptOfRefund refundId)] [] := by
    intro kind hguard
    refine hlocks _ fun held hholds => ?_
    refine disciplined_updateRow hflow hholds List.mem_cons_self fun held hholds => ?_
    exact disciplined_notification hflow hholds hguard (by simp)
  dsimp only [completeRefund]
  split_ifs
  · refine hlocks _ fun held hholds => ?_
    refine disciplined_below hflow hholds (fun _ heq => by cases heq)
      (by rw [guard, cat.orderOfReservation_of])
      (List.mem_cons_of_mem _ List.mem_cons_self) fun held hholds => ?_
    refine disciplined_seats hflow hholds fun held hholds => ?_
    refine disciplined_updateRow hflow hholds (by simp) fun held hholds => ?_
    refine disciplined_updateRow hflow hholds (by simp) fun held hholds => ?_
    refine disciplined_updateRow hflow hholds (by simp) fun held hholds => ?_
    refine disciplined_seatChanges hflow hholds fun held hholds => ?_
    exact disciplined_notification hflow hholds rfl (by simp)
  · refine hlocks _ fun held hholds => ?_
    refine disciplined_updateRow hflow hholds List.mem_cons_self fun held hholds => ?_
    exact disciplined_notification hflow hholds rfl (by simp)
  · exact hsystem .autoRefund rfl
  · exact hsystem .autoRefundFailed rfl

end Flow

/-! ### The workers -/

theorem disciplined_worker (hflow : flow.isWorker = true)
    (hrows : ∀ held rows, statement.chooses held rows = true → ∀ row ∈ rows, row ∈ held ∨
      (statement.skipLocked = true ∧ isWorkerRow row = true) ∨
        (flow = .processInbox ∧ (isAttempt row || isRefund row) = true))
    (hrest : ∀ held, Disciplined (flow.admits c cat) script held) (held : List Row) :
    Disciplined (flow.admits c cat) (statement :: script) held := by
  refine disciplined_of_kept (Q := fun held' => ∀ row ∈ held, row ∈ held') (fun row hrow => hrow)
    ?_ ?_ fun held' _ => hrest held'
  · intro rows hchosen held' hsub row hrow
    rw [Flow.admits, hflow, if_pos rfl]
    exact (hrows held rows hchosen row hrow).imp (hsub row) id
  · exact fun rows _ held' hsub row _ r hr => mem_lockRow.mpr (.inl (hsub r hr))

theorem isWoken_spec (h : isWoken cat held row = true) : (isAttempt row || isRefund row) = true := by
  obtain ⟨event, -, hwakes⟩ := List.any_eq_true.mp h
  cases event with
  | providerEvent id =>
      obtain ⟨reference, -, rfl⟩ := Option.map_eq_some_iff.mp (of_decide_eq_true hwakes)
      cases cat.objectKind id <;> rfl
  | _ => cases hwakes

theorem script_processInbox :
    Disciplined (Flow.processInbox.admits c cat) (processInbox cat) [] := by
  refine disciplined_worker rfl (fun held rows hchosen row hrow => ?_) (fun held => ?_) []
  · exact .inr (.inl ⟨rfl, by rw [isWorkerRow, List.all_eq_true.mp hchosen row hrow]; rfl⟩)
  refine disciplined_worker rfl (fun held rows hchosen row hrow => ?_) (fun held => ?_) held
  · exact .inr (.inr ⟨rfl, isWoken_spec (List.all_eq_true.mp hchosen row hrow)⟩)
  refine disciplined_worker rfl (fun held rows hchosen row hrow => .inl ?_)
    (fun held => show Disciplined _ [] held from trivial) held
  exact of_decide_eq_true (Bool.and_eq_true_iff.mp (List.all_eq_true.mp hchosen row hrow)).1

theorem script_claim (hflow : flow.isWorker = true) {wants : Row → Bool}
    (hwants : ∀ row, wants row = true → isWorkerRow row = true) :
    Disciplined (flow.admits c cat)
      [.claim wants, .anyOrder fun held row => decide (row ∈ held)] [] := by
  refine disciplined_worker hflow (fun held rows hchosen row hrow => ?_) (fun held => ?_) []
  · exact .inr (.inl ⟨rfl, hwants row (List.all_eq_true.mp hchosen row hrow)⟩)
  · refine disciplined_worker hflow (fun held rows hchosen row hrow => .inl ?_)
      (fun held => show Disciplined _ [] held from trivial) held
    exact of_decide_eq_true (List.all_eq_true.mp hchosen row hrow)

theorem script_disciplined (c : Collation) (cat : Catalogue) (flow : Flow) :
    Disciplined (flow.admits c cat) ((flows c cat).script flow) [] := by
  cases flow with
  | createReservation userId key reservationId orderId seatIds =>
      exact script_createReservation rfl userId key reservationId orderId seatIds rfl
  | cancel orderId expired => exact script_cancel rfl orderId expired
  | expire orderId => exact script_expire rfl orderId
  | startPayment orderId attemptId => exact script_startPayment rfl orderId attemptId rfl
  | paymentCallback orderId attemptId refundId accepted =>
      exact script_paymentCallback rfl orderId attemptId refundId accepted rfl
  | requestRefund orderId attemptId refundId =>
      exact script_requestRefund rfl orderId attemptId refundId rfl
  | completeRefund refundId buyer succeeded =>
      exact script_completeRefund rfl refundId buyer succeeded
  | processInbox => exact script_processInbox
  | claimPayments =>
      exact script_claim rfl fun row h => by rw [isWorkerRow, h, Bool.or_true, Bool.true_or]
  | claimRefunds => exact script_claim rfl fun row h => by rw [isWorkerRow, h, Bool.or_true]

end Scripts

/-! ## Cycles -/

section Cycles

variable {c : Collation} {cat : Catalogue} {sys : System Flow Row} {t u : ℕ}
  {a b : Running Flow Row} {row : Row}

/-- What one transaction's waiting for another says of the two. -/
structure Awaits (c : Collation) (cat : Catalogue) (a b : Running Flow Row) (row : Row) :
    Prop where
  waiting : a.waiting = some row
  held : row ∈ b.held
  admitted : a.flow.admits c cat false a.held row
  separate : ∀ r ∈ a.held, r ∉ b.held
  undrawn : row ∉ a.flow.drawn ∧ row ∉ b.flow.drawn

theorem awaits_of_waitsFor (h : Sound (flows c cat) (Flow.admits c cat) (Flow.keeps cat) sys)
    (hwaits : WaitsFor sys t u) :
    ∃ a b row, sys.find t = some a ∧ sys.find u = some b ∧ Awaits c cat a b row := by
  obtain ⟨hne, a, b, row, ha, hb, hrow, hheld⟩ := hwaits
  have hfits := h.separate t a ha
  refine ⟨a, b, row, ha, hb, hrow, hheld, ((h.obeys t a ha).admits_waiting hrow).2, ?_, ?_, ?_⟩
  · exact fun r hr => (hfits.held r hr u b hb hne.symm).1
  · exact fun hdrawn => (hfits.drawn row hdrawn u b hb hne.symm).2.1 hheld
  · exact hfits.waiting row hrow u b hb hne.symm

/-- A worker that waits is an inbox statement that holds no attempt and no refund. -/
theorem worker_waits (h : Sound (flows c cat) (Flow.admits c cat) (Flow.keeps cat) sys)
    (hcalm : Calm calm sys) (ha : sys.find t = some a) (hrow : a.waiting = some row)
    (hworker : a.flow.isWorker = true) :
    (isAttempt row || isRefund row) = true ∧ ∀ r ∈ a.held, isEvent r = true := by
  have hadmits := ((h.obeys t a ha).admits_waiting hrow).2
  rw [Flow.admits, if_pos hworker] at hadmits
  obtain ⟨hskip, -⟩ | ⟨hflow, hrow'⟩ := hadmits
  · cases hskip
  · have hheld := hcalm t a ha (by rw [hrow]; rfl)
    rw [calm, hflow, decide_eq_false (not_not_intro rfl), Bool.false_or] at hheld
    exact ⟨hrow', List.all_eq_true.mp hheld⟩

theorem Awaits.not_event (h : Awaits c cat a b row) : isEvent row = false := by
  have hadmits := h.admitted
  unfold Flow.admits at hadmits
  split_ifs at hadmits
  · cases row with
    | providerEvent => simp [isAttempt, isRefund] at hadmits
    | _ => rfl
  · cases row with
    | providerEvent => exact (hadmits.resolve_left h.undrawn.1).elim
    | _ => rfl

/-- Below its order a transaction waits for a row only while a worker holds it. -/
theorem Awaits.guarded {g : Row} (h : Awaits c cat a b row) (hguard : guard cat row = some g)
    (hg : g ∈ a.held) (hkeeps : b.flow.keeps cat b.held) : b.flow.isWorker = true := by
  by_contra hworker
  rw [Flow.keeps, if_neg hworker] at hkeeps
  exact h.separate g hg (((hkeeps row h.held).resolve_left h.undrawn.2) g hguard)

/-- A transaction that waits and is waited for waits for a seat. -/
theorem seat_of_inner (h : Sound (flows c cat) (Flow.admits c cat) (Flow.keeps cat) sys)
    (hcalm : Calm calm sys) (hinner : Inner (WaitsFor sys) t) (hwaits : WaitsFor sys t u)
    (hinner' : Inner (WaitsFor sys) u) :
    ∃ a b id, sys.find t = some a ∧ sys.find u = some b ∧ a.flow.isWorker = false ∧
      Awaits c cat a b (.sessionSeat id) := by
  obtain ⟨a, b, row, ha, hb, hawaits⟩ := awaits_of_waitsFor h hwaits
  obtain ⟨s, hs⟩ := hinner.1
  obtain ⟨d, a', row', -, ha', hawaited⟩ := awaits_of_waitsFor h hs
  obtain rfl : a = a' := Option.some.inj (ha.symm.trans ha')
  have hworker : a.flow.isWorker = false := by
    -- The events of an inbox statement are locked without waiting.
    by_contra hflow
    rw [Bool.not_eq_false] at hflow
    have hevent := (worker_waits h hcalm ha hawaits.waiting hflow).2 row' hawaited.held
    rw [hawaited.not_event] at hevent
    cases hevent
  have hnext : b.flow.isWorker = true → row ∈ b.held → isEvent row = true := by
    intro hflow hheld
    obtain ⟨v, hv⟩ := hinner'.2
    obtain ⟨b', _, row'', hb', -, hawaits'⟩ := awaits_of_waitsFor h hv
    obtain rfl : b = b' := Option.some.inj (hb.symm.trans hb')
    exact (worker_waits h hcalm hb hawaits'.waiting hflow).2 row hheld
  have hguarded : ∀ g, guard cat row = some g → g ∈ a.held → False := by
    intro g hguard hg
    have hevent := hnext (hawaits.guarded hguard hg (h.obeys u b hb).keeps) hawaits.held
    rw [hawaits.not_event] at hevent
    cases hevent
  have hfirst : (∀ r ∈ a.held, r ∈ a.flow.drawn) → False :=
    fun hdrawn => hawaited.undrawn.2 (hdrawn row' hawaited.held)
  have hrule := hawaits.admitted
  rw [Flow.admits, hworker, if_neg Bool.false_ne_true] at hrule
  have hrule := hrule.resolve_left hawaits.undrawn.1
  cases row with
  | sessionSeat id => exact ⟨a, b, id, ha, hb, hworker, hawaits⟩
  | order | reservationKey => exact (hfirst hrule).elim
  | providerEvent => exact hrule.elim
  | _ =>
      obtain ⟨g, hguard, hg⟩ := hrule
      exact (hguarded g hguard hg).elim

theorem Awaits.seat_order {s : Running Flow Row} {id id' : String}
    (h : Awaits c cat s a (.sessionSeat id)) (h' : Awaits c cat a b (.sessionSeat id'))
    (hworker : a.flow.isWorker = false) : c.Before id id' := by
  have hrule := h'.admitted
  rw [Flow.admits, hworker, if_neg Bool.false_ne_true] at hrule
  exact (hrule.resolve_left h'.undrawn.1) id h.held

end Cycles

def Row.seatId : Row → Option String
  | .sessionSeat id => some id
  | _ => none

/-- In a run in which no inbox statement waits while it holds an attempt or a refund, the waiting
transactions never form a cycle. -/
theorem waits_acyclic (c : Collation) (cat : Catalogue) (actions : List (Locking.Action Flow Row))
    (sys : System Flow Row) (hrun : runCalm (flows c cat) calm actions Table.empty = some sys) :
    Acyclic (WaitsFor sys) := by
  obtain ⟨hsound, hcalm⟩ := runCalm_sound (script_disciplined c cat)
    (fun flow => by unfold Flow.keeps; split_ifs <;> simp)
    (fun _ _ _ _ hkeeps hrow => keeps_lockRow hkeeps hrow)
    Sound.empty (fun _ _ h => by cases h) hrun
  refine acyclic_of_climbing (fun t => (sys.find t).bind fun a => a.waiting.bind Row.seatId) c.Before
    (fun id h => h.2 rfl) (fun _ _ _ h h' => Collation.before_trans h h') ?_
  intro t u v hwaits hwaits' ht hu hv
  obtain ⟨a, b, id, ha, hb, -, hawaits⟩ := seat_of_inner hsound hcalm ht hwaits hu
  obtain ⟨b', d, id', hb', -, hworker, hawaits'⟩ := seat_of_inner hsound hcalm hu hwaits' hv
  obtain rfl := Option.some.inj (hb.symm.trans hb')
  refine ⟨id, id', ?_, ?_, hawaits.seat_order hawaits' hworker⟩
  · simp only [ha, Option.bind_some, hawaits.waiting, Row.seatId]
  · simp only [hb, Option.bind_some, hawaits'.waiting, Row.seatId]

/-! Two attempts of one order, each the object of two events. -/

def twoAttempts : Catalogue where
  reservationOfOrder := id
  orderOfReservation := id
  orderOfReservation_of := fun _ => rfl
  seatsOfReservation := fun _ => ["SS-1", "SS-2"]
  orderOfAttempt := fun _ => "TKT-1"
  attemptOfRefund := id
  objectKind := fun _ => .payment
  localReferenceId := fun event =>
    if event = "EVT-1" ∨ event = "EVT-3" then some "PAY-1" else some "PAY-2"

/-- A cancellation holds an attempt that an inbox statement with one event waits for. -/
theorem waits_acyclic_oneEvent : ∃ sys, runCalm (flows Collation.bytewise twoAttempts) calm
    [.start 0 (.cancel "TKT-1" false), .execute 0 [.order "TKT-1"], .lock 0,
      .execute 0 [.attempt "PAY-1"], .lock 0, .start 1 .processInbox,
      .execute 1 [.providerEvent "EVT-1"], .lock 1, .execute 1 [.attempt "PAY-1"], .block 1]
      Table.empty = some sys ∧ Acyclic (WaitsFor sys) := by
  have hsome : (runCalm (flows Collation.bytewise twoAttempts) calm
      [.start 0 (.cancel "TKT-1" false), .execute 0 [.order "TKT-1"], .lock 0,
        .execute 0 [.attempt "PAY-1"], .lock 0, .start 1 .processInbox,
        .execute 1 [.providerEvent "EVT-1"], .lock 1, .execute 1 [.attempt "PAY-1"], .block 1]
        Table.empty).isSome = true := by decide +kernel
  obtain ⟨sys, hsys⟩ := Option.isSome_iff_exists.mp hsome
  exact ⟨sys, hsys, waits_acyclic _ _ _ _ hsys⟩

/-- Two inbox statements that wake the same two attempts in opposite orders wait for each other. -/
theorem inbox_statements_deadlock : ¬ ∀ (c : Collation) (cat : Catalogue)
    (actions : List (Locking.Action Flow Row)) (sys : System Flow Row),
    run (flows c cat) actions Table.empty = some sys → Acyclic (WaitsFor sys) := by
  intro hclaim
  have hcycle : ((run (flows Collation.bytewise twoAttempts)
      [.start 0 .processInbox, .start 1 .processInbox,
        .execute 0 [.providerEvent "EVT-1", .providerEvent "EVT-2"], .lock 0, .lock 0,
        .execute 1 [.providerEvent "EVT-3", .providerEvent "EVT-4"], .lock 1, .lock 1,
        .execute 0 [.attempt "PAY-1", .attempt "PAY-2"], .lock 0,
        .execute 1 [.attempt "PAY-2", .attempt "PAY-1"], .lock 1, .block 0, .block 1]
        Table.empty).any fun sys => decide (WaitsFor sys 0 1 ∧ WaitsFor sys 1 0)) = true := by
    decide +kernel
  obtain ⟨sys, hsys, hwaits⟩ := (Option.any_eq_true _ _).mp hcycle
  obtain ⟨hfirst, hsecond⟩ := of_decide_eq_true hwaits
  exact hclaim _ _ _ sys hsys 0 (.head hfirst (.single hsecond))

end Ticketing.Locks
