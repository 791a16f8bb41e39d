import Ticketing.SelectionUpdates
import Ticketing.Library.LengthPrefix

/-!
# The changes of a selection form one sequence

Whatever the requests on a checkout do beside each other, its seats change with the commit of a PUT
only, which was made against the revision before it, and the seats a confirm has captured are those
of the checkout for as long as its key stands.
-/

namespace Ticketing.Selection

open ReadCommitted JsonCpp

/-! ## What a transaction does alone -/

section Serial

variable {s t : Checkout} {α : Type}

theorem serial_bind_ok {p : DB α} {β : Type} {k : α → DB β} {result : β}
    (h : serial store (p >>= k) s = .ok (result, t)) :
    ∃ a s', serial store p s = .ok (a, s') ∧ serial store (k a) s' = .ok (result, t) := by
  rw [serial_bind] at h
  cases hrun : serial store p s with
  | error e =>
      rw [hrun] at h
      cases h
  | ok r =>
      rw [hrun] at h
      exact ⟨r.1, r.2, rfl, h⟩

theorem serial_pure_ok {a result : α} (h : serial store (pure a : DB α) s = .ok (result, t)) :
    result = a ∧ t = s := by
  obtain ⟨hresult, hstore⟩ := Prod.mk.inj (Except.ok.inj h)
  exact ⟨hresult.symm, hstore.symm⟩

theorem serial_query {β : Type} (f : Checkout → α) (k : α → DB β) (s : Checkout) :
    serial store (Prog.query f >>= k) s = serial store (k (f s)) s := rfl

theorem serial_exec {β : Type} (writes : Checkout → List Write) (f : Checkout → α) (k : α → DB β)
    (s : Checkout) : serial store (Prog.exec writes f >>= k) s =
      serial store (k (f s)) (store.applyAll (writes s) s) := rfl

theorem serial_require_ok {b : Bool} {e : Ending} {k : Unit → DB α} {result : α}
    (h : serial store (Prog.require b e >>= k) s = .ok (result, t)) :
    b = true ∧ serial store (k ()) s = .ok (result, t) := by
  cases b with
  | false => cases h
  | true => exact ⟨rfl, h⟩

theorem serial_lock_ok {owner userId : String} {missing : Ending} {rest : Checkout → DB Flow}
    {flow : Flow} (h : serial store (lockByIdForUser owner userId missing rest) s = .ok (flow, t)) :
    serial store (rest s) s = .ok (flow, t) := by
  unfold lockByIdForUser at h
  split_ifs at h
  · exact h
  · cases h

theorem updateState_ok {expected state : CheckoutState} {k : Unit → DB α} {result : α}
    (h : serial store (updateState expected state >>= k) s = .ok (result, t)) :
    s.state = expected ∧ serial store (k ()) { s with state := state } = .ok (result, t) := by
  obtain ⟨_, s', hupdate, h⟩ := serial_bind_ok h
  unfold updateState at hupdate
  rw [serial_exec] at hupdate
  by_cases hstate : s.state = expected
  · rw [if_pos hstate, decide_eq_true hstate] at hupdate
    obtain ⟨-, hstore⟩ := Prod.mk.inj (Except.ok.inj hupdate)
    rw [← hstore] at h
    exact ⟨hstate, h⟩
  · rw [decide_eq_false hstate] at hupdate
    cases hupdate

theorem insertSeats_ok {seatIds : List String} {k : Unit → DB α} {result : α}
    (h : serial store (insertSeats seatIds >>= k) s = .ok (result, t)) :
    serial store (k ()) { s with seatIds := s.seatIds ++ seatIds } = .ok (result, t) := by
  obtain ⟨_, s', hinsert, h⟩ := serial_bind_ok h
  obtain ⟨-, hinsert⟩ := serial_require_ok hinsert
  obtain ⟨-, hstore⟩ := Prod.mk.inj (Except.ok.inj hinsert)
  rw [← hstore] at h
  exact h

/-- The seats and the revision that a PUT leaves. -/
def Checkout.replaced (s : Checkout) (request : ReplaceRequest) : Checkout :=
  { s with revision := s.revision + 1, seatIds := request.seatIds }

variable {request : ReplaceRequest} {flow : Flow}

theorem replaceDeleteSeats_ok (h : serial store (replaceDeleteSeats request) s = .ok (flow, t)) :
    flow = .answered .updated ∧ t = s.replaced request := by
  unfold replaceDeleteSeats deleteSeats at h
  rw [serial_exec] at h
  split_ifs at h with hempty
  · obtain ⟨hflow, hstore⟩ := serial_pure_ok h
    refine ⟨hflow, hstore.trans ?_⟩
    unfold Checkout.replaced
    rw [hempty]
    rfl
  · exact serial_pure_ok (insertSeats_ok h)

theorem replacePrepareHolds_ok {added retained : List String} {signals : Signals}
    (h : serial store (replacePrepareHolds request added retained signals) s = .ok (flow, t)) :
    flow = .answered .updated ∧ t = s.replaced request := by
  unfold replacePrepareHolds at h
  split_ifs at h
  · exact replaceDeleteSeats_ok h
  · cases hgate : signals.failure with
    | some failure =>
        rw [hgate] at h
        cases h
    | none =>
        rw [hgate] at h
        obtain ⟨-, h⟩ := serial_require_ok h
        exact replaceDeleteSeats_ok h

theorem replaceValidateSeats_ok {added retained : List String} {signals : Signals}
    (h : serial store (replaceValidateSeats request added retained signals) s = .ok (flow, t)) :
    flow = .answered .updated ∧ t = s.replaced request := by
  unfold replaceValidateSeats at h
  split_ifs at h
  · exact replacePrepareHolds_ok h
  · obtain ⟨-, h⟩ := serial_require_ok h
    exact replacePrepareHolds_ok h

theorem replaceSeats_ok {collation : Collation} {owner : String} {signals : Signals}
    (h : serial store (replaceSeats collation owner request signals) s = .ok (flow, t)) :
    s.state = .selecting ∧ s.revision = request.expectedRevision ∧ flow = .answered .updated ∧
      t = s.replaced request := by
  obtain ⟨hstate, h⟩ := serial_require_ok (serial_lock_ok h)
  obtain ⟨hrevision, h⟩ := serial_require_ok h
  obtain ⟨-, h⟩ := serial_require_ok h
  exact ⟨of_decide_eq_true hstate, of_decide_eq_true hrevision, replaceValidateSeats_ok h⟩

/-- The key and the reservation that a transaction makes a checkout RESERVED by. -/
def Flow.reserves : Flow → Option (String × String)
  | finalizeReserved confirm reservationId => some (confirm.idempotencyKey, reservationId)
  | reconcile _ idempotencyKey reservationId _ => some (idempotencyKey, reservationId)
  | repair idempotencyKey reservationId => some (idempotencyKey, reservationId)
  | _ => none

/-- All that the commit of a transaction can do. -/
inductive Commits (setting : Setting) (job : Job) (s : Checkout) : Flow → Checkout → Prop where
  | replace {request : ReplaceRequest} (isReplace : job.flow = .replace request)
      (selecting : s.state = .selecting) (current : s.revision = request.expectedRevision) :
      Commits setting job s (.answered .updated) (s.replaced request)
  | freeze {userId : String} (isConfirm : job.flow = .prepareConfirm userId)
      (selecting : s.state = .selecting) :
      Commits setting job s (.formal ⟨userId, setting.confirmKey job.number,
        setting.collation.orderBy s.seatIds⟩)
        { s with state := .submitting (setting.confirmKey job.number) }
  | reuse {userId key : String} (isConfirm : job.flow = .prepareConfirm userId)
      (submitting : s.state = .submitting key) :
      Commits setting job s (.formal ⟨userId, key, setting.collation.orderBy s.seatIds⟩) s
  | reserve {key reservationId : String} {outcome : CheckoutSessionOutcome}
      (reserves : job.flow.reserves = some (key, reservationId))
      (submitting : s.state = .submitting key) :
      Commits setting job s (.answered outcome) { s with state := .reserved key reservationId }
  | leave {state : CheckoutState} {outcome : CheckoutSessionOutcome}
      (open_or_closed : state = .selecting ∨ state = .abandoned)
      (notReplace : ∀ request, job.flow ≠ .replace request) :
      Commits setting job s (.answered outcome) { s with state := state }

theorem confirmEnsureHolds_ok {setting : Setting} {job : Job} {userId : String} {signals : Signals}
    (hflow : job.flow = .prepareConfirm userId) (hstate : s.state = .selecting)
    (h : serial store (confirmEnsureHolds ⟨userId, setting.confirmKey job.number,
      setting.collation.orderBy s.seatIds⟩ signals)
      s = .ok (flow, t)) : Commits setting job s flow t := by
  unfold confirmEnsureHolds at h
  cases hgate : signals.failure with
  | some failure =>
      rw [hgate] at h
      dsimp only at h
      split_ifs at h
      · obtain ⟨-, h⟩ := updateState_ok h
        obtain ⟨rfl, rfl⟩ := serial_pure_ok h
        refine .leave (Or.inr rfl) fun request heq => ?_
        rw [hflow] at heq
        cases heq
      · cases h
  | none =>
      rw [hgate] at h
      obtain ⟨-, h⟩ := serial_require_ok h
      obtain ⟨-, h⟩ := updateState_ok h
      obtain ⟨rfl, rfl⟩ := serial_pure_ok h
      exact .freeze hflow hstate

theorem prepareConfirm_ok {setting : Setting} {job : Job} {userId : String} {signals : Signals}
    (hflow : job.flow = .prepareConfirm userId)
    (h : serial store (prepareConfirm setting.collation setting.owner userId
      (setting.confirmKey job.number) signals)
      s = .ok (flow, t)) : Commits setting job s flow t := by
  have h := serial_lock_ok h
  unfold confirmLoadSeats loadSeatIds at h
  rw [serial_query] at h
  cases hstate : s.state with
  | reserved key reservationId =>
      rw [hstate] at h
      cases h
  | abandoned =>
      rw [hstate] at h
      cases h
  | submitting key =>
      rw [hstate] at h
      obtain ⟨-, h⟩ := serial_require_ok h
      obtain ⟨rfl, rfl⟩ := serial_pure_ok h
      exact .reuse hflow hstate
  | selecting =>
      rw [hstate] at h
      obtain ⟨-, h⟩ := serial_require_ok h
      obtain ⟨-, h⟩ := serial_require_ok h
      exact confirmEnsureHolds_ok hflow hstate h

theorem closeSubmitting_ok {owner : String} {confirm : Confirm} {failure : CheckoutSessionOutcome}
    (h : serial store (closeSubmittingAfterSalesWindow owner confirm failure) s = .ok (flow, t)) :
    flow = .answered failure ∧ t = { s with state := .abandoned } := by
  have h := serial_lock_ok h
  cases hstate : s.state with
  | submitting key =>
      rw [hstate] at h
      obtain ⟨-, h⟩ := serial_require_ok h
      exact serial_pure_ok (updateState_ok h).2
  | selecting =>
      rw [hstate] at h
      cases h
  | reserved key reservationId =>
      rw [hstate] at h
      cases h
  | abandoned =>
      rw [hstate] at h
      cases h

/-- The reservation transactions of a confirm, a read and a batch end alike. -/
theorem setReserved_ok {setting : Setting} {job : Job} {key reservationId : String}
    {outcome : CheckoutSessionOutcome} (hflow : job.flow.reserves = some (key, reservationId))
    (h : serial store (setReserved key reservationId >>= fun _ => pure (.answered outcome)) s =
      .ok (flow, t)) : Commits setting job s flow t := by
  obtain ⟨hstate, h⟩ := updateState_ok h
  obtain ⟨rfl, rfl⟩ := serial_pure_ok h
  exact .reserve hflow hstate

theorem program_ok {setting : Setting} {job : Job}
    (h : serial store (setting.program job) s = .ok (flow, t)) : Commits setting job s flow t := by
  have hflow : ∃ flow, job.flow = flow := ⟨_, rfl⟩
  unfold Setting.program at h
  obtain ⟨current, hflow⟩ := hflow
  rw [hflow] at h
  cases current with
  | replace request =>
      obtain ⟨hstate, hrevision, rfl, rfl⟩ := replaceSeats_ok h
      exact .replace hflow hstate hrevision
  | prepareConfirm userId => exact prepareConfirm_ok hflow h
  | finalizeReserved confirm reservationId =>
      obtain ⟨-, h⟩ := serial_require_ok (serial_lock_ok h)
      obtain ⟨-, h⟩ := serial_require_ok h
      exact setReserved_ok (by rw [hflow]; rfl) h
  | resetAfterBusinessFailure confirm failure =>
      obtain ⟨-, h⟩ := serial_require_ok (serial_lock_ok h)
      obtain ⟨-, h⟩ := serial_require_ok h
      obtain ⟨-, h⟩ := updateState_ok h
      obtain ⟨rfl, rfl⟩ := serial_pure_ok h
      exact .leave (Or.inl rfl) (by rw [hflow]; simp)
  | closeSubmitting confirm failure =>
      obtain ⟨rfl, rfl⟩ := closeSubmitting_ok h
      exact .leave (Or.inr rfl) (by rw [hflow]; simp)
  | abandon userId =>
      obtain ⟨-, h⟩ := serial_require_ok (serial_lock_ok h)
      obtain ⟨-, h⟩ := serial_require_ok h
      obtain ⟨-, h⟩ := updateState_ok h
      obtain ⟨rfl, rfl⟩ := serial_pure_ok h
      exact .leave (Or.inr rfl) (by rw [hflow]; simp)
  | reconcile userId key reservationId successOutcome =>
      obtain ⟨-, h⟩ := serial_require_ok (serial_lock_ok h)
      obtain ⟨-, h⟩ := serial_require_ok h
      exact setReserved_ok (by rw [hflow]; rfl) h
  | repair key reservationId => exact setReserved_ok (by rw [hflow]; rfl) h
  | formal confirm => cases h
  | get userId => cases h
  | resolve userId state successOutcome => cases h
  | answered outcome => cases h
  | refused => cases h

end Serial

/-! ## What a move does -/

section Moves

variable {setting : Setting} {m m' : Updates}

@[simp] theorem requests_goOn_self (m : Updates) (number : ℕ) (flow : Flow) :
    (m.goOn number flow).requests number = some (.waiting flow) := Function.update_self _ _ _

theorem requests_goOn_of_ne {number other : ℕ} (h : other ≠ number) (flow : Flow) :
    (m.goOn number flow).requests other = m.requests other := Function.update_of_ne h _ _

/-- A request that waits has just gone on, or has waited before. -/
theorem waiting_goOn {number other : ℕ} {flow next : Flow}
    (h : (m.goOn number flow).requests other = some (.waiting next)) :
    other = number ∧ next = flow ∨ other ≠ number ∧ m.requests other = some (.waiting next) := by
  by_cases hother : other = number
  · subst hother
    rw [requests_goOn_self] at h
    injection h with h
    injection h with h
    exact Or.inl ⟨rfl, h.symm⟩
  · rw [requests_goOn_of_ne hother] at h
    exact Or.inr ⟨hother, h⟩

/-- The request may go on with the flow, after it has committed the reservation if there is one. -/
structure Updates.Continues (m : Updates) (number : ℕ) (flow : Flow)
    (extra : Option Reservation) : Prop where
  idle : ∀ i, m.requests number ≠ some (.running i)
  unanswered : ∀ outcome, m.requests number ≠ some (.waiting (.answered outcome))
  first : ∀ userId, flow = .prepareConfirm userId → m.requests number = none
  informal : ∀ confirm, flow ≠ .formal confirm
  reserves : ∀ key reservationId, flow.reserves = some (key, reservationId) →
    ∃ reservation ∈ m.reservations ++ extra.toList,
      reservation.id = reservationId ∧ reservation.idempotencyKey = key
  extra : ∀ reservation, extra = some reservation →
    ∃ confirm, m.requests number = some (.waiting (.formal confirm)) ∧
      reservation.idempotencyKey = confirm.idempotencyKey ∧
      reservation.seatIds = confirm.seatIds ∧ ∀ other ∈ m.reservations, other.id ≠ reservation.id

/-- The transaction of a move. -/
def Move.transaction : Move → Option ℕ
  | advance i => some i
  | commit i => some i
  | abort i => some i
  | _ => none

inductive Moved (setting : Setting) (m : Updates) : Move → Updates → Prop where
  | goOn {move : Move} {number : ℕ} {flow : Flow} (extra : Option Reservation)
      (outside : move.transaction = none) (continues : m.Continues number flow extra) :
      Moved setting m move
        (Updates.goOn { m with reservations := m.reservations ++ extra.toList } number flow)
  | begin {number : ℕ} {signals : Signals} {flow : Flow}
      (waiting : m.requests number = some (.waiting flow)) (transacts : flow.isTransaction = true)
      {sys : Sys Checkout Write Unit Ending Flow Job}
      (step : m.sys.step store setting.workload (.begin ⟨number, flow, signals⟩) = some sys) :
      Moved setting m (.begin number signals)
        { m with
          sys := sys
          requests := Function.update m.requests number (some (.running m.sys.txs.length)) }
  | advance {i : ℕ} {sys : Sys Checkout Write Unit Ending Flow Job}
      (step : m.sys.step store setting.workload (.advance i) = some sys) :
      Moved setting m (.advance i) { m with sys := sys }
  | commit {i : ℕ} {tx : Open Checkout Write Unit Ending Flow Job}
      {flow : Flow} (opened : m.sys.open? i = some tx) (rest : tx.rest = .commit flow)
      {sys : Sys Checkout Write Unit Ending Flow Job}
      (step : m.sys.step store setting.workload (.commit i) = some sys) :
      Moved setting m (.commit i)
        (Updates.goOn (Updates.record { m with sys := sys } tx.job) tx.job.number flow)
  | abort {i : ℕ} {tx : Open Checkout Write Unit Ending Flow Job} (ending : Ending)
      (opened : m.sys.open? i = some tx) {sys : Sys Checkout Write Unit Ending Flow Job}
      (step : m.sys.step store setting.workload (.abort i) = some sys) :
      Moved setting m (.abort i) (Updates.goOn { m with sys := sys } tx.job.number ending.flow)

theorem moved_goOn {move : Move} {number : ℕ} {flow : Flow} (houtside : move.transaction = none)
    (h : m.Continues number flow none) : Moved setting m move (m.goOn number flow) := by
  have hmoved : Moved setting m move
      (Updates.goOn { m with reservations := m.reservations ++ [] } number flow) :=
    .goOn none houtside h
  rwa [List.append_nil] at hmoved

theorem continues_of_new {number : ℕ} {flow : Flow} (hnew : m.requests number = none)
    (hinformal : ∀ confirm, flow ≠ .formal confirm) (hreserves : ∀ key reservationId,
      flow.reserves = some (key, reservationId) → ∃ reservation ∈ m.reservations,
        reservation.id = reservationId ∧ reservation.idempotencyKey = key) :
    m.Continues number flow none where
  idle i := by simp [hnew]
  unanswered outcome := by simp [hnew]
  first _ _ := hnew
  informal := hinformal
  reserves key reservationId h := by
    rw [Option.toList_none, List.append_nil]
    exact hreserves key reservationId h
  extra _ h := by cases h

theorem findReservation_some {key : String} {reservation : Reservation}
    (h : m.findReservation key = some reservation) :
    reservation ∈ m.reservations ∧ reservation.idempotencyKey = key := by
  have hkey := List.find?_some h
  exact ⟨List.mem_of_find?_eq_some h, of_decide_eq_true hkey⟩

/-- A request goes on after a read or the formal reservation. -/
theorem continues_of_waiting {number : ℕ} {old flow : Flow} {extra : Option Reservation}
    (hwaiting : m.requests number = some (.waiting old)) (hold : ∀ outcome, old ≠ .answered outcome)
    (hfirst : ∀ userId, flow ≠ .prepareConfirm userId)
    (hinformal : ∀ confirm, flow ≠ .formal confirm)
    (hreserves : ∀ key reservationId, flow.reserves = some (key, reservationId) →
      ∃ reservation ∈ m.reservations ++ extra.toList,
        reservation.id = reservationId ∧ reservation.idempotencyKey = key)
    (hextra : ∀ reservation, extra = some reservation → ∃ confirm, old = .formal confirm ∧
      reservation.idempotencyKey = confirm.idempotencyKey ∧
      reservation.seatIds = confirm.seatIds ∧ ∀ other ∈ m.reservations, other.id ≠ reservation.id) :
    m.Continues number flow extra where
  idle i := by simp [hwaiting]
  unanswered outcome h := by
    rw [hwaiting] at h
    injection h with h
    injection h with h
    exact hold outcome h
  first userId h := absurd h (hfirst userId)
  informal := hinformal
  reserves := hreserves
  extra reservation h := by
    obtain ⟨confirm, rfl, hkey⟩ := hextra reservation h
    exact ⟨confirm, hwaiting, hkey⟩

theorem resolveRecord_cases (userId : String) (state : CheckoutState)
    (successOutcome : CheckoutSessionOutcome) :
    (∃ outcome, m.resolveRecord userId state successOutcome = .answered outcome) ∨
      ∃ key reservation, m.findReservation key = some reservation ∧
        m.resolveRecord userId state successOutcome =
          .reconcile userId key reservation.id successOutcome := by
  unfold Updates.resolveRecord
  cases state with
  | submitting key =>
      dsimp only
      cases hfound : m.findReservation key with
      | none => exact .inl ⟨_, rfl⟩
      | some reservation => exact .inr ⟨key, reservation, hfound, rfl⟩
  | reserved key reservationId =>
      dsimp only
      split_ifs
      · exact .inl ⟨_, rfl⟩
      · exact .inl ⟨_, rfl⟩
  | selecting => exact .inl ⟨_, rfl⟩
  | abandoned => exact .inl ⟨_, rfl⟩

theorem moved_receive {move : Move} {number : ℕ} {flow : Flow} (houtside : move.transaction = none)
    (hinformal : ∀ confirm, flow ≠ .formal confirm) (hreserves : flow.reserves = none)
    (h : m.receive number flow = some m') : Moved setting m move m' := by
  unfold Updates.receive at h
  split_ifs at h with hnew
  obtain rfl := Option.some.inj h
  refine moved_goOn houtside (continues_of_new hnew hinformal fun key reservationId heq => ?_)
  rw [hreserves] at heq
  cases heq

theorem moved_reserve {number : ℕ} {outcome : CreateReservationOutcome} {reservationId : String}
    {confirm : Confirm} (hwaiting : m.requests number = some (.waiting (.formal confirm)))
    (h : m.runFormalReservation number confirm outcome reservationId = some m') :
    Moved setting m (.reserve number outcome reservationId) m' := by
  have hgoOn {flow : Flow} (hflow : m.goOn number flow = m')
      (hfirst : ∀ userId, flow ≠ .prepareConfirm userId)
      (hinformal : ∀ confirm, flow ≠ .formal confirm)
      (hreserves : ∀ key reservationId, flow.reserves = some (key, reservationId) →
        ∃ reservation ∈ m.reservations,
          reservation.id = reservationId ∧ reservation.idempotencyKey = key) :
      Moved setting m (.reserve number outcome reservationId) m' := by
    subst hflow
    refine moved_goOn rfl (continues_of_waiting hwaiting (by simp) hfirst hinformal ?_ (by simp))
    simpa using hreserves
  have hfailed (hfailure : some (m.failFormalReservation number confirm outcome) = some m') :
      Moved setting m (.reserve number outcome reservationId) m' := by
    have hfailure := Option.some.inj hfailure
    unfold Updates.failFormalReservation at hfailure
    split at hfailure
    · split_ifs at hfailure
      · exact hgoOn hfailure (by simp) (by simp) (by simp [Flow.reserves])
      · exact hgoOn hfailure (by simp) (by simp) (by simp [Flow.reserves])
    · exact hgoOn hfailure (by simp) (by simp) (by simp [Flow.reserves])
  unfold Updates.runFormalReservation at h
  cases hfound : m.findReservation confirm.idempotencyKey with
  | none =>
      rw [hfound] at h
      cases outcome <;> dsimp only at h
      case created =>
        split_ifs at h with hfresh
        obtain rfl := Option.some.inj h
        refine .goOn (some ⟨reservationId, confirm.idempotencyKey, confirm.seatIds⟩) rfl
          (continues_of_waiting hwaiting (by simp) (by simp) (by simp) ?_ ?_)
        · rintro key id hkey
          obtain ⟨rfl, rfl⟩ := Prod.mk.inj (Option.some.inj hkey)
          exact ⟨_, List.mem_append_right _ (List.mem_singleton_self _), rfl, rfl⟩
        · rintro reservation hreservation
          obtain rfl := Option.some.inj hreservation
          refine ⟨confirm, rfl, rfl, rfl, fun other hother => ?_⟩
          exact of_decide_eq_true (List.all_eq_true.mp hfresh other hother)
      case replayed => cases h
      all_goals exact hfailed h
  | some reservation =>
      rw [hfound] at h
      cases outcome <;> dsimp only at h
      case created => cases h
      case replayed =>
        split_ifs at h
        obtain ⟨hmem, hkey⟩ := findReservation_some hfound
        refine hgoOn (Option.some.inj h) (by simp) (by simp) fun key id hreserves => ?_
        obtain ⟨rfl, rfl⟩ := Prod.mk.inj (Option.some.inj hreserves)
        exact ⟨reservation, hmem, rfl, hkey⟩
      all_goals exact hfailed h

theorem moved_read {number : ℕ} {flow next : Flow}
    (hwaiting : m.requests number = some (.waiting flow))
    (h : m.readRecord setting flow = some next) :
    Moved setting m (.read number) (m.goOn number next) := by
  cases flow with
  | get userId =>
      obtain rfl := Option.some.inj h
      refine moved_goOn rfl (continues_of_waiting hwaiting (by simp) ?_ ?_ ?_ (by simp))
      all_goals split_ifs <;> simp [Flow.reserves]
  | resolve userId state successOutcome =>
      obtain rfl := Option.some.inj h
      refine moved_goOn rfl ?_
      obtain ⟨outcome, hanswer⟩ | ⟨key, reservation, hfound, hreconcile⟩ :=
        resolveRecord_cases userId state successOutcome
      · rw [hanswer]
        exact continues_of_waiting hwaiting (by simp) (by simp) (by simp) (by simp [Flow.reserves])
          (by simp)
      · obtain ⟨hmem, hkey⟩ := findReservation_some hfound
        rw [hreconcile]
        refine continues_of_waiting hwaiting (by simp) (by simp) (by simp) ?_ (by simp)
        intro key' id hreserves
        obtain ⟨rfl, rfl⟩ := Prod.mk.inj (Option.some.inj hreserves)
        exact ⟨reservation, List.mem_append_left _ hmem, rfl, hkey⟩
  | _ => cases h

theorem step_moved {move : Move} (h : m.step setting move = some m') : Moved setting m move m' := by
  cases move with
  | put number userId body =>
      unfold Updates.step at h
      dsimp only at h
      cases hrequest : replaceRequest userId body with
      | none =>
          rw [hrequest] at h
          exact moved_receive rfl (by simp) rfl h
      | some request =>
          rw [hrequest] at h
          exact moved_receive rfl (by simp) rfl h
  | confirm number userId => exact moved_receive rfl (by simp) rfl h
  | abandon number userId => exact moved_receive rfl (by simp) rfl h
  | get number userId => exact moved_receive rfl (by simp) rfl h
  | refuse number =>
      unfold Updates.step at h
      dsimp only at h
      split at h
      · rename_i flow hwaiting
        split_ifs at h with htransacts
        obtain rfl := Option.some.inj h
        refine moved_goOn rfl (continues_of_waiting hwaiting ?_ (by simp) (by simp)
          (by simp [Flow.reserves]) (by simp))
        rintro outcome rfl
        cases htransacts
      · cases h
  | begin number signals =>
      unfold Updates.step at h
      dsimp only at h
      split at h
      · rename_i flow hwaiting
        split_ifs at h with htransacts
        obtain ⟨sys, hsys, rfl⟩ := Option.map_eq_some_iff.mp h
        exact .begin hwaiting htransacts hsys
      · cases h
  | advance i =>
      obtain ⟨sys, hsys, rfl⟩ := Option.map_eq_some_iff.mp h
      exact .advance hsys
  | commit i =>
      unfold Updates.step at h
      dsimp only at h
      split at h
      · rename_i job held pending flow hopened
        obtain ⟨sys, hsys, rfl⟩ := Option.map_eq_some_iff.mp h
        exact .commit hopened rfl hsys
      · cases h
  | abort i =>
      unfold Updates.step at h
      dsimp only at h
      split at h
      · rename_i job held pending ending hopened
        obtain ⟨sys, hsys, rfl⟩ := Option.map_eq_some_iff.mp h
        exact .abort ending hopened hsys
      · rename_i job held pending rest hnot hopened
        obtain ⟨sys, hsys, rfl⟩ := Option.map_eq_some_iff.mp h
        exact .abort (.answer .internalError) hopened hsys
      · cases h
  | reserve number outcome reservationId =>
      unfold Updates.step at h
      dsimp only at h
      split at h
      · rename_i confirm hwaiting
        exact moved_reserve hwaiting h
      · cases h
  | read number =>
      unfold Updates.step at h
      dsimp only at h
      split at h
      · rename_i flow hwaiting
        obtain ⟨next, hnext, rfl⟩ := Option.map_eq_some_iff.mp h
        exact moved_read hwaiting hnext
      · cases h
  | repair number =>
      unfold Updates.step at h
      dsimp only at h
      split at h
      · rename_i key hnew hstate
        obtain ⟨reservation, hfound, rfl⟩ := Option.map_eq_some_iff.mp h
        obtain ⟨hmem, hkey⟩ := findReservation_some hfound
        refine moved_goOn rfl (continues_of_new hnew (by simp) fun key' id hreserves => ?_)
        obtain ⟨rfl, rfl⟩ := Prod.mk.inj (Option.some.inj hreserves)
        exact ⟨reservation, hmem, rfl, hkey⟩
      · cases h

end Moves

/-! ## The committed changes -/

section Sequence

variable {setting : Setting} {s₀ : Checkout} {m m' : Updates}

theorem locksFirst_lock {owner userId : String} {missing : Ending} {rest : Checkout → DB Flow} :
    (lockByIdForUser owner userId missing rest).LocksFirst := by
  unfold lockByIdForUser
  split_ifs
  · trivial
  · trivial

theorem Setting.locksFirst (setting : Setting) (job : Job) : (setting.program job).LocksFirst := by
  unfold Setting.program
  cases job.flow with
  | replace request => exact locksFirst_lock
  | prepareConfirm userId => exact locksFirst_lock
  | finalizeReserved confirm reservationId => exact locksFirst_lock
  | resetAfterBusinessFailure confirm failure => exact locksFirst_lock
  | closeSubmitting confirm failure => exact locksFirst_lock
  | abandon userId => exact locksFirst_lock
  | reconcile userId key reservationId successOutcome => exact locksFirst_lock
  | _ => trivial

def Setting.discipline (setting : Setting) :
    Discipline (exclusive store) setting.workload (id : Flow → Flow) :=
  exclusiveDiscipline store setting.workload (fun _ => rfl) setting.locksFirst fun _ _ => rfl

/-- The committed PUTs, each made against the revision before it. -/
structure Ordered (setting : Setting) (s₀ : Checkout) (m : Updates) : Prop where
  good : setting.discipline.Good m.sys
  running : ∀ i tx, m.sys.open? i = some tx → m.requests tx.job.number = some (.running i)
  sequence : m.replaced.map (fun put => put.2.expectedRevision) =
    List.range' s₀.revision m.replaced.length
  revision : m.checkout.revision = s₀.revision + m.replaced.length
  stored : m.checkout.seatIds = (m.replaced.getLast?.map fun put => put.2.seatIds).getD s₀.seatIds
  answered : ∀ put ∈ m.replaced, m.requests put.1 = some (.waiting (.answered .updated))

theorem ordered_start (setting : Setting) (s₀ : Checkout) : Ordered setting s₀ (.start s₀) where
  good := setting.discipline.good_start s₀ trivial
  running i tx htx := by cases htx
  sequence := rfl
  revision := rfl
  stored := rfl
  answered put hput := by cases hput

/-- Without a commit the row stays as the recorded changes have left it. -/
theorem Ordered.of_committed (h : Ordered setting s₀ m)
    {sys : Sys Checkout Write Unit Ending Flow Job} (hsame : sys.committed = m.sys.committed) :
    sys.committed.revision = s₀.revision + m.replaced.length ∧
      sys.committed.seatIds =
        (m.replaced.getLast?.map fun put => put.2.seatIds).getD s₀.seatIds := by
  rw [hsame]
  exact ⟨h.revision, h.stored⟩

theorem answered_goOn {number : ℕ} {flow : Flow} {replaced : List (ℕ × ReplaceRequest)}
    (h : ∀ put ∈ replaced, m.requests put.1 = some (.waiting (.answered .updated)))
    (hother : ∀ outcome, m.requests number ≠ some (.waiting (.answered outcome))) :
    ∀ put ∈ replaced,
      (m.goOn number flow).requests put.1 = some (.waiting (.answered .updated)) := by
  intro put hput
  have hne : put.1 ≠ number := fun heq => hother .updated (heq ▸ h put hput)
  exact (requests_goOn_of_ne hne flow).trans (h put hput)

/-- A commit of a transaction, as if it were alone. -/
theorem Ordered.commits (h : Ordered setting s₀ m) {i : ℕ}
    {tx : Open Checkout Write Unit Ending Flow Job} (htx : m.sys.open? i = some tx) {flow : Flow}
    (hrest : tx.rest = .commit flow) {sys : Sys Checkout Write Unit Ending Flow Job}
    (hstep : m.sys.step store setting.workload (.commit i) = some sys) :
    Commits setting tx.job m.checkout flow sys.committed := by
  have hserial := serial_of_commit h.good htx hrest
  rw [commit_step htx hrest hstep]
  exact program_ok hserial

/-- The transaction of a move is over afterwards, and the others stay. -/
theorem Ordered.others (h : Ordered setting s₀ m) {i : ℕ}
    {tx : Open Checkout Write Unit Ending Flow Job} (htx : m.sys.open? i = some tx)
    {sys : Sys Checkout Write Unit Ending Flow Job} (hsys : sys.txs = (m.sys.put i none).txs) :
    ∀ k other, sys.open? k = some other →
      m.sys.open? k = some other ∧ other.job.number ≠ tx.job.number := by
  intro k other hother
  have hput : (m.sys.put i none).open? k = some other := by
    unfold Sys.open? at hother ⊢
    rwa [← hsys]
  obtain ⟨hne, hold⟩ := open?_dropped htx hput
  refine ⟨hold, fun heq => hne ?_⟩
  have hrunning := h.running k other hold
  rw [heq, h.running i tx htx] at hrunning
  injection hrunning with hrunning
  injection hrunning with hrunning
  exact hrunning.symm

/-- A request that is recorded anew has been answered as updated. -/
theorem Commits.recorded {s t : Checkout} {job : Job} {flow : Flow}
    (h : Commits setting job s flow t) {put : ℕ × ReplaceRequest}
    (hput : put ∈ (m.record job).replaced) :
    put ∈ m.replaced ∨ put.1 = job.number ∧ flow = .answered .updated := by
  unfold Updates.record at hput
  dsimp only at hput
  split at hput
  · rename_i request hflow
    obtain hold | hnew := List.mem_append.mp hput
    · exact .inl hold
    · obtain rfl := List.mem_singleton.mp hnew
      refine .inr ⟨rfl, ?_⟩
      cases h with
      | replace isReplace selecting current => rfl
      | freeze isConfirm selecting =>
          rw [hflow] at isConfirm
          cases isConfirm
      | reuse isConfirm submitting =>
          rw [hflow] at isConfirm
          cases isConfirm
      | reserve reserves submitting =>
          rw [hflow] at reserves
          cases reserves
      | leave opened notReplace => exact absurd hflow (notReplace request)
  · exact .inl hput

theorem Ordered.record (h : Ordered setting s₀ m) {job : Job} {flow : Flow} {t : Checkout}
    (hcommits : Commits setting job m.checkout flow t) {replaced : List (ℕ × ReplaceRequest)}
    (hreplaced : replaced = match job.flow with
      | .replace request => m.replaced ++ [(job.number, request)]
      | _ => m.replaced) :
    replaced.map (fun put => put.2.expectedRevision) = List.range' s₀.revision replaced.length ∧
      t.revision = s₀.revision + replaced.length ∧
      t.seatIds = (replaced.getLast?.map fun put => put.2.seatIds).getD s₀.seatIds := by
  have hkept (hother : ∀ request, job.flow ≠ .replace request)
      (hrevision : t.revision = m.checkout.revision) (hseats : t.seatIds = m.checkout.seatIds) :
      replaced.map (fun put => put.2.expectedRevision) =
          List.range' s₀.revision replaced.length ∧
        t.revision = s₀.revision + replaced.length ∧
        t.seatIds = (replaced.getLast?.map fun put => put.2.seatIds).getD s₀.seatIds := by
    have hsame : replaced = m.replaced := by
      rw [hreplaced]
      split
      · rename_i request hflow
        exact absurd hflow (hother request)
      · rfl
    rw [hsame]
    exact ⟨h.sequence, hrevision.trans h.revision, hseats.trans h.stored⟩
  cases hcommits with
  | replace isReplace selecting current =>
      rename_i request
      rw [isReplace] at hreplaced
      subst hreplaced
      rw [List.map_append, h.sequence, List.length_append, List.length_singleton]
      refine ⟨?_, ?_, ?_⟩
      · rw [List.range'_concat, Nat.one_mul, ← h.revision, current]
        rfl
      · show m.checkout.revision + 1 = _
        rw [h.revision, Nat.add_assoc]
      · rw [List.getLast?_concat]
        rfl
  | freeze isConfirm selecting => exact hkept (by rw [isConfirm]; simp) rfl rfl
  | reuse isConfirm submitting => exact hkept (by rw [isConfirm]; simp) rfl rfl
  | reserve reserves submitting =>
      refine hkept (fun request heq => ?_) rfl rfl
      rw [heq] at reserves
      cases reserves
  | leave opened notReplace => exact hkept notReplace rfl rfl

theorem Ordered.step (h : Ordered setting s₀ m) {move : Move} (hmoved : Moved setting m move m') :
    Ordered setting s₀ m' := by
  cases hmoved with
  | goOn extra outside continues =>
      rename_i number flow
      refine ⟨h.good, fun i tx htx => ?_, h.sequence, h.revision, h.stored,
        answered_goOn h.answered continues.unanswered⟩
      have hne : tx.job.number ≠ number := by
        rintro rfl
        exact continues.idle i (h.running i tx htx)
      exact (requests_goOn_of_ne hne flow).trans (h.running i tx htx)
  | begin waiting transacts step =>
      rename_i number signals flow sys
      have hpush := begin_step step
      obtain ⟨hrevision, hstored⟩ := h.of_committed (committed_of_step step (by simp))
      refine ⟨Discipline.good_step h.good step, fun k other hother => ?_, h.sequence, hrevision,
        hstored, ?_⟩
      · rw [hpush] at hother
        obtain hold | ⟨rfl, rfl⟩ := open?_push hother
        · have hne : other.job.number ≠ number := by
            intro heq
            have hrunning := h.running k other hold
            rw [heq, waiting] at hrunning
            cases hrunning
          exact (Function.update_of_ne hne _ _).trans (h.running k other hold)
        · exact Function.update_self _ _ _
      · intro put hput
        have hne : put.1 ≠ number := by
          intro heq
          have hanswer := h.answered put hput
          rw [heq, waiting] at hanswer
          injection hanswer with hanswer
          injection hanswer with hanswer
          rw [hanswer] at transacts
          cases transacts
        exact (Function.update_of_ne hne _ _).trans (h.answered put hput)
  | advance step =>
      rename_i i sys
      obtain ⟨hrevision, hstored⟩ := h.of_committed (committed_of_step step (by simp))
      refine ⟨Discipline.good_step h.good step, fun k other hother => ?_, h.sequence, hrevision,
        hstored, h.answered⟩
      obtain ⟨before, hbefore, hjob⟩ := open_of_step step (by simp) hother
      rw [← hjob]
      exact h.running k before hbefore
  | commit opened rest step =>
      rename_i i tx flow sys
      have hcommits := h.commits opened rest step
      have htxs : sys.txs = (m.sys.put i none).txs := by rw [commit_step opened rest step]
      obtain ⟨hsequence, hrevision, hstored⟩ := h.record hcommits rfl
      refine ⟨Discipline.good_step h.good step, fun k other hother => ?_, hsequence, hrevision,
        hstored, fun put hput => ?_⟩
      · obtain ⟨hold, hne⟩ := h.others opened htxs k other hother
        exact (requests_goOn_of_ne hne flow).trans (h.running k other hold)
      · obtain hold | ⟨heq, hflow⟩ := hcommits.recorded hput
        · refine answered_goOn h.answered (fun outcome heq => ?_) put hold
          exact absurd ((h.running i tx opened).symm.trans heq) (by simp)
        · rw [heq, hflow]
          exact requests_goOn_self _ _ _
  | abort ending opened step =>
      rename_i i tx sys
      obtain ⟨hrevision, hstored⟩ := h.of_committed (committed_of_step step (by simp))
      refine ⟨Discipline.good_step h.good step, fun k other hother => ?_, h.sequence, hrevision,
        hstored, ?_⟩
      · obtain ⟨hold, hne⟩ := h.others opened (congrArg Sys.txs (abort_step step)) k other hother
        exact (requests_goOn_of_ne hne _).trans (h.running k other hold)
      · refine answered_goOn h.answered fun outcome heq => ?_
        exact absurd ((h.running i tx opened).symm.trans heq) (by simp)

end Sequence

/-! ## The seats under a confirm key -/

section Keys

variable {setting : Setting} {s₀ : Checkout} {m m' : Updates}
  {frozen : String → Option (List String)}

/-- What a request has captured: the seats under its key, or a reservation under its key. -/
structure Flow.Knows (flow : Flow) (frozen : String → Option (List String))
    (reservations : List Reservation) : Prop where
  formal : ∀ confirm, flow = .formal confirm → frozen confirm.idempotencyKey = some confirm.seatIds
  reserves : ∀ key reservationId, flow.reserves = some (key, reservationId) →
    ∃ reservation ∈ reservations,
      reservation.id = reservationId ∧ reservation.idempotencyKey = key

/-- The request is past the transaction that draws its key. -/
structure Updates.Drawn (m : Updates) (number : ℕ) : Prop where
  known : m.requests number ≠ none
  waiting : ∀ userId, m.requests number ≠ some (.waiting (.prepareConfirm userId))
  open_ : ∀ i tx userId, m.sys.open? i = some tx → tx.job.number = number →
    tx.job.flow ≠ .prepareConfirm userId

/-- The seats that the checkout had when it became SUBMITTING under a key. -/
structure Keyed (setting : Setting) (m : Updates) (frozen : String → Option (List String)) :
    Prop where
  jobs : ∀ i tx, m.sys.open? i = some tx → tx.job.flow.Knows frozen m.reservations
  waiting : ∀ number flow, m.requests number = some (.waiting flow) →
    flow.Knows frozen m.reservations
  drawn : ∀ number, (frozen (setting.confirmKey number)).isSome → m.Drawn number
  submitting : ∀ key, m.checkout.state = .submitting key → frozen key =
    some (setting.collation.orderBy m.checkout.seatIds)
  reserved : ∀ key reservationId, m.checkout.state = .reserved key reservationId →
    frozen key = some (setting.collation.orderBy m.checkout.seatIds) ∧
      ∃ reservation ∈ m.reservations,
        reservation.id = reservationId ∧ reservation.idempotencyKey = key
  reservations : ∀ reservation ∈ m.reservations,
    frozen reservation.idempotencyKey = some reservation.seatIds
  distinct : (m.reservations.map Reservation.id).Nodup

theorem Flow.Knows.mono {flow : Flow} {reservations : List Reservation}
    (h : flow.Knows frozen reservations) {frozen' : String → Option (List String)}
    (hfrozen : ∀ key seatIds, frozen key = some seatIds → frozen' key = some seatIds)
    (extra : List Reservation) : flow.Knows frozen' (reservations ++ extra) where
  formal confirm heq := hfrozen _ _ (h.formal confirm heq)
  reserves key reservationId heq := by
    obtain ⟨reservation, hmem, hid⟩ := h.reserves key reservationId heq
    exact ⟨reservation, List.mem_append_left _ hmem, hid⟩

theorem knows_of_plain {flow : Flow} (hformal : ∀ confirm, flow ≠ .formal confirm)
    (hreserves : flow.reserves = none) (reservations : List Reservation) :
    flow.Knows frozen reservations where
  formal confirm heq := absurd heq (hformal confirm)
  reserves key reservationId heq := by
    rw [hreserves] at heq
    cases heq

theorem knows_ending (ending : Ending) (reservations : List Reservation) :
    ending.flow.Knows frozen reservations := by
  cases ending with
  | answer outcome => exact knows_of_plain (by simp [Ending.flow]) rfl reservations
  | refuse => exact knows_of_plain (by simp [Ending.flow]) rfl reservations
  | resolve userId state successOutcome =>
      exact knows_of_plain (by simp [Ending.flow]) rfl reservations

theorem keyed_start (setting : Setting) (hstate : s₀.state = .selecting) :
    Keyed setting (.start s₀) fun _ => none where
  jobs i tx htx := by cases htx
  waiting number flow hwaiting := by cases hwaiting
  drawn number hsome := by cases hsome
  submitting key heq := by
    have hsubmitting := hstate.symm.trans heq
    cases hsubmitting
  reserved key reservationId heq := by
    have hreserved := hstate.symm.trans heq
    cases hreserved
  reservations reservation hmem := by cases hmem
  distinct := List.nodup_nil

/-- A request that goes on knows as much as before. -/
theorem Keyed.goOn (h : Keyed setting m frozen) {number : ℕ} {flow : Flow}
    {extra : Option Reservation} (hcontinues : m.Continues number flow extra) :
    Keyed setting
      (Updates.goOn { m with reservations := m.reservations ++ extra.toList } number flow)
      frozen where
  jobs i tx htx := (h.jobs i tx htx).mono (fun _ _ heq => heq) _
  waiting other next hwaiting := by
    obtain ⟨-, rfl⟩ | ⟨-, hold⟩ := waiting_goOn hwaiting
    · exact ⟨fun confirm heq => absurd heq (hcontinues.informal confirm), hcontinues.reserves⟩
    · exact (h.waiting other next hold).mono (fun _ _ heq => heq) _
  drawn other hsome := by
    have hdrawn := h.drawn other hsome
    refine ⟨fun hnone => ?_, fun userId hwaiting => ?_, hdrawn.open_⟩
    · by_cases hother : other = number
      · subst hother
        rw [requests_goOn_self] at hnone
        cases hnone
      · rw [requests_goOn_of_ne hother] at hnone
        exact hdrawn.known hnone
    · obtain ⟨rfl, heq⟩ | ⟨-, hold⟩ := waiting_goOn hwaiting
      · exact hdrawn.known (hcontinues.first userId heq.symm)
      · exact hdrawn.waiting userId hold
  submitting := h.submitting
  reserved key reservationId heq := by
    obtain ⟨hfrozen, reservation, hmem, hid⟩ := h.reserved key reservationId heq
    exact ⟨hfrozen, reservation, List.mem_append_left _ hmem, hid⟩
  reservations reservation hmem := by
    obtain hold | hnew := List.mem_append.mp hmem
    · exact h.reservations reservation hold
    · obtain ⟨confirm, hwaiting, hkey, hseats, -⟩ :=
        hcontinues.extra reservation (Option.mem_toList.mp hnew)
      rw [hkey, hseats]
      exact (h.waiting number _ hwaiting).formal confirm rfl
  distinct := by
    cases hextra : extra with
    | none => simpa [Updates.goOn] using h.distinct
    | some reservation =>
        obtain ⟨-, -, -, -, hfresh⟩ := hcontinues.extra reservation hextra
        show ((m.reservations ++ [reservation]).map Reservation.id).Nodup
        rw [List.map_append, List.nodup_append]
        refine ⟨h.distinct, List.nodup_singleton _, ?_⟩
        intro id hid id' hid'
        obtain ⟨other, hother, rfl⟩ := List.mem_map.mp hid
        rw [List.mem_singleton.mp hid']
        exact hfresh other hother

theorem Keyed.committed (h : Keyed setting m frozen) {t : Checkout} (ht : t = m.checkout) :
    (∀ key, t.state = .submitting key → frozen key = some (setting.collation.orderBy t.seatIds)) ∧
      ∀ key reservationId, t.state = .reserved key reservationId →
        frozen key = some (setting.collation.orderBy t.seatIds) ∧ ∃ reservation ∈ m.reservations,
          reservation.id = reservationId ∧ reservation.idempotencyKey = key := by
  subst ht
  exact ⟨h.submitting, h.reserved⟩

/-- A transaction that is over, with the checkout and the keys it leaves. -/
theorem Keyed.finish (h : Keyed setting m frozen) (flow : Flow) {number : ℕ}
    {sys : Sys Checkout Write Unit Ending Flow Job}
    (hothers : ∀ k other, sys.open? k = some other →
      m.sys.open? k = some other ∧ other.job.number ≠ number)
    {frozen' : String → Option (List String)}
    (hfrozen : ∀ key seatIds, frozen key = some seatIds → frozen' key = some seatIds)
    (hdrawn : ∀ other, (frozen' (setting.confirmKey other)).isSome → other = number ∨
      (frozen (setting.confirmKey other)).isSome)
    (hflow : flow.Knows frozen' m.reservations) (hfirst : ∀ userId, flow ≠ .prepareConfirm userId)
    (hsubmitting : ∀ key, sys.committed.state = .submitting key →
      frozen' key = some (setting.collation.orderBy sys.committed.seatIds))
    (hreserved : ∀ key reservationId, sys.committed.state = .reserved key reservationId →
      frozen' key = some (setting.collation.orderBy sys.committed.seatIds) ∧
        ∃ reservation ∈ m.reservations,
          reservation.id = reservationId ∧ reservation.idempotencyKey = key)
    (replaced : List (ℕ × ReplaceRequest)) :
    Keyed setting (Updates.goOn { m with sys := sys, replaced := replaced } number flow)
      frozen' where
  jobs k other hother := by
    have hknows := (h.jobs k other (hothers k other hother).1).mono hfrozen []
    rwa [List.append_nil] at hknows
  waiting other next hwaiting := by
    obtain ⟨-, rfl⟩ | ⟨-, hold⟩ := waiting_goOn hwaiting
    · exact hflow
    · have hknows := (h.waiting other next hold).mono hfrozen []
      rwa [List.append_nil] at hknows
  drawn other hsome := by
    by_cases hother : other = number
    · subst hother
      refine ⟨by simp, fun userId hwaiting => ?_, fun k tx userId htx hnumber => ?_⟩
      · obtain ⟨-, heq⟩ | ⟨hne, -⟩ := waiting_goOn hwaiting
        · exact hfirst userId heq.symm
        · exact hne rfl
      · exact absurd hnumber (hothers k tx htx).2
    · have hdrawn := h.drawn other ((hdrawn other hsome).resolve_left hother)
      refine ⟨?_, fun userId => ?_, fun k tx userId htx => ?_⟩
      · rw [requests_goOn_of_ne hother]
        exact hdrawn.known
      · rw [requests_goOn_of_ne hother]
        exact hdrawn.waiting userId
      · exact hdrawn.open_ k tx userId (hothers k tx htx).1
  submitting := hsubmitting
  reserved := hreserved
  reservations reservation hmem := hfrozen _ _ (h.reservations reservation hmem)
  distinct := h.distinct

theorem Keyed.commit (h : Keyed setting m frozen) (hkeys : Function.Injective setting.confirmKey)
    {i : ℕ} {tx : Open Checkout Write Unit Ending Flow Job} (htx : m.sys.open? i = some tx)
    {flow : Flow} {sys : Sys Checkout Write Unit Ending Flow Job}
    (hcommits : Commits setting tx.job m.checkout flow sys.committed)
    (hothers : ∀ k other, sys.open? k = some other →
      m.sys.open? k = some other ∧ other.job.number ≠ tx.job.number)
    (replaced : List (ℕ × ReplaceRequest)) : ∃ frozen', Keyed setting
      (Updates.goOn { m with sys := sys, replaced := replaced } tx.job.number flow) frozen' := by
  generalize hcheckout : sys.committed = t at hcommits
  have hfinish := h.finish flow hothers (fun _ _ heq => heq) fun _ hsome => Or.inr hsome
  rw [hcheckout] at hfinish
  cases hcommits with
  | replace isReplace selecting current =>
      refine ⟨_, hfinish (knows_of_plain (by simp) rfl _) (by simp) ?_ ?_ replaced⟩
      · intro key heq
        have hstate := selecting.symm.trans heq
        cases hstate
      · intro key reservationId heq
        have hstate := selecting.symm.trans heq
        cases hstate
  | freeze isConfirm selecting =>
      rename_i userId
      have hnew : frozen (setting.confirmKey tx.job.number) = none := by
        by_contra hsome
        exact (h.drawn _ (Option.isSome_iff_ne_none.mpr hsome)).open_ i tx userId htx rfl isConfirm
      refine ⟨Function.update frozen (setting.confirmKey tx.job.number)
          (some (setting.collation.orderBy m.checkout.seatIds)),
        h.finish _ hothers (fun key seatIds heq => ?_) (fun other hsome => ?_) ⟨?_, ?_⟩ (by simp)
          ?_ ?_ replaced⟩
      · have hne : key ≠ setting.confirmKey tx.job.number := by
          rintro rfl
          rw [hnew] at heq
          cases heq
        rw [Function.update_of_ne hne]
        exact heq
      · by_cases hother : other = tx.job.number
        · exact Or.inl hother
        · rw [Function.update_of_ne (hkeys.ne hother)] at hsome
          exact Or.inr hsome
      · rintro confirm heq
        injection heq with heq
        subst heq
        exact Function.update_self _ _ _
      · rintro key reservationId heq
        cases heq
      · rintro key heq
        rw [hcheckout] at heq ⊢
        injection heq with heq
        subst heq
        exact Function.update_self _ _ _
      · rintro key reservationId heq
        rw [hcheckout] at heq
        cases heq
  | reuse isConfirm submitting =>
      refine ⟨_, hfinish ⟨?_, ?_⟩ (by simp) h.submitting h.reserved replaced⟩
      · rintro confirm heq
        injection heq with heq
        subst heq
        exact h.submitting _ submitting
      · rintro key reservationId heq
        cases heq
  | reserve reserves submitting =>
      refine ⟨_, hfinish (knows_of_plain (by simp) rfl _) (by simp) ?_ ?_ replaced⟩
      · rintro key heq
        cases heq
      · rintro key reservationId heq
        injection heq with hkey hid
        subst hkey
        subst hid
        exact ⟨h.submitting _ submitting, (h.jobs i tx htx).reserves _ _ reserves⟩
  | leave opened notReplace =>
      refine ⟨_, hfinish (knows_of_plain (by simp) rfl _) (by simp) ?_ ?_ replaced⟩
      · rintro key heq
        obtain rfl | rfl := opened <;> cases heq
      · rintro key reservationId heq
        obtain rfl | rfl := opened <;> cases heq

theorem Keyed.step (h : Keyed setting m frozen) (hordered : Ordered setting s₀ m)
    (hkeys : Function.Injective setting.confirmKey) {move : Move}
    (hmoved : Moved setting m move m') : ∃ frozen', Keyed setting m' frozen' := by
  cases hmoved with
  | goOn extra outside continues => exact ⟨frozen, h.goOn continues⟩
  | begin waiting transacts step =>
      rename_i number signals flow sys
      have hpush := begin_step step
      obtain ⟨hsubmitting, hreserved⟩ := h.committed (committed_of_step step (by simp))
      have hopen {k : ℕ} {other : Open Checkout Write Unit Ending Flow Job}
          (hother : sys.open? k = some other) : m.sys.open? k = some other ∨
            other = Sys.start setting.workload ⟨number, flow, signals⟩ := by
        rw [hpush] at hother
        exact (open?_push hother).imp id And.right
      refine ⟨frozen, fun k other hother => ?_, fun other next hwaiting => ?_,
        fun other hsome => ?_, hsubmitting, hreserved, h.reservations, h.distinct⟩
      · obtain hold | rfl := hopen hother
        · exact h.jobs k other hold
        · exact h.waiting number flow waiting
      · by_cases hother : other = number
        · subst hother
          have hself := hwaiting.symm.trans (Function.update_self _ _ _)
          cases hself
        · exact h.waiting other next ((Function.update_of_ne hother _ _).symm.trans hwaiting)
      · have hdrawn := h.drawn other hsome
        refine ⟨fun heq => ?_, fun userId heq => ?_, fun k tx userId htx hnumber => ?_⟩
        · by_cases hother : other = number
          · subst hother
            have hself := heq.symm.trans (Function.update_self _ _ _)
            cases hself
          · exact hdrawn.known ((Function.update_of_ne hother _ _).symm.trans heq)
        · by_cases hother : other = number
          · subst hother
            have hself := heq.symm.trans (Function.update_self _ _ _)
            cases hself
          · exact hdrawn.waiting userId ((Function.update_of_ne hother _ _).symm.trans heq)
        · obtain hold | rfl := hopen htx
          · exact hdrawn.open_ k tx userId hold hnumber
          · rintro rfl
            obtain rfl : number = other := hnumber
            exact hdrawn.waiting userId waiting
  | advance step =>
      obtain ⟨hsubmitting, hreserved⟩ := h.committed (committed_of_step step (by simp))
      refine ⟨frozen, fun k other hother => ?_, h.waiting, fun other hsome => ?_, hsubmitting,
        hreserved, h.reservations, h.distinct⟩
      · obtain ⟨before, hbefore, hjob⟩ := open_of_step step (by simp) hother
        rw [← hjob]
        exact h.jobs k before hbefore
      · have hdrawn := h.drawn other hsome
        refine ⟨hdrawn.known, hdrawn.waiting, fun k tx userId htx hnumber => ?_⟩
        obtain ⟨before, hbefore, hjob⟩ := open_of_step step (by simp) htx
        rw [← hjob] at hnumber ⊢
        exact hdrawn.open_ k before userId hbefore hnumber
  | commit opened rest step =>
      rename_i i tx flow sys
      have htxs : sys.txs = (m.sys.put i none).txs := by rw [commit_step opened rest step]
      exact h.commit hkeys opened (hordered.commits opened rest step)
        (hordered.others opened htxs) _
  | abort ending opened step =>
      rename_i i tx sys
      obtain ⟨hsubmitting, hreserved⟩ := h.committed (committed_of_step step (by simp))
      refine ⟨frozen, h.finish _ (hordered.others opened (congrArg Sys.txs (abort_step step)))
        (fun _ _ heq => heq) (fun _ hsome => Or.inr hsome) (knows_ending ending _) ?_
        hsubmitting hreserved _⟩
      cases ending <;> simp [Ending.flow]

end Keys

/-! ## Whole runs -/

section Runs

variable {setting : Setting} {s₀ : Checkout} {m m' : Updates}

theorem Updates.run_concat {moves : List Move} {move : Move} :
    Updates.run setting m (moves ++ [move]) =
      (Updates.run setting m moves).bind fun mid => mid.step setting move := by
  unfold Updates.run
  rw [List.foldlM_append]
  simp only [List.foldlM_cons, List.foldlM_nil, bind_pure]
  rfl

/-- Every run keeps both invariants. -/
theorem run_ordered (hkeys : Function.Injective setting.confirmKey)
    (hselecting : s₀.state = .selecting) {moves : List Move}
    (hrun : Updates.run setting (.start s₀) moves = some m) :
    Ordered setting s₀ m ∧ ∃ frozen, Keyed setting m frozen := by
  induction moves using List.reverseRecOn generalizing m with
  | nil =>
      obtain rfl := Option.some.inj hrun
      exact ⟨ordered_start setting s₀, _, keyed_start setting hselecting⟩
  | append_singleton moves move ih =>
      rw [Updates.run_concat] at hrun
      obtain ⟨mid, hmid, hstep⟩ := Option.bind_eq_some_iff.mp hrun
      obtain ⟨hordered, frozen, hkeyed⟩ := ih hmid
      have hmoved := step_moved hstep
      exact ⟨hordered.step hmoved, hkeyed.step hordered hkeys hmoved⟩

/-- The committed PUTs up to a state, in the order of their commits: each was made against the
revision before it, the seats are those of the last one, and no failed request is among them. -/
structure Serialised (s₀ : Checkout) (m : Updates) : Prop where
  sequence : m.replaced.map (fun put => put.2.expectedRevision) =
    List.range' s₀.revision m.replaced.length
  atMostOnce : (m.replaced.map fun put => put.2.expectedRevision).Nodup
  revision : m.checkout.revision = s₀.revision + m.replaced.length
  stored : m.checkout.seatIds = (m.replaced.getLast?.map fun put => put.2.seatIds).getD s₀.seatIds
  failed : ∀ number outcome, m.requests number = some (.waiting (.answered outcome)) →
    outcome ≠ .updated → ∀ put ∈ m.replaced, put.1 ≠ number
  refused : ∀ number, m.requests number = some (.waiting .refused) →
    ∀ put ∈ m.replaced, put.1 ≠ number
  reserved : ∀ key reservationId, m.checkout.state = .reserved key reservationId →
    ∃ reservation ∈ m.reservations, reservation.id = reservationId ∧
      reservation.idempotencyKey = key ∧ reservation.seatIds.Perm m.checkout.seatIds
  distinct : (m.reservations.map Reservation.id).Nodup

/-- The commit of a PUT. -/
structure Replaces (m m' : Updates) (number : ℕ) (request : ReplaceRequest) : Prop where
  selecting : m.checkout.state = .selecting
  current : request.expectedRevision = m.checkout.revision
  stored : m'.checkout = m.checkout.replaced request
  recorded : m'.replaced = m.replaced ++ [(number, request)]
  answered : m'.requests number = some (.waiting (.answered .updated))

/-- What a move does to the row and its seats: without a commit nothing, and without the commit of a
PUT nothing to the seats and the revision. -/
structure Updates.Steps (m : Updates) (move : Move) (m' : Updates) : Prop where
  replaces : ∀ i tx request, move = .commit i → m.sys.open? i = some tx →
    tx.job.flow = .replace request → Replaces m m' tx.job.number request
  keeps : ∀ i tx, move = .commit i → m.sys.open? i = some tx →
    (∀ request, tx.job.flow ≠ .replace request) →
    m'.checkout.seatIds = m.checkout.seatIds ∧ m'.checkout.revision = m.checkout.revision ∧
      m'.replaced = m.replaced
  uncommitted : (∀ i, move ≠ .commit i) → m'.checkout = m.checkout ∧ m'.replaced = m.replaced

theorem Commits.keeps {job : Job} {s t : Checkout} {flow : Flow}
    (h : Commits setting job s flow t) (hother : ∀ request, job.flow ≠ .replace request) :
    t.seatIds = s.seatIds ∧ t.revision = s.revision := by
  cases h with
  | replace isReplace selecting current => exact absurd isReplace (hother _)
  | freeze isConfirm selecting => exact ⟨rfl, rfl⟩
  | reuse isConfirm submitting => exact ⟨rfl, rfl⟩
  | reserve reserves submitting => exact ⟨rfl, rfl⟩
  | leave opened notReplace => exact ⟨rfl, rfl⟩

theorem Commits.replaces {job : Job} {s t : Checkout} {flow : Flow} {request : ReplaceRequest}
    (h : Commits setting job s flow t) (hreplace : job.flow = .replace request) :
    s.state = .selecting ∧ s.revision = request.expectedRevision ∧ flow = .answered .updated ∧
      t = s.replaced request := by
  cases h with
  | replace isReplace selecting current =>
      rw [hreplace] at isReplace
      injection isReplace with isReplace
      subst isReplace
      exact ⟨selecting, current, rfl, rfl⟩
  | freeze isConfirm selecting =>
      rw [hreplace] at isConfirm
      cases isConfirm
  | reuse isConfirm submitting =>
      rw [hreplace] at isConfirm
      cases isConfirm
  | reserve reserves submitting =>
      rw [hreplace] at reserves
      cases reserves
  | leave opened notReplace => exact absurd hreplace (notReplace request)

theorem Ordered.steps (h : Ordered setting s₀ m) {move : Move} (hmoved : Moved setting m move m') :
    m.Steps move m' := by
  cases hmoved with
  | goOn extra outside continues =>
      refine ⟨?_, ?_, fun _ => ⟨rfl, rfl⟩⟩
      · rintro i tx request rfl
        cases outside
      · rintro i tx rfl
        cases outside
  | begin waiting transacts step =>
      exact ⟨by simp, by simp, fun _ => ⟨committed_of_step step (by simp), rfl⟩⟩
  | advance step => exact ⟨by simp, by simp, fun _ => ⟨committed_of_step step (by simp), rfl⟩⟩
  | abort ending opened step =>
      exact ⟨by simp, by simp, fun _ => ⟨committed_of_step step (by simp), rfl⟩⟩
  | commit opened rest step =>
      rename_i i tx flow sys
      have hcommits := h.commits opened rest step
      refine ⟨fun k other request hk hother hreplace => ?_, fun k other hk hother hkeeps => ?_,
        fun hnot => absurd rfl (hnot i)⟩
      · obtain rfl := Move.commit.inj hk
        obtain rfl := Option.some.inj (opened.symm.trans hother)
        obtain ⟨hstate, hrevision, rfl, hstored⟩ := hcommits.replaces hreplace
        refine ⟨hstate, hrevision.symm, hstored, ?_, requests_goOn_self _ _ _⟩
        unfold Updates.goOn Updates.record
        rw [hreplace]
      · obtain rfl := Move.commit.inj hk
        obtain rfl := Option.some.inj (opened.symm.trans hother)
        obtain ⟨hseats, hrevision⟩ := hcommits.keeps hkeeps
        refine ⟨hseats, hrevision, ?_⟩
        unfold Updates.goOn Updates.record
        dsimp only
        split
        · rename_i request hreplace
          exact absurd hreplace (hkeeps request)
        · rfl

theorem Ordered.serialised (h : Ordered setting s₀ m) {frozen : String → Option (List String)}
    (hkeyed : Keyed setting m frozen) : Serialised s₀ m where
  sequence := h.sequence
  atMostOnce := by
    rw [h.sequence]
    exact List.nodup_range'
  revision := h.revision
  stored := h.stored
  failed number outcome hanswer hfailed put hput := by
    rintro rfl
    have hsame := hanswer.symm.trans (h.answered put hput)
    injection hsame with hsame
    injection hsame with hsame
    injection hsame with hsame
    exact hfailed hsame
  refused number hrefused put hput := by
    rintro rfl
    have hsame := hrefused.symm.trans (h.answered put hput)
    cases hsame
  reserved key reservationId hstate := by
    obtain ⟨hfrozen, reservation, hmem, hid, hkey⟩ := hkeyed.reserved key reservationId hstate
    refine ⟨reservation, hmem, hid, hkey, ?_⟩
    have hseats := hkeyed.reservations reservation hmem
    rw [hkey, hfrozen] at hseats
    rw [← Option.some.inj hseats]
    exact List.perm_insertionSort _ _
  distinct := hkeyed.distinct

/-- The selection of a checkout changes with the committed PUTs only, one after the other. -/
theorem updates_serialised (setting : Setting) (hkeys : Function.Injective setting.confirmKey)
    (s₀ : Checkout) (hselecting : s₀.state = .selecting) (moves : List Move) (m : Updates)
    (hrun : Updates.run setting (.start s₀) moves = some m) :
    Serialised s₀ m ∧ ∀ move m', m.step setting move = some m' → m.Steps move m' := by
  obtain ⟨hordered, frozen, hkeyed⟩ := run_ordered hkeys hselecting hrun
  exact ⟨hordered.serialised hkeyed, fun move m' hstep => hordered.steps (step_moved hstep)⟩

/-! ### Two tabs, of which one loses, and a confirm -/

def tabsSetting : Setting where
  collation := .bytewise
  owner := "U1"
  confirmKey number := "CHK-CONFIRM-" ++ toString number

theorem tabsSetting_keys : Function.Injective tabsSetting.confirmKey := by
  intro m n h
  have hchars := congrArg String.toList h
  unfold tabsSetting at hchars
  simp only [String.toList_append, List.append_cancel_left_eq] at hchars
  exact LengthPrefix.nat_toString_injective (String.toList_injective hchars)

def onSale : Signals where
  gate := some ⟨"E1", true, true, .opened, 60000⟩

def seatsBody (seatIds : List String) (revision : ℕ) : Value :=
  .object [("seatIds", .array (seatIds.map .string)), ("expectedRevision", .int revision)]

def advances (count transaction : ℕ) : List Move := List.replicate count (.advance transaction)

/-- Both tabs write at the revision 0. -/
def rivalPuts : List (List Move) :=
  [[.put 0 "U1" (seatsBody ["S2", "S1"] 0), .put 1 "U1" (seatsBody ["S3"] 0), .begin 0 onSale,
      .begin 1 onSale],
    advances 7 0, [.commit 0], advances 2 1, [.abort 1]]

/-- The last PUT comes after the confirm has frozen the seats. -/
def confirmedSeats : List (List Move) :=
  [[.confirm 2 "U1", .put 3 "U1" (seatsBody ["S3"] 1), .begin 2 onSale, .begin 3 onSale],
    advances 4 2, [.commit 2], advances 2 3,
    [.abort 3, .reserve 2 .created "R1", .begin 2 onSale], advances 3 4, [.commit 4]]

def twoTabs : List Move := rivalPuts.flatten ++ confirmedSeats.flatten

theorem updates_serialised_twoTabs :
    ∃ m, Updates.run tabsSetting (.start ⟨.selecting, 0, ["S1"]⟩) twoTabs = some m ∧
      m.checkout = ⟨.reserved "CHK-CONFIRM-2" "R1", 1, ["S1", "S2"]⟩ ∧
      m.requests 1 = some (.waiting (.answered .versionConflict)) ∧
      m.requests 3 = some (.waiting (.answered .notModifiable)) ∧
      Serialised ⟨.selecting, 0, ["S1"]⟩ m := by
  have hrun : (Updates.run tabsSetting (.start ⟨.selecting, 0, ["S1"]⟩) twoTabs).map
      (fun m => (m.checkout, m.requests 1, m.requests 3)) =
      some (⟨.reserved "CHK-CONFIRM-2" "R1", 1, ["S1", "S2"]⟩,
        some (.waiting (.answered .versionConflict)),
        some (.waiting (.answered .notModifiable))) := by
    decide +kernel
  obtain ⟨m, hm, hread⟩ := Option.map_eq_some_iff.mp hrun
  obtain ⟨hcheckout, hread⟩ := Prod.mk.inj hread
  obtain ⟨hfirst, hsecond⟩ := Prod.mk.inj hread
  exact ⟨m, hm, hcheckout, hfirst, hsecond,
    (updates_serialised tabsSetting tabsSetting_keys _ rfl twoTabs m hm).1⟩

end Runs

end Ticketing.Selection
