import Ticketing.CheckoutEffects
import Ticketing.PaymentLedger

/-!
# A confirmed checkout is reserved exactly once

A reservation under a confirm key must stay the one its checkout is SUBMITTING
for or RESERVED by. A flow that failed releases the checkout without looking for
a reservation that a retry with the same key has committed meanwhile; in every
run where no such release happens, and nothing is reserved under a key its
checkout has left, the property holds in every state.
-/

namespace Ticketing

open Relational
open PaymentRepository (OneProcessing)

namespace CheckoutSystem

/-- A checkout of the user that was SUBMITTING under the key still is, or the reservation is
there already. -/
def MayReserve (system : CheckoutSystem) (userId key : String) : Prop :=
  ∀ c row, (c, key) ∈ system.confirmKeys → system.store.checkouts.find c = some row →
    row.userId = userId → row.state = .submitting key ∨
      ∃ r, system.store.db.ReservedUnder userId key r

/-- Nothing is reserved under the key the checkout is SUBMITTING with. -/
def MayRelease (system : CheckoutSystem) (c key : String) : Prop :=
  ∀ row, system.store.checkouts.find c = some row → row.state = .submitting key →
    ∀ r, ¬ system.store.db.ReservedUnder row.userId key r

/-- Every reservation under a confirm key is the one its checkout is SUBMITTING for or RESERVED
by, and a checkout has at most one of them. -/
structure ExactlyOnce (system : CheckoutSystem) : Prop where
  points : ∀ c key row r, (c, key) ∈ system.confirmKeys →
    system.store.checkouts.find c = some row → system.store.db.ReservedUnder row.userId key r →
    row.state = .submitting key ∨ row.state = .reserved key r
  once : ∀ c key key' row r r', (c, key) ∈ system.confirmKeys → (c, key') ∈ system.confirmKeys →
    system.store.checkouts.find c = some row → system.store.db.ReservedUnder row.userId key r →
    system.store.db.ReservedUnder row.userId key' r' → r = r'

/-- Once a reservation is committed under the key of a SUBMITTING checkout, the checkout stays
SUBMITTING with it or is RESERVED by that reservation. -/
def Keeps (system later : CheckoutSystem) : Prop :=
  ∀ c key row r, system.store.checkouts.find c = some row → row.state = .submitting key →
    system.store.db.ReservedUnder row.userId key r →
    ∃ row', later.store.checkouts.find c = some row' ∧ row'.userId = row.userId ∧
      (row'.state = .submitting key ∨ row'.state = .reserved key r)

/-- Nothing has been requested yet. -/
structure Initial (system : CheckoutSystem) : Prop where
  checkouts : system.store.checkouts.rows = []
  flows : system.flows.rows = []
  confirmKeys : system.confirmKeys = []
  one : OneProcessing system.store.db.ledger.attempts

end CheckoutSystem

namespace CheckoutSystem

/-- A failed flow releases its checkout only while nothing is reserved under its key, and the
reservation transaction runs only while the checkout has not left the key. -/
def FlowMeets (system : CheckoutSystem) : Flow → Prop
  | .confirm state .reservation => system.MayReserve state.userId state.idempotencyKey
  | .confirm state (.reset _) => system.MayRelease state.checkoutSessionId state.idempotencyKey
  | .confirm state (.close _) => system.MayRelease state.checkoutSessionId state.idempotencyKey
  | _ => True

end CheckoutSystem

/-- The condition on a step in a state; a direct reservation may not use a confirm key that its
checkout has left. -/
def CheckoutStep.Meets (system : CheckoutSystem) : CheckoutStep → Prop
  | .advance number _ => ∀ flow ∈ system.flows.find number, system.FlowMeets flow
  | .transact (.createReservation input _) =>
      system.MayReserve input.userId input.idempotencyKey
  | _ => True

section Decidable

variable (system : CheckoutSystem)

instance (userId key reservationId : String) (db : Db) :
    Decidable (db.ReservedUnder userId key reservationId) :=
  inferInstanceAs (Decidable (_ = _))

/-- Some reservation of the user is committed under the key. -/
def Db.reservesUnder (db : Db) (userId key : String) : Bool :=
  db.inventory.reservations.rows.any fun entry => decide (entry.2.owner = (userId, some key))

theorem Db.reservesUnder_iff (db : Db) (userId key : String) :
    db.reservesUnder userId key = true ↔ ∃ r, db.ReservedUnder userId key r := by
  unfold Db.reservesUnder Db.ReservedUnder
  rw [List.any_eq_true]
  constructor
  · rintro ⟨entry, hentry, howner⟩
    refine ⟨entry.1, ?_⟩
    rw [(db.inventory.reservations.find_eq_some entry.1 entry.2).mpr hentry, Option.map_some,
      of_decide_eq_true howner]
  · rintro ⟨r, hr⟩
    obtain ⟨row, hrow, howner⟩ := Option.map_eq_some_iff.mp hr
    exact ⟨(r, row), (db.inventory.reservations.find_eq_some r row).mp hrow,
      decide_eq_true howner⟩

instance (userId key : String) : Decidable (system.MayReserve userId key) :=
  decidable_of_iff (∀ entry ∈ system.confirmKeys, entry.2 = key →
      ∀ row ∈ system.store.checkouts.find entry.1, row.userId = userId →
        row.state = .submitting key ∨ system.store.db.reservesUnder userId key = true) <| by
    simp only [Db.reservesUnder_iff]
    constructor
    · intro h c row hmem hrow huser
      exact h (c, key) hmem rfl row hrow huser
    · rintro h ⟨c, k⟩ hmem rfl row hrow huser
      exact h c row hmem hrow huser

instance (c key : String) : Decidable (system.MayRelease c key) :=
  decidable_of_iff (∀ row ∈ system.store.checkouts.find c, row.state = .submitting key →
      ¬ system.store.db.reservesUnder row.userId key = true) <| by
    simp only [Db.reservesUnder_iff, not_exists]
    exact Iff.rfl

instance : (flow : Flow) → Decidable (system.FlowMeets flow)
  | .confirm state .reservation =>
      inferInstanceAs (Decidable (system.MayReserve state.userId state.idempotencyKey))
  | .confirm state (.reset _) =>
      inferInstanceAs (Decidable (system.MayRelease state.checkoutSessionId state.idempotencyKey))
  | .confirm state (.close _) =>
      inferInstanceAs (Decidable (system.MayRelease state.checkoutSessionId state.idempotencyKey))
  | .confirm _ .prepare => .isTrue trivial
  | .confirm _ (.queryExisting _) => .isTrue trivial
  | .confirm _ (.finalize _) => .isTrue trivial
  | .get _ _ => .isTrue trivial
  | .resolve _ => .isTrue trivial
  | .reconcile _ _ => .isTrue trivial
  | .finished _ => .isTrue trivial

instance : (step : CheckoutStep) → Decidable (step.Meets system)
  | .advance number _ =>
      inferInstanceAs (Decidable (∀ flow ∈ system.flows.find number, system.FlowMeets flow))
  | .transact tx =>
      match tx with
      | .createReservation input _ =>
          inferInstanceAs (Decidable (system.MayReserve input.userId input.idempotencyKey))
      | .startPayment _ | .cancel _ _ _ | .expireForWorker _ _ _ | .completePayment _ _ _ _ _
      | .completeProviderPayment _ _ _ _ _ | .requestRefund _ | .completeRefund _ _ _
      | .receiveEvent _ _ _ _ _ _ _ | .processInbox _ _ _ _ | .claimPayments _ _ _ _ _
      | .claimRefunds _ _ _ _ _ | .recordProviderPayment _ _ _ _ _ | .schedulePaymentRetry _ _
      | .releaseLease _ _ | .deferRefund _ _ _ _ | .recordRefund _ _ _ _ _ => .isTrue trivial
  | .create _ _ _ => .isTrue trivial
  | .replaceSeats _ _ _ _ => .isTrue trivial
  | .abandon _ _ _ => .isTrue trivial
  | .confirm _ _ _ => .isTrue trivial
  | .get _ _ _ => .isTrue trivial
  | .crash _ => .isTrue trivial
  | .reconcileSubmitting _ _ => .isTrue trivial

end Decidable

/-- A run of steps that can be taken and all meet the condition. -/
def CheckoutStep.runMeeting (system : CheckoutSystem) (steps : List CheckoutStep) :
    Option CheckoutSystem :=
  steps.foldlM (fun s step => if step.Meets s then step.apply s else none) system

/-- The formal result a flow has captured is committed under its key. -/
def Flow.Justified (db : Db) : Flow → Prop
  | .confirm state (.finalize formal) =>
      db.ReservedUnder state.userId state.idempotencyKey formal.reservationId
  | .reconcile state formal => ∀ key,
      state.record.row.state.activeConfirmIdempotencyKey = some key →
      db.ReservedUnder state.record.row.userId key formal.reservationId
  | _ => True

namespace CheckoutSystem

/-- What the labels of an effect presuppose. -/
def Allows (system : CheckoutSystem) : CheckoutAction → Prop
  | .keep => True
  | .freeze _ key => system.unused key = true
  | .release c key => system.MayRelease c key
  | .reserve userId key => system.MayReserve userId key

/-- The invariant of the runs. -/
structure Sound (system : CheckoutSystem) : Prop where
  one : OneProcessing system.store.db.ledger.attempts
  known : ∀ c row key, system.store.checkouts.find c = some row →
    row.state.activeConfirmIdempotencyKey = some key → (c, key) ∈ system.confirmKeys
  opened : ∀ c key, (c, key) ∈ system.confirmKeys → ∃ row, system.store.checkouts.find c = some row
  drawn : ∀ c c' key, (c, key) ∈ system.confirmKeys → (c', key) ∈ system.confirmKeys → c = c'
  points : ∀ c key row r, (c, key) ∈ system.confirmKeys →
    system.store.checkouts.find c = some row → system.store.db.ReservedUnder row.userId key r →
    row.state = .submitting key ∨ row.state = .reserved key r
  single : ∀ c key row r r', (c, key) ∈ system.confirmKeys →
    system.store.checkouts.find c = some row → system.store.db.ReservedUnder row.userId key r →
    system.store.db.ReservedUnder row.userId key r' → r = r'
  flows : ∀ n flow, system.flows.find n = some flow → flow.Justified system.store.db

/-- A later state of the same run. -/
structure Continues (system later : CheckoutSystem) : Prop where
  keys : ∀ entry ∈ system.confirmKeys, entry ∈ later.confirmKeys
  reserved : ∀ userId key r, system.store.db.ReservedUnder userId key r →
    later.store.db.ReservedUnder userId key r
  rows : ∀ c key row, (c, key) ∈ system.confirmKeys → system.store.checkouts.find c = some row →
    ∃ row', later.store.checkouts.find c = some row' ∧ row'.userId = row.userId

theorem Continues.refl (system : CheckoutSystem) : system.Continues system :=
  ⟨fun _ h => h, fun _ _ _ h => h, fun _ _ row _ hrow => ⟨row, hrow, rfl⟩⟩

theorem Continues.trans {first second third : CheckoutSystem} (h : first.Continues second)
    (h' : second.Continues third) : first.Continues third where
  keys entry hmem := h'.keys entry (h.keys entry hmem)
  reserved userId key r hr := h'.reserved userId key r (h.reserved userId key r hr)
  rows := by
    intro c key row hmem hrow
    obtain ⟨row', hrow', huser⟩ := h.rows c key row hmem hrow
    obtain ⟨row'', hrow'', huser'⟩ := h'.rows c key row' (h.keys _ hmem) hrow'
    exact ⟨row'', hrow'', huser'.trans huser⟩

/-- The reservation of a SUBMITTING checkout keeps it in every later state. -/
theorem keeps_of_continues {system later : CheckoutSystem} (hs : system.Sound)
    (hlater : later.Sound) (h : system.Continues later) : system.Keeps later := by
  intro c key row r hrow hstate hr
  have hmem : (c, key) ∈ system.confirmKeys := hs.known c row key hrow (by rw [hstate]; rfl)
  obtain ⟨row', hrow', huser⟩ := h.rows c key row hmem hrow
  refine ⟨row', hrow', huser, ?_⟩
  apply hlater.points c key row' r (h.keys _ hmem) hrow'
  rw [huser]
  exact h.reserved _ _ _ hr

theorem Sound.exactlyOnce {system : CheckoutSystem} (h : system.Sound) : system.ExactlyOnce where
  points := h.points
  once := by
    intro c key key' row r r' hc hc' hrow hr hr'
    have hkey : key = key' := by
      rcases h.points c key row r hc hrow hr with hs | hs <;>
        rcases h.points c key' row r' hc' hrow hr' with hs' | hs' <;>
        rw [hs] at hs' <;> cases hs' <;> rfl
    subst hkey
    exact h.single c key row r r' hc hrow hr hr'

theorem Initial.sound {system : CheckoutSystem} (h : system.Initial) : system.Sound := by
  have hkeys : ∀ entry, entry ∉ system.confirmKeys := by
    intro entry hmem
    rw [h.confirmKeys] at hmem
    cases hmem
  have hrows : ∀ c row, system.store.checkouts.find c ≠ some row := by
    intro c row hrow
    rw [Table.find_eq_some, h.checkouts] at hrow
    cases hrow
  refine ⟨h.one, ?_, ?_, ?_, ?_, ?_, ?_⟩
  · exact fun c row _ hrow => absurd hrow (hrows c row)
  · exact fun c key hmem => absurd hmem (hkeys _)
  · exact fun c _ key hmem => absurd hmem (hkeys _)
  · exact fun c key _ _ hmem => absurd hmem (hkeys _)
  · exact fun c key _ _ _ hmem => absurd hmem (hkeys _)
  · intro n flow hflow
    rw [Table.find_eq_some, h.flows] at hflow
    cases hflow

theorem mem_commit_keys {system : CheckoutSystem} {store : CheckoutStore} {flows : Table ℕ Flow}
    {c key : String} : (c, key) ∈ (system.commit store flows).confirmKeys ↔
      (∃ row, store.checkouts.find c = some row ∧ row.state = .submitting key) ∨
        (c, key) ∈ system.confirmKeys := by
  have hsubmitting : ∀ state : CheckoutState, state.submittingKey = some key ↔
      state = .submitting key := by
    intro state
    cases state <;> simp [CheckoutState.submittingKey]
  unfold commit
  rw [List.mem_append, List.mem_filterMap]
  constructor
  · rintro (⟨entry, hentry, hkey⟩ | hold)
    · obtain ⟨found, hfound, heq⟩ := Option.map_eq_some_iff.mp hkey
      cases heq
      exact Or.inl ⟨entry.2, (store.checkouts.find_eq_some _ _).mpr hentry,
        (hsubmitting _).mp hfound⟩
    · exact Or.inr hold
  · rintro (⟨row, hrow, hstate⟩ | hold)
    · refine Or.inl ⟨(c, row), (store.checkouts.find_eq_some _ _).mp hrow, ?_⟩
      unfold submittingKey
      rw [(hsubmitting row.state).mpr hstate]
      rfl
    · exact Or.inr hold

/-- A reservation after the step is an old one or the one the step adds. -/
theorem reservedUnder_cases {a : CheckoutAction} {db db' : Db} (h : ReservationMoves a db db')
    {userId key r : String} (hr : db'.ReservedUnder userId key r) :
    db.ReservedUnder userId key r ∨
      (a = .reserve userId key ∧ (∀ r, ¬ db.ReservedUnder userId key r) ∧
        ∀ r', db'.ReservedUnder userId key r' → r' = r) := by
  cases h with
  | kept same =>
      unfold Db.ReservedUnder at hr
      rw [same r] at hr
      exact Or.inl hr
  | @inserted _ _ user key' reservationId row owner fresh reservations =>
      by_cases hid : r = reservationId
      · unfold Db.ReservedUnder at hr
        rw [hid, reservations.find_self, Option.map_some, owner] at hr
        cases hr
        refine Or.inr ⟨rfl, fresh, ?_⟩
        intro r' hr'
        by_contra hne
        unfold Db.ReservedUnder at hr'
        rw [reservations.find_of_ne (hid ▸ hne)] at hr'
        exact fresh r' hr'
      · unfold Db.ReservedUnder at hr
        rw [reservations.find_of_ne hid] at hr
        exact Or.inl hr

/-- Reservations stay under their owner. -/
theorem reservedUnder_kept {a : CheckoutAction} {db db' : Db} (h : ReservationMoves a db db')
    {userId key r : String} (hr : db.ReservedUnder userId key r) :
    db'.ReservedUnder userId key r := by
  unfold Db.ReservedUnder at hr ⊢
  cases h with
  | kept same => rw [same r, hr]
  | inserted owner fresh reservations =>
      obtain ⟨row, hrow, howner⟩ := Option.map_eq_some_iff.mp hr
      rw [reservations.find_old hrow, Option.map_some, howner]

theorem justified_kept {a : CheckoutAction} {db db' : Db} (h : ReservationMoves a db db')
    {flow : Flow} (hflow : flow.Justified db) : flow.Justified db' := by
  cases flow with
  | confirm state phase =>
      cases phase with
      | finalize formal => exact reservedUnder_kept h hflow
      | _ => trivial
  | reconcile state formal => exact fun key hkey => reservedUnder_kept h (hflow key hkey)
  | _ => trivial

theorem unused_key {system : CheckoutSystem} {key : String} (h : system.unused key = true) :
    (∀ c, (c, key) ∉ system.confirmKeys) ∧
      ∀ userId r, ¬ system.store.db.ReservedUnder userId key r := by
  obtain ⟨hkeys, hreservations⟩ := Bool.and_eq_true_iff.mp h
  constructor
  · intro c hmem
    exact of_decide_eq_true (List.all_eq_true.mp hkeys _ hmem) rfl
  · intro userId r hr
    obtain ⟨row, hrow, howner⟩ := Option.map_eq_some_iff.mp hr
    have hne := List.all_eq_true.mp hreservations _
      ((system.store.db.inventory.reservations.find_eq_some r row).mp hrow)
    exact of_decide_eq_true hne (congrArg Prod.snd howner)

section Step

variable {system : CheckoutSystem} {a : CheckoutAction} {store : CheckoutStore}
  {flows : Table ℕ Flow}

/-- A key is new only when the step freezes its checkout under it. -/
theorem keys_cases (hs : system.Sound) (heffect : CheckoutEffect a system.store store)
    {c key : String} (hmem : (c, key) ∈ (system.commit store flows).confirmKeys) :
    (c, key) ∈ system.confirmKeys ∨ a = .freeze c key := by
  rcases mem_commit_keys.mp hmem with ⟨row', hrow', hstate⟩ | hold
  · have hmoves := heffect.rows c
    rw [hrow'] at hmoves
    cases hfind : system.store.checkouts.find c with
    | none =>
        rw [hfind] at hmoves
        cases hmoves with
        | opened selecting => rw [hstate] at selecting; cases selecting
    | some row =>
        rw [hfind] at hmoves
        have hknown : row.state = .submitting key → (c, key) ∈ system.confirmKeys := fun hsub =>
          hs.known c row key hfind (by rw [hsub]; rfl)
        cases hmoves with
        | kept => exact Or.inl (hknown hstate)
        | touched _ state => exact Or.inl (hknown (state.symm.trans hstate))
        | frozen _ _ after =>
            rw [hstate] at after
            cases after
            exact Or.inr rfl
        | finished _ _ after => rw [hstate] at after; cases after
        | abandoned _ _ after => rw [hstate] at after; cases after
        | released _ _ after => rcases after with after | after <;> rw [hstate] at after <;> cases after
  · exact Or.inl hold

/-- A checkout of the history is the same user's before the step, and moved by it. -/
theorem row_before (hs : system.Sound) (heffect : CheckoutEffect a system.store store)
    {c key : String} (hmem : (c, key) ∈ system.confirmKeys) :
    ∃ row row', system.store.checkouts.find c = some row ∧ store.checkouts.find c = some row' ∧
      row'.userId = row.userId ∧ RowMoves system.store.db a c (some row) (some row') := by
  obtain ⟨row, hrow⟩ := hs.opened c key hmem
  have hmoves := heffect.rows c
  rw [hrow] at hmoves
  cases hrow' : store.checkouts.find c with
  | none =>
      rw [hrow'] at hmoves
      cases hmoves
  | some row' =>
      rw [hrow'] at hmoves
      refine ⟨row, row', hrow, rfl, ?_, hmoves⟩
      cases hmoves with
      | kept => rfl
      | touched userId _ => exact userId
      | frozen userId _ _ => exact userId
      | finished userId _ _ _ => exact userId
      | abandoned userId _ _ => exact userId
      | released userId _ _ => exact userId

/-- Under a new key nothing is reserved. -/
theorem not_reserved_frozen (heffect : CheckoutEffect a system.store store)
    (hallows : system.Allows a) {c key userId r : String} (ha : a = .freeze c key) :
    ¬ store.db.ReservedUnder userId key r := by
  subst ha
  intro hr
  rcases reservedUnder_cases heffect.reservations hr with hold | ⟨hreserve, -⟩
  · exact (unused_key hallows).2 userId r hold
  · cases hreserve

/-- A committed reservation stays the one its checkout points to. -/
theorem points_after (hs : system.Sound) (heffect : CheckoutEffect a system.store store)
    (hallows : system.Allows a) {c key r : String} {row' : CheckoutRow}
    (hmem : (c, key) ∈ system.confirmKeys) (hrow' : store.checkouts.find c = some row')
    (hr : store.db.ReservedUnder row'.userId key r) :
    row'.state = .submitting key ∨ row'.state = .reserved key r := by
  obtain ⟨row, found, hrow, hfound, huser, hmoves⟩ := row_before hs heffect hmem
  have hsame : row' = found := Option.some.inj (hrow'.symm.trans hfound)
  subst hsame
  rw [huser] at hr
  -- before the step the checkout was SUBMITTING with the key or RESERVED by the reservation
  have hbefore : row.state = .submitting key ∨
      (row.state = .reserved key r ∧ system.store.db.ReservedUnder row.userId key r) := by
    rcases reservedUnder_cases heffect.reservations hr with hold | ⟨rfl, hfresh, -⟩
    · exact (hs.points c key row r hmem hrow hold).imp_right fun h => ⟨h, hold⟩
    · rcases hallows c row hmem hrow rfl with hsub | ⟨r', hr'⟩
      · exact Or.inl hsub
      · exact absurd hr' (hfresh r')
  cases hmoves with
  | kept => exact hbefore.imp_right And.left
  | touched _ state =>
      rw [state]
      exact hbefore.imp_right And.left
  | frozen _ before _ => rcases hbefore with h | ⟨h, -⟩ <;> rw [before] at h <;> cases h
  | abandoned _ before _ => rcases hbefore with h | ⟨h, -⟩ <;> rw [before] at h <;> cases h
  | @finished _ _ key' r' _ _ _ before after reserved =>
      rcases hbefore with h | ⟨h, -⟩
      · rw [before] at h
        cases h
        rcases reservedUnder_cases heffect.reservations hr with hold | ⟨-, hfresh, -⟩
        · rw [hs.single c key row r r' hmem hrow hold reserved]
          exact Or.inr after
        · exact absurd reserved (hfresh r')
      · rw [before] at h
        cases h
  | @released _ key' _ _ _ before _ =>
      rcases hbefore with h | ⟨h, -⟩
      · rw [before] at h
        cases h
        rcases reservedUnder_cases heffect.reservations hr with hold | ⟨hreserve, -⟩
        · exact absurd hold (hallows row hrow before r)
        · cases hreserve
      · rw [before] at h
        cases h

theorem sound_commit (hs : system.Sound) (heffect : CheckoutEffect a system.store store)
    (hallows : system.Allows a)
    (hflows : ∀ n flow, flows.find n = some flow → flow.Justified store.db) :
    (system.commit store flows).Sound := by
  constructor
  case one => exact heffect.one hs.one
  case flows => exact hflows
  case known =>
    intro c row' key hrow' hkey
    rw [mem_commit_keys]
    have hmoves := heffect.rows c
    rw [show store.checkouts.find c = some row' from hrow'] at hmoves
    cases hstate : row'.state with
    | selecting => rw [hstate] at hkey; cases hkey
    | abandoned => rw [hstate] at hkey; cases hkey
    | submitting key' =>
        rw [hstate] at hkey
        cases hkey
        exact Or.inl ⟨row', hrow', hstate⟩
    | reserved key' r =>
        rw [hstate] at hkey
        cases hkey
        have hknown : ∀ row, system.store.checkouts.find c = some row →
            row.state.activeConfirmIdempotencyKey = some key → (c, key) ∈ system.confirmKeys :=
          fun row hrow hk => hs.known c row key hrow hk
        cases hfind : system.store.checkouts.find c with
        | none =>
            rw [hfind] at hmoves
            cases hmoves with
            | opened selecting => rw [hstate] at selecting; cases selecting
        | some row =>
            rw [hfind] at hmoves
            refine Or.inr ?_
            cases hmoves with
            | kept => exact hknown row' hfind (by rw [hstate]; rfl)
            | touched _ state => exact hknown row hfind (by rw [← state, hstate]; rfl)
            | frozen _ _ after => rw [hstate] at after; cases after
            | finished _ before after _ =>
                rw [hstate] at after
                cases after
                exact hknown row hfind (by rw [before]; rfl)
            | abandoned _ _ after => rw [hstate] at after; cases after
            | released _ _ after =>
                rcases after with after | after <;> rw [hstate] at after <;> cases after
  case opened =>
    intro c key hmem
    rcases mem_commit_keys.mp hmem with ⟨row, hrow, -⟩ | hold
    · exact ⟨row, hrow⟩
    · obtain ⟨-, row', -, hrow', -⟩ := row_before hs heffect hold
      exact ⟨row', hrow'⟩
  case drawn =>
    intro c c' key hmem hmem'
    rcases keys_cases hs heffect hmem with hold | rfl
    · rcases keys_cases hs heffect hmem' with hold' | rfl
      · exact hs.drawn c c' key hold hold'
      · exact absurd hold ((unused_key hallows).1 c)
    · rcases keys_cases hs heffect hmem' with hold' | hfreeze
      · exact absurd hold' ((unused_key hallows).1 c')
      · cases hfreeze
        rfl
  case points =>
    intro c key row' r hmem hrow' hr
    rcases keys_cases hs heffect hmem with hold | ha
    · exact points_after hs heffect hallows hold hrow' hr
    · exact absurd hr (not_reserved_frozen heffect hallows ha)
  case single =>
    intro c key row' r r' hmem hrow' hr hr'
    rcases keys_cases hs heffect hmem with hold | ha
    · obtain ⟨row, found, hrow, hfound, huser, -⟩ := row_before hs heffect hold
      have hsame : row' = found := Option.some.inj (Eq.trans (Eq.symm hrow') hfound)
      subst hsame
      rw [huser] at hr hr'
      rcases reservedUnder_cases heffect.reservations hr with hrold | ⟨-, -, huniq⟩
      · rcases reservedUnder_cases heffect.reservations hr' with hrold' | ⟨-, -, huniq'⟩
        · exact hs.single c key row r r' hold hrow hrold hrold'
        · exact huniq' r hr
      · exact (huniq r' hr').symm
    · exact absurd hr (not_reserved_frozen heffect hallows ha)

/-- The history, the reservations and the owners of checkouts only grow. -/
theorem continues_commit (hs : system.Sound) (heffect : CheckoutEffect a system.store store) :
    system.Continues (system.commit store flows) where
  keys _ hmem := List.mem_append_right _ hmem
  reserved _ _ _ hr := reservedUnder_kept heffect.reservations hr
  rows := by
    intro c key row hmem hrow
    obtain ⟨before, row', hbefore, hrow', huser, -⟩ := row_before hs heffect hmem
    have hsame : row = before := Option.some.inj (hrow.symm.trans hbefore)
    subst hsame
    exact ⟨row', hrow', huser⟩

end Step
end CheckoutSystem

namespace CheckoutSessionService

open CheckoutSessionRepository

/-- A step of a flow with one of the labels, that leaves a justified continuation. -/
def Stepped (P : CheckoutAction → Prop) (store : CheckoutStore) (next : Next) : Prop :=
  ∃ a, (a = .keep ∨ P a) ∧ CheckoutEffect a store next.1 ∧ next.2.Justified next.1.db

variable {P : CheckoutAction → Prop} {signals : Signals} {store : CheckoutStore}

theorem stays {flow : Flow} (h : flow.Justified store.db) : Stepped P store (store, flow) :=
  ⟨.keep, Or.inl rfl, CheckoutEffect.refl _ store, h⟩

theorem ends (outcome : CheckoutSessionOutcome) : Stepped P store (store, finish outcome) :=
  stays True.intro

theorem resolveRecord_justified (state : ResolveState) (db : Db) :
    (resolveRecord state).Justified db := by
  unfold resolveRecord
  split
  · exact True.intro
  · exact True.intro

theorem formalFinished_justified {state : ConfirmState} {result : CreateReservationResult}
    {db : Db} (h : ∀ formal, result.value = some formal →
      db.ReservedUnder state.userId state.idempotencyKey formal.reservationId) :
    (formalFinished state result).Justified db := by
  unfold formalFinished
  split
  · rename_i formal _ hvalue
    exact h formal hvalue
  · rename_i formal _ hvalue
    exact h formal hvalue
  · split
    · split
      · exact True.intro
      · exact True.intro
    · exact True.intro

theorem formalRequest_some {state : ConfirmState} {draws : ReservationFlow.Draws}
    {request : ReservationFlow.FlowState} (h : formalRequest state draws = some request) :
    request.userId = state.userId ∧ request.idempotencyKey = state.idempotencyKey ∧
      request.seatIds ≠ [] := by
  obtain ⟨record, -, hstart⟩ := Option.bind_eq_some_iff.mp h
  obtain ⟨huser, hkey⟩ := ReservationFlow.start_keys hstart
  exact ⟨huser, hkey, ReservationFlow.start_seatIds_ne_nil hstart⟩

theorem closeSelecting_stepped (state : ConfirmState) (failure : CheckoutSessionOutcome) :
    Stepped P store (closeSelectingAfterSalesWindow state failure signals store) := by
  unfold closeSelectingAfterSalesWindow
  simp only
  split
  · exact ends _
  · exact ⟨.keep, Or.inl rfl, setAbandoned_effect _ _ _, True.intro⟩

theorem freezeConfirm_stepped (state : ConfirmState) :
    Stepped (fun a => a = .freeze state.checkoutSessionId state.idempotencyKey) store
      (freezeConfirm state signals store) := by
  unfold freezeConfirm
  split
  · rename_i frozen hset
    exact ⟨_, Or.inr rfl, setSubmitting_effect hset, True.intro⟩
  · exact ends _

theorem confirmEnsureHolds_stepped (state : ConfirmState) (sessionId : String) :
    Stepped (fun a => a = .freeze state.checkoutSessionId state.idempotencyKey) store
      (confirmEnsureHolds state sessionId signals store) := by
  unfold confirmEnsureHolds
  split
  · exact ends _
  split
  · split
    · exact closeSelecting_stepped _ _
    · exact ends _
  · split
    · exact ends _
    · exact freezeConfirm_stepped state

/-- The first transaction freezes the checkout under the drawn key at most. -/
theorem prepareConfirm_stepped (state : ConfirmState) :
    Stepped (fun a => a = .freeze state.checkoutSessionId (confirmKey signals.uuid)) store
      (prepareConfirm state signals store) := by
  unfold prepareConfirm
  split
  · exact ends _
  split
  · exact ends _
  rename_i row hlock
  unfold confirmLoadSeats
  simp only
  split
  · exact stays (resolveRecord_justified _ _)
  · exact ends _
  · split
    · exact ends _
    · exact stays True.intro
  · split
    · exact ends _
    split
    · exact stays True.intro
    · exact confirmEnsureHolds_stepped { state with
        idempotencyKey := confirmKey signals.uuid
        record := some _
        disposition := some .confirmedNow } row.sessionId

theorem queryExisting_justified (state : ConfirmState) (required : Bool) :
    (queryExisting state required signals store).Justified store.db := by
  unfold queryExisting
  split
  · exact formalFinished_justified fun formal hvalue => by cases hvalue
  rename_i request hrequest
  obtain ⟨huser, hkey, -⟩ := formalRequest_some hrequest
  split
  · rename_i result hresult
    apply formalFinished_justified
    intro formal hvalue
    rw [← huser, ← hkey]
    exact ReservationFlow.queryExisting_replayed hresult hvalue
  · exact True.intro

/-- The reservation transaction reserves under the key of the flow at most. -/
theorem runFormalReservation_stepped (state : ConfirmState) :
    Stepped (fun a => a = .reserve state.userId state.idempotencyKey) store
      (runFormalReservation state signals store) := by
  unfold runFormalReservation
  split
  · exact stays (formalFinished_justified fun formal hvalue => by cases hvalue)
  rename_i request hrequest
  obtain ⟨huser, hkey, hne⟩ := formalRequest_some hrequest
  cases htransaction : ReservationFlow.startTransaction request store.db with
  | rollback out =>
      refine stays ?_
      split
      · rename_i finished hfinished
        refine formalFinished_justified fun formal hvalue => ?_
        have houtcome : (ReservationFlow.startTransaction request store.db).outcome =
            some finished := by rw [htransaction]; exact hfinished
        obtain ⟨⟨db', hcommit⟩, -⟩ := ReservationFlow.startTransaction_answer houtcome hvalue
        rw [htransaction] at hcommit
        cases hcommit
      · exact True.intro
  | commit out db =>
      obtain ⟨hmoves, hledger, hreserved⟩ := ReservationFlow.startTransaction_moves hne htransaction
      rw [huser, hkey] at hmoves hreserved
      refine ⟨_, Or.inr rfl, CheckoutEffect.of_db store hmoves (fun hone => ?_), ?_⟩
      · rw [TransactionResult.after_commit, hledger]
        exact hone
      simp only
      split
      · rename_i finished hfinished
        refine formalFinished_justified fun formal hvalue => ?_
        have houtcome : (ReservationFlow.startTransaction request store.db).outcome =
            some finished := by rw [htransaction]; exact hfinished
        rw [(ReservationFlow.startTransaction_answer houtcome hvalue).2]
        exact hreserved
      · exact True.intro

/-- The result of a flow is recorded under the lock of its own row. -/
theorem finalizeReservedLocked_stepped (state : ConfirmState) {formal : ReservationResult}
    (hjustified : store.db.ReservedUnder state.userId state.idempotencyKey formal.reservationId) :
    Stepped P store (finalizeReservedLocked state formal signals store) := by
  unfold finalizeReservedLocked
  simp only
  split
  · exact ends _
  rename_i current hlock
  obtain ⟨hrow, huser⟩ := lockByIdForUser_some hlock
  split
  · exact stays True.intro
  split
  · exact ends _
  split
  · rename_i reserved hset
    exact ⟨.keep, Or.inl rfl, setReserved_effect hrow huser hjustified hset, True.intro⟩
  · exact ends _

theorem reconcileRecordLocked_stepped (state : ResolveState) {formal : ReservationResult}
    (hjustified : (Flow.reconcile state formal).Justified store.db) :
    Stepped P store (reconcileRecordLocked state formal signals store) := by
  unfold reconcileRecordLocked
  split
  · rename_i current key hlock hkey
    obtain ⟨hrow, huser⟩ := lockByIdForUser_some hlock
    split
    · exact stays True.intro
    split
    · exact stays True.intro
    split
    · rename_i reserved hset
      exact ⟨.keep, Or.inl rfl, setReserved_effect hrow huser (hjustified key hkey) hset,
        True.intro⟩
    · exact stays True.intro
  · exact stays True.intro

theorem resetAfterBusinessFailure_stepped (state : ConfirmState)
    (failure : CheckoutSessionOutcome) :
    Stepped (fun a => a = .release state.checkoutSessionId state.idempotencyKey) store
      (resetAfterBusinessFailureLocked state failure signals store) := by
  unfold resetAfterBusinessFailureLocked
  split
  · exact ends _
  split
  · exact ends _
  split
  · exact ends _
  simp only
  split
  · exact ends _
  · exact ⟨_, Or.inr rfl, resetSelecting_effect _ _ _ _, True.intro⟩

theorem closeSubmitting_stepped (state : ConfirmState) (failure : CheckoutSessionOutcome) :
    Stepped (fun a => a = .release state.checkoutSessionId state.idempotencyKey) store
      (closeSubmittingAfterSalesWindow state failure signals store) := by
  unfold closeSubmittingAfterSalesWindow
  split
  · exact ends _
  split
  · exact stays (resolveRecord_justified _ _)
  · exact ends _
  · exact ends _
  · split
    · exact ends _
    simp only
    split
    · exact ends _
    · exact ⟨_, Or.inr rfl, abandonSubmitting_effect _ _ _ _, True.intro⟩

theorem getRecord_justified (checkoutSessionId userId : String) :
    (getRecord checkoutSessionId userId store).Justified store.db := by
  unfold getRecord
  split
  · exact True.intro
  split
  · exact True.intro
  · exact resolveRecord_justified _ _

/-- A formal result is read under the user and the key of the record. -/
theorem resolveFormalResult_justified (state : ResolveState) :
    (resolveFormalResult state store).Justified store.db := by
  unfold resolveFormalResult
  split
  · exact True.intro
  rename_i key hkey
  split
  · exact True.intro
  · exact True.intro
  · split
    · exact True.intro
    · exact True.intro
  · rename_i formal _ _ hformal _
    intro key' hkey'
    rw [hkey] at hkey'
    cases hkey'
    exact findCompleteByIdempotency_reserved hformal

/-- Every flow that meets no fault. -/
theorem advance_stepped (flow : Flow) (hflow : flow.Justified store.db) :
    Stepped (fun a => match flow with
      | .confirm state .prepare => a = .freeze state.checkoutSessionId (confirmKey signals.uuid)
      | .confirm state .reservation => a = .reserve state.userId state.idempotencyKey
      | .confirm state (.reset _) => a = .release state.checkoutSessionId state.idempotencyKey
      | .confirm state (.close _) => a = .release state.checkoutSessionId state.idempotencyKey
      | _ => False) store (advance signals store flow) := by
  cases flow with
  | confirm state phase =>
      cases phase with
      | prepare => exact prepareConfirm_stepped state
      | queryExisting required => exact stays (queryExisting_justified state required)
      | reservation => exact runFormalReservation_stepped state
      | finalize formal => exact finalizeReservedLocked_stepped state hflow
      | reset failure => exact resetAfterBusinessFailure_stepped state failure
      | close failure => exact closeSubmitting_stepped state failure
  | get checkoutSessionId userId => exact stays (getRecord_justified _ _)
  | resolve state => exact stays (resolveFormalResult_justified state)
  | reconcile state formal => exact reconcileRecordLocked_stepped state hflow
  | finished result => exact stays True.intro

theorem failFlow_justified (flow : Flow) (db : Db) : (failFlow flow).Justified db := by
  cases flow <;> exact True.intro

/-- A seat insertion leaves the checkout rows and the database. -/
theorem insertSeats_frame {filled : CheckoutStore} {checkoutSessionId sessionId : String}
    {seatIds : List String} {count : ℕ}
    (h : insertSeats store checkoutSessionId sessionId seatIds = some (count, filled)) :
    filled.db = store.db ∧ filled.checkouts = store.checkouts := by
  unfold insertSeats at h
  split at h
  · cases h
  · obtain ⟨seats, -, heq⟩ := Option.map_eq_some_iff.mp h
    cases heq
    exact ⟨rfl, rfl⟩

theorem create_effect (userId : String) (body : JsonCpp.Value) :
    CheckoutEffect .keep store (create userId body signals store).1 := by
  have hrefl := CheckoutEffect.refl .keep store
  unfold create
  split
  swap
  · exact hrefl
  split
  · exact hrefl
  split
  · exact hrefl
  split
  · exact hrefl
  split
  · exact hrefl
  split
  · exact hrefl
  unfold createValidateSession
  split
  · exact hrefl
  split
  · exact hrefl
  split
  · exact hrefl
  split
  · exact hrefl
  unfold createInsert
  split
  · exact hrefl
  rename_i row opened hinsert
  split
  · exact hrefl
  rename_i filled hseats
  obtain ⟨hdb, hcheckouts⟩ := insertSeats_frame hseats
  unfold insertCheckoutSession at hinsert
  simp only at hinsert
  split at hinsert
  · cases hinsert
  obtain ⟨checkouts, hinserted, heq⟩ := Option.map_eq_some_iff.mp hinsert
  cases heq
  refine CheckoutEffect.of_rows hdb fun c => ?_
  rw [hcheckouts]
  show RowMoves store.db .keep c (store.checkouts.find c) (checkouts.find c)
  rw [Table.find_insert hinserted]
  split_ifs with hc
  · rw [hc, Table.insert_fresh hinserted]
    exact .opened rfl
  · exact .kept

/-- Only the revision of the row changes. -/
theorem replaceTouch_effect (state : ReplaceState) {changed : CheckoutStore}
    (hdb : changed.db = store.db) (hcheckouts : changed.checkouts = store.checkouts) :
    CheckoutEffect .keep store (replaceTouch state signals store changed).1 := by
  unfold replaceTouch
  simp only
  split
  · exact CheckoutEffect.refl .keep store
  · have heffect : CheckoutEffect .keep changed
        (advanceSeatRevision changed state.checkoutSessionId signals.now).2 :=
      updateRow_effect _ _ fun row _ _ => .touched rfl rfl
    refine CheckoutEffect.of_rows hdb fun c => ?_
    rw [← hcheckouts, ← hdb]
    exact heffect.rows c

theorem replaceDeleteSeats_effect (state : ReplaceState) :
    CheckoutEffect .keep store (replaceDeleteSeats state signals store).1 := by
  unfold replaceDeleteSeats
  simp only
  split
  · exact replaceTouch_effect state rfl rfl
  split
  · exact CheckoutEffect.refl .keep store
  · rename_i filled hseats
    obtain ⟨hdb, hcheckouts⟩ := insertSeats_frame hseats
    exact replaceTouch_effect state hdb hcheckouts

theorem replaceSeats_effect (checkoutSessionId userId : String) (body : JsonCpp.Value) :
    CheckoutEffect .keep store
      (replaceSeats checkoutSessionId userId body signals store).1 := by
  have hrefl := CheckoutEffect.refl .keep store
  unfold replaceSeats
  split
  swap
  · exact hrefl
  split
  swap
  · exact hrefl
  split
  · exact hrefl
  split
  · exact hrefl
  unfold replaceLock
  split
  · exact hrefl
  split
  · exact hrefl
  split
  · exact hrefl
  simp only
  split
  · exact hrefl
  unfold replaceValidateSeats
  split
  · exact hrefl
  unfold replacePrepareHolds
  split
  · exact replaceDeleteSeats_effect _
  split
  · exact hrefl
  split
  · exact hrefl
  split
  · exact hrefl
  · exact replaceDeleteSeats_effect _

theorem abandon_effect (checkoutSessionId userId : String) :
    CheckoutEffect .keep store (abandon checkoutSessionId userId signals store).1 := by
  have hrefl := CheckoutEffect.refl .keep store
  unfold abandon
  split
  · exact hrefl
  split
  · exact hrefl
  split
  · exact hrefl
  split
  · exact hrefl
  · simp only
    split
    · exact hrefl
    · exact setAbandoned_effect _ _ _
  · exact hrefl

end CheckoutSessionService

/-- Only the transaction of a reservation leaves a label that reserves. -/
theorem Transaction.allows_reserve {tx : Transaction} {reservationId : String}
    (h : tx.Allows (.reserve reservationId)) :
    ∃ input draws, tx = .createReservation input draws := by
  cases tx <;> simp [Transaction.Allows, PaymentFlow.StartAction, OrderLifecycle.TerminalAction,
    OrderLifecycle.CallbackAction, OrderLifecycle.ExpiryAction] at h ⊢

namespace CheckoutSystem

/-- Every step that meets the condition is an effect with a label its state allows. -/
theorem step_effect {system next : CheckoutSystem} {step : CheckoutStep} (hs : system.Sound)
    (hmeets : step.Meets system) (hstep : step.apply system = some next) :
    ∃ a store flows, next = system.commit store flows ∧ CheckoutEffect a system.store store ∧
      system.Allows a ∧ ∀ n flow, flows.find n = some flow → flow.Justified store.db := by
  have hkept : ∀ {a store}, CheckoutEffect a system.store store → ∀ n flow,
      system.flows.find n = some flow → flow.Justified store.db :=
    fun heffect n flow hflow => justified_kept heffect.reservations (hs.flows n flow hflow)
  have hopened : ∀ {flows : Table ℕ Flow} {n : ℕ} {flow : Flow},
      system.flows.insert n flow = some flows → flow.Justified system.store.db →
      ∀ k other, flows.find k = some other → other.Justified system.store.db := by
    intro flows n flow hinsert hflow k other hother
    rcases (Table.inserted_of_insert hinsert).cases hother with ⟨-, rfl⟩ | hold
    · exact hflow
    · exact hs.flows k other hold
  cases step with
  | create userId body signals =>
      have heffect : CheckoutEffect .keep system.store
        (CheckoutSessionService.create userId body signals system.store).1 :=
        CheckoutSessionService.create_effect userId body
      exact ⟨_, _, _, (Option.some.inj hstep).symm, heffect, True.intro, hkept heffect⟩
  | replaceSeats checkoutSessionId userId body signals =>
      have heffect : CheckoutEffect .keep system.store
        (CheckoutSessionService.replaceSeats checkoutSessionId userId body signals
          system.store).1 := CheckoutSessionService.replaceSeats_effect _ _ _
      exact ⟨_, _, _, (Option.some.inj hstep).symm, heffect, True.intro, hkept heffect⟩
  | abandon checkoutSessionId userId signals =>
      have heffect : CheckoutEffect .keep system.store
        (CheckoutSessionService.abandon checkoutSessionId userId signals system.store).1 :=
        CheckoutSessionService.abandon_effect _ _
      exact ⟨_, _, _, (Option.some.inj hstep).symm, heffect, True.intro, hkept heffect⟩
  | confirm flow checkoutSessionId userId =>
      obtain ⟨flows, hinsert, rfl⟩ := Option.map_eq_some_iff.mp hstep
      exact ⟨.keep, _, _, rfl, CheckoutEffect.refl _ _, True.intro, hopened hinsert True.intro⟩
  | get flow checkoutSessionId userId =>
      obtain ⟨flows, hinsert, rfl⟩ := Option.map_eq_some_iff.mp hstep
      exact ⟨.keep, _, _, rfl, CheckoutEffect.refl _ _, True.intro, hopened hinsert True.intro⟩
  | crash flow =>
      refine ⟨.keep, _, _, (Option.some.inj hstep).symm, CheckoutEffect.refl _ _, True.intro, ?_⟩
      intro n other hother
      rw [Table.find_retain] at hother
      exact hs.flows n other (Option.filter_eq_some_iff.mp hother).1
  | reconcileSubmitting batchSize now =>
      obtain ⟨repaired, hrepaired, rfl⟩ := Option.map_eq_some_iff.mp hstep
      have heffect : CheckoutEffect .keep system.store repaired.2 :=
        CheckoutSessionRepository.reconcileSubmitting_effect hrepaired
      exact ⟨_, _, _, rfl, heffect, True.intro, hkept heffect⟩
  | transact tx =>
      have hone := tx.oneProcessing hs.one
      by_cases hcreate : ∃ input draws, tx = .createReservation input draws
      · obtain ⟨input, draws, rfl⟩ := hcreate
        have heffect := CheckoutEffect.of_db system.store
          (createReservation_moves input draws system.store.db) fun _ => hone
        exact ⟨_, _, _, (Option.some.inj hstep).symm, heffect, hmeets, hkept heffect⟩
      · have hsame := tx.sameOwners hs.one fun a ha r hr =>
          hcreate (Transaction.allows_reserve (hr ▸ ha))
        have hmoves : ReservationMoves .keep system.store.db (tx.apply system.store.db) :=
          .kept hsame
        have heffect := CheckoutEffect.of_db system.store hmoves fun _ => hone
        exact ⟨_, _, _, (Option.some.inj hstep).symm, heffect, True.intro, hkept heffect⟩
  | advance number signals =>
      unfold CheckoutStep.apply at hstep
      simp only at hstep
      split at hstep
      · cases hstep
      rename_i flow hflow
      split at hstep
      case isFalse => cases hstep
      rename_i hunused
      have hreplaced : ∀ {store' : CheckoutStore} {flow' : Flow} {a : CheckoutAction},
          CheckoutEffect a system.store store' → flow'.Justified store'.db →
          ∀ n other, (system.flows.updateRow number (fun _ => true) fun _ => flow').2.find n =
            some other → other.Justified store'.db := by
        intro store' flow' a heffect hflow' n other hother
        rw [Table.find_updateRow] at hother
        obtain ⟨found, hfound, heq⟩ := Option.map_eq_some_iff.mp hother
        by_cases hn : n = number
        · rw [if_pos ⟨hn, rfl⟩] at heq
          rwa [← heq]
        · rw [if_neg (fun h => hn h.1)] at heq
          rw [← heq]
          exact hkept heffect n found hfound
      have hjustified := hs.flows number flow hflow
      by_cases hfault : signals.fault = true
      · have hrun : CheckoutSessionService.run signals system.store flow =
            (system.store, CheckoutSessionService.failFlow flow) := if_pos hfault
        rw [hrun] at hstep
        have heffect := CheckoutEffect.refl .keep system.store
        exact ⟨_, _, _, (Option.some.inj hstep).symm, heffect, True.intro,
          hreplaced heffect (CheckoutSessionService.failFlow_justified flow _)⟩
      have hrun : CheckoutSessionService.run signals system.store flow =
          CheckoutSessionService.advance signals system.store flow := if_neg hfault
      rw [hrun] at hstep
      have hadvanced : CheckoutSessionService.Stepped _ system.store
          (CheckoutSessionService.advance signals system.store flow) :=
        CheckoutSessionService.advance_stepped flow hjustified
      obtain ⟨a, ha, heffect, hnext⟩ := hadvanced
      refine ⟨a, _, _, (Option.some.inj hstep).symm, heffect, ?_, hreplaced heffect hnext⟩
      have hflowMeets : system.FlowMeets flow := hmeets flow hflow
      rcases ha with rfl | ha
      · exact True.intro
      cases flow with
      | confirm state phase =>
          cases phase with
          | prepare => subst ha; exact hunused
          | reservation => subst ha; exact hflowMeets
          | reset failure => subst ha; exact hflowMeets
          | close failure => subst ha; exact hflowMeets
          | queryExisting required => exact ha.elim
          | finalize formal => exact ha.elim
      | get checkoutSessionId userId => exact ha.elim
      | resolve state => exact ha.elim
      | reconcile state formal => exact ha.elim
      | finished result => exact ha.elim

/-- One step of a run keeps the invariant and continues the run. -/
theorem step_sound {system next : CheckoutSystem} {step : CheckoutStep} (hs : system.Sound)
    (hmeets : step.Meets system) (hstep : step.apply system = some next) :
    next.Sound ∧ system.Continues next := by
  obtain ⟨a, store, flows, rfl, heffect, hallows, hflows⟩ := step_effect hs hmeets hstep
  exact ⟨sound_commit hs heffect hallows hflows, continues_commit hs heffect⟩

theorem run_sound {system last : CheckoutSystem} {steps : List CheckoutStep}
    (hrun : CheckoutStep.runMeeting system steps = some last) (hs : system.Sound) :
    last.Sound ∧ system.Continues last := by
  induction steps generalizing system with
  | nil =>
      cases hrun
      exact ⟨hs, Continues.refl _⟩
  | cons step steps ih =>
      unfold CheckoutStep.runMeeting at hrun
      rw [List.foldlM_cons] at hrun
      obtain ⟨next, hnext, hrest⟩ := Option.bind_eq_some_iff.mp hrun
      split at hnext
      case isFalse => cases hnext
      rename_i hmeets
      obtain ⟨hsound, hcontinues⟩ := step_sound hs hmeets hnext
      obtain ⟨hlast, hrest⟩ := ih hrest hsound
      exact ⟨hlast, hcontinues.trans hrest⟩

end CheckoutSystem

/-- In a run that meets the condition every reservation under a confirm key is the one its
checkout is SUBMITTING for or RESERVED by, there is at most one for each checkout, and from the
state in which it is committed the checkout moves to RESERVED by it or not at all. -/
theorem confirm_exactly_once {initial system later : CheckoutSystem}
    {steps rest : List CheckoutStep} (hinitial : initial.Initial)
    (hrun : CheckoutStep.runMeeting initial steps = some system)
    (hrest : CheckoutStep.runMeeting system rest = some later) :
    later.ExactlyOnce ∧ system.Keeps later := by
  obtain ⟨hsystem, -⟩ := CheckoutSystem.run_sound hrun hinitial.sound
  obtain ⟨hlater, hcontinues⟩ := CheckoutSystem.run_sound hrest hsystem
  exact ⟨hlater.exactlyOnce, CheckoutSystem.keeps_of_continues hsystem hlater hcontinues⟩

/-- Two users before the one seat, and no checkout yet. -/
def rivals : CheckoutSystem where
  store := ⟨{ singleSeat with users := ["buyer", "rival"] }, Table.empty, Table.empty⟩
  flows := Table.empty
  confirmKeys := []

theorem rivals_initial : rivals.Initial where
  checkouts := rfl
  flows := rfl
  confirmKeys := rfl
  one := singleSeat_fresh.oneProcessing

/-- All readings of one step at one instant. -/
def Signals.at (uuid : String) (now : Time) : Signals where
  uuid := uuid
  now := now
  draws := ⟨uuid, uuid, ⟨now, now, now⟩⟩

def openCheckout : CheckoutStep :=
  .create "buyer" (.object [("sessionId", .string "session"), ("seatIds", .array [.string "seat"])])
    (.at "C" 10)

/-- A confirm up to its committed reservation. -/
def reservedConfirm : List CheckoutStep :=
  [openCheckout, .confirm 1 "CHK-C" "buyer", .advance 1 (.at "1" 20), .advance 1 (.at "2" 20),
    .advance 1 (.at "3" 20)]

theorem confirm_exactly_once_rivals :
    ∃ system later, CheckoutStep.runMeeting rivals reservedConfirm = some system ∧
      CheckoutStep.runMeeting system [.advance 1 (.at "4" 30)] = some later ∧
      (later.store.checkouts.find "CHK-C").map CheckoutRow.state =
        some (.reserved "CHK-CONFIRM-1" "RSV-3") ∧
      later.ExactlyOnce ∧ system.Keeps later := by
  obtain ⟨system, hsystem⟩ := Option.isSome_iff_exists.mp
    (by decide : (CheckoutStep.runMeeting rivals reservedConfirm).isSome = true)
  have hsecond : ((CheckoutStep.runMeeting rivals reservedConfirm).bind fun system =>
      (CheckoutStep.runMeeting system [.advance 1 (.at "4" 30)]).map fun later =>
        (later.store.checkouts.find "CHK-C").map CheckoutRow.state) =
      some (some (.reserved "CHK-CONFIRM-1" "RSV-3")) := by decide
  rw [hsystem] at hsecond
  obtain ⟨later, hlater, hstate⟩ := Option.map_eq_some_iff.mp hsecond
  exact ⟨system, later, hsystem, hlater, hstate,
    confirm_exactly_once rivals_initial hsystem hlater⟩

/-- A first confirm meets the seat of a rival; when that order is cancelled, a retry with the same
key reserves the seat before the first confirm has recorded its failure. -/
def competingConfirms : List CheckoutStep :=
  [openCheckout,
    .transact (.createReservation
      (ReservationFlow.checkoutInput "rival" "key" "session" ["seat"]) ⟨"R", "R", ⟨10, 10, 10⟩⟩),
    .confirm 1 "CHK-C" "buyer", .advance 1 (.at "1" 20), .advance 1 (.at "2" 20),
    .advance 1 (.at "3" 20),
    .transact (.cancel "TKT-R" "rival" (.at 30)),
    .confirm 2 "CHK-C" "buyer", .advance 2 (.at "4" 40), .advance 2 (.at "5" 40),
    .advance 2 (.at "6" 40)]

/-- The late failure then reopens the checkout over its committed reservation. -/
theorem late_failure_drops_reservation :
    ∃ system later, CheckoutStep.applyAll rivals competingConfirms = some system ∧
      (CheckoutStep.advance 1 (.at "7" 50)).apply system = some later ∧
      ¬ system.Keeps later ∧ ¬ later.ExactlyOnce := by
  obtain ⟨system, hsystem⟩ := Option.isSome_iff_exists.mp
    (by decide : (CheckoutStep.applyAll rivals competingConfirms).isSome = true)
  have hbefore : (CheckoutStep.applyAll rivals competingConfirms).map (fun system =>
      (system.store.checkouts.find "CHK-C",
        decide (system.store.db.ReservedUnder "buyer" "CHK-CONFIRM-1" "RSV-6"))) =
      some (some ⟨"buyer", "session", .submitting "CHK-CONFIRM-1", 0, 20⟩, true) := by decide
  have hafter : ((CheckoutStep.applyAll rivals competingConfirms).bind fun system =>
      ((CheckoutStep.advance 1 (.at "7" 50)).apply system).map fun later =>
        (later.store.checkouts.find "CHK-C",
          decide (("CHK-C", "CHK-CONFIRM-1") ∈ later.confirmKeys),
          decide (later.store.db.ReservedUnder "buyer" "CHK-CONFIRM-1" "RSV-6"))) =
      some (some ⟨"buyer", "session", .selecting, 0, 50⟩, true, true) := by decide
  rw [hsystem] at hbefore hafter
  obtain ⟨hrow, hreserved⟩ := Prod.mk.inj (Option.some.inj hbefore)
  obtain ⟨later, hlater, hfacts⟩ := Option.map_eq_some_iff.mp hafter
  obtain ⟨hrow', hfacts⟩ := Prod.mk.inj hfacts
  obtain ⟨hkey, hreserved'⟩ := Prod.mk.inj hfacts
  refine ⟨system, later, hsystem, hlater, ?_, ?_⟩
  · intro hkeeps
    obtain ⟨row', hfound, -, hstate⟩ := hkeeps "CHK-C" "CHK-CONFIRM-1" _ "RSV-6" hrow rfl
      (of_decide_eq_true hreserved)
    rw [hrow'] at hfound
    cases hfound
    rcases hstate with hstate | hstate <;> cases hstate
  · intro honce
    rcases honce.points "CHK-C" "CHK-CONFIRM-1" _ "RSV-6" (of_decide_eq_true hkey) hrow'
      (of_decide_eq_true hreserved') with hstate | hstate <;> cases hstate

end Ticketing
