import Ticketing.AdminJobs

/-!
# Publishing an event

A publish copies the prices and seats of its draft sessions into the inventory while it holds the
event and its venue. What it leaves for the event is complete, and every later transaction of any
administrator keeps it, together with the plan of every venue that has inventory.
-/

namespace Ticketing.Admin

open GuardedRows ReadCommitted

/-! ## What a publishable preview has checked -/

section Preview

variable {held : List Lock} {s : Catalog}

theorem sessionChecks_stable {t : Catalog} {now : Time} (hs : s.Keyed) (ht : t.Keyed)
    (hagree : isolation.AgreeOn held s t) {x : Session} (hx : x ∈ s.sessions)
    (heid : .event x.eventId ∈ held) : sessionChecks now t x.id = sessionChecks now s x.id := by
  unfold sessionChecks
  rw [hs.filter_id hx, ht.filter_id (session_stable hagree heid hx)]
  rw [List.flatMap_singleton, List.flatMap_singleton, eventRows_stable hagree heid]

theorem covered_checkSessions {clock : ℕ → Time} {n : ℕ} {views : List SessionView}
    {Q : List SessionChecks → List Lock → Catalog → Prop} (hs : s.Keyed)
    (hviews : ∀ v ∈ views, ∃ x ∈ s.sessions, x.id = v.id ∧ .event x.eventId ∈ held)
    (h : ∀ checks, checks.length = views.length → Q checks held s) :
    isolation.Covered held (checkSessions clock n views) s Q := by
  induction views generalizing n Q with
  | nil => exact h [] rfl
  | cons v views ih =>
      obtain ⟨x, hx, hid, heid⟩ := hviews v List.mem_cons_self
      apply isolation.covered_query hs
      · intro t ht hagree
        rw [← hid, sessionChecks_stable hs ht hagree hx heid]
      · apply isolation.covered_expect
        intro checks _
        apply isolation.covered_bind
        apply ih fun v' hv' => hviews v' (List.mem_cons_of_mem _ hv')
        intro others hlength
        exact h (checks :: others) (by simp [hlength])

theorem covered_preview {clock : ℕ → Time} {eid : String} {e : EventView} {row : Event}
    {Q : Preview → List Lock → Catalog → Prop} (hs : s.Keyed) (hrow : Views s eid e row)
    (heid : .event eid ∈ held) (hvid : .venue e.venueId ∈ held)
    (h : ∀ v ended checks, venueView s e.venueId = some v → checks.length = e.sessions.length →
      Q (assemble e v ended checks) held s) :
    isolation.Covered held (preview clock e) s Q := by
  apply isolation.covered_bind
  apply covered_venue hs hvid
  intro v hv
  apply isolation.covered_query hs
  · intro t _ hagree
    rw [eventRow_stable hagree (hrow.id.symm ▸ heid)]
  apply isolation.covered_expect
  intro ended _
  apply isolation.covered_bind
  apply covered_checkSessions hs
  · intro view hview
    rw [hrow.sessions] at hview
    obtain ⟨x, hx, rfl⟩ := List.mem_map.mp hview
    obtain ⟨hx, hevent⟩ : x ∈ s.sessions ∧ x.eventId = eid := by simpa [eventSessions] using hx
    exact ⟨x, hx, rfl, hevent.symm ▸ heid⟩
  · exact fun checks hlength => h v ended checks hv hlength

theorem raised_eq_nil {b : Bool} {code sid : String} (h : raised b code sid = []) : b = false := by
  cases b with
  | false => rfl
  | true => cases h

theorem exists_zip {ρ τ : Type} {xs : List ρ} {ys : List τ} (hlength : ys.length = xs.length)
    {x : ρ} (hx : x ∈ xs) : ∃ y, (x, y) ∈ xs.zip ys := by
  obtain ⟨i, hi, rfl⟩ := List.getElem_of_mem hx
  have hi' : i < (xs.zip ys).length := by simp [List.length_zip, hlength, hi]
  exact ⟨ys[i], by simpa [List.getElem_zip] using List.getElem_mem hi'⟩

structure Publishable (e : EventView) (v : VenueView) : Prop where
  draft : e.status = .draft
  sessions : e.sessions ≠ []
  seats : v.totalSeats ≠ 0
  priced : ∀ x ∈ e.sessions, ∀ z ∈ v.zones, ∃ price, (z.id, price) ∈ x.prices

theorem publishable_assemble {e : EventView} {v : VenueView} {ended : Bool}
    {checks : List SessionChecks} (hlength : checks.length = e.sessions.length)
    (h : (assemble e v ended checks).publishable = true) : Publishable e v := by
  simp only [assemble, Bool.and_eq_true, List.isEmpty_iff, List.append_eq_nil_iff,
    beq_iff_eq] at h
  obtain ⟨hdraft, ⟨⟨hsessions, hvenue⟩, _⟩, hissues⟩ := h
  refine ⟨hdraft, ?_, ?_, ?_⟩
  · simpa using raised_eq_nil hsessions
  · have hempty := raised_eq_nil hvenue
    simp only [Bool.or_eq_false_iff, beq_eq_false_iff_ne] at hempty
    exact hempty.1
  · intro x hx z hz
    obtain ⟨c, hc⟩ := exists_zip hlength hx
    have hx' := List.flatMap_eq_nil_iff.mp hissues (x, c) hc
    simp only [sessionIssues, List.append_eq_nil_iff] at hx'
    have hz' := List.flatMap_eq_nil_iff.mp hx'.2 z hz
    unfold zoneIssues at hz'
    cases hprice : priceOf x.prices z.id with
    | none =>
        rw [hprice] at hz'
        cases hz'
    | some price =>
        obtain ⟨p, hp, rfl⟩ := Option.map_eq_some_iff.mp hprice
        have hid := List.find?_some hp
        have hmem := List.mem_reverse.mp (List.mem_of_find?_eq_some hp)
        rw [decide_eq_true_eq] at hid
        exact ⟨p.2, by rwa [← hid]⟩

end Preview

/-! ## Complete inventory -/

/-- The prices configured for a zone in a session. -/
def configured (s : Catalog) (sid zoneId : String) : List ℤ :=
  (s.prices.filter fun p => p.sessionId = sid && p.zoneId = zoneId).map SessionZonePrice.price

/-- The inventory of one seat in one session. -/
def stock (s : Catalog) (sid seatId : String) : List SessionSeat :=
  (sessionRows s sid).filter fun r => r.seatId = seatId

/-- Every session of the event is on sale, with one row for each seat of its venue, priced as its
zone was configured before the event was published, and with no other row. -/
structure Complete (before now : Catalog) (eid : String) : Prop where
  onSale : ∀ x ∈ eventSessions now eid, x.status = .onSale
  stocked : ∀ x ∈ eventSessions now eid, ∀ seat ∈ venueSeats now x.venueId,
    ∃ row, stock now x.id seat.id = [row] ∧ row.venueId = x.venueId ∧
      configured before x.id seat.zoneId = [row.price]
  only : ∀ x ∈ eventSessions now eid, ∀ row ∈ sessionRows now x.id,
    ∃ seat ∈ venueSeats now x.venueId, seat.id = row.seatId

def OnSale (s : Catalog) (eid : String) : Prop :=
  ∃ e ∈ s.events, e.id = eid ∧ e.status = .onSale

theorem OnSale.kept {s t : Catalog} {eid : String} (h : OnSale s eid) (hkeeps : s.Keeps t) :
    OnSale t eid := by
  obtain ⟨e, he, hid, hstatus⟩ := h
  obtain ⟨e', he', hid', hstatus'⟩ := hkeeps.listed e he (by simp [hstatus])
  exact ⟨e', he', hid'.trans hid, hstatus'.trans hstatus⟩

theorem Complete.kept {before s t : Catalog} {eid : String} (h : Complete before s eid)
    (hsale : OnSale s eid) (hfrozen : ∀ x ∈ eventSessions s eid, frozen s x.venueId = true)
    (hkeeps : s.Keeps t) : Complete before t eid := by
  obtain ⟨e, he, rfl, hstatus⟩ := hsale
  have hlisted : e.status ≠ .draft := by simp [hstatus]
  have hsessions := hkeeps.sessions e he hlisted
  have hseats : ∀ x ∈ eventSessions s e.id, venueSeats t x.venueId = venueSeats s x.venueId :=
    fun x hx => (hkeeps.plan x.venueId (hfrozen x hx)).2.2
  constructor
  · rw [hsessions]
    exact h.onSale
  · rw [hsessions]
    intro x hx seat hseat
    unfold stock
    rw [hkeeps.inventory e he hlisted x hx]
    exact h.stocked x hx seat (hseats x hx ▸ hseat)
  · rw [hsessions]
    intro x hx row hrow
    rw [hkeeps.inventory e he hlisted x hx] at hrow
    rw [hseats x hx]
    exact h.only x hx row hrow

/-- What a publish makes of the rows of one session. -/
def sessionInventory (s : Catalog) (x : Session) : List SessionSeat :=
  (s.prices.filter fun p => p.sessionId = x.id && p.venueId = x.venueId).flatMap fun p =>
    (s.seats.filter fun r => r.zoneId = p.zoneId && r.venueId = x.venueId).map (inventoryRow x p)

section Publish

variable {s : Catalog} {eid : String} {e : EventView} {row : Event} (hs : s.Consistent)
  (hrow : Views s eid e row)

theorem mem_sessionInventory {x : Session} {r : SessionSeat} : r ∈ sessionInventory s x ↔
    ∃ p ∈ s.prices, (p.sessionId = x.id ∧ p.venueId = x.venueId) ∧
      ∃ seat ∈ s.seats, (seat.zoneId = p.zoneId ∧ seat.venueId = x.venueId) ∧
        inventoryRow x p seat = r := by
  simp [sessionInventory, and_assoc]

theorem inventory_session {x : Session} {r : SessionSeat} (hr : r ∈ sessionInventory s x) :
    r.sessionId = x.id := by
  obtain ⟨p, _, _, seat, _, _, rfl⟩ := mem_sessionInventory.mp hr
  rfl

include hs

/-- Only its own rows of a publish have a session's id. -/
theorem inventoryRows_session {x : Session} (hx : x ∈ s.sessions) (hevent : x.eventId = eid)
    (hdraft : x.status = .draft) :
    (inventoryRows s eid).filter (fun r => r.sessionId = x.id) = sessionInventory s x := by
  have hrows : inventoryRows s eid = (s.sessions.filter fun x =>
      x.eventId = eid && x.status = .draft).flatMap (sessionInventory s) := rfl
  have hnodup : (s.sessions.filter fun x => x.eventId = eid && x.status = .draft).Nodup :=
    (List.Nodup.of_map _ hs.sessionIds).filter _
  rw [hrows, List.filter_flatMap]
  rw [flatMap_eq_of_unique hnodup (r := x) (List.mem_filter.mpr ⟨hx, by simp [hevent, hdraft]⟩)]
  · rw [List.filter_eq_self]
    exact fun r hr => decide_eq_true (inventory_session hr)
  · intro y hy hne
    rw [List.filter_eq_nil_iff]
    intro r hr hid
    have hid := (inventory_session hr).symm.trans (of_decide_eq_true hid)
    exact hne (hs.session_eq (List.mem_of_mem_filter hy) hx hid)

/-- A session of a draft has no inventory. -/
theorem sessionRows_of_draft {x : Session} (hx : x ∈ s.sessions) (hevent : x.eventId = row.id)
    (hmem : row ∈ s.events) (hdraft : row.status = .draft) : sessionRows s x.id = [] := by
  rw [sessionRows, List.filter_eq_nil_iff]
  intro r hr hid
  obtain ⟨y, hy, hyid, _, hnot⟩ := hs.inventorySession r hr
  obtain rfl := hs.session_eq hy hx (hyid.trans (of_decide_eq_true hid))
  exact hnot row hmem hevent.symm hdraft

theorem seat_eq {seat seat' : Seat} (h : seat ∈ s.seats) (h' : seat' ∈ s.seats)
    (hid : seat.id = seat'.id) (hvenue : seat.venueId = seat'.venueId) : seat = seat' :=
  eq_of_key hs.seatIds h h' (by rw [hid, hvenue])

theorem price_eq {p p' : SessionZonePrice} (h : p ∈ s.prices) (h' : p' ∈ s.prices)
    (hsession : p.sessionId = p'.sessionId) (hzone : p.zoneId = p'.zoneId) : p = p' :=
  eq_of_key hs.priceKeys h h' (by rw [hsession, hzone])

theorem configured_eq {p : SessionZonePrice} (hp : p ∈ s.prices) :
    configured s p.sessionId p.zoneId = [p.price] := by
  have honly : (s.prices.filter fun q => q.sessionId = p.sessionId && q.zoneId = p.zoneId) = [p] := by
    apply filter_eq_singleton (List.Nodup.of_map _ hs.priceKeys) hp
    intro q hq
    rw [Bool.and_eq_true, decide_eq_true_eq, decide_eq_true_eq]
    exact ⟨fun hkeys => price_eq hs hq hp hkeys.1 hkeys.2, fun heq => heq ▸ ⟨rfl, rfl⟩⟩
  rw [configured, honly]
  rfl

/-- A seat whose zone is priced gets one row, at that price. -/
theorem sessionInventory_seat {x : Session} {p : SessionZonePrice} {seat : Seat}
    (hp : p ∈ s.prices) (hsession : p.sessionId = x.id) (hpvenue : p.venueId = x.venueId)
    (hseat : seat ∈ s.seats) (hvenue : seat.venueId = x.venueId) (hzone : seat.zoneId = p.zoneId) :
    (sessionInventory s x).filter (fun r => r.seatId = seat.id) = [inventoryRow x p seat] := by
  have hfind : ∀ q : SessionZonePrice, ((s.seats.filter fun r =>
      r.zoneId = q.zoneId && r.venueId = x.venueId).map (inventoryRow x q)).filter
        (fun r => r.seatId = seat.id) = ((s.seats.filter fun r => r.id = seat.id &&
          (r.zoneId = q.zoneId && r.venueId = x.venueId)).map (inventoryRow x q)) := by
    intro q
    rw [List.filter_map, List.filter_filter]
    rfl
  have hnodup : (s.prices.filter fun p => p.sessionId = x.id && p.venueId = x.venueId).Nodup :=
    (List.Nodup.of_map _ hs.priceKeys).filter _
  rw [sessionInventory, List.filter_flatMap]
  rw [flatMap_eq_of_unique hnodup (r := p)
    (List.mem_filter.mpr ⟨hp, by simp [hsession, hpvenue]⟩)]
  · rw [hfind p, filter_eq_singleton (List.Nodup.of_map _ hs.seatIds) hseat]
    · rfl
    · intro r hr
      simp only [Bool.and_eq_true, decide_eq_true_eq]
      constructor
      · exact fun hkeys => seat_eq hs hr hseat hkeys.1 (hkeys.2.2.trans hvenue.symm)
      · rintro rfl
        exact ⟨rfl, hzone, hvenue⟩
  · intro q hq hne
    rw [hfind q, List.map_eq_nil_iff, List.filter_eq_nil_iff]
    intro r hr hkeys
    simp only [Bool.and_eq_true, decide_eq_true_eq] at hkeys
    obtain ⟨hq, hqsession, _⟩ : q ∈ s.prices ∧ q.sessionId = x.id ∧ q.venueId = x.venueId := by
      simpa using hq
    obtain rfl := seat_eq hs hr hseat hkeys.1 (hkeys.2.2.trans hvenue.symm)
    exact hne (price_eq hs hq hp (hqsession.trans hsession.symm) (hkeys.2.1.symm.trans hzone))

/-! ## One publish -/

def putOnSale (eid : String) (x : Session) : Session :=
  if decide (x.eventId = eid) && decide (x.status = .draft) then { x with status := .onSale } else x

/-- The catalogue after a publish, `g` being what it does to the row of the event. -/
def published (s : Catalog) (eid : String) (g : Event → Event) : Catalog :=
  { s with
    inventory := s.inventory ++ inventoryRows s eid
    sessions := s.sessions.map (putOnSale eid)
    events := s.events.map fun e => if decide (e.id = eid) then g e else e }

/-- What a publish that succeeds does. -/
structure Publishes (eid : String) (s t : Catalog) : Prop where
  draft : ∃ e ∈ s.events, e.id = eid ∧ e.status = .draft
  onSale : OnSale t eid
  complete : Complete s t eid
  frozen : ∀ x ∈ eventSessions t eid, frozen t x.venueId = true

omit hs in
theorem putOnSale_keys (x : Session) : (putOnSale eid x).id = x.id ∧
    (putOnSale eid x).eventId = x.eventId ∧ (putOnSale eid x).venueId = x.venueId := by
  unfold putOnSale
  split <;> exact ⟨rfl, rfl, rfl⟩

include hrow

theorem sessions_published (hdraft : e.status = .draft) {ids : List String} :
    s.Moves ids { s with sessions := s.sessions.map (putOnSale eid) } := by
  apply moves_sessions hs
  · exact fun x => (putOnSale_keys x).1
  · exact fun x => (putOnSale_keys x).2.1
  · exact fun x => (putOnSale_keys x).2.2
  · intro x hx hne
    refine ⟨row, hrow.mem, ?_, hrow.status ▸ hdraft⟩
    by_contra hevent
    apply hne
    rw [hrow.rowId] at hevent
    simp [putOnSale, Ne.symm hevent]

theorem published_moves (hdraft : e.status = .draft) {g : Event → Event}
    (hid : ∀ e, (g e).id = e.id) (hstatus : ∀ e, (g e).status = .onSale)
    (hvenue : ∀ e, (g e).primaryVenueId = e.primaryVenueId) {ids : List String} :
    s.Moves ids (published s eid g) := by
  have hsessions := @sessions_published _ _ _ _ hs hrow hdraft ids
  have hold := ne_of_draft hs hrow.mem (hrow.status ▸ hdraft)
  rw [hrow.rowId] at hold
  constructor
  · exact { hsessions.consistent with
      eventVenue := by
        intro e' he'
        obtain ⟨e₀, he₀, rfl⟩ := List.mem_map.mp he'
        split
        · rw [hvenue]
          exact hs.eventVenue e₀ he₀
        · exact hs.eventVenue e₀ he₀
      eventIds := by
        have hkeys : (s.events.map fun e => if decide (e.id = eid) then g e else e).map Event.id =
            s.events.map Event.id := by
          rw [List.map_map]
          apply List.map_congr_left
          intro e₀ _
          simp only [Function.comp_apply]
          split
          · exact hid e₀
          · rfl
        show ((s.events.map fun e => if decide (e.id = eid) then g e else e).map Event.id).Nodup
        rw [hkeys]
        exact hs.eventIds
      sessionEvent := by
        intro x hx
        obtain ⟨e₀, he₀, heid⟩ := hsessions.consistent.sessionEvent x hx
        refine ⟨_, List.mem_map_of_mem he₀, ?_⟩
        split
        · exact (hid e₀).trans heid
        · exact heid
      draftVenue := by
        intro x hx e' he' heid hst
        obtain ⟨e₀, he₀, rfl⟩ := List.mem_map.mp he'
        split at hst
        · rw [hstatus] at hst
          cases hst
        · rename_i hother
          rw [if_neg hother] at heid ⊢
          exact hsessions.consistent.draftVenue x hx e₀ he₀ heid hst
      inventorySession := by
        intro r hr
        rcases List.mem_append.mp hr with hr | hr
        · obtain ⟨x, hx, hxid, hxvenue, hnot⟩ := hsessions.consistent.inventorySession r hr
          refine ⟨x, hx, hxid, hxvenue, fun e' he' heid hst => ?_⟩
          obtain ⟨e₀, he₀, rfl⟩ := List.mem_map.mp he'
          split at hst
          · rw [hstatus] at hst
            cases hst
          · rename_i hother
            rw [if_neg hother] at heid
            exact hnot e₀ he₀ heid hst
        · obtain ⟨x, hx, ⟨hevent, _⟩, p, _, _, seat, _, _, rfl⟩ := mem_inventoryRows.mp hr
          obtain ⟨hxid, hxevent, hxvenue⟩ := @putOnSale_keys eid x
          refine ⟨putOnSale eid x, List.mem_map_of_mem hx, hxid, hxvenue,
            fun e' he' heid hst => ?_⟩
          obtain ⟨e₀, he₀, rfl⟩ := List.mem_map.mp he'
          split at hst
          · rw [hstatus] at hst
            cases hst
          · rename_i hother
            rw [if_neg hother, hxevent, hevent] at heid
            exact hother (decide_eq_true heid) }
  · intro x hx hnot
    have hx' := occurs_false.mp (hsessions.ids x hx hnot)
    refine occurs_false.mpr ⟨hx'.1, hx'.2.1, fun e' he' => ?_, hx'.2.2.2⟩
    obtain ⟨e₀, he₀, rfl⟩ := List.mem_map.mp he'
    split
    · rw [hid]
      exact hx'.2.2.1 e₀ he₀
    · exact hx'.2.2.1 e₀ he₀
  · constructor
    · intro e₀ he₀ hst
      refine ⟨e₀, List.mem_map.mpr ⟨e₀, he₀, ?_⟩, rfl, rfl⟩
      simp [hold e₀ he₀ hst]
    · exact hsessions.keeps.sessions
    · intro e₀ he₀ hst x hx
      obtain ⟨hx, hxe⟩ : x ∈ s.sessions ∧ x.eventId = e₀.id := by
        simpa [eventSessions] using hx
      have hnone : (inventoryRows s eid).filter (fun r => decide (r.sessionId = x.id)) = [] := by
        rw [List.filter_eq_nil_iff]
        intro r hr hsid
        obtain ⟨y, hy, ⟨hevent, _⟩, p, _, _, seat, _, _, rfl⟩ := mem_inventoryRows.mp hr
        have heq := hs.session_eq hy hx (of_decide_eq_true hsid)
        rw [heq, hxe] at hevent
        exact hold e₀ he₀ hst hevent
      unfold sessionRows published
      rw [List.filter_append, hnone, List.append_nil]
    · intro vid hvid
      refine ⟨?_, rfl, rfl⟩
      have hne : (s.inventory.filter fun r => decide (r.venueId = vid)) ≠ [] := by
        simpa [Admin.frozen] using hvid
      simp [Admin.frozen, published, hne]

theorem publishes_published (hdraft : e.status = .draft) {v : VenueView}
    (hv : venueView s e.venueId = some v) (hp : Publishable e v)
    (hall : ∀ x ∈ e.sessions, x.status = .draft) {g : Event → Event}
    (hid : ∀ e, (g e).id = e.id) (hstatus : ∀ e, (g e).status = .onSale) :
    Publishes eid s (published s eid g) := by
  obtain ⟨vrow, _, rfl⟩ := Option.map_eq_some_iff.mp hv
  have hsession : ∀ x ∈ eventSessions s eid, x ∈ s.sessions ∧ x.eventId = eid ∧
      x.status = .draft ∧ x.venueId = e.venueId := by
    intro x hx
    obtain ⟨hmem, hevent⟩ : x ∈ s.sessions ∧ x.eventId = eid := by simpa [eventSessions] using hx
    refine ⟨hmem, hevent, ?_, session_venue hs hrow hdraft hmem hevent⟩
    apply hall (sessionView s x)
    rw [hrow.sessions]
    exact List.mem_map_of_mem hx
  have hsessions : eventSessions (published s eid g) eid =
      (eventSessions s eid).map (putOnSale eid) := by
    unfold eventSessions published
    rw [List.filter_map]
    congr 1
    apply List.filter_congr
    intro x _
    simp [(putOnSale_keys x).2.1]
  have hrows : ∀ x ∈ eventSessions s eid,
      sessionRows (published s eid g) x.id = sessionInventory s x := by
    intro x hx
    obtain ⟨hmem, hevent, hst, _⟩ := hsession x hx
    have hnone := sessionRows_of_draft hs hmem (hevent.trans hrow.rowId.symm) hrow.mem
      (hrow.status ▸ hdraft)
    have hnew := inventoryRows_session hs hmem hevent hst
    unfold sessionRows at hnone
    unfold sessionRows published
    rw [List.filter_append, hnone, hnew, List.nil_append]
  have hstocked : ∀ x ∈ eventSessions s eid, ∀ seat ∈ venueSeats s x.venueId,
      ∃ r, stock (published s eid g) x.id seat.id = [r] ∧ r.venueId = x.venueId ∧
        configured s x.id seat.zoneId = [r.price] := by
    intro x hx seat hseat
    obtain ⟨hmem, hevent, _, hvenue⟩ := hsession x hx
    obtain ⟨hseat, hsvenue⟩ : seat ∈ s.seats ∧ seat.venueId = x.venueId := by
      simpa [venueSeats] using hseat
    obtain ⟨z, hz, hzid, hzvenue⟩ := hs.seatZone seat hseat
    have hzone : z ∈ venueZones s e.venueId :=
      List.mem_filter.mpr ⟨hz, by simp [hzvenue, hsvenue, hvenue]⟩
    have hview : sessionView s x ∈ e.sessions := by
      rw [hrow.sessions]
      exact List.mem_map_of_mem hx
    obtain ⟨price, hprice⟩ := hp.priced _ hview z hzone
    obtain ⟨p, hpmem, hpkey⟩ := List.mem_map.mp hprice
    obtain ⟨hpzone, rfl⟩ := Prod.mk.inj hpkey
    obtain ⟨hpmem, hpsession, _⟩ := by simpa using hpmem
    refine ⟨inventoryRow x p seat, ?_, rfl, ?_⟩
    · unfold stock
      rw [hrows x hx]
      exact sessionInventory_seat hs hpmem hpsession (hs.price_venue hmem hpmem hpsession) hseat
        hsvenue (hzid.symm.trans hpzone.symm)
    · have hconfigured := configured_eq hs hpmem
      rwa [hpsession, hpzone, hzid] at hconfigured
  refine ⟨⟨row, hrow.mem, hrow.rowId, hrow.status ▸ hdraft⟩, ?_, ⟨?_, ?_, ?_⟩, ?_⟩
  · refine ⟨g row, List.mem_map.mpr ⟨row, hrow.mem, ?_⟩, (hid row).trans hrow.rowId, hstatus row⟩
    rw [if_pos (decide_eq_true hrow.rowId)]
  · rw [hsessions]
    intro x' hx'
    obtain ⟨x, hx, rfl⟩ := List.mem_map.mp hx'
    obtain ⟨_, hevent, hst, _⟩ := hsession x hx
    simp [putOnSale, hevent, hst]
  · rw [hsessions]
    intro x' hx' seat hseat
    obtain ⟨x, hx, rfl⟩ := List.mem_map.mp hx'
    obtain ⟨hxid, _, hxvenue⟩ := @putOnSale_keys eid x
    rw [hxvenue] at hseat
    rw [hxid, hxvenue]
    exact hstocked x hx seat hseat
  · rw [hsessions]
    intro x' hx' r hr
    obtain ⟨x, hx, rfl⟩ := List.mem_map.mp hx'
    obtain ⟨hxid, _, hxvenue⟩ := @putOnSale_keys eid x
    rw [hxid, hrows x hx] at hr
    rw [hxvenue]
    obtain ⟨p, _, _, seat, hseat, hkeys, rfl⟩ := mem_sessionInventory.mp hr
    exact ⟨seat, List.mem_filter.mpr ⟨hseat, decide_eq_true hkeys.2⟩, rfl⟩
  · rw [hsessions]
    intro x' hx'
    obtain ⟨x, hx, rfl⟩ := List.mem_map.mp hx'
    obtain ⟨_, _, hxvenue⟩ := @putOnSale_keys eid x
    rw [hxvenue]
    obtain ⟨_, _, _, hvenue⟩ := hsession x hx
    have hseats : venueSeats s x.venueId ≠ [] := by
      rw [hvenue]
      exact fun hnil => hp.seats (by simp [hnil])
    obtain ⟨seat, hseat⟩ := List.exists_mem_of_ne_nil _ hseats
    obtain ⟨r, hstock, hrvenue, _⟩ := hstocked x hx seat hseat
    have hr : r ∈ stock (published s eid g) x.id seat.id := hstock ▸ List.mem_cons_self
    have hr := List.mem_of_mem_filter (List.mem_of_mem_filter hr)
    rw [Admin.frozen, Bool.not_eq_true', List.isEmpty_eq_false_iff]
    exact List.ne_nil_of_mem (List.mem_filter.mpr ⟨hr, decide_eq_true hrvenue⟩)

end Publish

/-! ## The jobs -/

section Jobs

variable {ids : List String} {s : Catalog} {held : List Lock} {eid : String}

theorem publish_covered {settings : Settings} {job : Job} {e : EventView} {row : Event}
    (hs : s.Consistent) (hrow : Views s eid e row) (hdraft : e.status = .draft)
    (heid : .event eid ∈ held) (hvid : .venue e.venueId ∈ held) :
    isolation.Covered held (publish settings job eid e) s fun a _ t =>
      a.disposition = .publishedNow ∧ s.Moves ids t ∧ Publishes eid s t := by
  have hvenues : ∀ x ∈ eventSessions s eid, .venue x.venueId ∈ held := by
    intro x hx
    obtain ⟨hx, hevent⟩ : x ∈ s.sessions ∧ x.eventId = eid := by simpa [eventSessions] using hx
    exact session_venue hs hrow hdraft hx hevent ▸ hvid
  apply isolation.covered_bind
  apply covered_preview hs.toKeyed hrow heid hvid
  intro v ended checks hv hlength
  apply isolation.covered_require
  intro hpublishable
  have hp := publishable_assemble hlength hpublishable
  apply isolation.covered_require
  intro hall
  apply isolation.covered_bind
  apply covered_insertInventory hs.toKeyed heid hvenues
  apply isolation.covered_require
  intro _
  have hkeyed : ({ s with inventory := s.inventory ++ inventoryRows s eid } : Catalog).Keyed :=
    { hs.toKeyed with }
  apply isolation.covered_bind
  apply covered_sessionsOnSale hkeyed heid hvenues
  have hsessions := @sessions_published _ _ _ _ hs hrow hdraft ids
  have hkeyed' : ({ s with
      inventory := s.inventory ++ inventoryRows s eid
      sessions := s.sessions.map (putOnSale eid) } : Catalog).Keyed :=
    { hsessions.consistent.toKeyed with }
  apply isolation.covered_bind
  apply covered_setEvent hkeyed' heid
  · intro t hagree
    unfold dateRange
    rw [eventSessions_stable hagree heid]
  · refine ⟨rfl, ?_, ?_⟩
    · apply published_moves hs hrow hdraft
      · exact fun _ => rfl
      · exact fun _ => rfl
      · exact fun _ => rfl
    · apply publishes_published hs hrow hdraft hv hp (by simpa using hall)
      · exact fun _ => rfl
      · exact fun _ => rfl

theorem venueView_present {vid : String} (h : ∃ v ∈ s.venues, v.id = vid) :
    ∃ v, venueView s vid = some v := by
  obtain ⟨v, hv, hid⟩ := h
  unfold venueView
  cases hfilter : s.venues.filter fun v => decide (v.id = vid) with
  | nil =>
      have hmem : v ∈ s.venues.filter fun v => decide (v.id = vid) :=
        List.mem_filter.mpr ⟨hv, decide_eq_true hid⟩
      rw [hfilter] at hmem
      cases hmem
  | cons first rest => exact ⟨_, rfl⟩

/-- The counts in the reply are read from rows that others may change; the reply is one all the
same. -/
theorem alreadyPublished_covered {e : EventView} {row : Event} (hs : s.Keyed)
    (hrow : Views s eid e row) (heid : .event eid ∈ held) :
    isolation.Covered held ((alreadyPublished eid e).digest Reply.disposition) s fun r _ t =>
      r = .alreadyPublished ∧ t = s := by
  have hvenue : ∀ t : Catalog, t.Keyed → isolation.AgreeOn held s t →
      ∃ v, venueView t e.venueId = some v := by
    intro t ht hagree
    have hmem : row ∈ t.events := by
      apply (mem_of_under (hagree _ heid).events _).mp hrow.mem
      simp [Guarded.locks, hrow.rowId]
    rw [hrow.venueId]
    exact venueView_present (ht.eventVenue row hmem)
  have hself : isolation.AgreeOn held s s := fun l _ => agree_refl l s
  obtain ⟨v, hv⟩ := hvenue s hs hself
  have hreply : (alreadyPublished eid e).digest Reply.disposition =
      (Prog.query fun s => inventoryCount s eid).bind fun _ =>
        (venue e.venueId).bind fun _ => .commit .alreadyPublished :=
    (Prog.digest_bind _ _ _).trans (congrArg _ (funext fun _ => Prog.digest_bind _ _ _))
  rw [hreply]
  refine ⟨hs, fun t _ _ => ⟨rfl, rfl⟩, fun _ hw => (List.not_mem_nil hw).elim, hs, ?_,
    fun _ hw => (List.not_mem_nil hw).elim, ?_⟩
  · intro t ht hagree
    obtain ⟨v', hv'⟩ := hvenue t ht hagree
    have hboth : venueView t e.venueId = some v' ∧
        venueView (store.applyAll [] s) e.venueId = some v := ⟨hv', hv⟩
    refine ⟨rfl, ?_⟩
    simp only [hboth.1, hboth.2]
    rfl
  · show isolation.Covered held ((Prog.expect (Failure.mk 404 "VENUE_NOT_FOUND")
      (venueView s e.venueId)).bind fun _ => .commit Disposition.alreadyPublished) s _
    rw [hv]
    exact And.intro rfl rfl

/-- What each job comes to. -/
def Post (job : Job) (s : Catalog) (r : Disposition) (t : Catalog) : Prop :=
  s.Keeps t ∧ ∀ eid, job.action = .publish eid →
    (r = .publishedNow ∧ Publishes eid s t) ∨ (r = .alreadyPublished ∧ t = s ∧ OnSale s eid)

theorem requestPublish_covered {settings : Settings} {job : Job} (hs : s.Consistent) :
    isolation.Covered held ((onEvent eid fun e =>
      if e.status = .onSale then alreadyPublished eid e
      else do
        .require (e.status == .draft) ⟨409, "EVENT_NOT_PUBLISHABLE"⟩
        underVenue eid e (publish settings job eid)).digest Reply.disposition) s fun r _ t =>
      s.Moves ids t ∧ ((r = .publishedNow ∧ Publishes eid s t) ∨
        (r = .alreadyPublished ∧ t = s ∧ OnSale s eid)) := by
  apply covered_onEvent hs.toKeyed
  · intro e e' hsm
    simp only [alreadyPublished, underVenue, hsm.status, hsm.venueId, hsm.sessions]
  · intro e he
    obtain ⟨row, hrow⟩ := eventView_views he
    split
    · rename_i hstatus
      apply isolation.covered_mono (alreadyPublished_covered hs.toKeyed hrow List.mem_cons_self)
      rintro r held' t ⟨hr, hts⟩
      have hsale : OnSale s eid := ⟨row, hrow.mem, hrow.rowId, hrow.status ▸ hstatus⟩
      refine ⟨?_, .inr ⟨hr, hts, hsale⟩⟩
      rw [hts]
      exact .refl ids hs
    · apply isolation.covered_digest
      apply isolation.covered_require
      intro hdraft
      have hdraft : e.status = .draft := by simpa using hdraft
      apply covered_underVenue hs he hdraft List.mem_cons_self
      apply isolation.covered_mono (@publish_covered ids _ _ _ _ _ _ _ hs hrow hdraft
          (List.mem_cons_of_mem _ List.mem_cons_self) List.mem_cons_self)
      rintro a held' t ⟨hnow, hmoves, hpublishes⟩
      exact ⟨hmoves, .inl ⟨hnow, hpublishes⟩⟩

/-- Every job reads and writes under its locks and comes to what `Post` says. -/
theorem execute_covered (settings : Settings) (job : Job) (hs : s.Consistent)
    (hfresh : (workload settings).Fresh job s) :
    isolation.Covered (births job) ((execute settings job).digest Reply.disposition) s fun r _ t =>
      s.Moves (drawnIds job) t ∧ Post job s r t := by
  obtain ⟨action, user, uuid, clock⟩ := job
  obtain ⟨hnodup, habsent⟩ := hfresh
  have hsaves : ∀ {p : Prog Catalog Write Lock Failure Disposition} {held : List Lock}
      {ids : List String} {job : Job}, (∀ eid, job.action ≠ .publish eid) →
      isolation.Covered held p s (Saves ids s) →
      isolation.Covered held p s fun r _ t => s.Moves ids t ∧ Post job s r t := by
    intro p held ids job hnot h
    apply isolation.covered_mono h
    rintro r held' t ⟨_, hmoves⟩
    exact ⟨hmoves, hmoves.keeps, fun eid heid => absurd heid (hnot eid)⟩
  cases action with
  | save venueId plan =>
      apply hsaves fun _ h => by cases h
      cases hempty : venueId.isEmpty with
      | true =>
          apply isolation.covered_digest
          simp only [execute, save, births, drawnIds, hempty, if_true]
          simp only [workload, drawnIds, hempty, if_true, List.singleton_append] at hnodup habsent
          exact saveNew_saves hs List.mem_cons_self hnodup fun id hid => ⟨hid, habsent id hid⟩
      | false =>
          apply isolation.covered_digest
          simp only [execute, save, drawnIds, hempty]
          simp only [workload, drawnIds, hempty, Bool.false_eq_true, if_false, List.nil_append]
            at hnodup habsent
          exact saveOld_saves hs hnodup fun id hid => ⟨hid, habsent id hid⟩
  | create body =>
      apply hsaves fun _ h => by cases h
      exact create_saves hs List.mem_cons_self List.mem_cons_self
        (habsent _ List.mem_cons_self)
  | display eid known body =>
      apply hsaves fun _ h => by cases h
      exact display_saves hs
  | update eid body =>
      apply hsaves fun _ h => by cases h
      exact update_saves hs
  | publish eid =>
      apply isolation.covered_mono (@requestPublish_covered [] _ _ eid _ _ hs)
      rintro r held' t ⟨hmoves, hpost⟩
      refine ⟨hmoves, hmoves.keeps, fun eid' heid' => ?_⟩
      cases heid'
      exact hpost
  | sessionCreate eid body =>
      apply hsaves fun _ h => by cases h
      apply covered_editing hs.toKeyed
      · intro e e' hsm
        simp only [underVenue, hsm.venueId]
      · intro e he hdraft
        obtain ⟨row, hrow⟩ := eventView_views he
        apply covered_underVenue hs he hdraft List.mem_cons_self
        exact sessionCreate_saves hs hrow hdraft (List.mem_cons_of_mem _ List.mem_cons_self)
          List.mem_cons_self List.mem_cons_self (habsent _ List.mem_cons_self)
  | sessionUpdate eid sid body =>
      apply hsaves fun _ h => by cases h
      apply covered_editing hs.toKeyed
      · intro e e' hsm
        simp only [underVenue, hsm.venueId]
      · intro e he hdraft
        obtain ⟨row, hrow⟩ := eventView_views he
        apply covered_underVenue hs he hdraft List.mem_cons_self
        exact sessionUpdate_saves hs hrow hdraft (List.mem_cons_of_mem _ List.mem_cons_self)
          List.mem_cons_self
  | sessionDelete eid sid =>
      apply hsaves fun _ h => by cases h
      apply covered_editing hs.toKeyed
      · intro e e' hsm
        simp only [underVenue, hsm.venueId]
      · intro e he hdraft
        obtain ⟨row, hrow⟩ := eventView_views he
        apply covered_underVenue hs he hdraft List.mem_cons_self
        exact sessionDelete_saves hs hrow hdraft (List.mem_cons_of_mem _ List.mem_cons_self)
          List.mem_cons_self
  | prices eid sid body =>
      apply hsaves fun _ h => by cases h
      apply covered_editing hs.toKeyed
      · intro e e' hsm
        simp only [underVenue, hsm.venueId]
      · intro e he hdraft
        obtain ⟨row, hrow⟩ := eventView_views he
        apply covered_underVenue hs he hdraft List.mem_cons_self
        exact setPrices_saves hs hrow hdraft (List.mem_cons_of_mem _ List.mem_cons_self)
          List.mem_cons_self

def discipline (settings : Settings) :
    Discipline isolation (workload settings) Reply.disposition where
  Inv := Catalog.Consistent
  Post := Post
  covered job _ hs hfresh := isolation.covered_mono (execute_covered settings job hs hfresh)
    fun _ _ _ h => ⟨⟨h.1.consistent, h.1.ids⟩, h.2⟩

end Jobs

/-! ## Runs -/

abbrev AdminSystem := Sys Catalog Write Lock Failure Reply Job

section Runs

variable {settings : Settings} {start : Catalog} {s s₁ s₂ : AdminSystem} {acts : List (Act Job)}

theorem run_keeps (h : (discipline settings).Good s)
    (hrun : s.run store (workload settings) acts = some s₁) : s.committed.Keeps s₁.committed :=
  Discipline.run_relates h Catalog.Keeps.refl (fun _ _ _ => Catalog.Keeps.trans)
    (fun _ _ _ _ _ hpost => hpost.1) hrun

/-- What the commit of a publish comes to. -/
theorem commit_publish (h : (discipline settings).Good s) {i : ℕ}
    {tx : Open Catalog Write Lock Failure Reply Job} {eid : String} (htx : s.open? i = some tx)
    (hjob : tx.job.action = .publish eid)
    (hstep : s.step store (workload settings) (.commit i) = some s₁) :
    ∃ result, tx.rest = .commit result ∧
      ((result.disposition = .publishedNow ∧ Publishes eid s.committed s₁.committed) ∨
        (result.disposition = .alreadyPublished ∧ s₁.committed = s.committed ∧
          OnSale s.committed eid)) := by
  rcases step_cases hstep with ⟨_, hact, _⟩ | ⟨_, _, _, _, _, hact, _⟩ | ⟨_, _, _, _, hact, _⟩ |
    ⟨k, tx', result, hact, htx', hrest, rfl⟩ | ⟨_, hact | hact, _⟩
  · cases hact
  · cases hact
  · cases hact
  · cases hact
    obtain rfl := Option.some.inj (htx.symm.trans htx')
    have hserial := Discipline.committing h htx hrest
    obtain ⟨_, _, hpost⟩ := ((discipline settings).covered tx.job s.committed h.inv
      (h.fresh i tx htx)).serial isolation hserial
    exact ⟨result, hrest, hpost.2 eid hjob⟩
  · cases hact
  · cases hact

/-- Wherever a run of administrators' transactions has come: a publish that commits leaves the
event's inventory complete for good; a publish of an event on sale changes nothing; what does not
commit changes nothing, and a failed publish cannot commit; and the plan of a venue with inventory
stands. -/
theorem publish_complete (settings : Settings) (start : Catalog) (hstart : start.Consistent)
    (acts : List (Act Job)) (s : AdminSystem)
    (hrun : Sys.run store (workload settings) ⟨start, []⟩ acts = some s) :
    (∀ i tx eid result s₁, s.open? i = some tx → tx.job.action = .publish eid →
      tx.rest = .commit result → result.disposition = .publishedNow →
      s.step store (workload settings) (.commit i) = some s₁ →
      ∀ later s₂, s₁.run store (workload settings) later = some s₂ →
        Complete s.committed s₂.committed eid ∧ OnSale s₂.committed eid) ∧
    (∀ i tx eid s₁, s.open? i = some tx → tx.job.action = .publish eid → OnSale s.committed eid →
      s.step store (workload settings) (.commit i) = some s₁ → s₁.committed = s.committed) ∧
    (∀ act s₁, s.step store (workload settings) act = some s₁ → (∀ i, act ≠ .commit i) →
      s₁.committed = s.committed) ∧
    (∀ i tx error, s.open? i = some tx → tx.rest = .rollback error →
      s.step store (workload settings) (.commit i) = none) ∧
    ∀ vid, frozen s.committed vid = true → ∀ later s₂,
      s.run store (workload settings) later = some s₂ →
        venueZones s₂.committed vid = venueZones s.committed vid ∧
        venueSeats s₂.committed vid = venueSeats s.committed vid := by
  have hgood := Discipline.good_run ((discipline settings).good_start start hstart) hrun
  refine ⟨?_, ?_, ?_, ?_, ?_⟩
  · intro i tx eid result s₁ htx hjob hrest hnow hstep later s₂ hlater
    obtain ⟨result', hrest', hcases⟩ := commit_publish hgood htx hjob hstep
    rw [hrest] at hrest'
    cases hrest'
    have hgood₁ := Discipline.good_step hgood hstep
    have hkeeps := run_keeps hgood₁ hlater
    rcases hcases with ⟨_, hpublishes⟩ | ⟨hother, _⟩
    · exact ⟨hpublishes.complete.kept hpublishes.onSale hpublishes.frozen hkeeps,
        hpublishes.onSale.kept hkeeps⟩
    · rw [hnow] at hother
      cases hother
  · intro i tx eid s₁ htx hjob hsale hstep
    obtain ⟨_, _, ⟨_, hpublishes⟩ | ⟨_, hsame, _⟩⟩ := commit_publish hgood htx hjob hstep
    · obtain ⟨e, he, hid, hstatus⟩ := hsale
      obtain ⟨e', he', hid', hdraft⟩ := hpublishes.draft
      have heq := eq_of_key hgood.inv.eventIds he he' (hid.trans hid'.symm)
      rw [heq, hdraft] at hstatus
      cases hstatus
    · exact hsame
  · intro act s₁ hstep hnot
    rcases Discipline.step_committed hgood hstep with hsame | ⟨i, _, _, hact, _⟩
    · exact hsame
    · exact absurd hact (hnot i)
  · intro i tx error htx hrest
    simp [Sys.step, htx, hrest]
  · intro vid hvid later s₂ hlater
    exact ((run_keeps hgood hlater).plan vid hvid).2

/-- A venue of one seat, and a draft of one priced session there. -/
def oneSeat : Catalog where
  venues := [⟨"V", "Hall", "Basel"⟩]
  zones := [⟨"Z", "V", "A", "Stalls", 0⟩]
  seats := [⟨"Z-1-1", "V", "Z", "1", 1, "1001"⟩]
  events := [⟨"E", "V", "Concert", "", "music", "", "", .draft, 1, 9, none, none⟩]
  sessions := [⟨"S", "E", "V", "Main", 5, 4, .draft⟩]
  prices := [⟨"S", "Z", "V", 80⟩]
  inventory := []

theorem oneSeat_consistent : oneSeat.Consistent where
  sessionIds := by decide
  zoneIds := by decide
  zoneVenue := by decide
  sessionVenue := by decide
  eventVenue := by decide
  priceSession := by decide
  priceZone := by decide
  eventIds := by decide
  sessionEvent := by decide
  draftVenue := by decide
  seatZone := by decide
  seatIds := by decide
  priceKeys := by decide
  inventorySession := by decide

def publishOne : Job := ⟨.publish "E", "admin", fun _ => "", fun _ => 0⟩

def days : Settings := ⟨20, fun t => t, fun n => toString n⟩

def publishing : List (Act Job) := .begin publishOne :: List.replicate 10 (.advance 0)

theorem publish_complete_oneSeat : ∃ s s₁ : AdminSystem,
    Sys.run store (workload days) ⟨oneSeat, []⟩ publishing = some s ∧
    s.step store (workload days) (.commit 0) = some s₁ ∧
    Complete s.committed s₁.committed "E" ∧
    (stock s₁.committed "S" "Z-1-1").map SessionSeat.price = [80] := by
  refine ⟨_, _, rfl, rfl, ?_, rfl⟩
  have hruns := publish_complete days oneSeat oneSeat_consistent publishing _ rfl
  exact (hruns.1 0 _ "E" _ _ rfl rfl rfl rfl rfl [] _ rfl).1

end Runs

end Ticketing.Admin
