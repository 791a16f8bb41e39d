import Ticketing.AdminCatalog

/-!
# What administrators' transactions read under their locks

Under a venue's lock its plan and inventory stand still, under an event's lock the event and its
sessions; the prices of a session stand still under the lock of the session's venue, since the
keys tie them to it. Each read of a transaction is described once by what it returns.
-/

namespace Ticketing.Admin

open GuardedRows ReadCommitted

/-! ## Rows with unique keys -/

theorem filter_eq_singleton {ρ : Type} {rows : List ρ} {p : ρ → Bool} {r : ρ}
    (hnodup : rows.Nodup) (hr : r ∈ rows) (hp : ∀ r' ∈ rows, p r' = true ↔ r' = r) :
    rows.filter p = [r] := by
  induction rows with
  | nil => cases hr
  | cons a rows ih =>
      obtain ⟨ha, hnodup⟩ := List.nodup_cons.mp hnodup
      have htail : ∀ r' ∈ rows, p r' = true ↔ r' = r :=
        fun r' hr' => hp r' (List.mem_cons_of_mem _ hr')
      by_cases har : a = r
      · subst har
        have hnone : rows.filter p = [] := by
          rw [List.filter_eq_nil_iff]
          intro r' hr' htrue
          exact ha ((htail r' hr').mp htrue ▸ hr')
        rw [List.filter_cons_of_pos ((hp a List.mem_cons_self).mpr rfl), hnone]
      · have hfalse : ¬p a = true := fun htrue => har ((hp a List.mem_cons_self).mp htrue)
        rw [List.filter_cons_of_neg hfalse]
        exact ih hnodup ((List.mem_cons.mp hr).resolve_left (Ne.symm har)) htail

theorem flatMap_eq_of_unique {ρ τ : Type} {rows : List ρ} {f : ρ → List τ} {r : ρ}
    (hnodup : rows.Nodup) (hr : r ∈ rows) (hnone : ∀ r' ∈ rows, r' ≠ r → f r' = []) :
    rows.flatMap f = f r := by
  induction rows with
  | nil => cases hr
  | cons a rows ih =>
      obtain ⟨ha, hnodup⟩ := List.nodup_cons.mp hnodup
      have htail : ∀ r' ∈ rows, r' ≠ r → f r' = [] :=
        fun r' hr' => hnone r' (List.mem_cons_of_mem _ hr')
      rw [List.flatMap_cons]
      by_cases har : a = r
      · subst har
        have hrest : rows.flatMap f = [] := by
          rw [List.flatMap_eq_nil_iff]
          exact fun r' hr' => htail r' hr' fun h => ha (h ▸ hr')
        rw [hrest, List.append_nil]
      · rw [hnone a List.mem_cons_self har, List.nil_append]
        exact ih hnodup ((List.mem_cons.mp hr).resolve_left (Ne.symm har)) htail

theorem eq_of_key {ρ κ : Type} {rows : List ρ} {key : ρ → κ} (hnodup : (rows.map key).Nodup)
    {r r' : ρ} (hr : r ∈ rows) (hr' : r' ∈ rows) (h : key r = key r') : r = r' :=
  List.inj_on_of_nodup_map hnodup hr hr' h

namespace Catalog.Keyed

variable {s : Catalog} (h : s.Keyed)

include h

theorem session_eq {x y : Session} (hx : x ∈ s.sessions) (hy : y ∈ s.sessions)
    (hid : x.id = y.id) : x = y := eq_of_key h.sessionIds hx hy hid

/-- The prices of a session are those under its venue. -/
theorem price_venue {x : Session} (hx : x ∈ s.sessions) {p : SessionZonePrice}
    (hp : p ∈ s.prices) (hid : p.sessionId = x.id) : p.venueId = x.venueId := by
  obtain ⟨y, hy, hyid, hyvenue⟩ := h.priceSession p hp
  have hxy := h.session_eq hx hy (hid.symm.trans hyid.symm)
  rw [hxy, hyvenue]

theorem filter_session {x : Session} (hx : x ∈ s.sessions) :
    s.prices.filter (fun p => p.sessionId = x.id) =
      s.prices.filter fun p => p.sessionId = x.id && p.venueId = x.venueId := by
  apply List.filter_congr
  intro p hp
  by_cases hid : p.sessionId = x.id
  · simp [hid, h.price_venue hx hp hid]
  · simp [hid]

theorem zonePrices_eq {x : Session} (hx : x ∈ s.sessions) : zonePrices s x.id =
    (s.prices.filter fun p => p.sessionId = x.id && p.venueId = x.venueId).map
      fun p => (p.zoneId, p.price) := by
  rw [← h.filter_session hx, zonePrices]
  congr 1
  apply List.filter_congr
  intro p hp
  obtain ⟨z, hz, hid, _⟩ := h.priceZone p hp
  have hany : (s.zones.any fun z => z.id = p.zoneId) = true :=
    List.any_eq_true.mpr ⟨z, hz, by simpa using hid⟩
  rw [hany, Bool.and_true]

end Catalog.Keyed

/-! ## What stands still under a lock -/

section Agreement

variable {held : List Lock} {s t : Catalog} {eid vid : String}
  (h : isolation.AgreeOn held s t)

include h

theorem venueSeats_stable (hvid : .venue vid ∈ held) : venueSeats t vid = venueSeats s vid :=
  (filter_congr (h _ hvid).seats fun r hr => by simpa [Guarded.locks, eq_comm] using hr).symm

theorem venueZones_stable (hvid : .venue vid ∈ held) : venueZones t vid = venueZones s vid :=
  (filter_congr (h _ hvid).zones fun r hr => by simpa [Guarded.locks, eq_comm] using hr).symm

theorem venueRows_stable (hvid : .venue vid ∈ held) :
    (t.venues.filter fun v => v.id = vid) = s.venues.filter fun v => v.id = vid :=
  (filter_congr (h _ hvid).venues fun r hr => by simpa [Guarded.locks, eq_comm] using hr).symm

theorem frozen_stable (hvid : .venue vid ∈ held) : frozen t vid = frozen s vid := by
  unfold frozen
  rw [filter_congr (h _ hvid).inventory fun r hr => by simpa [Guarded.locks, eq_comm] using hr]

theorem venueView_stable (hvid : .venue vid ∈ held) : venueView t vid = venueView s vid := by
  unfold venueView
  rw [venueRows_stable h hvid, venueSeats_stable h hvid, venueZones_stable h hvid,
    frozen_stable h hvid]

theorem eventRows_stable (heid : .event eid ∈ held) :
    (t.events.filter fun e => e.id = eid) = s.events.filter fun e => e.id = eid :=
  (filter_congr (h _ heid).events fun r hr => by simpa [Guarded.locks, eq_comm] using hr).symm

theorem eventRow_stable (heid : .event eid ∈ held) : eventRow t eid = eventRow s eid := by
  rw [eventRow, eventRow, eventRows_stable h heid]

theorem eventSessions_stable (heid : .event eid ∈ held) :
    eventSessions t eid = eventSessions s eid :=
  (filter_congr (h _ heid).sessions fun r hr => by
    have hr : r.eventId = eid := by simpa using hr
    simp [Guarded.locks, hr]).symm

theorem zonePrices_stable (hs : s.Keyed) (ht : t.Keyed) {x : Session} (hx : x ∈ s.sessions)
    (hvid : .venue x.venueId ∈ held) : zonePrices t x.id = zonePrices s x.id := by
  have hlock : Lock.venue x.venueId ∈ Guarded.locks x := by simp [Guarded.locks]
  have hx' : x ∈ t.sessions := (mem_of_under (h _ hvid).sessions hlock).mp hx
  rw [hs.zonePrices_eq hx, ht.zonePrices_eq hx']
  rw [filter_congr (h _ hvid).prices fun p hp => by
    have hp : p.sessionId = x.id ∧ p.venueId = x.venueId := by simpa using hp
    simp [Guarded.locks, hp.2]]

theorem eventView_stable (hs : s.Keyed) (ht : t.Keyed) (heid : .event eid ∈ held)
    (hvenues : ∀ x ∈ eventSessions s eid, .venue x.venueId ∈ held) :
    eventView t eid = eventView s eid := by
  have hsessions : (eventSessions s eid).map (sessionView t) =
      (eventSessions s eid).map (sessionView s) := by
    apply List.map_congr_left
    intro x hx
    unfold sessionView
    rw [zonePrices_stable h hs ht (List.mem_of_mem_filter hx) (hvenues x hx)]
  unfold eventView
  rw [eventRow_stable h heid, eventSessions_stable h heid, hsessions]

end Agreement

/-! ## Reads -/

section Reads

variable {held : List Lock} {s : Catalog}

theorem covered_venue {vid : String} {Q : VenueView → List Lock → Catalog → Prop} (hs : s.Keyed)
    (hvid : .venue vid ∈ held) (h : ∀ v, venueView s vid = some v → Q v held s) :
    isolation.Covered held (venue vid) s Q := by
  apply isolation.covered_query hs
  · intro t _ hagree
    rw [venueView_stable hagree hvid]
  · cases hv : venueView s vid with
    | none => trivial
    | some v => exact h v hv

/-- An event read again under the lock of its sessions' venue. -/
theorem covered_event {eid : String} {Q : EventView → List Lock → Catalog → Prop} (hs : s.Keyed)
    (heid : .event eid ∈ held) (hvenues : ∀ x ∈ eventSessions s eid, .venue x.venueId ∈ held)
    (h : ∀ e, eventView s eid = some e → Q e held s) :
    isolation.Covered held (event eid) s Q := by
  apply isolation.covered_query hs
  · intro t ht hagree
    rw [eventView_stable hagree hs ht heid hvenues]
  · cases he : eventView s eid with
    | none => trivial
    | some e => exact h e he

theorem covered_lockVenue {vid : String} {Q : Unit → List Lock → Catalog → Prop}
    (h : (∃ v ∈ s.venues, v.id = vid) → Q () (.venue vid :: held) s) :
    isolation.Covered held (lockVenue vid) s Q := by
  intro hpresent
  obtain ⟨v, hv, hid⟩ := List.any_eq_true.mp hpresent
  exact h ⟨v, hv, by simpa using hid⟩

theorem covered_displayField {old : String} {patch : Bool} {field : Option (Option String)}
    {Q : String → List Lock → Catalog → Prop} (h : ∀ value, Q value held s) :
    isolation.Covered held (displayField old patch field) s Q := by
  cases field with
  | none =>
      cases patch with
      | false => trivial
      | true => exact h old
  | some value =>
      cases value with
      | none => trivial
      | some value => exact h value

theorem covered_displayFields {body : DisplayBody} {e : Display} {patch : Bool}
    {Q : Display → List Lock → Catalog → Prop} (h : ∀ d, Q d held s) :
    isolation.Covered held (displayFields body e patch) s Q := by
  apply isolation.covered_bind
  apply covered_displayField
  intro name
  apply isolation.covered_bind
  apply covered_displayField
  intro description
  apply isolation.covered_bind
  apply covered_displayField
  intro category
  apply isolation.covered_bind
  apply covered_displayField
  intro coverUrl
  exact h _

theorem covered_window {body : EventBody} {Q : Time × Time → List Lock → Catalog → Prop}
    (h : ∀ times, Q times held s) : isolation.Covered held (window body) s Q := by
  apply isolation.covered_expect
  intro starts _
  apply isolation.covered_expect
  intro ends _
  apply isolation.covered_require
  intro _
  exact h _

theorem covered_draftSession {eid sid : String} {Q : Unit → List Lock → Catalog → Prop}
    (hs : s.Keyed) (heid : .event eid ∈ held)
    (h : (∃ x ∈ s.sessions, x.id = sid ∧ x.eventId = eid ∧ x.status = .draft) → Q () held s) :
    isolation.Covered held (draftSession eid sid) s Q := by
  have hrows : ∀ t : Catalog, (t.sessions.filter fun x => x.id = sid && x.eventId = eid) =
      (eventSessions t eid).filter fun x => x.id = sid := by
    intro t
    rw [eventSessions, List.filter_filter]
  apply isolation.covered_query hs
  · intro t _ hagree
    rw [hrows t, hrows s, eventSessions_stable hagree heid]
  · apply isolation.covered_expect
    intro status hstatus
    obtain ⟨x, hx, rfl⟩ := Option.map_eq_some_iff.mp hstatus
    have hmem := List.mem_of_mem_head? hx
    have hkeys : x ∈ s.sessions ∧ x.id = sid ∧ x.eventId = eid := by simpa using hmem
    cases hdraft : (x.status == .draft) with
    | false => trivial
    | true => exact h ⟨x, hkeys.1, hkeys.2.1, hkeys.2.2, by simpa using hdraft⟩

theorem covered_sessionTimes {eid : String} {body : SessionBody}
    {Q : String × Time × Time → List Lock → Catalog → Prop} (hs : s.Keyed)
    (heid : .event eid ∈ held) (h : ∀ times, Q times held s) :
    isolation.Covered held (sessionTimes eid body) s Q := by
  apply isolation.covered_require
  intro _
  apply isolation.covered_expect
  intro hall _
  apply isolation.covered_expect
  intro start _
  apply isolation.covered_expect
  intro gate _
  apply isolation.covered_query hs
  · intro t _ hagree
    rw [eventRow_stable hagree heid]
  · apply isolation.covered_expect
    intro ok _
    apply isolation.covered_require
    intro _
    exact h _

theorem covered_checkPrices {allowed seen : List String} {items : List PriceItem}
    {Q : List (String × ℤ) → List Lock → Catalog → Prop} (h : ∀ prices, Q prices held s) :
    isolation.Covered held (checkPrices allowed seen items) s Q := by
  induction items generalizing seen Q with
  | nil => exact h []
  | cons item rest ih =>
      apply isolation.covered_require
      intro _
      apply isolation.covered_expect
      intro zid _
      apply isolation.covered_require
      intro _
      apply isolation.covered_expect
      intro price _
      apply isolation.covered_require
      intro _
      apply isolation.covered_bind
      apply ih
      intro others
      exact h _

end Reads

end Ticketing.Admin
