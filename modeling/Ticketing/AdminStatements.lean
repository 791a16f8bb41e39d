import Ticketing.AdminSteps

/-!
# Administrators' statements under their locks

Each statement that writes is described once: the locks it needs, and the catalogue it leaves.
-/

namespace Ticketing.Admin

open GuardedRows ReadCommitted

/-! ## Conditions under one lock -/

theorem any_stable {ρ : Type} [Guarded ρ Lock] {l : Lock} {table table' : List ρ}
    (h : under l table = under l table') {p : ρ → Bool}
    (hp : ∀ r, p r = true → l ∈ Guarded.locks r) : table'.any p = table.any p := by
  rw [Bool.eq_iff_iff, List.any_eq_true, List.any_eq_true]
  constructor
  · rintro ⟨r, hr, hpr⟩
    exact ⟨r, (mem_of_under h (hp r hpr)).mpr hr, hpr⟩
  · rintro ⟨r, hr, hpr⟩
    exact ⟨r, (mem_of_under h (hp r hpr)).mp hr, hpr⟩

theorem Catalog.Keyed.filter_id {s : Catalog} (h : s.Keyed) {x : Session} (hx : x ∈ s.sessions) :
    s.sessions.filter (fun y => y.id = x.id) = [x] := by
  apply filter_eq_singleton (List.Nodup.of_map _ h.sessionIds) hx
  intro y hy
  rw [decide_eq_true_eq]
  exact ⟨fun hid => h.session_eq hy hx hid, fun heq => heq ▸ rfl⟩

section Statements

variable {held : List Lock} {s : Catalog} {Q : Unit → List Lock → Catalog → Prop}

/-! ## Events -/

theorem covered_setEvent {eid : String} {f : Catalog → Event → Event}
    {keeps : ∀ s e, (f s e).id = e.id} (hs : s.Keyed) (heid : .event eid ∈ held)
    (hstable : ∀ t, isolation.AgreeOn held s t → f t = f s)
    (h : Q () held { s with events := s.events.map fun e => if decide (e.id = eid) then f s e else e }) :
    isolation.Covered held (setEvent eid f keeps) s Q := by
  apply isolation.covered_exec hs
  · intro t _ hagree
    simp only [eventRows_stable hagree heid, hstable t hagree, and_self]
  · intro w hw l htouch
    rw [List.mem_singleton] at hw
    subst hw
    obtain ⟨r, hr, hl⟩ := htouch
    have hid : r.id = eid := by simpa [Edit.rows, Edit.set] using List.of_mem_filter hr
    have hlock : l = .event r.id := by simpa [Guarded.locks] using hl
    rw [hlock, hid]
    exact heid
  · have heffect := run_set_filter s.events (fun e => decide (e.id = eid)) (f s)
      fun e => congrArg (fun id => [Lock.event id]) (keeps s e)
    rw [← heffect] at h
    exact h

theorem covered_insertEvent {eid vid : String} {d : Display} {starts ends : Time} (hs : s.Keyed)
    (heid : .event eid ∈ held)
    (h : ∀ e : Event, e.id = eid → e.primaryVenueId = vid → e.status = .draft →
      Q () held { s with events := s.events ++ [e] }) :
    isolation.Covered held (insertEvent eid vid d starts ends) s Q := by
  apply isolation.covered_exec hs
  · exact fun t _ _ => ⟨rfl, rfl⟩
  · intro w hw l htouch
    rw [List.mem_singleton] at hw
    subst hw
    obtain ⟨r, hr, hl⟩ := htouch
    rw [List.mem_singleton.mp hr] at hl
    rw [List.mem_singleton.mp hl]
    exact heid
  · exact h _ rfl rfl rfl

/-! ## Sessions -/

theorem covered_insertSession {sid eid vid hall : String} {start gate : Time} (hs : s.Keyed)
    (heid : .event eid ∈ held) (hvid : .venue vid ∈ held)
    (h : ∀ x : Session, x.id = sid → x.eventId = eid → x.venueId = vid → x.status = .draft →
      Q () held { s with sessions := s.sessions ++ [x] }) :
    isolation.Covered held (insertSession sid eid vid hall start gate) s Q := by
  apply isolation.covered_exec hs
  · exact fun t _ _ => ⟨rfl, rfl⟩
  · intro w hw l htouch
    rw [List.mem_singleton] at hw
    subst hw
    obtain ⟨r, hr, hl⟩ := htouch
    rw [List.mem_singleton.mp hr] at hl
    rcases List.mem_pair.mp hl with rfl | rfl
    · exact heid
    · exact hvid
  · exact h _ rfl rfl rfl rfl

theorem session_stable {t : Catalog} {x : Session} (hagree : isolation.AgreeOn held s t)
    (heid : .event x.eventId ∈ held) (hx : x ∈ s.sessions) : x ∈ t.sessions :=
  (mem_of_under (hagree _ heid).sessions (by simp [Guarded.locks])).mp hx

theorem covered_updateSession {sid hall : String} {start gate : Time} (hs : s.Keyed)
    {x : Session} (hx : x ∈ s.sessions) (hid : x.id = sid) (heid : .event x.eventId ∈ held)
    (hvid : .venue x.venueId ∈ held)
    (h : Q () held { s with
      sessions := s.sessions.map fun y => if decide (y.id = sid) then
        { y with hallName := hall, startTime := start, gateTime := gate } else y }) :
    isolation.Covered held (updateSession sid hall start gate) s Q := by
  subst hid
  apply isolation.covered_exec hs
  · intro t ht hagree
    simp only [hs.filter_id hx, Catalog.Keyed.filter_id ht (session_stable hagree heid hx),
      and_self]
  · intro w hw l htouch
    rw [List.mem_singleton] at hw
    subst hw
    obtain ⟨r, hr, hl⟩ := htouch
    have hrow : r = x := by
      have hr : r ∈ s.sessions.filter fun y => y.id = x.id := hr
      rw [hs.filter_id hx] at hr
      exact List.mem_singleton.mp hr
    rw [hrow] at hl
    rcases List.mem_pair.mp hl with rfl | rfl
    · exact heid
    · exact hvid
  · have heffect := run_set_filter s.sessions (fun y => decide (y.id = x.id))
      (fun y => { y with hallName := hall, startTime := start, gateTime := gate }) fun _ => rfl
    rw [← heffect] at h
    exact h

theorem filter_id_event (hs : s.Keyed) {x : Session} (hx : x ∈ s.sessions) :
    (s.sessions.filter fun y => y.id = x.id && y.eventId = x.eventId) = [x] := by
  apply filter_eq_singleton (List.Nodup.of_map _ hs.sessionIds) hx
  intro y hy
  rw [Bool.and_eq_true, decide_eq_true_eq, decide_eq_true_eq]
  exact ⟨fun hkeys => hs.session_eq hy hx hkeys.1, fun heq => heq ▸ ⟨rfl, rfl⟩⟩

theorem covered_deleteSession {sid eid : String} (hs : s.Keyed) {x : Session}
    (hx : x ∈ s.sessions) (hid : x.id = sid) (hevent : x.eventId = eid)
    (heid : .event eid ∈ held) (hvid : .venue x.venueId ∈ held)
    (h : Q () held { s with
      sessions := s.sessions.filter fun y => !(y.id = sid && y.eventId = eid)
      prices := s.prices.filter fun p =>
        !(s.sessions.filter fun y => y.id = sid && y.eventId = eid).any fun y =>
          y.id = p.sessionId && y.venueId = p.venueId }) :
    isolation.Covered held (deleteSession sid eid) s Q := by
  subst hid hevent
  have hprice : ∀ p : SessionZonePrice, ([x].any fun y =>
      y.id = p.sessionId && y.venueId = p.venueId) = true → Lock.venue x.venueId ∈ Guarded.locks p := by
    intro p hp
    have hkeys : x.id = p.sessionId ∧ x.venueId = p.venueId := by simpa using hp
    simp [Guarded.locks, hkeys.2]
  apply isolation.covered_exec hs
  · intro t ht hagree
    have hx' := session_stable hagree heid hx
    simp only [filter_id_event hs hx, filter_id_event ht hx', and_true]
    rw [filter_congr (hagree _ hvid).prices hprice]
  · rintro w hw l htouch
    rcases List.mem_pair.mp hw with rfl | rfl
    · obtain ⟨r, hr, hl⟩ := htouch
      have hr : r ∈ s.sessions.filter fun y => y.id = x.id && y.eventId = x.eventId := hr
      rw [filter_id_event hs hx] at hr
      rw [List.mem_singleton.mp hr] at hl
      rcases List.mem_pair.mp hl with rfl | rfl
      · exact heid
      · exact hvid
    · obtain ⟨p, hp, hl⟩ := htouch
      have hp : p ∈ s.prices.filter fun p =>
        (s.sessions.filter fun y => y.id = x.id && y.eventId = x.eventId).any fun y =>
          y.id = p.sessionId && y.venueId = p.venueId := hp
      rw [filter_id_event hs hx] at hp
      have hkeys : x.id = p.sessionId ∧ x.venueId = p.venueId := by
        simpa using List.of_mem_filter hp
      rw [List.mem_singleton.mp hl, ← hkeys.2]
      exact hvid
  · have hsessions := run_delete_filter s.sessions
      fun y => decide (y.id = x.id) && decide (y.eventId = x.eventId)
    have hprices := run_delete_filter s.prices fun p =>
      (s.sessions.filter fun y => y.id = x.id && y.eventId = x.eventId).any fun y =>
        y.id = p.sessionId && y.venueId = p.venueId
    rw [← hsessions, ← hprices] at h
    exact h

/-! ## Prices -/

theorem covered_deletePrices {sid : String} (hs : s.Keyed) {x : Session} (hx : x ∈ s.sessions)
    (hid : x.id = sid) (heid : .event x.eventId ∈ held) (hvid : .venue x.venueId ∈ held)
    (h : Q () held { s with prices := s.prices.filter fun p => !(p.sessionId = sid) }) :
    isolation.Covered held (deletePrices sid) s Q := by
  subst hid
  apply isolation.covered_exec hs
  · intro t ht hagree
    rw [hs.filter_session hx,
      Catalog.Keyed.filter_session ht (session_stable hagree heid hx)]
    rw [filter_congr (hagree _ hvid).prices fun p hp => by
      have hp : p.sessionId = x.id ∧ p.venueId = x.venueId := by simpa using hp
      simp [Guarded.locks, hp.2]]
    exact ⟨rfl, rfl⟩
  · intro w hw l htouch
    rw [List.mem_singleton] at hw
    subst hw
    obtain ⟨p, hp, hl⟩ := htouch
    have hp : p ∈ s.prices.filter fun p => p.sessionId = x.id := hp
    obtain ⟨hp, hkey⟩ : p ∈ s.prices ∧ p.sessionId = x.id := by simpa using hp
    rw [List.mem_singleton.mp hl, hs.price_venue hx hp hkey]
    exact hvid
  · have heffect := run_delete_filter s.prices fun p => decide (p.sessionId = x.id)
    rw [← heffect] at h
    exact h

theorem covered_insertPrices {sid vid : String} {prices : List (String × ℤ)} (hs : s.Keyed)
    (hvid : .venue vid ∈ held)
    (h : prices = [] ∨ pricesAllowed s sid vid prices = true →
      Q () held { s with prices := s.prices ++ priceRows sid vid prices }) :
    isolation.Covered held (insertPrices sid vid prices) s Q := by
  apply isolation.covered_bind
  apply isolation.covered_exec hs
  · intro t _ hagree
    have hsessions := any_stable (hagree _ hvid).sessions
      (p := fun x => decide (x.id = sid) && decide (x.venueId = vid)) fun x hx => by
        have hx : x.id = sid ∧ x.venueId = vid := by simpa using hx
        simp [Guarded.locks, hx.2]
    have hzones : ∀ p : String × ℤ, (t.zones.any fun z => z.id = p.1 && z.venueId = vid) =
        s.zones.any fun z => z.id = p.1 && z.venueId = vid := by
      intro p
      exact any_stable (hagree _ hvid).zones fun z hz => by
        have hz : z.id = p.1 ∧ z.venueId = vid := by simpa using hz
        simp [Guarded.locks, hz.2]
    simp only [pricesAllowed, hsessions, hzones, and_self]
  · intro w hw l htouch
    rw [List.mem_singleton] at hw
    subst hw
    obtain ⟨p, hp, hl⟩ := htouch
    obtain ⟨q, _, rfl⟩ := List.mem_map.mp hp
    rw [List.mem_singleton.mp hl]
    exact hvid
  · cases hok : prices.isEmpty || pricesAllowed s sid vid prices with
    | false => trivial
    | true =>
        apply h
        rw [Bool.or_eq_true, List.isEmpty_iff] at hok
        exact hok

/-! ## Plans of a venue -/

section Plans

variable {vid : String} (hs : s.Keyed) (hvid : .venue vid ∈ held)

include hs hvid

theorem covered_insertVenue {plan : Plan}
    (h : ∀ v : Venue, v.id = vid → Q () held { s with venues := s.venues ++ [v] }) :
    isolation.Covered held (insertVenue vid plan) s Q := by
  apply isolation.covered_exec hs
  · exact fun t _ _ => ⟨rfl, rfl⟩
  · intro w hw l htouch
    rw [List.mem_singleton] at hw
    subst hw
    obtain ⟨r, hr, hl⟩ := htouch
    rw [List.mem_singleton.mp hr] at hl
    rw [List.mem_singleton.mp hl]
    exact hvid
  · exact h _ rfl

theorem covered_updateVenue {plan : Plan}
    (h : Q () held { s with
      venues := s.venues.map fun v => if decide (v.id = vid) then
        { v with name := plan.name, city := plan.city } else v }) :
    isolation.Covered held (updateVenue vid plan) s Q := by
  apply isolation.covered_exec hs
  · intro t _ hagree
    simp only [venueRows_stable hagree hvid, and_self]
  · intro w hw l htouch
    rw [List.mem_singleton] at hw
    subst hw
    obtain ⟨r, hr, hl⟩ := htouch
    have hid : r.id = vid := by simpa [Edit.rows, Edit.set] using List.of_mem_filter hr
    rw [List.mem_singleton.mp hl, hid]
    exact hvid
  · have heffect := run_set_filter s.venues (fun v => decide (v.id = vid))
      (fun v => { v with name := plan.name, city := plan.city }) fun _ => rfl
    rw [← heffect] at h
    exact h

omit hvid in
/-- Draft prices repeat the venue of their sessions. -/
theorem draftPrices_eq : draftPrices s vid = s.prices.filter fun p => p.venueId = vid &&
    s.sessions.any fun x => x.id = p.sessionId && x.venueId = vid && x.status = .draft := by
  apply List.filter_congr
  intro p hp
  cases hany : s.sessions.any fun x => x.id = p.sessionId && x.venueId = vid && x.status = .draft with
  | false => rw [Bool.and_false]
  | true =>
      obtain ⟨x, hx, hkeys⟩ := List.any_eq_true.mp hany
      obtain ⟨⟨hid, hvenue⟩, _⟩ : (x.id = p.sessionId ∧ x.venueId = vid) ∧ x.status = .draft := by
        simpa using hkeys
      rw [hs.price_venue hx hp hid.symm, hvenue, Bool.and_true, decide_eq_true rfl]

theorem draftPrices_stable {t : Catalog} (ht : t.Keyed) (hagree : isolation.AgreeOn held s t) :
    draftPrices t vid = draftPrices s vid := by
  have hsessions : ∀ p : SessionZonePrice,
      (t.sessions.any fun x => x.id = p.sessionId && x.venueId = vid && x.status = .draft) =
        s.sessions.any fun x => x.id = p.sessionId && x.venueId = vid && x.status = .draft := by
    intro p
    exact any_stable (hagree _ hvid).sessions fun x hx => by
      have hx : (x.id = p.sessionId ∧ x.venueId = vid) ∧ x.status = .draft := by simpa using hx
      simp [Guarded.locks, hx.1.2]
  rw [draftPrices_eq hs, draftPrices_eq ht]
  simp only [hsessions]
  exact (filter_congr (hagree _ hvid).prices fun p hp => by
    rw [Bool.and_eq_true, decide_eq_true_eq] at hp
    simp [Guarded.locks, hp.1]).symm

theorem covered_deleteDraftPrices {Q : Bool → List Lock → Catalog → Prop}
    (h : ∀ reset, Q reset held { s with
      prices := s.prices.filter fun p => !s.sessions.any fun x =>
        x.id = p.sessionId && x.venueId = vid && x.status = .draft }) :
    isolation.Covered held (deleteDraftPrices vid) s Q := by
  apply isolation.covered_exec hs
  · intro t ht hagree
    rw [draftPrices_stable hs hvid ht hagree]
    exact ⟨rfl, rfl⟩
  · intro w hw l htouch
    rw [List.mem_singleton] at hw
    subst hw
    obtain ⟨p, hp, hl⟩ := htouch
    have hp : p ∈ draftPrices s vid := hp
    rw [draftPrices_eq hs] at hp
    obtain ⟨_, hvenue, _⟩ := by simpa using hp
    rw [List.mem_singleton.mp hl, hvenue]
    exact hvid
  · have heffect := run_delete_filter s.prices fun p => s.sessions.any fun x =>
      x.id = p.sessionId && x.venueId = vid && x.status = .draft
    rw [← heffect] at h
    exact h _

theorem covered_deleteSeats
    (h : Q () held { s with seats := s.seats.filter fun r => !(r.venueId = vid) }) :
    isolation.Covered held (deleteSeats vid) s Q := by
  apply isolation.covered_exec hs
  · intro t _ hagree
    rw [venueSeats_stable hagree hvid]
    exact ⟨rfl, rfl⟩
  · intro w hw l htouch
    rw [List.mem_singleton] at hw
    subst hw
    obtain ⟨r, hr, hl⟩ := htouch
    have hr : r ∈ venueSeats s vid := hr
    obtain ⟨_, hvenue⟩ : r ∈ s.seats ∧ r.venueId = vid := by simpa [venueSeats] using hr
    rw [List.mem_singleton.mp hl, hvenue]
    exact hvid
  · have heffect := run_delete_filter s.seats fun r => decide (r.venueId = vid)
    rw [← heffect] at h
    exact h

omit hs hvid in
theorem cascaded_venue {rows : List VenueZone} (hrows : ∀ z ∈ rows, z.venueId = vid)
    {p : SessionZonePrice}
    (hp : (rows.any fun z => z.id = p.zoneId && z.venueId = p.venueId) = true) :
    p.venueId = vid := by
  obtain ⟨z, hz, hkeys⟩ := List.any_eq_true.mp hp
  have hkeys : z.id = p.zoneId ∧ z.venueId = p.venueId := by simpa using hkeys
  rw [← hkeys.2]
  exact hrows z hz

theorem covered_deleteZones
    (h : Q () held { s with
      zones := s.zones.filter fun z => !(z.venueId = vid)
      prices := s.prices.filter fun p => !(venueZones s vid).any fun z =>
        z.id = p.zoneId && z.venueId = p.venueId }) :
    isolation.Covered held (deleteZones vid) s Q := by
  have hrows : ∀ z ∈ venueZones s vid, z.venueId = vid := by
    intro z hz
    obtain ⟨_, hvenue⟩ : z ∈ s.zones ∧ z.venueId = vid := by simpa [venueZones] using hz
    exact hvenue
  apply isolation.covered_exec hs
  · intro t _ hagree
    unfold cascadedPrices
    rw [venueZones_stable hagree hvid, filter_congr (hagree _ hvid).prices fun p hp => by
      simp [Guarded.locks, cascaded_venue hrows hp]]
    exact ⟨rfl, rfl⟩
  · intro w hw l htouch
    rcases List.mem_pair.mp hw with rfl | rfl
    · obtain ⟨z, hz, hl⟩ := htouch
      rw [List.mem_singleton.mp hl, hrows z hz]
      exact hvid
    · obtain ⟨p, hp, hl⟩ := htouch
      obtain ⟨_, hcascade⟩ := List.mem_filter.mp (show p ∈ cascadedPrices s vid from hp)
      rw [List.mem_singleton.mp hl, cascaded_venue hrows hcascade]
      exact hvid
  · have hzones := run_delete_filter s.zones fun z => decide (z.venueId = vid)
    have hprices := run_delete_filter s.prices fun p => (venueZones s vid).any fun z =>
      z.id = p.zoneId && z.venueId = p.venueId
    rw [← hzones, ← hprices] at h
    exact h

theorem covered_insertUnique {α : Type} {unique : Catalog → Bool} {write : Write} {result : α}
    {Q : α → List Lock → Catalog → Prop}
    (hunique : ∀ t, isolation.AgreeOn held s t → unique t = unique s)
    (htouches : ∀ l, write.Touches l → l = .venue vid)
    (h : Q result held (write.apply s)) :
    isolation.Covered held (insertUnique unique write result) s Q := by
  refine ⟨hs, fun t _ hagree => ?_, fun w hw l htouch => ?_, ?_⟩
  · dsimp only
    rw [hunique t hagree]
    exact ⟨rfl, rfl⟩
  · dsimp only at hw
    split at hw
    · rw [List.mem_singleton] at hw
      subst hw
      rw [htouches l htouch]
      exact hvid
    · cases hw
  · dsimp only
    split
    · exact h
    · trivial

theorem covered_insertZones {zones : List (String × ZonePlan)}
    (hrows : ∀ z ∈ zoneRows vid zones, z.venueId = vid)
    (h : Q () held { s with zones := s.zones ++ zoneRows vid zones }) :
    isolation.Covered held (insertZones vid zones) s Q := by
  refine covered_insertUnique hs hvid (fun t hagree => ?_) (fun l htouch => ?_) h
  · rw [venueZones_stable hagree hvid]
  · obtain ⟨z, hz, hl⟩ := htouch
    rw [List.mem_singleton.mp hl, hrows z hz]

theorem covered_insertSeats {zones : List (String × ZonePlan)}
    {Q : ℕ → List Lock → Catalog → Prop} (hrows : ∀ r ∈ seatRows vid zones, r.venueId = vid)
    (h : Q (seatRows vid zones).length held { s with seats := s.seats ++ seatRows vid zones }) :
    isolation.Covered held (insertSeats vid zones) s Q := by
  refine covered_insertUnique hs hvid (fun t hagree => ?_) (fun l htouch => ?_) h
  · rw [venueSeats_stable hagree hvid]
  · obtain ⟨r, hr, hl⟩ := htouch
    rw [List.mem_singleton.mp hl, hrows r hr]

end Plans

/-! ## Inventory -/

section Inventory

variable {eid : String} (hs : s.Keyed) (heid : .event eid ∈ held)
  (hvenues : ∀ x ∈ eventSessions s eid, .venue x.venueId ∈ held)

include hs heid hvenues

omit hs hvenues in
theorem draftSessions_stable {t : Catalog} (hagree : isolation.AgreeOn held s t) :
    (t.sessions.filter fun x => x.eventId = eid && x.status = .draft) =
      s.sessions.filter fun x => x.eventId = eid && x.status = .draft :=
  (filter_congr (hagree _ heid).sessions fun x hx => by
    have hx : x.eventId = eid ∧ x.status = .draft := by simpa using hx
    simp [Guarded.locks, hx.1]).symm

omit hs in
theorem inventoryRows_stable {t : Catalog} (hagree : isolation.AgreeOn held s t) :
    inventoryRows t eid = inventoryRows s eid := by
  unfold inventoryRows
  rw [draftSessions_stable heid hagree]
  apply List.flatMap_congr
  intro x hx
  obtain ⟨hx, hevent, _⟩ : x ∈ s.sessions ∧ x.eventId = eid ∧ x.status = .draft := by
    simpa using hx
  have hvid := hvenues x (List.mem_filter.mpr ⟨hx, decide_eq_true hevent⟩)
  have hprices := filter_congr (hagree _ hvid).prices
    (p := fun p => decide (p.sessionId = x.id) && decide (p.venueId = x.venueId)) fun p hp => by
      have hp : p.sessionId = x.id ∧ p.venueId = x.venueId := by simpa using hp
      simp [Guarded.locks, hp.2]
  rw [← hprices]
  apply List.flatMap_congr
  intro p _
  rw [filter_congr (hagree _ hvid).seats fun r hr => by
    have hr : r.zoneId = p.zoneId ∧ r.venueId = x.venueId := by simpa using hr
    simp [Guarded.locks, hr.2]]

omit hs heid hvenues in
theorem mem_inventoryRows {row : SessionSeat} : row ∈ inventoryRows s eid ↔
    ∃ x ∈ s.sessions, (x.eventId = eid ∧ x.status = .draft) ∧
      ∃ p ∈ s.prices, (p.sessionId = x.id ∧ p.venueId = x.venueId) ∧
        ∃ r ∈ s.seats, (r.zoneId = p.zoneId ∧ r.venueId = x.venueId) ∧
          inventoryRow x p r = row := by
  simp [inventoryRows, and_assoc]

theorem covered_insertInventory {Q : ℕ → List Lock → Catalog → Prop}
    (h : Q (inventoryRows s eid).length held
      { s with inventory := s.inventory ++ inventoryRows s eid }) :
    isolation.Covered held (insertInventory eid) s Q := by
  apply isolation.covered_exec hs
  · intro t _ hagree
    rw [inventoryRows_stable heid hvenues hagree]
    exact ⟨rfl, rfl⟩
  · intro w hw l htouch
    rw [List.mem_singleton] at hw
    subst hw
    obtain ⟨row, hrow, hl⟩ := htouch
    obtain ⟨x, hx, ⟨hevent, _⟩, p, _, _, r, _, _, rfl⟩ := mem_inventoryRows.mp hrow
    rw [List.mem_singleton.mp hl]
    exact hvenues x (List.mem_filter.mpr ⟨hx, decide_eq_true hevent⟩)
  · exact h

theorem covered_sessionsOnSale
    (h : Q () held { s with
      sessions := s.sessions.map fun x => if decide (x.eventId = eid) && decide (x.status = .draft)
        then { x with status := .onSale } else x }) :
    isolation.Covered held (sessionsOnSale eid) s Q := by
  apply isolation.covered_exec hs
  · intro t _ hagree
    simp only [draftSessions_stable heid hagree, and_self]
  · intro w hw l htouch
    rw [List.mem_singleton] at hw
    subst hw
    obtain ⟨x, hx, hl⟩ := htouch
    have hx : x ∈ s.sessions.filter fun x => x.eventId = eid && x.status = .draft := hx
    obtain ⟨hx, hevent, _⟩ : x ∈ s.sessions ∧ x.eventId = eid ∧ x.status = .draft := by
      simpa using hx
    rcases List.mem_pair.mp hl with rfl | rfl
    · rw [hevent]
      exact heid
    · exact hvenues x (List.mem_filter.mpr ⟨hx, decide_eq_true hevent⟩)
  · have heffect := run_set_filter s.sessions
      (fun x => decide (x.eventId = eid) && decide (x.status = .draft))
      (fun x => { x with status := .onSale }) fun _ => rfl
    rw [← heffect] at h
    exact h

end Inventory
end Statements

end Ticketing.Admin
