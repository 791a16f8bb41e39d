import Ticketing.AdminReads

/-!
# What each statement of an administrator does to the catalogue

The catalogue stays consistent: beside the keys that hold at every statement, the sessions of a
draft are at the venue of the draft and no draft has inventory. What a statement keeps concerns
the events that are no drafts any more, with their sessions and inventory, and the plans of
venues that have inventory.
-/

namespace Ticketing.Admin

open GuardedRows ReadCommitted

structure Catalog.Consistent (s : Catalog) : Prop extends s.Keyed where
  eventIds : (s.events.map Event.id).Nodup
  sessionEvent : ∀ x ∈ s.sessions, ∃ e ∈ s.events, e.id = x.eventId
  draftVenue : ∀ x ∈ s.sessions, ∀ e ∈ s.events, e.id = x.eventId → e.status = .draft →
    x.venueId = e.primaryVenueId
  seatZone : ∀ r ∈ s.seats, ∃ z ∈ s.zones, z.id = r.zoneId ∧ z.venueId = r.venueId
  seatIds : (s.seats.map fun r => (r.id, r.venueId)).Nodup
  priceKeys : (s.prices.map fun p => (p.sessionId, p.zoneId)).Nodup
  inventorySession : ∀ r ∈ s.inventory, ∃ x ∈ s.sessions, x.id = r.sessionId ∧
    x.venueId = r.venueId ∧ ∀ e ∈ s.events, e.id = x.eventId → e.status ≠ .draft

def sessionRows (s : Catalog) (sid : String) : List SessionSeat :=
  s.inventory.filter fun r => r.sessionId = sid

structure Catalog.Keeps (s t : Catalog) : Prop where
  listed : ∀ e ∈ s.events, e.status ≠ .draft → ∃ e' ∈ t.events, e'.id = e.id ∧ e'.status = e.status
  sessions : ∀ e ∈ s.events, e.status ≠ .draft → eventSessions t e.id = eventSessions s e.id
  inventory : ∀ e ∈ s.events, e.status ≠ .draft → ∀ x ∈ eventSessions s e.id,
    sessionRows t x.id = sessionRows s x.id
  plan : ∀ vid, frozen s vid = true → frozen t vid = true ∧ venueZones t vid = venueZones s vid ∧
    venueSeats t vid = venueSeats s vid

theorem Catalog.Keeps.refl (s : Catalog) : s.Keeps s where
  listed e he _ := ⟨e, he, rfl, rfl⟩
  sessions _ _ _ := rfl
  inventory _ _ _ _ _ := rfl
  plan _ h := ⟨h, rfl, rfl⟩

theorem Catalog.Keeps.trans {s t u : Catalog} (h : s.Keeps t) (h' : t.Keeps u) : s.Keeps u where
  listed e he hstatus := by
    obtain ⟨e₁, he₁, hid₁, hst₁⟩ := h.listed e he hstatus
    obtain ⟨e₂, he₂, hid₂, hst₂⟩ := h'.listed e₁ he₁ (hst₁ ▸ hstatus)
    exact ⟨e₂, he₂, hid₂.trans hid₁, hst₂.trans hst₁⟩
  sessions e he hstatus := by
    obtain ⟨e₁, he₁, hid₁, hst₁⟩ := h.listed e he hstatus
    have hnext := h'.sessions e₁ he₁ (hst₁ ▸ hstatus)
    rw [hid₁] at hnext
    rw [hnext, h.sessions e he hstatus]
  inventory e he hstatus x hx := by
    obtain ⟨e₁, he₁, hid₁, hst₁⟩ := h.listed e he hstatus
    have hx₁ : x ∈ eventSessions t e₁.id := by
      rw [hid₁, h.sessions e he hstatus]
      exact hx
    rw [h'.inventory e₁ he₁ (hst₁ ▸ hstatus) x hx₁, h.inventory e he hstatus x hx]
  plan vid hvid := by
    obtain ⟨hfrozen, hzones, hseats⟩ := h.plan vid hvid
    obtain ⟨hfrozen', hzones', hseats'⟩ := h'.plan vid hfrozen
    exact ⟨hfrozen', hzones'.trans hzones, hseats'.trans hseats⟩

/-- From one consistent catalogue to another, with no new ids but the given ones. -/
structure Catalog.Moves (ids : List String) (s t : Catalog) : Prop where
  consistent : t.Consistent
  ids : ∀ x, occurs x s = false → x ∉ ids → occurs x t = false
  keeps : s.Keeps t

theorem Catalog.Moves.refl {s : Catalog} (ids : List String) (h : s.Consistent) : s.Moves ids s :=
  ⟨h, fun _ hx _ => hx, .refl s⟩

theorem Catalog.Moves.trans {ids : List String} {s t u : Catalog} (h : s.Moves ids t)
    (h' : t.Moves ids u) : s.Moves ids u :=
  ⟨h'.consistent, fun x hx hnew => h'.ids x (h.ids x hx hnew) hnew, h.keeps.trans h'.keeps⟩

theorem Catalog.Moves.mono {ids : List String} {s t : Catalog} (h : s.Moves [] t) :
    s.Moves ids t :=
  ⟨h.consistent, fun x hx _ => h.ids x hx List.not_mem_nil, h.keeps⟩

theorem occurs_false {x : String} {s : Catalog} : occurs x s = false ↔
    (∀ v ∈ s.venues, v.id ≠ x) ∧ (∀ z ∈ s.zones, z.id ≠ x) ∧ (∀ e ∈ s.events, e.id ≠ x) ∧
      ∀ y ∈ s.sessions, y.id ≠ x := by
  simp [occurs, and_assoc]

section Statements

variable {ids : List String} {s : Catalog} (h : s.Consistent)

include h

/-- The event of a draft is no event that has left its draft. -/
theorem ne_of_draft {e : Event} (he : e ∈ s.events) (hdraft : e.status = .draft) :
    ∀ e' ∈ s.events, e'.status ≠ .draft → e'.id ≠ e.id := by
  intro e' he' hstatus hid
  have heq := eq_of_key h.eventIds he' he hid
  exact hstatus (heq ▸ hdraft)

theorem eventSessions_of_draft {e : Event} (he : e ∈ s.events) (hdraft : e.status = .draft) :
    ∀ x ∈ eventSessions s e.id, x.venueId = e.primaryVenueId := by
  intro x hx
  obtain ⟨hx, hid⟩ : x ∈ s.sessions ∧ x.eventId = e.id := by simpa [eventSessions] using hx
  exact h.draftVenue x hx e he hid.symm hdraft

/-! ## Events -/

theorem moves_events {g : Event → Event} (hid : ∀ e, (g e).id = e.id)
    (hstatus : ∀ e, (g e).status = e.status)
    (hvenue : ∀ e ∈ s.events, ∃ v ∈ s.venues, v.id = (g e).primaryVenueId)
    (hdraft : ∀ e ∈ s.events, e.status = .draft → ∀ x ∈ s.sessions, x.eventId = e.id →
      x.venueId = (g e).primaryVenueId) :
    s.Moves ids { s with events := s.events.map g } where
  consistent := { h with
    eventVenue := by
      intro e' he'
      obtain ⟨e, he, rfl⟩ := List.mem_map.mp he'
      exact hvenue e he
    eventIds := by
      have hkeys : (s.events.map g).map Event.id = s.events.map Event.id := by
        rw [List.map_map]
        exact List.map_congr_left fun e _ => hid e
      rw [hkeys]
      exact h.eventIds
    sessionEvent := by
      intro x hx
      obtain ⟨e, he, heid⟩ := h.sessionEvent x hx
      exact ⟨g e, List.mem_map_of_mem he, (hid e).trans heid⟩
    draftVenue := by
      intro x hx e' he' heid hst
      obtain ⟨e, he, rfl⟩ := List.mem_map.mp he'
      rw [hid] at heid
      rw [hstatus] at hst
      exact hdraft e he hst x hx heid.symm
    inventorySession := by
      intro r hr
      obtain ⟨x, hx, hxid, hxvenue, hnot⟩ := h.inventorySession r hr
      refine ⟨x, hx, hxid, hxvenue, fun e' he' heid => ?_⟩
      obtain ⟨e, he, rfl⟩ := List.mem_map.mp he'
      rw [hid] at heid
      rw [hstatus]
      exact hnot e he heid }
  ids := by
    intro x hx _
    rw [occurs_false] at hx ⊢
    refine ⟨hx.1, hx.2.1, fun e' he' => ?_, hx.2.2.2⟩
    obtain ⟨e, he, rfl⟩ := List.mem_map.mp he'
    rw [hid]
    exact hx.2.2.1 e he
  keeps := { Catalog.Keeps.refl s with
    listed := fun e he _ => ⟨g e, List.mem_map_of_mem he, hid e, hstatus e⟩ }

theorem moves_newEvent {e : Event} (hnew : e.id ∈ ids) (hfresh : occurs e.id s = false)
    (hvenue : ∃ v ∈ s.venues, v.id = e.primaryVenueId) :
    s.Moves ids { s with events := s.events ++ [e] } where
  consistent := { h with
    eventVenue := by
      intro e' he'
      rcases List.mem_append.mp he' with hold | hlast
      · exact h.eventVenue e' hold
      · rw [List.mem_singleton] at hlast
        exact hlast ▸ hvenue
    eventIds := by
      have hnot : e.id ∉ s.events.map Event.id := by
        intro hmem
        obtain ⟨e', he', hid⟩ := List.mem_map.mp hmem
        exact (occurs_false.mp hfresh).2.2.1 e' he' hid
      simpa [List.nodup_append, h.eventIds] using hnot
    sessionEvent := by
      intro x hx
      obtain ⟨e', he', hid⟩ := h.sessionEvent x hx
      exact ⟨e', List.mem_append_left _ he', hid⟩
    draftVenue := by
      intro x hx e' he' hid hst
      rcases List.mem_append.mp he' with hold | hlast
      · exact h.draftVenue x hx e' hold hid hst
      · rw [List.mem_singleton] at hlast
        subst hlast
        obtain ⟨e'', he'', hid'⟩ := h.sessionEvent x hx
        exact absurd (hid'.trans hid.symm) ((occurs_false.mp hfresh).2.2.1 e'' he'')
    inventorySession := by
      intro r hr
      obtain ⟨x, hx, hxid, hxvenue, hnot⟩ := h.inventorySession r hr
      refine ⟨x, hx, hxid, hxvenue, fun e' he' hid => ?_⟩
      rcases List.mem_append.mp he' with hold | hlast
      · exact hnot e' hold hid
      · rw [List.mem_singleton] at hlast
        subst hlast
        obtain ⟨e'', he'', hid'⟩ := h.sessionEvent x hx
        exact absurd (hid'.trans hid.symm) ((occurs_false.mp hfresh).2.2.1 e'' he'') }
  ids := by
    intro x hx hnot
    rw [occurs_false] at hx ⊢
    refine ⟨hx.1, hx.2.1, fun e' he' => ?_, hx.2.2.2⟩
    rcases List.mem_append.mp he' with hold | hlast
    · exact hx.2.2.1 e' hold
    · rw [List.mem_singleton] at hlast
      subst hlast
      exact fun heq => hnot (heq ▸ hnew)
  keeps := { Catalog.Keeps.refl s with
    listed := fun e' he' _ => ⟨e', List.mem_append_left _ he', rfl, rfl⟩ }

/-! ## Sessions of a draft -/

theorem moves_sessions {g : Session → Session} (hid : ∀ x, (g x).id = x.id)
    (hevent : ∀ x, (g x).eventId = x.eventId) (hvenue : ∀ x, (g x).venueId = x.venueId)
    (hdraft : ∀ x ∈ s.sessions, g x ≠ x →
      ∃ e ∈ s.events, e.id = x.eventId ∧ e.status = .draft) :
    s.Moves ids { s with sessions := s.sessions.map g } where
  consistent := { h with
    sessionIds := by
      have hkeys : (s.sessions.map g).map Session.id = s.sessions.map Session.id := by
        rw [List.map_map]
        exact List.map_congr_left fun x _ => hid x
      rw [hkeys]
      exact h.sessionIds
    sessionVenue := by
      intro x' hx'
      obtain ⟨x, hx, rfl⟩ := List.mem_map.mp hx'
      rw [hvenue]
      exact h.sessionVenue x hx
    priceSession := by
      intro p hp
      obtain ⟨x, hx, hxid, hxvenue⟩ := h.priceSession p hp
      exact ⟨g x, List.mem_map_of_mem hx, (hid x).trans hxid, (hvenue x).trans hxvenue⟩
    sessionEvent := by
      intro x' hx'
      obtain ⟨x, hx, rfl⟩ := List.mem_map.mp hx'
      rw [hevent]
      exact h.sessionEvent x hx
    draftVenue := by
      intro x' hx'
      obtain ⟨x, hx, rfl⟩ := List.mem_map.mp hx'
      rw [hevent, hvenue]
      exact h.draftVenue x hx
    inventorySession := by
      intro r hr
      obtain ⟨x, hx, hxid, hxvenue, hnot⟩ := h.inventorySession r hr
      refine ⟨g x, List.mem_map_of_mem hx, (hid x).trans hxid, (hvenue x).trans hxvenue, ?_⟩
      rw [hevent]
      exact hnot }
  ids := by
    intro x hx _
    rw [occurs_false] at hx ⊢
    refine ⟨hx.1, hx.2.1, hx.2.2.1, fun y' hy' => ?_⟩
    obtain ⟨y, hy, rfl⟩ := List.mem_map.mp hy'
    rw [hid]
    exact hx.2.2.2 y hy
  keeps := { Catalog.Keeps.refl s with
    sessions := by
      intro e he hstatus
      unfold eventSessions
      rw [List.filter_map]
      have hsame : ∀ x ∈ s.sessions.filter fun x => x.eventId = e.id, g x = x := by
        intro x hx
        obtain ⟨hx, hxe⟩ : x ∈ s.sessions ∧ x.eventId = e.id := by simpa using hx
        by_contra hne
        obtain ⟨e', he', hid', hst'⟩ := hdraft x hx hne
        exact ne_of_draft h he' hst' e he hstatus (hxe.symm.trans hid'.symm)
      have hcomp : (fun x => decide (x.eventId = e.id)) ∘ g = fun x => decide (x.eventId = e.id) :=
        funext fun x => by simp [hevent]
      rw [hcomp]
      exact (List.map_congr_left hsame).trans (List.map_id _) }

theorem moves_newSession {x : Session} (hnew : x.id ∈ ids) (hfresh : occurs x.id s = false)
    {e : Event} (he : e ∈ s.events) (heid : x.eventId = e.id) (hdraft : e.status = .draft)
    (hvenue : x.venueId = e.primaryVenueId) :
    s.Moves ids { s with sessions := s.sessions ++ [x] } where
  consistent := { h with
    sessionIds := by
      have hnot : x.id ∉ s.sessions.map Session.id := by
        intro hmem
        obtain ⟨y, hy, hid⟩ := List.mem_map.mp hmem
        exact (occurs_false.mp hfresh).2.2.2 y hy hid
      simpa [List.nodup_append, h.sessionIds] using hnot
    sessionVenue := by
      intro y hy
      rcases List.mem_append.mp hy with hold | hlast
      · exact h.sessionVenue y hold
      · rw [List.mem_singleton] at hlast
        subst hlast
        rw [hvenue]
        exact h.eventVenue e he
    priceSession := by
      intro p hp
      obtain ⟨y, hy, hyid⟩ := h.priceSession p hp
      exact ⟨y, List.mem_append_left _ hy, hyid⟩
    sessionEvent := by
      intro y hy
      rcases List.mem_append.mp hy with hold | hlast
      · exact h.sessionEvent y hold
      · rw [List.mem_singleton] at hlast
        exact ⟨e, he, by rw [hlast, heid]⟩
    draftVenue := by
      intro y hy e' he' hid hst
      rcases List.mem_append.mp hy with hold | hlast
      · exact h.draftVenue y hold e' he' hid hst
      · rw [List.mem_singleton] at hlast
        subst hlast
        rw [eq_of_key h.eventIds he' he (hid.trans heid)]
        exact hvenue
    inventorySession := by
      intro r hr
      obtain ⟨y, hy, hyid⟩ := h.inventorySession r hr
      exact ⟨y, List.mem_append_left _ hy, hyid⟩ }
  ids := by
    intro id hid hnot
    rw [occurs_false] at hid ⊢
    refine ⟨hid.1, hid.2.1, hid.2.2.1, fun y hy => ?_⟩
    rcases List.mem_append.mp hy with hold | hlast
    · exact hid.2.2.2 y hold
    · rw [List.mem_singleton] at hlast
      subst hlast
      exact fun heq => hnot (heq ▸ hnew)
  keeps := { Catalog.Keeps.refl s with
    sessions := by
      intro e' he' hstatus
      have hne : x.eventId ≠ e'.id := by
        rw [heid]
        exact fun heq => ne_of_draft h he hdraft e' he' hstatus heq.symm
      have hnone : [x].filter (fun x => decide (x.eventId = e'.id)) = [] := by simp [hne]
      unfold eventSessions
      rw [List.filter_append, hnone, List.append_nil] }

/-! ## Prices -/

theorem moves_dropPrices (q : SessionZonePrice → Bool) :
    s.Moves ids { s with prices := s.prices.filter q } where
  consistent := { h with
    priceSession := fun p hp => h.priceSession p (List.mem_of_mem_filter hp)
    priceZone := fun p hp => h.priceZone p (List.mem_of_mem_filter hp)
    priceKeys := h.priceKeys.sublist (List.filter_sublist.map _) }
  ids := fun _ hx _ => hx
  keeps := { Catalog.Keeps.refl s with }

theorem moves_newPrices {sid vid : String} {prices : List (String × ℤ)}
    (hnone : ∀ p ∈ s.prices, p.sessionId ≠ sid)
    (hsession : ∃ x ∈ s.sessions, x.id = sid ∧ x.venueId = vid)
    (hzones : ∀ p ∈ prices, ∃ z ∈ s.zones, z.id = p.1 ∧ z.venueId = vid)
    (hkeys : (prices.map Prod.fst).Nodup) :
    s.Moves ids { s with prices := s.prices ++ priceRows sid vid prices } where
  consistent := { h with
    priceSession := by
      intro p hp
      rcases List.mem_append.mp hp with hold | hnew
      · exact h.priceSession p hold
      · obtain ⟨q, hq, rfl⟩ := List.mem_map.mp hnew
        exact hsession
    priceZone := by
      intro p hp
      rcases List.mem_append.mp hp with hold | hnew
      · exact h.priceZone p hold
      · obtain ⟨q, hq, rfl⟩ := List.mem_map.mp hnew
        exact hzones q hq
    priceKeys := by
      rw [List.map_append, List.nodup_append]
      refine ⟨h.priceKeys, ?_, ?_⟩
      · have hrows : (priceRows sid vid prices).map (fun p => (p.sessionId, p.zoneId)) =
            (prices.map Prod.fst).map (Prod.mk sid) := by
          simp [priceRows, Function.comp_def]
        rw [hrows]
        exact hkeys.map fun _ _ heq => (Prod.mk.inj heq).2
      · intro a ha b hb heq
        obtain ⟨p, hp, rfl⟩ := List.mem_map.mp ha
        obtain ⟨p', hp', rfl⟩ := List.mem_map.mp hb
        obtain ⟨q, hq, rfl⟩ := List.mem_map.mp hp'
        exact hnone p hp (Prod.mk.inj heq).1 }
  ids := fun _ hx _ => hx
  keeps := { Catalog.Keeps.refl s with }

theorem moves_deleteSession {sid eid : String} {e : Event} (he : e ∈ s.events)
    (heid : e.id = eid) (hdraft : e.status = .draft) :
    let rows := s.sessions.filter fun x => x.id = sid && x.eventId = eid
    s.Moves ids { s with
      sessions := s.sessions.filter fun x => !(x.id = sid && x.eventId = eid)
      prices := s.prices.filter fun p => !rows.any fun x =>
        x.id = p.sessionId && x.venueId = p.venueId } where
  consistent := { h with
    sessionIds := h.sessionIds.sublist (List.filter_sublist.map _)
    sessionVenue := fun x hx => h.sessionVenue x (List.mem_of_mem_filter hx)
    priceSession := by
      intro p hp
      obtain ⟨hp, hkept⟩ := List.mem_filter.mp hp
      obtain ⟨x, hx, hxid, hxvenue⟩ := h.priceSession p hp
      refine ⟨x, List.mem_filter.mpr ⟨hx, ?_⟩, hxid, hxvenue⟩
      by_contra hgone
      have hrow : x ∈ s.sessions.filter fun x => x.id = sid && x.eventId = eid :=
        List.mem_filter.mpr ⟨hx, by simpa using hgone⟩
      have hany : ((s.sessions.filter fun x => x.id = sid && x.eventId = eid).any fun x =>
          x.id = p.sessionId && x.venueId = p.venueId) = true :=
        List.any_eq_true.mpr ⟨x, hrow, by simp [hxid, hxvenue]⟩
      rw [hany] at hkept
      cases hkept
    priceZone := fun p hp => h.priceZone p (List.mem_of_mem_filter hp)
    sessionEvent := fun x hx => h.sessionEvent x (List.mem_of_mem_filter hx)
    draftVenue := fun x hx => h.draftVenue x (List.mem_of_mem_filter hx)
    priceKeys := h.priceKeys.sublist (List.filter_sublist.map _)
    inventorySession := by
      intro r hr
      obtain ⟨x, hx, hxid, hxvenue, hnot⟩ := h.inventorySession r hr
      refine ⟨x, List.mem_filter.mpr ⟨hx, ?_⟩, hxid, hxvenue, hnot⟩
      by_contra hgone
      have hkeys : x.id = sid ∧ x.eventId = eid := by simpa using hgone
      exact hnot e he (heid.trans hkeys.2.symm) hdraft }
  ids := by
    intro x hx _
    rw [occurs_false] at hx ⊢
    exact ⟨hx.1, hx.2.1, hx.2.2.1, fun y hy => hx.2.2.2 y (List.mem_of_mem_filter hy)⟩
  keeps := { Catalog.Keeps.refl s with
    sessions := by
      intro e' he' hstatus
      unfold eventSessions
      rw [List.filter_filter]
      apply List.filter_congr
      intro x hx
      by_cases hxe : x.eventId = e'.id
      · have hne : x.eventId ≠ eid := by
          rw [hxe, ← heid]
          exact ne_of_draft h he hdraft e' he' hstatus
        simp [hne]
      · simp [hxe] }

/-! ## Venues and their plans -/

theorem moves_venues {g : Venue → Venue} (hid : ∀ v, (g v).id = v.id) :
    s.Moves ids { s with venues := s.venues.map g } where
  consistent := by
    have hfound : ∀ {vid : String}, (∃ v ∈ s.venues, v.id = vid) →
        ∃ v ∈ s.venues.map g, v.id = vid := by
      rintro vid ⟨v, hv, rfl⟩
      exact ⟨g v, List.mem_map_of_mem hv, hid v⟩
    exact { h with
      zoneVenue := fun z hz => hfound (h.zoneVenue z hz)
      sessionVenue := fun x hx => hfound (h.sessionVenue x hx)
      eventVenue := fun e he => hfound (h.eventVenue e he) }
  ids := by
    intro x hx _
    rw [occurs_false] at hx ⊢
    refine ⟨fun v' hv' => ?_, hx.2⟩
    obtain ⟨v, hv, rfl⟩ := List.mem_map.mp hv'
    rw [hid]
    exact hx.1 v hv
  keeps := { Catalog.Keeps.refl s with }

theorem moves_newVenue {v : Venue} (hnew : v.id ∈ ids) :
    s.Moves ids { s with venues := s.venues ++ [v] } where
  consistent := by
    have hfound : ∀ {vid : String}, (∃ v' ∈ s.venues, v'.id = vid) →
        ∃ v' ∈ s.venues ++ [v], v'.id = vid := by
      rintro vid ⟨v', hv', rfl⟩
      exact ⟨v', List.mem_append_left _ hv', rfl⟩
    exact { h with
      zoneVenue := fun z hz => hfound (h.zoneVenue z hz)
      sessionVenue := fun x hx => hfound (h.sessionVenue x hx)
      eventVenue := fun e he => hfound (h.eventVenue e he) }
  ids := by
    intro x hx hnot
    rw [occurs_false] at hx ⊢
    refine ⟨fun v' hv' => ?_, hx.2⟩
    rcases List.mem_append.mp hv' with hold | hlast
    · exact hx.1 v' hold
    · rw [List.mem_singleton] at hlast
      subst hlast
      exact fun heq => hnot (heq ▸ hnew)
  keeps := { Catalog.Keeps.refl s with }

section Plans

variable {vid : String} (hfree : frozen s vid = false)

include hfree

omit h in
theorem ne_of_frozen {other : String} (hother : frozen s other = true) : other ≠ vid := by
  rintro rfl
  rw [hfree] at hother
  cases hother

theorem moves_dropSeats :
    s.Moves ids { s with seats := s.seats.filter fun r => !(r.venueId = vid) } where
  consistent := { h with
    seatZone := fun r hr => h.seatZone r (List.mem_of_mem_filter hr)
    seatIds := h.seatIds.sublist (List.filter_sublist.map _) }
  ids := fun _ hx _ => hx
  keeps := { Catalog.Keeps.refl s with
    plan := by
      intro other hother
      refine ⟨hother, rfl, ?_⟩
      unfold venueSeats
      rw [List.filter_filter]
      apply List.filter_congr
      intro r _
      by_cases hr : r.venueId = other
      · simp [hr, ne_of_frozen hfree hother]
      · simp [hr] }

theorem moves_dropZones (hempty : venueSeats s vid = []) :
    s.Moves ids { s with
      zones := s.zones.filter fun z => !(z.venueId = vid)
      prices := s.prices.filter fun p => !(venueZones s vid).any fun z =>
        z.id = p.zoneId && z.venueId = p.venueId } where
  consistent := { h with
    zoneIds := h.zoneIds.sublist (List.filter_sublist.map _)
    zoneVenue := fun z hz => h.zoneVenue z (List.mem_of_mem_filter hz)
    priceSession := fun p hp => h.priceSession p (List.mem_of_mem_filter hp)
    priceZone := by
      intro p hp
      obtain ⟨hp, hkept⟩ := List.mem_filter.mp hp
      obtain ⟨z, hz, hzid, hzvenue⟩ := h.priceZone p hp
      refine ⟨z, List.mem_filter.mpr ⟨hz, ?_⟩, hzid, hzvenue⟩
      by_contra hgone
      have hrow : z ∈ venueZones s vid := List.mem_filter.mpr ⟨hz, by simpa using hgone⟩
      have hany : ((venueZones s vid).any fun z =>
          z.id = p.zoneId && z.venueId = p.venueId) = true :=
        List.any_eq_true.mpr ⟨z, hrow, by simp [hzid, hzvenue]⟩
      rw [hany] at hkept
      cases hkept
    priceKeys := h.priceKeys.sublist (List.filter_sublist.map _)
    seatZone := by
      intro r hr
      obtain ⟨z, hz, hzid, hzvenue⟩ := h.seatZone r hr
      refine ⟨z, List.mem_filter.mpr ⟨hz, ?_⟩, hzid, hzvenue⟩
      by_contra hgone
      have hrow : r ∈ venueSeats s vid :=
        List.mem_filter.mpr ⟨hr, by simpa [← hzvenue] using hgone⟩
      rw [hempty] at hrow
      cases hrow }
  ids := by
    intro x hx _
    rw [occurs_false] at hx ⊢
    exact ⟨hx.1, fun z hz => hx.2.1 z (List.mem_of_mem_filter hz), hx.2.2⟩
  keeps := { Catalog.Keeps.refl s with
    plan := by
      intro other hother
      refine ⟨hother, ?_, rfl⟩
      unfold venueZones
      rw [List.filter_filter]
      apply List.filter_congr
      intro z _
      by_cases hz : z.venueId = other
      · simp [hz, ne_of_frozen hfree hother]
      · simp [hz] }

theorem moves_newZones {rows : List VenueZone} (hvenue : ∃ v ∈ s.venues, v.id = vid)
    (hvid : ∀ z ∈ rows, z.venueId = vid) (hnew : ∀ z ∈ rows, z.id ∈ ids)
    (hfresh : ∀ z ∈ rows, occurs z.id s = false) (hnodup : (rows.map VenueZone.id).Nodup) :
    s.Moves ids { s with zones := s.zones ++ rows } where
  consistent := { h with
    zoneIds := by
      rw [List.map_append, List.nodup_append]
      refine ⟨h.zoneIds, hnodup, ?_⟩
      intro a ha b hb heq
      obtain ⟨z, hz, rfl⟩ := List.mem_map.mp ha
      obtain ⟨z', hz', rfl⟩ := List.mem_map.mp hb
      exact (occurs_false.mp (hfresh z' hz')).2.1 z hz heq
    zoneVenue := by
      intro z hz
      rcases List.mem_append.mp hz with hold | hlast
      · exact h.zoneVenue z hold
      · rw [hvid z hlast]
        exact hvenue
    priceZone := by
      intro p hp
      obtain ⟨z, hz, hzid⟩ := h.priceZone p hp
      exact ⟨z, List.mem_append_left _ hz, hzid⟩
    seatZone := by
      intro r hr
      obtain ⟨z, hz, hzid⟩ := h.seatZone r hr
      exact ⟨z, List.mem_append_left _ hz, hzid⟩ }
  ids := by
    intro x hx hnot
    rw [occurs_false] at hx ⊢
    refine ⟨hx.1, fun z hz => ?_, hx.2.2⟩
    rcases List.mem_append.mp hz with hold | hlast
    · exact hx.2.1 z hold
    · exact fun heq => hnot (heq ▸ hnew z hlast)
  keeps := { Catalog.Keeps.refl s with
    plan := by
      intro other hother
      refine ⟨hother, ?_, rfl⟩
      have hnone : rows.filter (fun z => decide (z.venueId = other)) = [] := by
        rw [List.filter_eq_nil_iff]
        intro z hz
        rw [decide_eq_true_eq, hvid z hz]
        exact (ne_of_frozen hfree hother).symm
      unfold venueZones
      rw [List.filter_append, hnone, List.append_nil] }

theorem moves_newSeats {rows : List Seat} (hempty : venueSeats s vid = [])
    (hvid : ∀ r ∈ rows, r.venueId = vid)
    (hzones : ∀ r ∈ rows, ∃ z ∈ s.zones, z.id = r.zoneId ∧ z.venueId = vid)
    (hnodup : (rows.map Seat.id).Nodup) : s.Moves ids { s with seats := s.seats ++ rows } where
  consistent := { h with
    seatZone := by
      intro r hr
      rcases List.mem_append.mp hr with hold | hlast
      · exact h.seatZone r hold
      · rw [hvid r hlast]
        exact hzones r hlast
    seatIds := by
      rw [List.map_append, List.nodup_append]
      refine ⟨h.seatIds, ?_, ?_⟩
      · have hkeys : (rows.map fun r => (r.id, r.venueId)).map Prod.fst = rows.map Seat.id := by
          simp
        exact List.Nodup.of_map Prod.fst (hkeys ▸ hnodup)
      · intro a ha b hb heq
        obtain ⟨r, hr, rfl⟩ := List.mem_map.mp ha
        obtain ⟨r', hr', rfl⟩ := List.mem_map.mp hb
        have hvenue : r.venueId = vid := ((Prod.mk.inj heq).2).trans (hvid r' hr')
        have hrow : r ∈ venueSeats s vid := List.mem_filter.mpr ⟨hr, by simpa using hvenue⟩
        rw [hempty] at hrow
        cases hrow }
  ids := fun _ hx _ => hx
  keeps := { Catalog.Keeps.refl s with
    plan := by
      intro other hother
      refine ⟨hother, rfl, ?_⟩
      have hnone : rows.filter (fun r => decide (r.venueId = other)) = [] := by
        rw [List.filter_eq_nil_iff]
        intro r hr
        rw [decide_eq_true_eq, hvid r hr]
        exact (ne_of_frozen hfree hother).symm
      unfold venueSeats
      rw [List.filter_append, hnone, List.append_nil] }

end Plans
end Statements

end Ticketing.Admin
