import Ticketing.Library.GuardedRows
import Ticketing.Library.ReadCommitted
import Ticketing.Schema

/-!
# The administrators' tables

Venues with their seat plans, events with their sessions and zone prices, and the inventory that
publishing makes of them. Administrators lock event and venue rows: an event's lock covers the
event and its sessions, a venue's lock the venue with its plan and everything that repeats the
venue's id.
-/

namespace Ticketing.Admin

open GuardedRows ReadCommitted

/-! ## Rows -/

structure Venue where
  id : String
  name : String
  city : String
  deriving DecidableEq, Repr

structure VenueZone where
  id : String
  venueId : String
  code : String
  name : String
  sortOrder : ℕ
  deriving DecidableEq, Repr

structure Seat where
  id : String
  venueId : String
  zoneId : String
  rowNo : String
  seatNo : ℕ
  seatLabel : String
  deriving DecidableEq, Repr

inductive EventStatus where
  | draft | onSale | comingSoon
  deriving DecidableEq, Repr

structure Event where
  id : String
  primaryVenueId : String
  name : String
  description : String
  category : String
  coverUrl : String
  dateRange : String
  status : EventStatus
  salesStartsAt : Time
  salesEndsAt : Time
  publishedAt : Option Time
  publishedBy : Option String
  deriving DecidableEq, Repr

inductive SessionStatus where
  | draft | onSale | soldOut
  deriving DecidableEq, Repr

structure Session where
  id : String
  eventId : String
  venueId : String
  hallName : String
  startTime : Time
  gateTime : Time
  status : SessionStatus
  deriving DecidableEq, Repr

structure SessionZonePrice where
  sessionId : String
  zoneId : String
  venueId : String
  price : ℤ
  deriving DecidableEq, Repr

structure SessionSeat where
  id : String
  sessionId : String
  seatId : String
  venueId : String
  status : SeatStatus
  price : ℤ
  currentReservationId : Option String
  deriving DecidableEq, Repr

structure Catalog where
  venues : List Venue
  zones : List VenueZone
  seats : List Seat
  events : List Event
  sessions : List Session
  prices : List SessionZonePrice
  inventory : List SessionSeat

def Catalog.empty : Catalog := ⟨[], [], [], [], [], [], []⟩

/-! ## Locks -/

/-- The rows that `SELECT .. FOR UPDATE` locks. -/
inductive Lock where
  | event (id : String)
  | venue (id : String)
  deriving DecidableEq, Repr

instance : Guarded Venue Lock := ⟨fun r => [.venue r.id]⟩
instance : Guarded VenueZone Lock := ⟨fun r => [.venue r.venueId]⟩
instance : Guarded Seat Lock := ⟨fun r => [.venue r.venueId]⟩
instance : Guarded Event Lock := ⟨fun r => [.event r.id]⟩
instance : Guarded Session Lock := ⟨fun r => [.event r.eventId, .venue r.venueId]⟩
instance : Guarded SessionZonePrice Lock := ⟨fun r => [.venue r.venueId]⟩
instance : Guarded SessionSeat Lock := ⟨fun r => [.venue r.venueId]⟩

/-! ## Writes -/

inductive Write where
  | venues (e : Edit Venue)
  | zones (e : Edit VenueZone)
  | seats (e : Edit Seat)
  | events (e : Edit Event)
  | sessions (e : Edit Session)
  | prices (e : Edit SessionZonePrice)
  | inventory (e : Edit SessionSeat)

def Write.apply : Write → Catalog → Catalog
  | .venues e, s => { s with venues := e.run s.venues }
  | .zones e, s => { s with zones := e.run s.zones }
  | .seats e, s => { s with seats := e.run s.seats }
  | .events e, s => { s with events := e.run s.events }
  | .sessions e, s => { s with sessions := e.run s.sessions }
  | .prices e, s => { s with prices := e.run s.prices }
  | .inventory e, s => { s with inventory := e.run s.inventory }

def Write.Touches (l : Lock) : Write → Prop
  | .venues e => e.Touches l
  | .zones e => e.Touches l
  | .seats e => e.Touches l
  | .events e => e.Touches l
  | .sessions e => e.Touches l
  | .prices e => e.Touches l
  | .inventory e => e.Touches l

def Catalog.present (s : Catalog) : Lock → Bool
  | .event id => s.events.any fun e => e.id = id
  | .venue id => s.venues.any fun v => v.id = id

def store : Store Catalog Write Lock where
  apply := Write.apply
  present l s := s.present l

/-! ## Isolation -/

/-- The rows under a lock are the same. -/
structure Catalog.Agree (l : Lock) (s t : Catalog) : Prop where
  venues : under l s.venues = under l t.venues
  zones : under l s.zones = under l t.zones
  seats : under l s.seats = under l t.seats
  events : under l s.events = under l t.events
  sessions : under l s.sessions = under l t.sessions
  prices : under l s.prices = under l t.prices
  inventory : under l s.inventory = under l t.inventory

/-- Unique and foreign keys of the schema that hold at every statement. -/
structure Catalog.Keyed (s : Catalog) : Prop where
  sessionIds : (s.sessions.map Session.id).Nodup
  zoneIds : (s.zones.map VenueZone.id).Nodup
  zoneVenue : ∀ z ∈ s.zones, ∃ v ∈ s.venues, v.id = z.venueId
  sessionVenue : ∀ x ∈ s.sessions, ∃ v ∈ s.venues, v.id = x.venueId
  eventVenue : ∀ e ∈ s.events, ∃ v ∈ s.venues, v.id = e.primaryVenueId
  priceSession : ∀ p ∈ s.prices, ∃ x ∈ s.sessions, x.id = p.sessionId ∧ x.venueId = p.venueId
  priceZone : ∀ p ∈ s.prices, ∃ z ∈ s.zones, z.id = p.zoneId ∧ z.venueId = p.venueId

theorem agree_apply {l : Lock} {s t : Catalog} (w : Write) (h : s.Agree l t) :
    (w.apply s).Agree l (w.apply t) := by
  obtain ⟨hvenues, hzones, hseats, hevents, hsessions, hprices, hinventory⟩ := h
  cases w with
  | venues e => exact ⟨under_run_congr e hvenues, hzones, hseats, hevents, hsessions, hprices, hinventory⟩
  | zones e => exact ⟨hvenues, under_run_congr e hzones, hseats, hevents, hsessions, hprices, hinventory⟩
  | seats e => exact ⟨hvenues, hzones, under_run_congr e hseats, hevents, hsessions, hprices, hinventory⟩
  | events e => exact ⟨hvenues, hzones, hseats, under_run_congr e hevents, hsessions, hprices, hinventory⟩
  | sessions e => exact ⟨hvenues, hzones, hseats, hevents, under_run_congr e hsessions, hprices, hinventory⟩
  | prices e => exact ⟨hvenues, hzones, hseats, hevents, hsessions, under_run_congr e hprices, hinventory⟩
  | inventory e => exact ⟨hvenues, hzones, hseats, hevents, hsessions, hprices, under_run_congr e hinventory⟩

theorem agree_refl (l : Lock) (s : Catalog) : s.Agree l s := ⟨rfl, rfl, rfl, rfl, rfl, rfl, rfl⟩

theorem agree_trans {l : Lock} {s t u : Catalog} (h : s.Agree l t) (h' : t.Agree l u) :
    s.Agree l u :=
  ⟨h.venues.trans h'.venues, h.zones.trans h'.zones, h.seats.trans h'.seats,
    h.events.trans h'.events, h.sessions.trans h'.sessions, h.prices.trans h'.prices,
    h.inventory.trans h'.inventory⟩

theorem agree_untouched {l : Lock} {w : Write} (s : Catalog) (h : ¬w.Touches l) :
    s.Agree l (w.apply s) := by
  cases w with
  | venues e => exact { agree_refl l s with venues := (under_run_untouched e h _).symm }
  | zones e => exact { agree_refl l s with zones := (under_run_untouched e h _).symm }
  | seats e => exact { agree_refl l s with seats := (under_run_untouched e h _).symm }
  | events e => exact { agree_refl l s with events := (under_run_untouched e h _).symm }
  | sessions e => exact { agree_refl l s with sessions := (under_run_untouched e h _).symm }
  | prices e => exact { agree_refl l s with prices := (under_run_untouched e h _).symm }
  | inventory e => exact { agree_refl l s with inventory := (under_run_untouched e h _).symm }

theorem mem_of_under {ρ : Type} [Guarded ρ Lock] {l : Lock} {table table' : List ρ}
    (h : under l table = under l table') {r : ρ} (hl : l ∈ Guarded.locks r) :
    r ∈ table ↔ r ∈ table' := by
  have hiff : r ∈ under l table ↔ r ∈ under l table' := by rw [h]
  simpa [mem_under, hl] using hiff

theorem agree_present {l : Lock} {s t : Catalog} (h : s.Agree l t) (hs : s.present l = true) :
    t.present l = true := by
  cases l with
  | event id =>
      obtain ⟨e, he, hid⟩ := List.any_eq_true.mp hs
      rw [decide_eq_true_eq] at hid
      have hlock : Lock.event id ∈ Guarded.locks e := by simp [Guarded.locks, hid]
      exact List.any_eq_true.mpr ⟨e, (mem_of_under h.events hlock).mp he, by simpa using hid⟩
  | venue id =>
      obtain ⟨v, hv, hid⟩ := List.any_eq_true.mp hs
      rw [decide_eq_true_eq] at hid
      have hlock : Lock.venue id ∈ Guarded.locks v := by simp [Guarded.locks, hid]
      exact List.any_eq_true.mpr ⟨v, (mem_of_under h.venues hlock).mp hv, by simpa using hid⟩

def isolation : Isolation store where
  Agree l s t := s.Agree l t
  Touches w l := w.Touches l
  Sound := Catalog.Keyed
  agree_refl := agree_refl
  agree_trans := agree_trans
  agree_apply := agree_apply
  untouched := agree_untouched
  agree_present := agree_present

end Ticketing.Admin
