import Ticketing.AdminStatements
import Ticketing.Library.LengthPrefix

/-!
# Administrators' jobs that do not publish

Each of them, from a consistent catalogue to its commit, reads and writes under the locks it
holds and moves the catalogue to a consistent one.
-/

namespace Ticketing.Admin

open GuardedRows ReadCommitted

/-- What of a reply does not depend on rows that others may change meanwhile. -/
inductive Disposition where
  | publishedNow | alreadyPublished | saved
  deriving DecidableEq, Repr

def Reply.disposition : Reply → Disposition
  | .publishedNow .. => .publishedNow
  | .alreadyPublished .. => .alreadyPublished
  | _ => .saved

/-! ## The event under its lock -/

/-- Two views of an event that may differ in the prices of its sessions. -/
structure SameEvent (e e' : EventView) : Prop where
  id : e.id = e'.id
  display : e.display = e'.display
  venueId : e.venueId = e'.venueId
  status : e.status = e'.status
  sessions : e.sessions.length = e'.sessions.length

theorem SameEvent.isEmpty {e e' : EventView} (h : SameEvent e e') :
    e.sessions.isEmpty = e'.sessions.isEmpty := by
  rw [Bool.eq_iff_iff, List.isEmpty_iff_length_eq_zero, List.isEmpty_iff_length_eq_zero,
    h.sessions]

/-- What an event's view says of its row and its sessions. -/
structure Views (s : Catalog) (eid : String) (e : EventView) (row : Event) : Prop where
  mem : row ∈ s.events
  rowId : row.id = eid
  id : e.id = eid
  venueId : e.venueId = row.primaryVenueId
  status : e.status = row.status
  sessions : e.sessions = (eventSessions s eid).map (sessionView s)

theorem eventView_views {s : Catalog} {eid : String} {e : EventView}
    (h : eventView s eid = some e) : ∃ row, Views s eid e row := by
  obtain ⟨row, hrow, rfl⟩ := Option.map_eq_some_iff.mp h
  have hmem := List.mem_of_mem_head? hrow
  obtain ⟨hmem, hid⟩ : row ∈ s.events ∧ row.id = eid := by simpa using hmem
  exact ⟨row, hmem, hid, hid, rfl, rfl, rfl⟩

section Rules

variable {held : List Lock} {s : Catalog}

theorem eventView_same {t : Catalog} {eid : String} (hagree : isolation.AgreeOn held s t)
    (heid : .event eid ∈ held) :
    (eventView s eid = none ∧ eventView t eid = none) ∨
      ∃ e e', eventView s eid = some e ∧ eventView t eid = some e' ∧ SameEvent e' e := by
  unfold eventView
  rw [eventRow_stable hagree heid, eventSessions_stable hagree heid]
  cases eventRow s eid with
  | none => exact .inl ⟨rfl, rfl⟩
  | some row => exact .inr ⟨_, _, rfl, rfl, rfl, rfl, rfl, rfl, by simp⟩

/-- What a transaction goes on to do with an event must not depend on the prices it read before
it locked the venue. -/
theorem covered_onEvent {eid : String} {rest : EventView → DB Reply}
    {Q : Disposition → List Lock → Catalog → Prop} (hs : s.Keyed)
    (hsame : ∀ e e', SameEvent e e' →
      (rest e).digest Reply.disposition = (rest e').digest Reply.disposition)
    (h : ∀ e, eventView s eid = some e →
      isolation.Covered (.event eid :: held) ((rest e).digest Reply.disposition) s Q) :
    isolation.Covered held ((onEvent eid rest).digest Reply.disposition) s Q := by
  intro _
  refine ⟨hs, fun t _ hagree => ⟨rfl, ?_⟩, fun _ hw => (List.not_mem_nil hw).elim, ?_⟩
  · rcases eventView_same hagree List.mem_cons_self with ⟨hnone, hnone'⟩ | ⟨e, e', he, he', hsm⟩
    · simp only [hnone, hnone']
    · simp only [he, he']
      exact hsame e' e hsm
  · show isolation.Covered (.event eid :: held)
      (((Prog.expect ⟨404, "EVENT_NOT_FOUND"⟩ (eventView s eid)).bind rest).digest
        Reply.disposition) s Q
    cases he : eventView s eid with
    | none => trivial
    | some e => exact h e he

theorem covered_underVenue {eid : String} {e : EventView} {rest : EventView → DB Reply}
    {Q : Reply → List Lock → Catalog → Prop} (hs : s.Consistent)
    (he : eventView s eid = some e) (hdraft : e.status = .draft) (heid : .event eid ∈ held)
    (h : isolation.Covered (.venue e.venueId :: held) (rest e) s Q) :
    isolation.Covered held (underVenue eid e rest) s Q := by
  obtain ⟨row, hrow⟩ := eventView_views he
  apply isolation.covered_bind
  apply covered_lockVenue
  intro _
  apply isolation.covered_bind
  apply covered_event hs.toKeyed (List.mem_cons_of_mem _ heid)
  · intro x hx
    have hvenue := eventSessions_of_draft hs hrow.mem (hrow.status ▸ hdraft) x
      (hrow.rowId.symm ▸ hx)
    rw [hvenue, ← hrow.venueId]
    exact List.mem_cons_self
  · intro e' he'
    obtain rfl := Option.some.inj (he.symm.trans he')
    exact h

theorem covered_editing {eid : String} {rest : EventView → DB Reply}
    {Q : Disposition → List Lock → Catalog → Prop} (hs : s.Keyed)
    (hsame : ∀ e e', SameEvent e e' → rest e = rest e')
    (h : ∀ e, eventView s eid = some e → e.status = .draft →
      isolation.Covered (.event eid :: held) (rest e) s fun a => Q a.disposition) :
    isolation.Covered held ((editing eid rest).digest Reply.disposition) s Q := by
  apply covered_onEvent hs
  · intro e e' hsm
    rw [hsm.status, hsame e e' hsm]
  · intro e he
    apply isolation.covered_digest
    apply isolation.covered_require
    intro hdraft
    exact h e he (by simpa using hdraft)

end Rules

/-! ## Jobs on one event -/

section Jobs

variable {ids : List String} {s : Catalog} {held : List Lock}

/-- The job replies that it has saved and has moved the catalogue. -/
abbrev Saves (ids : List String) (s : Catalog) (r : Disposition) (_ : List Lock) (t : Catalog) :
    Prop := r = .saved ∧ s.Moves ids t

theorem display_saves {eid : String} {known : Bool} {body : DisplayBody} (hs : s.Consistent) :
    isolation.Covered held ((onEvent eid (display eid known body)).digest Reply.disposition) s
      (Saves ids s) := by
  apply covered_onEvent hs.toKeyed
  · intro e e' hsm
    unfold display
    rw [hsm.display, hsm.id]
  · intro e he
    obtain ⟨row, hrow⟩ := eventView_views he
    apply isolation.covered_digest
    apply isolation.covered_require
    intro _
    apply isolation.covered_bind
    apply covered_displayFields
    intro d
    apply isolation.covered_bind
    apply covered_setEvent hs.toKeyed (hrow.id ▸ List.mem_cons_self) fun _ _ => rfl
    refine ⟨rfl, moves_events hs ?_ ?_ ?_ ?_⟩
    · intro e
      split <;> rfl
    · intro e
      split <;> rfl
    · intro e he
      split <;> exact hs.eventVenue e he
    · intro e he hdraft x hx heid
      split <;> exact hs.draftVenue x hx e he heid.symm hdraft

theorem update_saves {eid : String} {body : EventBody} (hs : s.Consistent) :
    isolation.Covered held ((editing eid (update eid body)).digest Reply.disposition) s
      (Saves ids s) := by
  apply covered_editing hs.toKeyed
  · intro e e' hsm
    unfold update
    rw [hsm.display, hsm.id, hsm.venueId, hsm.isEmpty]
  · intro e he hdraft
    obtain ⟨row, hrow⟩ := eventView_views he
    apply isolation.covered_require
    intro _
    apply isolation.covered_expect
    intro target _
    apply isolation.covered_require
    intro htarget
    apply isolation.covered_bind
    apply covered_lockVenue
    intro hpresent
    apply isolation.covered_bind
    apply covered_venue hs.toKeyed List.mem_cons_self
    intro v _
    apply isolation.covered_require
    intro _
    apply isolation.covered_bind
    apply covered_window
    intro times
    apply isolation.covered_bind
    apply covered_displayFields
    intro d
    have heid : Lock.event eid ∈ Lock.venue target :: .event eid :: held :=
      List.mem_cons_of_mem _ List.mem_cons_self
    apply isolation.covered_bind
    apply covered_setEvent hs.toKeyed (hrow.id ▸ heid) fun _ _ => rfl
    have hfirst := @moves_events ids _ hs (fun e => if decide (e.id = eid) then { e with
        name := d.name, description := d.description, category := d.category,
        coverUrl := d.coverUrl } else e) (by intro e; split <;> rfl) (by intro e; split <;> rfl)
        (by intro e he; split <;> exact hs.eventVenue e he)
        (by intro e he hst x hx hid; split <;> exact hs.draftVenue x hx e he hid.symm hst)
    rw [hrow.id]
    apply isolation.covered_bind
    apply covered_setEvent hfirst.consistent.toKeyed heid fun _ _ => rfl
    refine ⟨rfl, hfirst.trans (moves_events hfirst.consistent ?_ ?_ ?_ ?_)⟩
    · intro e
      split <;> rfl
    · intro e
      split <;> rfl
    · intro e he
      split
      · exact hpresent
      · exact hfirst.consistent.eventVenue e he
    · intro e he hst x hx hid
      split
      · rename_i hedited
        rw [decide_eq_true_eq] at hedited
        show x.venueId = target
        have hx' : x ∈ eventSessions s eid :=
          List.mem_filter.mpr ⟨hx, by simpa using hid.trans hedited⟩
        rcases Bool.or_eq_true_iff.mp htarget with hkept | hempty
        · rw [of_decide_eq_true hkept, hrow.venueId]
          exact eventSessions_of_draft hs hrow.mem (hrow.status ▸ hdraft) x (hrow.rowId.symm ▸ hx')
        · rw [List.isEmpty_iff, hrow.sessions, List.map_eq_nil_iff] at hempty
          rw [hempty] at hx'
          cases hx'
      · exact hfirst.consistent.draftVenue x hx e he hid.symm hst

theorem create_saves {uuid : ℕ → String} {body : EventBody} (hs : s.Consistent)
    (heid : .event (newEventId uuid) ∈ held) (hnew : newEventId uuid ∈ ids)
    (hfresh : occurs (newEventId uuid) s = false) :
    isolation.Covered held ((create uuid body).digest Reply.disposition) s (Saves ids s) := by
  apply isolation.covered_digest
  apply isolation.covered_require
  intro _
  apply isolation.covered_bind
  apply covered_displayFields
  intro d
  apply isolation.covered_bind
  apply covered_window
  intro times
  apply isolation.covered_expect
  intro vid _
  apply isolation.covered_bind
  apply covered_lockVenue
  intro hpresent
  apply isolation.covered_bind
  apply covered_venue hs.toKeyed List.mem_cons_self
  intro v _
  apply isolation.covered_require
  intro _
  apply isolation.covered_bind
  apply covered_insertEvent hs.toKeyed (List.mem_cons_of_mem _ heid)
  intro e hid hvenue _
  refine ⟨rfl, moves_newEvent hs (hid.symm ▸ hnew) (hid.symm ▸ hfresh) ?_⟩
  rw [hvenue]
  exact hpresent

/-! ## Jobs on the sessions of a draft -/

section Drafts

variable {eid : String} {e : EventView} {row : Event} (hs : s.Consistent)
  (hrow : Views s eid e row) (hdraft : e.status = .draft) (heid : .event eid ∈ held)
  (hvid : .venue e.venueId ∈ held)

include hs hrow hdraft

theorem session_venue {x : Session} (hx : x ∈ s.sessions) (hevent : x.eventId = eid) :
    x.venueId = e.venueId := by
  rw [hrow.venueId]
  apply eventSessions_of_draft hs hrow.mem (hrow.status ▸ hdraft) x
  exact List.mem_filter.mpr ⟨hx, by simpa [hrow.rowId] using hevent⟩

include heid hvid

theorem sessionCreate_saves {settings : Settings} {uuid : ℕ → String} {body : SessionBody}
    (hnew : newSessionId uuid ∈ ids) (hfresh : occurs (newSessionId uuid) s = false) :
    isolation.Covered held (sessionCreate settings uuid eid body e e.venueId) s
      fun a => Saves ids s a.disposition := by
  apply isolation.covered_require
  intro _
  apply isolation.covered_bind
  apply covered_sessionTimes hs.toKeyed heid
  intro times
  apply isolation.covered_bind
  apply covered_insertSession hs.toKeyed heid hvid
  intro x hid hevent hvenue _
  refine ⟨rfl, moves_newSession hs (hid.symm ▸ hnew) (hid.symm ▸ hfresh) hrow.mem ?_ ?_ ?_⟩
  · rw [hevent, hrow.rowId]
  · rw [← hrow.status, hdraft]
  · rw [hvenue, hrow.venueId]

theorem sessionUpdate_saves {sid : String} {body : SessionBody} :
    isolation.Covered held (sessionUpdate eid sid body) s fun a => Saves ids s a.disposition := by
  apply isolation.covered_bind
  apply covered_draftSession hs.toKeyed heid
  rintro ⟨x, hx, hid, hevent, _⟩
  apply isolation.covered_bind
  apply covered_sessionTimes hs.toKeyed heid
  intro times
  apply isolation.covered_bind
  apply covered_updateSession hs.toKeyed hx hid (hevent.symm ▸ heid)
    (session_venue hs hrow hdraft hx hevent ▸ hvid)
  refine ⟨rfl, moves_sessions hs ?_ ?_ ?_ ?_⟩
  · intro y
    split <;> rfl
  · intro y
    split <;> rfl
  · intro y
    split <;> rfl
  · intro y hy hne
    by_cases hyid : y.id = sid
    · obtain rfl := hs.session_eq hy hx (hyid.trans hid.symm)
      exact ⟨row, hrow.mem, hrow.rowId.trans hevent.symm, hrow.status ▸ hdraft⟩
    · simp [hyid] at hne

theorem sessionDelete_saves {sid : String} :
    isolation.Covered held (sessionDelete eid sid) s fun a => Saves ids s a.disposition := by
  apply isolation.covered_bind
  apply covered_draftSession hs.toKeyed heid
  rintro ⟨x, hx, hid, hevent, _⟩
  apply isolation.covered_bind
  apply covered_deleteSession hs.toKeyed hx hid hevent (hevent.symm ▸ heid)
    (session_venue hs hrow hdraft hx hevent ▸ hvid)
  exact ⟨rfl, moves_deleteSession hs hrow.mem hrow.rowId (hrow.status ▸ hdraft)⟩

theorem setPrices_saves {sid : String} {body : PricesBody} :
    isolation.Covered held (setPrices eid sid body e.venueId) s
      fun a => Saves ids s a.disposition := by
  apply isolation.covered_bind
  apply covered_draftSession hs.toKeyed heid
  rintro ⟨x, hx, hid, hevent, _⟩
  have hxvenue := session_venue hs hrow hdraft hx hevent
  apply isolation.covered_require
  intro _
  apply isolation.covered_bind
  apply covered_venue hs.toKeyed hvid
  intro v _
  apply isolation.covered_bind
  apply covered_checkPrices
  intro prices
  apply isolation.covered_bind
  apply covered_deletePrices hs.toKeyed hx hid (hevent.symm ▸ heid) (hxvenue ▸ hvid)
  have hdropped := @moves_dropPrices ids _ hs fun p => !decide (p.sessionId = sid)
  apply isolation.covered_bind
  apply covered_insertPrices hdropped.consistent.toKeyed hvid
  intro hallowed
  refine ⟨rfl, hdropped.trans (moves_newPrices hdropped.consistent ?_ ⟨x, hx, hid, hxvenue⟩ ?_ ?_)⟩
  · intro p hp hsid
    have hkept := List.of_mem_filter hp
    rw [hsid, decide_eq_true rfl] at hkept
    cases hkept
  · intro p hp
    rcases hallowed with rfl | hallowed
    · cases hp
    · unfold pricesAllowed at hallowed
      simp only [Bool.and_eq_true, List.all_eq_true, List.any_eq_true, decide_eq_true_eq] at hallowed
      exact hallowed.1.2 p hp
  · rcases hallowed with rfl | hallowed
    · exact List.nodup_nil
    · unfold pricesAllowed at hallowed
      simp only [Bool.and_eq_true, decide_eq_true_eq] at hallowed
      exact hallowed.2

end Drafts

/-! ## Saving a plan -/

section Plans

/-- Ids of seats name their zone, their row and their number. -/
theorem seatId_injective {zone zone' : String} {row row' n n' : ℕ}
    (h : seatId zone row n = seatId zone' row' n') : zone = zone' ∧ row = row' ∧ n = n' := by
  have htexts : ∀ (z : String) (r k : ℕ), (seatId z r k).toList.reverse =
      (Nat.toDigits 10 k).reverse ++ '-' :: ((Nat.toDigits 10 r).reverse ++ '-' :: z.toList.reverse) := by
    intro z r k
    simp [seatId, String.toList_append, Nat.toString_eq_repr, Nat.toList_repr]
  have hdash : ∀ k : ℕ, '-' ∉ (Nat.toDigits 10 k).reverse := by
    intro k hk
    exact LengthPrefix.dash_notMem_digits k (List.mem_reverse.mp hk)
  have hchars := congrArg (fun t => t.toList.reverse) h
  simp only [htexts] at hchars
  obtain ⟨hn, hchars⟩ := LengthPrefix.split_at (hdash n) (hdash n') hchars
  obtain ⟨hrow, hzone⟩ := LengthPrefix.split_at (hdash row) (hdash row') hchars
  exact ⟨String.toList_inj.mp (List.reverse_injective hzone),
    LengthPrefix.digits_injective (List.reverse_injective hrow),
    LengthPrefix.digits_injective (List.reverse_injective hn)⟩

theorem nodup_flatMap_of_key {ρ κ τ : Type} {rows : List ρ} {key : ρ → κ} {f : ρ → List τ}
    (hkeys : (rows.map key).Nodup) (heach : ∀ r ∈ rows, (f r).Nodup)
    (hkey : ∀ r ∈ rows, ∀ r' ∈ rows, ∀ t, t ∈ f r → t ∈ f r' → key r = key r') :
    (rows.flatMap f).Nodup := by
  rw [List.nodup_flatMap]
  refine ⟨heach, (List.pairwise_map.mp hkeys).imp_of_mem ?_⟩
  exact fun hr hr' hne t ht ht' => hne (hkey _ hr _ hr' t ht ht')

variable {vid : String} {zones : List (String × ZonePlan)}

theorem zoneRows_ids : (zoneRows vid zones).map VenueZone.id = zones.map Prod.fst := by
  calc (zoneRows vid zones).map VenueZone.id
      = (zones.zipIdx.map Prod.fst).map Prod.fst := by
        simp [zoneRows, List.mapIdx_eq_zipIdx_map, Function.comp_def, -List.zipIdx_map_fst]
    _ = zones.map Prod.fst := by rw [List.zipIdx_map_fst]

theorem zoneRows_venue : ∀ z ∈ zoneRows vid zones, z.venueId = vid := by
  intro z hz
  rw [zoneRows, List.mem_mapIdx] at hz
  obtain ⟨i, _, rfl⟩ := hz
  rfl

theorem rowSeats_ids (zone : String) (rows : List RowPlan) :
    ((rows.mapIdx fun i r => rowSeats vid zone i r).flatten).map Seat.id =
      rows.zipIdx.flatMap fun r => (List.range r.1.seatCount).map fun k =>
        seatId zone (r.2 + 1) (k + 1) := by
  simp [List.mapIdx_eq_zipIdx_map, List.map_flatten, List.flatMap, rowSeats, Function.comp_def]

theorem seatRows_nodup (hzones : (zones.map Prod.fst).Nodup) :
    ((seatRows vid zones).map Seat.id).Nodup := by
  have hids : (seatRows vid zones).map Seat.id = zones.flatMap fun z =>
      z.2.rows.zipIdx.flatMap fun r => (List.range r.1.seatCount).map fun k =>
        seatId z.1 (r.2 + 1) (k + 1) := by
    rw [seatRows, List.map_flatMap]
    apply List.flatMap_congr
    exact fun z _ => rowSeats_ids z.1 z.2.rows
  rw [hids]
  apply nodup_flatMap_of_key hzones
  · intro z _
    apply @nodup_flatMap_of_key _ _ _ _ Prod.snd _
    · simp [List.zipIdx_map_snd, List.nodup_range']
    · intro r _
      apply List.Nodup.map _ List.nodup_range
      exact fun k k' hk => Nat.succ.inj (seatId_injective hk).2.2
    · intro r _ r' _ t ht ht'
      obtain ⟨k, _, rfl⟩ := List.mem_map.mp ht
      obtain ⟨k', _, hk⟩ := List.mem_map.mp ht'
      exact (Nat.succ.inj (seatId_injective hk).2.1).symm
  · intro z _ z' _ t ht ht'
    obtain ⟨r, _, hr⟩ := List.mem_flatMap.mp ht
    obtain ⟨r', _, hr'⟩ := List.mem_flatMap.mp ht'
    obtain ⟨k, _, rfl⟩ := List.mem_map.mp hr
    obtain ⟨k', _, hk⟩ := List.mem_map.mp hr'
    exact (seatId_injective hk).1.symm

theorem mem_seatRows {r : Seat} (hr : r ∈ seatRows vid zones) :
    r.venueId = vid ∧ r.zoneId ∈ zones.map Prod.fst := by
  obtain ⟨z, hz, hr⟩ := List.mem_flatMap.mp hr
  obtain ⟨seats, hseats, hr⟩ := List.mem_flatten.mp hr
  obtain ⟨i, _, rfl⟩ := List.mem_mapIdx.mp hseats
  obtain ⟨k, _, rfl⟩ := List.mem_map.mp hr
  exact ⟨rfl, List.mem_map_of_mem hz⟩

theorem savePlan_saves {uuid : ℕ → String} {plan : Plan} {reset : Bool} (hs : s.Consistent)
    (hvid : .venue vid ∈ held) (hvenue : ∃ v ∈ s.venues, v.id = vid)
    (hfree : frozen s vid = false) (hempty : venueSeats s vid = [])
    (hnodup : ((planZones uuid plan).map Prod.fst).Nodup)
    (hnew : ∀ id ∈ (planZones uuid plan).map Prod.fst, id ∈ ids ∧ occurs id s = false) :
    isolation.Covered held (savePlan uuid vid plan reset) s fun a => Saves ids s a.disposition := by
  have hrow : ∀ z ∈ zoneRows vid (planZones uuid plan), z.id ∈ (planZones uuid plan).map Prod.fst :=
    fun z hz => @zoneRows_ids vid _ ▸ List.mem_map_of_mem hz
  have hzones := moves_newZones hs hfree hvenue zoneRows_venue
    (fun z hz => (hnew _ (hrow z hz)).1) (fun z hz => (hnew _ (hrow z hz)).2)
    (@zoneRows_ids vid _ ▸ hnodup)
  apply isolation.covered_bind
  apply covered_insertZones hs.toKeyed hvid zoneRows_venue
  have hseats := @moves_newSeats ids _ hzones.consistent _ hfree
      (seatRows vid (planZones uuid plan)) hempty (fun r hr => (mem_seatRows hr).1)
      (fun r hr => by
      have hzone := (mem_seatRows hr).2
      rw [← @zoneRows_ids vid _] at hzone
      obtain ⟨z, hz, hid⟩ := List.mem_map.mp hzone
      exact ⟨z, List.mem_append_right _ hz, hid, zoneRows_venue z hz⟩)
      (seatRows_nodup hnodup)
  apply isolation.covered_bind
  apply covered_insertSeats hzones.consistent.toKeyed hvid fun r hr => (mem_seatRows hr).1
  apply isolation.covered_require
  intro _
  apply isolation.covered_bind
  apply covered_venue hseats.consistent.toKeyed hvid
  exact fun v _ => ⟨rfl, hzones.trans hseats⟩

theorem venueSeats_of_absent (hs : s.Consistent) (habsent : ∀ v ∈ s.venues, v.id ≠ vid) :
    venueSeats s vid = [] := by
  rw [venueSeats, List.filter_eq_nil_iff]
  intro r hr hvenue
  obtain ⟨z, hz, _, hzvenue⟩ := hs.seatZone r hr
  obtain ⟨v, hv, hid⟩ := hs.zoneVenue z hz
  exact habsent v hv (hid.trans (hzvenue.trans (of_decide_eq_true hvenue)))

theorem frozen_of_absent (hs : s.Consistent) (habsent : ∀ v ∈ s.venues, v.id ≠ vid) :
    frozen s vid = false := by
  rw [frozen, Bool.not_eq_false', List.isEmpty_iff, List.filter_eq_nil_iff]
  intro r hr hvenue
  obtain ⟨x, hx, _, hxvenue, _⟩ := hs.inventorySession r hr
  obtain ⟨v, hv, hid⟩ := hs.sessionVenue x hx
  exact habsent v hv (hid.trans (hxvenue.trans (of_decide_eq_true hvenue)))

theorem saveNew_saves {uuid : ℕ → String} {plan : Plan} (hs : s.Consistent)
    (hbirth : .venue (newVenueId uuid) ∈ held)
    (hnodup : (newVenueId uuid :: (planZones uuid plan).map Prod.fst).Nodup)
    (hnew : ∀ id ∈ newVenueId uuid :: (planZones uuid plan).map Prod.fst,
      id ∈ ids ∧ occurs id s = false) :
    isolation.Covered held (do
      insertVenue (newVenueId uuid) plan
      savePlan uuid (newVenueId uuid) plan false : DB Reply) s
      fun a => Saves ids s a.disposition := by
  obtain ⟨hvenueNew, habsent⟩ := hnew _ List.mem_cons_self
  obtain ⟨hother, hzones⟩ := List.nodup_cons.mp hnodup
  have hvenues := (occurs_false.mp habsent).1
  apply isolation.covered_bind
  apply covered_insertVenue hs.toKeyed hbirth
  intro v hv
  have hinserted := moves_newVenue hs (v := v) (hv ▸ hvenueNew)
  have hzonesNew : ∀ id ∈ (planZones uuid plan).map Prod.fst,
      id ∈ ids ∧ occurs id { s with venues := s.venues ++ [v] } = false := by
    intro id hid
    obtain ⟨hmem, hfree⟩ := hnew id (List.mem_cons_of_mem _ hid)
    refine ⟨hmem, occurs_false.mpr ⟨fun v' hv' => ?_, (occurs_false.mp hfree).2⟩⟩
    rcases List.mem_append.mp hv' with hold | hlast
    · exact (occurs_false.mp hfree).1 v' hold
    · rw [List.mem_singleton.mp hlast, hv]
      exact fun heq => hother (heq ▸ hid)
  have hfree := frozen_of_absent hs hvenues
  have hempty := venueSeats_of_absent hs hvenues
  have hplan := @savePlan_saves _ _ held _ _ _ false hinserted.consistent hbirth
      ⟨v, List.mem_append_right _ List.mem_cons_self, hv⟩ hfree hempty hzones hzonesNew
  exact isolation.covered_mono hplan fun a held' t ht => ⟨ht.1, hinserted.trans ht.2⟩

theorem saveOld_saves {uuid : ℕ → String} {plan : Plan} (hs : s.Consistent)
    (hnodup : ((planZones uuid plan).map Prod.fst).Nodup)
    (hnew : ∀ id ∈ (planZones uuid plan).map Prod.fst, id ∈ ids ∧ occurs id s = false) :
    isolation.Covered held (do
      lockVenue vid
      let isFrozen ← .query fun s => frozen s vid
      .require (!isFrozen) ⟨409, "VENUE_SEAT_PLAN_FROZEN"⟩
      let reset ← deleteDraftPrices vid
      deleteSeats vid
      deleteZones vid
      updateVenue vid plan
      savePlan uuid vid plan reset : DB Reply) s fun a => Saves ids s a.disposition := by
  have hvid : Lock.venue vid ∈ Lock.venue vid :: held := List.mem_cons_self
  apply isolation.covered_bind
  apply covered_lockVenue
  rintro ⟨v, hv, hvenue⟩
  apply isolation.covered_query hs.toKeyed
  · intro t _ hagree
    rw [frozen_stable hagree hvid]
  apply isolation.covered_require
  intro hfree
  have hfree : frozen s vid = false := by simpa using hfree
  have hprices := @moves_dropPrices [] _ hs fun p => !s.sessions.any fun x =>
    x.id = p.sessionId && x.venueId = vid && x.status = .draft
  apply isolation.covered_bind
  apply covered_deleteDraftPrices hs.toKeyed hvid
  intro reset
  have hseats := @moves_dropSeats [] _ hprices.consistent vid hfree
  apply isolation.covered_bind
  apply covered_deleteSeats hprices.consistent.toKeyed hvid
  have hempty : venueSeats { s with seats := s.seats.filter fun r => !(r.venueId = vid) } vid = [] := by
    rw [venueSeats, List.filter_eq_nil_iff]
    intro r hr hkept
    have hgone := List.of_mem_filter hr
    rw [hkept] at hgone
    cases hgone
  have hzones := @moves_dropZones [] _ hseats.consistent _ hfree hempty
  apply isolation.covered_bind
  apply covered_deleteZones hseats.consistent.toKeyed hvid
  have hupdated := @moves_venues [] _ hzones.consistent (fun v => if decide (v.id = vid) then
      { v with name := plan.name, city := plan.city } else v) (by intro v; split <;> rfl)
  apply isolation.covered_bind
  apply covered_updateVenue hzones.consistent.toKeyed hvid
  have hmoved := ((hprices.trans hseats).trans hzones).trans hupdated
  have hpresent : ∃ v' ∈ s.venues.map fun v => if decide (v.id = vid) then
      { v with name := plan.name, city := plan.city } else v, v'.id = vid :=
    ⟨_, List.mem_map_of_mem hv, by rw [if_pos (decide_eq_true hvenue)]; exact hvenue⟩
  have hplan := @savePlan_saves ids _ _ _ _ _ reset hupdated.consistent hvid hpresent hfree hempty
      hnodup fun id hid =>
      ⟨(hnew id hid).1, hmoved.ids id (hnew id hid).2 List.not_mem_nil⟩
  exact isolation.covered_mono hplan fun a held' t ht => ⟨ht.1, hmoved.mono.trans ht.2⟩

end Plans
end Jobs

end Ticketing.Admin
