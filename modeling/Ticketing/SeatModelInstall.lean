import Ticketing.SeatModelProjection

/-!
# Installing a model

An initialisation under the lock of its token replaces whatever the derived keys contain. It deletes
them, creates the zones of the rows and adds one seat after the other, each with a copy of its live
hold; the model is marked ready last.
-/

namespace Ticketing.Availability

open Redis Script Tally

/-- The first entry of a change stream. -/
def baseline (env : Env) : Stream := Stream.add ⟨[], 0, false⟩ env none [("kind", "baseline")]

def SeatRow.state (row : SeatRow) (env : Env) (raw : Holds) : SeatState where
  zone := row.zone
  status := (statusOfName row.status).getD .available
  version := (natural row.version.toList).getD 0
  hold := liveHold env.now (raw row.id)

namespace Model

/-- Zones without seats. -/
def bare (generation : String) (env : Env) (zones : List String) : Model where
  generation
  zones
  ids := ∅
  seat _ := ⟨"", .available, 0, none⟩
  changes _ := baseline env
  zone_mem := by
    intro id hid
    cases hid

def addSeat (model : Model) (id : String) (seat : SeatState) : Model :=
  if h : seat.zone ∈ model.zones then
    { model with
      ids := insert id model.ids
      seat := Function.update model.seat id seat
      zone_mem := by
        intro other hother
        by_cases hid : other = id
        · subst hid
          rw [Function.update_self]
          exact h
        · rw [Function.update_of_ne hid]
          exact model.zone_mem other ((Finset.mem_insert.mp hother).resolve_left hid) }
  else model

/-- The model that an initialisation makes of the rows. -/
def ofRows (generation : String) (env : Env) (raw : Holds) (rows : List SeatRow) : Model :=
  rows.foldl (fun model row => model.addSeat row.id (row.state env raw))
    (bare generation env (zonesOf rows))

section AddSeat

variable {model : Model} {id : String} {seat : SeatState} (hzone : seat.zone ∈ model.zones)

include hzone

theorem ids_addSeat : (model.addSeat id seat).ids = insert id model.ids := by
  unfold addSeat
  rw [dif_pos hzone]

theorem seat_addSeat : (model.addSeat id seat).seat = Function.update model.seat id seat := by
  unfold addSeat
  rw [dif_pos hzone]

theorem find_addSeat : (model.addSeat id seat).find = Function.update model.find id (some seat) := by
  funext other
  unfold find
  rw [ids_addSeat hzone, seat_addSeat hzone]
  by_cases hother : other = id
  · subst hother
    rw [if_pos (Finset.mem_insert_self _ _), Function.update_self, Function.update_self]
  · rw [Function.update_of_ne hother, Function.update_of_ne hother]
    simp [hother]

theorem hold_addSeat : (model.addSeat id seat).hold = Function.update model.hold id seat.hold := by
  funext other
  unfold hold
  rw [find_addSeat hzone]
  by_cases hother : other = id
  · subst hother
    rw [Function.update_self, Function.update_self]
    rfl
  · rw [Function.update_of_ne hother, Function.update_of_ne hother]

theorem zoneIds_addSeat (hid : id ∉ model.ids) (zone : String) :
    (model.addSeat id seat).zoneIds zone =
      if zone = seat.zone then insert id (model.zoneIds zone) else model.zoneIds zone := by
  have hrest : model.ids.filter (fun other => (Function.update model.seat id seat other).zone = zone) =
      model.zoneIds zone := by
    apply Finset.filter_congr
    intro other hother
    rw [Function.update_of_ne]
    rintro rfl
    exact hid hother
  unfold zoneIds at hrest ⊢
  rw [ids_addSeat hzone, seat_addSeat hzone, Finset.filter_insert, Function.update_self, hrest]
  by_cases hsame : zone = seat.zone
  · rw [if_pos hsame, if_pos hsame.symm]
  · rw [if_neg hsame, if_neg fun heq => hsame heq.symm]

theorem count_addSeat (hid : id ∉ model.ids) (status : SeatStatus) :
    (model.addSeat id seat).count seat.zone status =
      model.count seat.zone status + if seat.publicStatus = status then 1 else 0 := by
  unfold count
  rw [zoneIds_addSeat hzone hid, if_pos rfl, seat_addSeat hzone,
    tally_insert fun hmem => hid (mem_zoneIds.mp hmem).1, Function.update_self]
  congr 1
  refine tally_congr (fun other hother => ?_) status
  rw [Function.update_of_ne]
  rintro rfl
  exact hid (mem_zoneIds.mp hother).1

theorem count_addSeat_of_ne (hid : id ∉ model.ids) {zone : String} (h : zone ≠ seat.zone)
    (status : SeatStatus) : (model.addSeat id seat).count zone status = model.count zone status := by
  unfold count
  rw [zoneIds_addSeat hzone hid, if_neg h, seat_addSeat hzone]
  refine tally_congr (fun other hother => ?_) status
  rw [Function.update_of_ne]
  rintro rfl
  exact hid (mem_zoneIds.mp hother).1

end AddSeat

theorem zones_addSeat (model : Model) (id : String) (seat : SeatState) :
    (model.addSeat id seat).zones = model.zones := by
  unfold addSeat
  split_ifs <;> rfl

theorem changes_addSeat (model : Model) (id : String) (seat : SeatState) :
    (model.addSeat id seat).changes = model.changes := by
  unfold addSeat
  split_ifs <;> rfl

end Model

/-- While a model is built, every other key shows it and the model is not marked ready. -/
structure Building (model : Model) (raw : Holds) (store : Store Key) : Prop where
  shows : ∀ key, key ≠ .modelMeta → model.Shows key (store key)
  missing : store .modelMeta = none
  carries : Carries store raw

/-- Where an initialisation may stop: the model is gone and the raw holds are as before. -/
structure Unbuilt (raw : Holds) (store : Store Key) : Prop where
  missing : store .modelMeta = none
  carries : Carries store raw

section Zones

variable {store : Store Key} {env : Env} {raw : Holds} {generation : String}

theorem bare_find {zones : List String} (id : String) :
    (Model.bare generation env zones).find id = none := if_neg (Finset.notMem_empty id)

theorem bare_hold {zones : List String} (id : String) :
    (Model.bare generation env zones).hold id = none :=
  congrArg (·.bind SeatState.hold) (bare_find id)

/-- Which zones a bare model has matters only to the list of them and to their own keys. -/
theorem bare_shows {zones zones' : List String} {key : Key} {slot : Slot}
    (h : (Model.bare generation env zones).Shows key slot) (hlist : key ≠ .zones)
    (hzone : ∀ zone, key = .zoneSeats zone ∨ key = .zoneSummary zone ∨ key = .zoneChanges zone →
      zone ∈ zones' → zone ∈ zones) : (Model.bare generation env zones').Shows key slot := by
  cases key with
  | zones => exact absurd rfl hlist
  | zoneSeats zone => exact fun hmem => h (hzone zone (Or.inl rfl) hmem)
  | zoneSummary zone => exact fun hmem => h (hzone zone (Or.inr (Or.inl rfl)) hmem)
  | zoneChanges zone => exact fun hmem => h (hzone zone (Or.inr (Or.inr rfl)) hmem)
  | modelMeta => exact h
  | seatZone => exact h
  | formal => exact h
  | holds => exact h
  | holdExpiry => exact h
  | initLock => trivial
  | hold seat => trivial

theorem shows_bareSeats {zones : List String} {zone : String} :
    (Model.bare generation env zones).Shows (.zoneSeats zone) none :=
  fun _ => ⟨rfl, rfl⟩

theorem summary_zero {zones : List String} {zone : String} :
    (Model.bare generation env zones).Summary zone (Slot.written (fun _ => none)
      [("total", "0"), ("available", "0"), ("held", "0"), ("sold", "0")]) := by
  have hzero (field : String) (h : field ∈ ["total", "available", "held", "sold"]) :
      Slot.written (fun _ => none)
        [("total", "0"), ("available", "0"), ("held", "0"), ("sold", "0")] field = some "0" := by
    simp only [List.mem_cons, List.not_mem_nil, or_false] at h
    rcases h with rfl | rfl | rfl | rfl <;> simp [Slot.written]
  have htotal : ((Model.bare generation env zones).zoneIds zone).card = 0 := rfl
  have hcount (status : SeatStatus) : (Model.bare generation env zones).count zone status = 0 := rfl
  refine ⟨?_, fun status => ?_⟩
  · rw [htotal]
    exact hzero "total" (by simp)
  · rw [hcount]
    refine hzero _ ?_
    cases status <;> simp [counterName]

theorem createZone_spec {zones : List String}
    (h : Building (Model.bare generation env zones) raw store) (zone : String) :
    Wp (createZone zone) env store
      (fun _ after => Building (Model.bare generation env (zones ++ [zone])) raw after)
      fun _ => False := by
  refine wp_bind (wp_bind (wp_del (wp_bind (wp_del (wp_bind (wp_del (wp_pure ?_)))))))
  have hzones := h.shows .zones nofun
  refine wp_bind (wp_rpush (?_ : Slot.Shows Slot.list _ zones) fun list hlist => ?_)
  · simp only [Function.update_apply, reduceCtorEq, if_false]
    exact hzones
  refine wp_bind (wp_hset (?_ : Slot.Shows Slot.fields _ fun _ => none) fun summary hsummary => ?_)
  · simp only [Function.update_apply, reduceCtorEq, if_false, if_true]
    exact ⟨rfl, rfl⟩
  refine wp_xadd (?_ : Slot.Shows Slot.stream _ ⟨[], 0, false⟩) rfl fun changes hchanges => ?_
  · simp only [Function.update_apply, reduceCtorEq, if_false, if_true]
    exact ⟨rfl, rfl⟩
  refine ⟨fun key hkey => ?_, ?_, ?_⟩
  · by_cases hown : key = .zones ∨ key = .zoneSeats zone ∨ key = .zoneSummary zone ∨
        key = .zoneChanges zone
    · rcases hown with rfl | rfl | rfl | rfl
      · simp only [Function.update_apply, reduceCtorEq, if_false, if_true]
        exact hlist
      · simp only [Function.update_apply, reduceCtorEq, if_false, if_true]
        exact shows_bareSeats
      · simp only [Function.update_apply, reduceCtorEq, if_false, if_true]
        exact fun _ => ⟨_, hsummary, summary_zero⟩
      · simp only [Function.update_apply, if_true]
        exact fun _ => ⟨hchanges, Stream.sound_first env _⟩
    · simp only [not_or] at hown
      obtain ⟨hzonesKey, hseatsKey, hsummaryKey, hchangesKey⟩ := hown
      simp only [Function.update_apply, hzonesKey, hseatsKey, hsummaryKey, hchangesKey, if_false]
      refine bare_shows (h.shows key hkey) hzonesKey fun other hother hmem => ?_
      rcases List.mem_append.mp hmem with hold | hnew
      · exact hold
      · obtain rfl := List.mem_singleton.mp hnew
        rcases hother with rfl | rfl | rfl
        · exact absurd rfl hseatsKey
        · exact absurd rfl hsummaryKey
        · exact absurd rfl hchangesKey
  · simp only [Function.update_apply, reduceCtorEq, if_false]
    exact h.missing
  · refine h.carries.of_eq fun seat => ?_
    simp only [Function.update_apply, reduceCtorEq, if_false]

end Zones

section Seats

variable {store after : Store Key} {env : Env} {raw : Holds} {model : Model} {row : SeatRow}

theorem filter_live (held : Option Held) (now : ℕ) :
    (held.map Held.text).filter (fun _ => decide (0 < holdTtl now held)) =
      (liveHold now held).map Held.text := by
  cases held with
  | none => rfl
  | some found =>
      have httl : 0 < holdTtl now (some found) ↔ now < found.deadline := by
        show 0 < ((found.deadline - now : ℕ) : ℤ) ↔ _
        omega
      unfold liveHold
      rw [Option.map_some, Option.filter_some, Option.filter_some]
      simp only [httl]
      split_ifs <;> rfl

/-- A row that the check of the payload accepts. -/
def SeatRow.Valid (row : SeatRow) : Prop := (formal row.formalText).isSome = true

theorem SeatRow.Valid.formalText (h : row.Valid) (env : Env) (raw : Holds) :
    (row.state env raw).formalText = row.formalText := by
  obtain ⟨next, hnext⟩ := Option.isSome_iff_exists.mp h
  obtain ⟨hstatus, -, n, hversion⟩ := formal_append hnext
  unfold SeatRow.state SeatState.formalText SeatRow.formalText
  rw [hstatus, hversion, statusOfName_statusName, natural_toString]
  rfl

theorem SeatRow.Valid.status (h : row.Valid) (env : Env) (raw : Holds) :
    statusOfName row.status = some (row.state env raw).status := by
  obtain ⟨next, hnext⟩ := Option.isSome_iff_exists.mp h
  obtain ⟨hstatus, -, -⟩ := formal_append hnext
  unfold SeatRow.state
  rw [hstatus, statusOfName_statusName]
  rfl

theorem summary_addSeat {id : String} {seat : SeatState} (hzone : seat.zone ∈ model.zones)
    (hid : id ∉ model.ids) {fields : String → Option String}
    (h : model.Summary seat.zone fields) :
    (model.addSeat id seat).Summary seat.zone
      (Function.update (Function.update fields "total"
        (some (toString ((model.zoneIds seat.zone).card + 1)))) (counterName seat.publicStatus)
        (some (toString (model.count seat.zone seat.publicStatus + 1)))) := by
  have hfresh : id ∉ model.zoneIds seat.zone := fun hmem => hid (Model.mem_zoneIds.mp hmem).1
  refine ⟨?_, fun status => ?_⟩
  · rw [Function.update_of_ne (counterName_ne_total _), Function.update_self,
      Model.zoneIds_addSeat hzone hid, if_pos rfl, Finset.card_insert_of_notMem hfresh]
  · rw [Model.count_addSeat hzone hid]
    by_cases hstatus : status = seat.publicStatus
    · subst hstatus
      rw [Function.update_self, if_pos rfl]
    · rw [Function.update_of_ne fun heq => hstatus (counterName_injective heq),
        Function.update_of_ne (counterName_ne_total status).symm, h.2 status,
        if_neg fun heq => hstatus heq.symm, Nat.add_zero]

/-- The keys of one added seat: its own fields, its zone and the counters of its zone. -/
theorem building_addSeat {id : String} {seat : SeatState} (h : Building model raw store)
    (hzone : seat.zone ∈ model.zones) (hid : id ∉ model.ids)
    (howner : ∀ found, seat.hold = some found → OwnerName found.owner)
    (hseatZone : (after .seatZone).Shows Slot.fields
      (Function.update (fun other => (model.find other).map SeatState.zone) id (some seat.zone)))
    (hformal : (after .formal).Shows Slot.fields
      (Function.update (fun other => (model.find other).map SeatState.formalText) id
        (some seat.formalText)))
    (hholds : (after .holds).Shows Slot.fields
      (Function.update (fun other => (model.hold other).map Held.derivedText) id
        (seat.hold.map Held.derivedText)))
    (hexpiry : (after .holdExpiry).Shows Slot.scores
      (Function.update (fun other => (model.hold other).map fun held => (held.deadline : ℤ)) id
        (seat.hold.map fun held => (held.deadline : ℤ))))
    (hseats : (after (.zoneSeats seat.zone)).Shows Slot.members
      (insert id (model.zoneIds seat.zone)))
    (hsummary : ∃ fields, (after (.zoneSummary seat.zone)).Shows Slot.fields fields ∧
      (model.addSeat id seat).Summary seat.zone fields)
    (hsame : ∀ key, key ∉ [.seatZone, .formal, .holds, .holdExpiry, .zoneSeats seat.zone,
      .zoneSummary seat.zone] → after key = store key) :
    Building (model.addSeat id seat) raw after := by
  have hmap {α β : Type} (f : String → Option α) (value : Option α) (data : α → β) :
      (fun other => (Function.update f id value other).map data) =
        Function.update (fun other => (f other).map data) id (value.map data) := by
    funext other
    by_cases hother : other = id
    · subst hother
      rw [Function.update_self, Function.update_self]
    · rw [Function.update_of_ne hother, Function.update_of_ne hother]
  refine ⟨fun key hkey => ?_, ?_, h.carries.of_eq fun other => hsame _ (by simp)⟩
  · by_cases hown : key ∈ [.seatZone, .formal, .holds, .holdExpiry, .zoneSeats seat.zone,
        .zoneSummary seat.zone]
    · simp only [List.mem_cons, List.not_mem_nil, or_false] at hown
      rcases hown with rfl | rfl | rfl | rfl | rfl | rfl
      · show (after .seatZone).Shows Slot.fields _
        rw [Model.find_addSeat hzone, hmap]
        exact hseatZone
      · show (after .formal).Shows Slot.fields _
        rw [Model.find_addSeat hzone, hmap]
        exact hformal
      · show (after .holds).Shows Slot.fields _ ∧ _
        rw [Model.hold_addSeat hzone, hmap]
        refine ⟨hholds, fun other found hfound => ?_⟩
        by_cases hother : other = id
        · subst hother
          rw [Function.update_self] at hfound
          exact howner found hfound
        · rw [Function.update_of_ne hother] at hfound
          exact (h.shows .holds nofun).2 other found hfound
      · show (after .holdExpiry).Shows Slot.scores _
        rw [Model.hold_addSeat hzone, hmap]
        exact hexpiry
      · intro _
        rw [Model.zoneIds_addSeat hzone hid, if_pos rfl]
        exact hseats
      · exact fun _ => hsummary
    · rw [hsame key hown]
      have hshown := h.shows key hkey
      simp only [List.mem_cons, List.not_mem_nil, or_false, not_or] at hown
      cases key with
      | zones =>
          show (store .zones).Shows Slot.list _
          rw [Model.zones_addSeat]
          exact hshown
      | zoneSeats zone =>
          have hother : zone ≠ seat.zone := fun heq => hown.2.2.2.2.1 (by rw [heq])
          intro hmem
          rw [Model.zones_addSeat] at hmem
          rw [Model.zoneIds_addSeat hzone hid, if_neg hother]
          exact hshown hmem
      | zoneSummary zone =>
          have hother : zone ≠ seat.zone := fun heq => hown.2.2.2.2.2 (by rw [heq])
          intro hmem
          rw [Model.zones_addSeat] at hmem
          obtain ⟨fields, hfields, htotal, hcounts⟩ := hshown hmem
          refine ⟨fields, hfields, ?_, fun status => ?_⟩
          · rw [Model.zoneIds_addSeat hzone hid, if_neg hother]
            exact htotal
          · rw [Model.count_addSeat_of_ne hzone hid hother]
            exact hcounts status
      | zoneChanges zone =>
          intro hmem
          rw [Model.zones_addSeat] at hmem
          rw [Model.changes_addSeat]
          exact hshown hmem
      | modelMeta => exact absurd rfl hkey
      | seatZone => exact absurd rfl hown.1
      | formal => exact absurd rfl hown.2.1
      | holds => exact absurd rfl hown.2.2.1
      | holdExpiry => exact absurd rfl hown.2.2.2.1
      | initLock => trivial
      | hold other => trivial
  · rw [hsame .modelMeta (by simp)]
    exact h.missing

/-- The counters of the zone of an added seat. -/
theorem countSeat_spec {id : String} {seat : SeatState} (hzone : seat.zone ∈ model.zones)
    (hid : id ∉ model.ids) {fields : String → Option String}
    (hfields : (store (.zoneSummary seat.zone)).Shows Slot.fields fields)
    (hsummary : model.Summary seat.zone fields) (hunbuilt : Unbuilt raw store) :
    Wp (do
      hincrby (.zoneSummary seat.zone) "total" 1
      increase (some seat.zone) (some seat.publicStatus) 1) env store
      (fun _ after => OnlyAt (.zoneSummary seat.zone) store after ∧
        ∃ fields, (after (.zoneSummary seat.zone)).Shows Slot.fields fields ∧
          (model.addSeat id seat).Summary seat.zone fields) (Unbuilt raw) := by
  refine wp_bind (wp_hincrby (m := (model.zoneIds seat.zone).card + 1) hfields hsummary.1 (by simp)
    (fun _ => hunbuilt) fun slot hslot => ?_)
  have hcount : Function.update fields "total"
      (some (toString ((model.zoneIds seat.zone).card + 1))) (counterName seat.publicStatus) =
        some (toString (model.count seat.zone seat.publicStatus)) := by
    rw [Function.update_of_ne (counterName_ne_total _).symm]
    exact hsummary.2 _
  refine wp_hincrby (m := model.count seat.zone seat.publicStatus + 1)
    (by rw [Function.update_self]; exact hslot) hcount (by simp) (fun _ => ⟨?_, ?_⟩)
    fun slot' hslot' => ⟨fun other hother => ?_, _, ?_, summary_addSeat hzone hid hsummary⟩
  · rw [Function.update_of_ne (show Key.modelMeta ≠ .zoneSummary _ from nofun)]
    exact hunbuilt.missing
  · exact hunbuilt.carries.of_eq fun other =>
      Function.update_of_ne (show Key.hold other ≠ .zoneSummary _ from nofun) _ _
  · rw [Function.update_of_ne hother, Function.update_of_ne hother]
  · rw [Function.update_self]
    exact hslot'

theorem createSeat_spec (h : Building model raw store) (hzone : row.zone ∈ model.zones)
    (hid : row.id ∉ model.ids) (hvalid : row.Valid) : Wp (createSeat row) env store
      (fun _ after => Building (model.addSeat row.id (row.state env raw)) raw after)
      (Unbuilt raw) := by
  have howner : ∀ found, (row.state env raw).hold = some found → OwnerName found.owner :=
    liveHold_owner (h.carries.owner row.id)
  obtain ⟨fields, hfields, hsummary⟩ := h.shows (.zoneSummary row.zone) nofun hzone
  obtain ⟨hholds, -⟩ := h.shows .holds nofun
  have hexpiry := h.shows .holdExpiry nofun
  refine wp_bind (wp_hset (h.shows .seatZone nofun) fun seatZone hseatZone => wp_bind (wp_hset
    (shows_of_ne nofun (h.shows .formal nofun)) fun formal hformal => wp_bind (wp_sadd
      (shows_of_ne nofun (shows_of_ne nofun (h.shows (.zoneSeats row.zone) nofun hzone)))
      fun seats hseats => ?_)))
  generalize hwritten : Function.update (Function.update (Function.update store .seatZone seatZone)
    .formal formal) (.zoneSeats row.zone) seats = written
  have hkept : ∀ key, key ∉ [.seatZone, .formal, .zoneSeats row.zone] →
      written key = store key := by
    intro key hkey
    simp only [List.mem_cons, List.not_mem_nil, or_false, not_or] at hkey
    rw [← hwritten, Function.update_of_ne hkey.2.2, Function.update_of_ne hkey.2.1,
      Function.update_of_ne hkey.1]
  have hcarries : Carries written raw := h.carries.of_eq fun other => hkept _ (by simp)
  -- the counters come last, whatever became of the copy
  have hrest (after : Store Key)
      (hcopy : (after .holds).Shows Slot.fields
        (Function.update (fun other => (model.hold other).map Held.derivedText) row.id
          ((row.state env raw).hold.map Held.derivedText)))
      (hscore : (after .holdExpiry).Shows Slot.scores
        (Function.update (fun other => (model.hold other).map fun held => (held.deadline : ℤ))
          row.id ((row.state env raw).hold.map fun held => (held.deadline : ℤ))))
      (hsame : ∀ key, key ≠ .holds → key ≠ .holdExpiry → after key = written key) :
      Wp (do
        hincrby (.zoneSummary row.zone) "total" 1
        increase (some row.zone) (some (row.state env raw).publicStatus) 1) env after
        (fun _ after => Building (model.addSeat row.id (row.state env raw)) raw after)
        (Unbuilt raw) := by
    have hsummaryKey : (after (.zoneSummary row.zone)).Shows Slot.fields fields := by
      rw [hsame (.zoneSummary _) nofun nofun, hkept (.zoneSummary _) (by simp)]
      exact hfields
    have hunbuilt : Unbuilt raw after := by
      refine ⟨?_, hcarries.of_eq fun other => hsame (.hold other) nofun nofun⟩
      rw [hsame .modelMeta nofun nofun, hkept .modelMeta (by simp)]
      exact h.missing
    refine wp_mono (countSeat_spec (show (row.state env raw).zone ∈ model.zones from hzone) hid
      hsummaryKey hsummary hunbuilt) ?_ fun _ he => he
    rintro _ last ⟨honly, hlast⟩
    have hlastKey (key : Key) (hkey : key ≠ .zoneSummary row.zone) (hkey' : key ≠ .holds)
        (hkey'' : key ≠ .holdExpiry) : last key = written key :=
      (honly key hkey).trans (hsame key hkey' hkey'')
    refine building_addSeat h hzone hid howner ?_ ?_ ?_ ?_ ?_ hlast fun key hkey => ?_
    · rw [hlastKey .seatZone nofun nofun nofun, ← hwritten]
      exact shows_of_ne nofun (shows_of_ne nofun (by rw [Function.update_self]; exact hseatZone))
    · rw [hlastKey .formal nofun nofun nofun, ← hwritten, hvalid.formalText env raw]
      exact shows_of_ne nofun (by rw [Function.update_self]; exact hformal)
    · rw [honly .holds nofun]
      exact hcopy
    · rw [honly .holdExpiry nofun]
      exact hscore
    · show (last (.zoneSeats row.zone)).Shows Slot.members _
      rw [hlastKey (.zoneSeats _) nofun nofun nofun, ← hwritten, Function.update_self]
      exact hseats
    · simp only [List.mem_cons, List.not_mem_nil, or_false, not_or] at hkey
      rw [hlastKey key hkey.2.2.2.2.2 hkey.2.2.1 hkey.2.2.2.1, hkept key (by
        simp only [List.mem_cons, List.not_mem_nil, or_false, not_or]
        exact ⟨hkey.1, hkey.2.1, hkey.2.2.2.2.1⟩)]
  have hpublic : publicstatus (statusOfName row.status) (liveHold env.now (raw row.id)).isSome =
      some (row.state env raw).publicStatus := by
    rw [hvalid.status env raw]
    exact (row.state env raw).publicstatus_eq
  refine wp_bind (wp_get (hcarries.text row.id) (wp_bind (wp_of_done (pttl_done hcarries) ?_)))
  rw [filter_live]
  dsimp only
  rw [Option.isSome_map, hpublic]
  have hnone : model.hold row.id = none :=
    congrArg (·.bind SeatState.hold) (Model.find_of_notMem hid)
  have hstate : (row.state env raw).hold = liveHold env.now (raw row.id) := rfl
  rw [hstate] at hrest
  cases hlive : liveHold env.now (raw row.id) with
  | none =>
      rw [hlive] at hrest
      refine hrest written ?_ ?_ fun _ _ _ => rfl
      · rw [hkept .holds (by simp), Function.update_eq_self_iff.mpr (by rw [hnone])]
        exact hholds
      · rw [hkept .holdExpiry (by simp), Function.update_eq_self_iff.mpr (by rw [hnone])]
        exact hexpiry
  | some found =>
      rw [hlive] at hrest
      obtain ⟨hfound, hdeadline⟩ := Option.filter_eq_some_iff.mp hlive
      have hnow : env.now < found.deadline := of_decide_eq_true hdeadline
      have hsum : env.now + (holdTtl env.now (raw row.id)).toNat = found.deadline := by
        rw [hfound]
        show env.now + ((found.deadline - env.now : ℕ) : ℤ).toNat = found.deadline
        omega
      have hscore : (env.now : ℤ) + ((holdTtl env.now (raw row.id)).toNat : ℤ) =
          (found.deadline : ℤ) := by omega
      dsimp only [Option.map_some]
      refine wp_bind (wp_now ?_)
      rw [hsum, hscore]
      refine wp_bind (wp_hset (by rw [hkept .holds (by simp)]; exact hholds) fun copies hcopies =>
        wp_bind (wp_zadd (shows_of_ne nofun (by rw [hkept .holdExpiry (by simp)]; exact hexpiry))
          fun scores hscores => hrest _ ?_ ?_ fun key hkey hkey' => ?_))
      · exact shows_of_ne nofun (by rw [Function.update_self]; exact hcopies)
      · rw [Function.update_self]
        exact hscores
      · rw [Function.update_of_ne hkey', Function.update_of_ne hkey]

theorem createSeats_spec {rows : List SeatRow} (h : Building model raw store)
    (hzones : ∀ row ∈ rows, row.zone ∈ model.zones) (hids : ∀ row ∈ rows, row.id ∉ model.ids)
    (hnodup : (rows.map SeatRow.id).Nodup) (hvalid : ∀ row ∈ rows, row.Valid) :
    Wp (forEach createSeat rows) env store
      (fun _ after => Building
        (rows.foldl (fun model row => model.addSeat row.id (row.state env raw)) model) raw after)
      (Unbuilt raw) := by
  induction rows generalizing store model with
  | nil => exact wp_pure h
  | cons row rows ih =>
      have hzone := hzones row List.mem_cons_self
      obtain ⟨hfresh, hnodup⟩ := List.nodup_cons.mp hnodup
      refine wp_bind (wp_mono (createSeat_spec h hzone (hids row List.mem_cons_self)
        (hvalid row List.mem_cons_self)) ?_ fun _ he => he)
      intro _ after hafter
      refine ih hafter (fun other hother => ?_) (fun other hother => ?_) hnodup
        fun other hother => hvalid other (List.mem_cons_of_mem row hother)
      · rw [Model.zones_addSeat]
        exact hzones other (List.mem_cons_of_mem row hother)
      · rw [@Model.ids_addSeat _ _ (row.state env raw) hzone, Finset.mem_insert, not_or]
        refine ⟨fun heq => hfresh ?_, hids other (List.mem_cons_of_mem row hother)⟩
        rw [← heq]
        exact List.mem_map_of_mem hother

end Seats

section Rows

variable {store : Store Key} {env : Env} {raw : Holds} {generation : String}

theorem mem_zonesOf {rows : List SeatRow} {zone : String} :
    zone ∈ zonesOf rows ↔ ∃ row ∈ rows, row.zone = zone := by
  induction rows with
  | nil => simp [zonesOf]
  | cons row rows ih =>
      unfold zonesOf
      rw [List.mem_cons, List.mem_filter, ih]
      by_cases hzone : zone = row.zone
      · simp [hzone]
      · simp [hzone, eq_comm]

theorem createZones_spec {zones : List String}
    (h : Building (Model.bare generation env zones) raw store) (added : List String) :
    Wp (forEach createZone added) env store
      (fun _ after => Building (Model.bare generation env (zones ++ added)) raw after)
      fun _ => False := by
  induction added generalizing store zones with
  | nil =>
      rw [List.append_nil]
      exact wp_pure h
  | cons zone added ih =>
      refine wp_bind (wp_mono (createZone_spec h zone) ?_ fun _ hfalse => hfalse)
      intro _ after hafter
      have hrest := ih hafter
      rwa [List.append_assoc] at hrest

theorem zones_foldl (rows : List SeatRow) (model : Model) :
    (rows.foldl (fun model row => model.addSeat row.id (row.state env raw)) model).zones =
      model.zones := by
  induction rows generalizing model with
  | nil => rfl
  | cons row rows ih => exact (ih _).trans (Model.zones_addSeat _ _ _)

theorem find_foldl {rows : List SeatRow} {model : Model}
    (hzones : ∀ row ∈ rows, row.zone ∈ model.zones) (hnodup : (rows.map SeatRow.id).Nodup)
    (id : String) (seat : SeatState) :
    (rows.foldl (fun model row => model.addSeat row.id (row.state env raw)) model).find id =
      some seat ↔ (∃ row ∈ rows, row.id = id ∧ row.state env raw = seat) ∨
        (id ∉ rows.map SeatRow.id ∧ model.find id = some seat) := by
  induction rows generalizing model with
  | nil => simp
  | cons row rows ih =>
      obtain ⟨hfresh, hrows⟩ := List.nodup_cons.mp hnodup
      have hzone := hzones row List.mem_cons_self
      have hrest := @ih (model.addSeat row.id (row.state env raw)) (fun other hother => by
        rw [Model.zones_addSeat]
        exact hzones other (List.mem_cons_of_mem row hother)) hrows
      rw [List.foldl_cons, hrest, @Model.find_addSeat _ _ (row.state env raw) hzone]
      by_cases hid : id = row.id
      · subst hid
        rw [Function.update_self]
        constructor
        · rintro (⟨other, hother, hsame, -⟩ | ⟨-, hstate⟩)
          · exact absurd (hsame ▸ List.mem_map_of_mem hother) hfresh
          · exact Or.inl ⟨row, List.mem_cons_self, rfl, Option.some.inj hstate⟩
        · rintro (⟨other, hother, hsame, hstate⟩ | ⟨habsent, -⟩)
          · rcases List.mem_cons.mp hother with rfl | hother
            · exact Or.inr ⟨hfresh, congrArg some hstate⟩
            · exact absurd (hsame ▸ List.mem_map_of_mem hother) hfresh
          · exact absurd (List.mem_map_of_mem List.mem_cons_self) habsent
      · rw [Function.update_of_ne hid]
        simp [hid, eq_comm]

/-- Rows that the check of the payload accepts. -/
structure GoodRows (rows : List SeatRow) : Prop where
  valid : ∀ row ∈ rows, row.Valid
  nodup : (rows.map SeatRow.id).Nodup

theorem zones_ofRows (rows : List SeatRow) :
    (Model.ofRows generation env raw rows).zones = zonesOf rows := zones_foldl rows _

theorem generation_ofRows (rows : List SeatRow) :
    (Model.ofRows generation env raw rows).generation = generation := by
  have hfold (model : Model) : (rows.foldl (fun model row =>
      model.addSeat row.id (row.state env raw)) model).generation = model.generation := by
    induction rows generalizing model with
    | nil => rfl
    | cons row rows ih =>
        rw [List.foldl_cons, ih]
        unfold Model.addSeat
        split_ifs <;> rfl
  exact hfold _

theorem find_ofRows {rows : List SeatRow} (h : GoodRows rows) (id : String) (seat : SeatState) :
    (Model.ofRows generation env raw rows).find id = some seat ↔
      ∃ row ∈ rows, row.id = id ∧ row.state env raw = seat := by
  unfold Model.ofRows
  rw [find_foldl (fun row hrow => mem_zonesOf.mpr ⟨row, hrow, rfl⟩) h.nodup, bare_find]
  simp

theorem hold_ofRows {rows : List SeatRow} (h : GoodRows rows) {id : String}
    (hid : id ∈ (Model.ofRows generation env raw rows).ids) :
    (Model.ofRows generation env raw rows).hold id = liveHold env.now (raw id) := by
  obtain ⟨row, -, rfl, hstate⟩ := (find_ofRows h id _).mp (Model.find_of_mem hid)
  rw [Model.hold_of_mem hid, ← hstate]
  rfl

theorem mem_ofRows {rows : List SeatRow} (h : GoodRows rows) {row : SeatRow} (hrow : row ∈ rows) :
    row.id ∈ (Model.ofRows generation env raw rows).ids ∧
      (Model.ofRows generation env raw rows).seat row.id = row.state env raw := by
  have hfind := (@find_ofRows env raw generation rows h row.id _).mpr ⟨row, hrow, rfl, rfl⟩
  by_cases hid : row.id ∈ (Model.ofRows generation env raw rows).ids
  · rw [Model.find_of_mem hid] at hfind
    exact ⟨hid, Option.some.inj hfind⟩
  · rw [Model.find_of_notMem hid] at hfind
    cases hfind

theorem inhabited_ofRows {rows : List SeatRow} (h : GoodRows rows) (hne : rows ≠ []) :
    (Model.ofRows generation env raw rows).Inhabited := by
  unfold Model.Inhabited
  rw [zones_ofRows]
  refine ⟨?_, fun zone hzone => ?_⟩
  · obtain ⟨row, hrow⟩ := List.exists_mem_of_ne_nil _ hne
    exact List.ne_nil_of_mem (mem_zonesOf.mpr ⟨row, hrow, rfl⟩)
  · obtain ⟨row, hrow, rfl⟩ := mem_zonesOf.mp hzone
    obtain ⟨hid, hseat⟩ := @mem_ofRows env raw generation rows h row hrow
    exact ⟨row.id, Model.mem_zoneIds.mpr ⟨hid, by rw [hseat]; rfl⟩⟩

theorem deleteKeys_done (keys : List Key) (store : Store Key) : forEach deleteKey keys env store =
    .done () fun key => if key ∈ keys then none else store key := by
  induction keys generalizing store with
  | nil => rfl
  | cons key keys ih =>
      have hdelete : deleteKey key env store = .done () (Function.update store key none) := rfl
      unfold forEach
      rw [bind_of_done hdelete, ih]
      congr 1
      funext other
      by_cases hrest : other ∈ keys
      · rw [if_pos hrest, if_pos (List.mem_cons_of_mem key hrest)]
      · rw [if_neg hrest, Function.update_apply]
        simp [hrest]

theorem deleteZones_spec (h : Carries store raw) (zones : List String) :
    Wp (forEach deleteZone zones) env store (fun _ after => Carries after raw) fun _ => False := by
  induction zones generalizing store with
  | nil => exact wp_pure h
  | cons zone zones ih =>
      have hrun : deleteZone zone env store = .done () (Function.update (Function.update
        (Function.update store (.zoneSeats zone) none) (.zoneSummary zone) none)
        (.zoneChanges zone) none) := rfl
      refine wp_bind (wp_of_done hrun (ih (h.of_eq fun seat => ?_)))
      simp only [Function.update_apply, reduceCtorEq, if_false]

/-- Without the derived keys the store shows a model without zones. -/
theorem building_nil (h : Carries store raw)
    (hmissing : ∀ key ∈ derivedKeys, store key = none) :
    Building (Model.bare generation env []) raw store := by
  have hshows {τ : Type} {key : Key} {view : Slot → Option τ} {content : τ}
      (hkey : key ∈ derivedKeys) (hview : view none = some content) :
      (store key).Shows view content := by
    rw [hmissing key hkey]
    exact ⟨hview, rfl⟩
  refine ⟨fun key hkey => ?_, hmissing _ (by decide), h⟩
  cases key with
  | modelMeta => exact absurd rfl hkey
  | zones => exact hshows (by decide) rfl
  | seatZone =>
      show (store .seatZone).Shows Slot.fields _
      simp only [bare_find]
      exact hshows (by decide) rfl
  | formal =>
      show (store .formal).Shows Slot.fields _
      simp only [bare_find]
      exact hshows (by decide) rfl
  | holds =>
      show (store .holds).Shows Slot.fields _ ∧ _
      simp only [bare_hold]
      exact ⟨hshows (by decide) rfl, nofun⟩
  | holdExpiry =>
      show (store .holdExpiry).Shows Slot.scores _
      simp only [bare_hold]
      exact hshows (by decide) rfl
  | zoneSeats zone => exact nofun
  | zoneSummary zone => exact nofun
  | zoneChanges zone => exact nofun
  | initLock => trivial
  | hold seat => trivial

theorem install_spec (h : Carries store raw) (hlist : store .zones = none ∨
      (store .zones).kind = some .list) {rows : List SeatRow} (hrows : GoodRows rows) :
    Wp (install generation rows) env store
      (fun reply after => reply = .strings ["READY", generation] ∧
        Stored after (Model.ofRows generation env raw rows) ∧ Carries after raw)
      (Unbuilt raw) := by
  obtain ⟨old, hold⟩ : ∃ old, Slot.list (store .zones) = some old := by
    rcases hlist with hnone | hkind
    · exact ⟨[], by rw [hnone]; rfl⟩
    · obtain ⟨entry, hentry, hvalue⟩ := Option.map_eq_some_iff.mp hkind
      obtain ⟨value, deadline⟩ := entry
      rw [hentry]
      cases value <;> first | exact ⟨_, rfl⟩ | cases hvalue
  refine wp_bind (wp_lrange hold (wp_bind (wp_mono (deleteZones_spec h old) ?_
    fun _ hfalse => hfalse.elim)))
  intro _ cleared hcleared
  refine wp_bind (wp_of_done (deleteKeys_done derivedKeys cleared) ?_)
  have hstart : Building (Model.bare generation env []) raw
      (fun key => if key ∈ derivedKeys then none else cleared key) := by
    refine building_nil (hcleared.of_eq fun seat => ?_) fun key hkey => if_pos hkey
    exact if_neg (by simp [derivedKeys])
  refine wp_bind (wp_mono (createZones_spec hstart (zonesOf rows)) ?_ fun _ hfalse => hfalse.elim)
  intro _ zoned hzoned
  refine wp_bind (wp_mono (createSeats_spec hzoned
    (fun row hrow => mem_zonesOf.mpr ⟨row, hrow, rfl⟩) (fun row _ => Finset.notMem_empty row.id)
    hrows.nodup hrows.valid) ?_ fun _ he => he)
  intro _ built hbuilt
  have hmeta : (built .modelMeta).Shows Slot.fields fun _ => none := by
    rw [hbuilt.missing]
    exact ⟨rfl, rfl⟩
  refine wp_bind (wp_hset hmeta fun slot hslot => wp_bind (wp_bind (wp_del (wp_pure
    (wp_pure ⟨rfl, fun key => ?_, ?_⟩)))))
  · by_cases hkey : key = .modelMeta
    · subst hkey
      simp only [Function.update_apply, reduceCtorEq, if_false, if_true]
      refine ⟨_, hslot, ?_, ?_⟩
      · simp [Slot.written]
      · rw [generation_ofRows]
        simp [Slot.written]
    · by_cases hlock : key = .initLock
      · subst hlock
        trivial
      · rw [Function.update_of_ne hlock, Function.update_of_ne hkey]
        exact hbuilt.shows key hkey
  · refine hbuilt.carries.of_eq fun seat => ?_
    simp only [Function.update_apply, reduceCtorEq, if_false]

theorem checkRow_done (h : Carries store raw) (row : SeatRow) : checkRow row env store =
    .done (if (formal row.formalText).isSome then none else some "invalid init payload") store := by
  have hget : get (.hold row.id) env store = .done ((raw row.id).map Held.text) store :=
    readKey_some (h.text row.id)
  unfold checkRow
  cases hformal : formal row.formalText with
  | none => rfl
  | some next =>
      rw [if_neg (by simp), bind_of_done (compatible_hold h row.id env), if_pos rfl,
        bind_of_done hget, rawhold_map h row.id, if_neg (by cases raw row.id <;> simp)]
      rfl

theorem checkRows_spec (h : Carries store raw) (seen : List String) (rows : List SeatRow) :
    Wp (checkRows seen rows) env store (fun message after => after = store ∧
      (message = none → (∀ row ∈ rows, row.Valid ∧ row.id ∉ seen) ∧
        (rows.map SeatRow.id).Nodup)) fun _ => False := by
  induction rows generalizing seen with
  | nil => exact wp_pure ⟨rfl, fun _ => ⟨nofun, List.nodup_nil⟩⟩
  | cons row rows ih =>
      unfold checkRows
      by_cases hseen : row.id ∈ seen
      · rw [if_pos hseen]
        exact wp_pure ⟨rfl, nofun⟩
      · rw [if_neg hseen]
        refine wp_bind (wp_of_done (checkRow_done h row) ?_)
        by_cases hvalid : (formal row.formalText).isSome = true
        · rw [if_pos hvalid]
          refine wp_mono (ih (row.id :: seen)) ?_ fun _ hfalse => hfalse
          rintro message after ⟨rfl, hrest⟩
          refine ⟨rfl, fun hnone => ?_⟩
          obtain ⟨hrows, hnodup⟩ := hrest hnone
          refine ⟨fun other hother => ?_, List.nodup_cons.mpr ⟨fun hmem => ?_, hnodup⟩⟩
          · rcases List.mem_cons.mp hother with rfl | hother
            · exact ⟨hvalid, hseen⟩
            · exact ⟨(hrows other hother).1,
                fun hmem => (hrows other hother).2 (List.mem_cons_of_mem _ hmem)⟩
          · obtain ⟨other, hother, hsame⟩ := List.mem_map.mp hmem
            exact (hrows other hother).2 (by rw [hsame]; exact List.mem_cons_self)
        · rw [if_neg hvalid]
          exact wp_pure ⟨rfl, nofun⟩

/-- What an initialisation ends with: nothing has changed, or the token had the lock and the model
of the rows is installed. -/
theorem init_spec (h : Carries store raw) (token generation : String) (rows : List SeatRow) :
    Wp (init token generation rows) env store
      (fun reply after => after = store ∨ (store .initLock).text = some (some token) ∧
        GoodRows rows ∧ reply = .strings ["READY", generation] ∧
        Stored after (Model.ofRows generation env raw rows) ∧ Carries after raw)
      fun after => after = store ∨ Unbuilt raw after := by
  refine wp_read writes_readKey (Or.inl rfl) fun lock hlock => ?_
  by_cases htoken : lock = some token
  · have htext : (store .initLock).text = some (some token) := by
      cases hview : (store .initLock).text with
      | none =>
          rw [show get .initLock env store = .raised .wrongType store from readKey_none hview]
            at hlock
          cases hlock
      | some text =>
          rw [show get .initLock env store = .done text store from readKey_some hview] at hlock
          obtain ⟨rfl⟩ := hlock
          rw [htoken]
    rw [if_neg (not_not.mpr htoken)]
    refine wp_bind (wp_mono (checkRows_spec h [] rows) ?_ fun _ hfalse => hfalse.elim)
    rintro message after ⟨rfl, hgood⟩
    cases message with
    | some message => exact wp_pure (Or.inl rfl)
    | none =>
        obtain ⟨hrows, hnodup⟩ := hgood rfl
        have hgoodRows : GoodRows rows := ⟨fun row hrow => (hrows row hrow).1, hnodup⟩
        refine wp_read (readOnly_compatible _ _) (Or.inl rfl) fun compatible hcompatible => ?_
        cases compatible with
        | false => exact wp_pure (Or.inl rfl)
        | true =>
            have hkind : (after .zones).kind = none ∨ (after .zones).kind = some .list := by
              have hpassed : compatible .zones .list env after = .done
                (decide ((after .zones).kind = none ∨ (after .zones).kind = some .list)) after := rfl
              rw [hpassed] at hcompatible
              injection hcompatible with hdecide
              exact of_decide_eq_true hdecide
            have hlist : after .zones = none ∨ (after .zones).kind = some .list :=
              hkind.imp Option.map_eq_none_iff.mp id
            refine wp_mono (install_spec h hlist hgoodRows) ?_ fun _ he => Or.inr he
            rintro reply last ⟨hreply, hstored, hcarries⟩
            exact Or.inr ⟨htext, hgoodRows, hreply, hstored, hcarries⟩
  · rw [if_pos htoken]
    exact wp_pure (Or.inl rfl)

end Rows

end Ticketing.Availability
