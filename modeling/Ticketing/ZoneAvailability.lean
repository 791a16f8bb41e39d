import Ticketing.AvailabilityReads

/-!
# What a browser knows of the zones

A browser keeps the status of every seat that it has been told, and for every zone the generation and
the cursor to read on from. An answer is applied as a whole or not at all.
-/

namespace Ticketing.Availability

structure SeatStatic where
  id : String
  zone : String

structure ZoneSync where
  loaded : Bool
  generation : Option String
  cursor : Option String
  degraded : Bool

/-- The layout lists each seat once. -/
structure ZoneAvailabilityState where
  layout : List SeatStatic
  statusBySeatId : String → Option String
  sync : String → Option ZoneSync
  summaries : List ZoneCounts
  nodup : (layout.map SeatStatic.id).Nodup

namespace ZoneAvailabilityState

def members (state : ZoneAvailabilityState) (zone : String) : List String :=
  (state.layout.filter fun seat => decide (seat.zone = zone)).map SeatStatic.id

/-- Seats among these, each once, in a status that is known. -/
def checked (ids : List String) : List String → List SeatView → Bool
  | _, [] => true
  | seen, seat :: seats =>
      decide (seat.id ∈ ids ∧ seat.id ∉ seen ∧ seat.status ∈ ["AVAILABLE", "HELD", "SOLD"]) &&
        checked ids (seat.id :: seen) seats

/-- A delta goes on from what was loaded before. -/
def continues (state : ZoneAvailabilityState) (response : SyncBody) : Bool :=
  match state.sync response.zone with
  | some previous => previous.loaded && decide (previous.generation = response.generation)
  | none => false

def accepts (state : ZoneAvailabilityState) (response : SyncBody) : Bool :=
  checked (state.members response.zone) [] response.seats &&
    (decide (response.mode ≠ "snapshot") ||
      decide (response.seats.length = (state.members response.zone).toFinset.card)) &&
    (decide (response.mode ≠ "delta") || state.continues response)

def setAll (statuses : String → Option String) (seats : List SeatView) : String → Option String :=
  seats.foldl (fun statuses seat => Function.update statuses seat.id (some seat.status)) statuses

/-- Nothing when the answer does not fit. -/
def apply (state : ZoneAvailabilityState) (response : SyncBody) : Option ZoneAvailabilityState :=
  if state.accepts response then
    some { state with
      statusBySeatId := setAll (fun id =>
        if response.mode = "snapshot" ∧ id ∈ state.members response.zone then none
        else state.statusBySeatId id) response.seats
      sync := Function.update state.sync response.zone
        (some ⟨true, response.generation, response.cursor, response.degraded⟩)
      summaries := response.zones }
  else none

/-- The generation and the cursor that a page sends along, both empty where it sends none. -/
def request (state : ZoneAvailabilityState) (zone : String) (force : Bool) : String × String :=
  match state.sync zone with
  | some ⟨_, some generation, some cursor, _⟩ =>
      if force ∨ generation = "" ∨ cursor = "" then ("", "") else (generation, cursor)
  | _ => ("", "")

/-- There is more to read, but the cursor is where it was. -/
def stalled (since : String) (response : SyncBody) : Bool :=
  response.hasMore && decide (since ≠ "" ∧ response.cursor = some since)

section Facts

variable {state state' : ZoneAvailabilityState} {response : SyncBody}

theorem checked_seats {ids seen : List String} {seats : List SeatView}
    (h : checked ids seen seats = true) :
    (∀ seat ∈ seats, seat.id ∈ ids ∧ seat.id ∉ seen) ∧ (seats.map SeatView.id).Nodup := by
  induction seats generalizing seen with
  | nil => exact ⟨nofun, List.nodup_nil⟩
  | cons seat seats ih =>
      obtain ⟨hseat, hrest⟩ := (Bool.and_eq_true_iff).mp h
      obtain ⟨hmem, hnew, -⟩ := of_decide_eq_true hseat
      obtain ⟨hothers, hnodup⟩ := ih hrest
      refine ⟨fun other hother => ?_, ?_⟩
      · rcases List.mem_cons.mp hother with rfl | hother
        · exact ⟨hmem, hnew⟩
        · obtain ⟨hids, hseen⟩ := hothers other hother
          exact ⟨hids, fun hmem => hseen (List.mem_cons_of_mem _ hmem)⟩
      · rw [List.map_cons, List.nodup_cons]
        refine ⟨fun hagain => ?_, hnodup⟩
        obtain ⟨other, hother, hid⟩ := List.mem_map.mp hagain
        have hseen := (hothers other hother).2
        rw [hid] at hseen
        exact hseen List.mem_cons_self

theorem setAll_of_notMem {statuses : String → Option String} {seats : List SeatView} {id : String}
    (h : ∀ seat ∈ seats, seat.id ≠ id) : setAll statuses seats id = statuses id := by
  induction seats generalizing statuses with
  | nil => rfl
  | cons seat seats ih =>
      have hrest : setAll (Function.update statuses seat.id (some seat.status)) seats id = _ :=
        ih fun other hother => h other (List.mem_cons_of_mem seat hother)
      exact hrest.trans (Function.update_of_ne (h seat List.mem_cons_self).symm _ _)

theorem setAll_of_mem {statuses : String → Option String} {seats : List SeatView}
    (hnodup : (seats.map SeatView.id).Nodup) {seat : SeatView} (h : seat ∈ seats) :
    setAll statuses seats seat.id = some seat.status := by
  induction seats generalizing statuses with
  | nil => cases h
  | cons first seats ih =>
      obtain ⟨hnew, hrest⟩ := List.nodup_cons.mp hnodup
      rcases List.mem_cons.mp h with rfl | hmem
      · have hkept : setAll (Function.update statuses seat.id (some seat.status)) seats seat.id = _ :=
          setAll_of_notMem fun other hother hid =>
            hnew (List.mem_map.mpr ⟨other, hother, hid⟩)
        exact hkept.trans (Function.update_self _ _ _)
      · exact ih hrest hmem

/-- What an answer that is applied was checked for, and what comes of it. -/
structure Applies (state : ZoneAvailabilityState) (response : SyncBody)
    (state' : ZoneAvailabilityState) : Prop where
  layout : state'.layout = state.layout
  sync : state'.sync = Function.update state.sync response.zone
    (some ⟨true, response.generation, response.cursor, response.degraded⟩)
  members : ∀ seat ∈ response.seats, seat.id ∈ state.members response.zone
  told : ∀ seat ∈ response.seats, state'.statusBySeatId seat.id = some seat.status
  untold : ∀ id, (∀ seat ∈ response.seats, seat.id ≠ id) →
    (response.mode ≠ "snapshot" ∨ id ∉ state.members response.zone) →
      state'.statusBySeatId id = state.statusBySeatId id
  complete : response.mode = "snapshot" → ∀ id ∈ state.members response.zone,
    ∃ seat ∈ response.seats, seat.id = id
  continued : response.mode = "delta" → ∃ previous, state.sync response.zone = some previous ∧
    previous.generation = response.generation

theorem applies (h : state.apply response = some state') : state.Applies response state' := by
  unfold apply at h
  split_ifs at h with haccepts
  obtain rfl := Option.some.inj h
  unfold accepts at haccepts
  rw [Bool.and_eq_true_iff, Bool.and_eq_true_iff, Bool.or_eq_true_iff, Bool.or_eq_true_iff,
    decide_eq_true_iff, decide_eq_true_iff, decide_eq_true_iff] at haccepts
  obtain ⟨⟨hchecked, hcomplete⟩, hcontinues⟩ := haccepts
  obtain ⟨hmembers, hnodup⟩ := checked_seats hchecked
  refine ⟨rfl, rfl, fun seat hseat => (hmembers seat hseat).1, fun seat hseat =>
    setAll_of_mem hnodup hseat, fun id huntold hkept => ?_, fun hmode => ?_, fun hmode => ?_⟩
  · refine (setAll_of_notMem huntold).trans (if_neg ?_)
    rintro ⟨hmode, hid⟩
    exact hkept.elim (fun hne => hne hmode) fun hnot => hnot hid
  · have hcard := hcomplete.resolve_left fun hne => hne hmode
    have hsubset : (response.seats.map SeatView.id).toFinset ⊆
        (state.members response.zone).toFinset := by
      intro id hid
      obtain ⟨seat, hseat, rfl⟩ := List.mem_map.mp (List.mem_toFinset.mp hid)
      exact List.mem_toFinset.mpr (hmembers seat hseat).1
    have hsame := Finset.eq_of_subset_of_card_le hsubset (by
      rw [List.toFinset_card_of_nodup hnodup, List.length_map, hcard])
    intro id hid
    have hmem := List.mem_toFinset.mpr hid
    rw [← hsame] at hmem
    obtain ⟨seat, hseat, rfl⟩ := List.mem_map.mp (List.mem_toFinset.mp hmem)
    exact ⟨seat, hseat, rfl⟩
  · have hprevious := hcontinues.resolve_left fun hne => hne hmode
    unfold continues at hprevious
    cases hsync : state.sync response.zone with
    | none =>
        rw [hsync] at hprevious
        cases hprevious
    | some previous =>
        rw [hsync] at hprevious
        exact ⟨previous, rfl, of_decide_eq_true ((Bool.and_eq_true_iff).mp hprevious).2⟩

/-- A seat is in one zone only. -/
theorem zone_unique {zone other id : String} (h : id ∈ state.members zone)
    (h' : id ∈ state.members other) : zone = other := by
  obtain ⟨seat, hseat, rfl⟩ := List.mem_map.mp h
  obtain ⟨seat', hseat', hid⟩ := List.mem_map.mp h'
  obtain ⟨hmem, hzone⟩ := List.mem_filter.mp hseat
  obtain ⟨hmem', hother⟩ := List.mem_filter.mp hseat'
  obtain rfl := List.inj_on_of_nodup_map state.nodup hmem' hmem hid
  exact (of_decide_eq_true hzone).symm.trans (of_decide_eq_true hother)

end Facts

end ZoneAvailabilityState

end Ticketing.Availability
