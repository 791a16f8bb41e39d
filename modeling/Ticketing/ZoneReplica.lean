import Ticketing.SeatModelReads
import Ticketing.ZoneAvailability

/-!
# A browser that follows a zone

A browser that knows the generation of a model is right about a seat, or an event of the seat comes
after its cursor, or events after its cursor have been trimmed. A hold that had expired when it was
read may also be renewed by its owner without an event; the browser then shows its seat as available.
-/

namespace Ticketing.Availability

open Redis Script

namespace Model

/-- What a browser should show while no hold expires. -/
def shownTo (model : Model) (own id : String) : String :=
  displaySeatStatus (statusName (model.seat id).status) ((model.hold id).map Held.owner) own

/-- The browser hears of the seat once it reads on. -/
def Behind (model : Model) (zone : String) (cursor : ℕ) (id : String) : Prop :=
  (∃ event ∈ (model.changes zone).entries, cursor < event.id ∧ changedSeat event = some id) ∨
    ∀ event ∈ (model.changes zone).entries, cursor < event.id

end Model

/-- A seat is shown as it should be, or as available after a renewal that was not announced. -/
def Right (strict : Bool) (model : Model) (own id : String) (status : Option String) : Prop :=
  status = some (model.shownTo own id) ∨
    strict = false ∧ status = some "AVAILABLE" ∧ model.shownTo own id = "HELD"

/-- A browser that has read a zone up to the cursor. -/
structure Follows (strict : Bool) (own : String) (model : Model) (state : ZoneAvailabilityState)
    (zone : String) (cursor : ℕ) : Prop where
  reached : cursor ≤ (model.changes zone).lastId
  members : ∀ id, id ∈ state.members zone ↔ id ∈ model.zoneIds zone
  seats : ∀ id ∈ model.zoneIds zone,
    Right strict model own id (state.statusBySeatId id) ∨ model.Behind zone cursor id

section Shown

variable {model model' : Model} {own zone id : String} {strict : Bool}

/-- Only what everybody is told of a seat matters. -/
theorem shownTo_congr (hid : id ∈ model.ids) (hid' : id ∈ model'.ids)
    (h : (model'.seat id).shown = (model.seat id).shown) :
    model'.shownTo own id = model.shownTo own id := by
  obtain ⟨hstatus, howner⟩ := Prod.mk.inj h
  unfold Model.shownTo
  rw [Model.hold_of_mem hid, Model.hold_of_mem hid', hstatus]
  by_cases havailable : (model.seat id).status = .available
  · rw [if_pos havailable, if_pos (hstatus.trans havailable)] at howner
    rw [howner]
  · unfold displaySeatStatus
    have hname : statusName (model.seat id).status ≠ "AVAILABLE" := by
      cases hseat : (model.seat id).status with
      | available => exact absurd hseat havailable
      | held => decide
      | sold => decide
    rw [if_pos hname, if_pos hname]

theorem Right.congr {status : Option String} (h : Right strict model own id status)
    (hshown : model'.shownTo own id = model.shownTo own id) :
    Right strict model' own id status := by
  unfold Right
  rw [hshown]
  exact h

/-- An answer shows a seat as it should be, unless its hold has expired. -/
theorem display_cases (model : Model) (now : ℕ) (own id : String) :
    model.display now own id = model.shownTo own id ∨
      model.display now own id = "AVAILABLE" ∧ model.shownTo own id = "HELD" ∧
        ∃ held, model.hold id = some held ∧ held.deadline ≤ now := by
  unfold Model.display Model.shownTo
  cases hhold : model.hold id with
  | none => exact Or.inl rfl
  | some held =>
      rw [Option.filter_some]
      by_cases hlive : now < held.deadline
      · rw [if_pos (decide_eq_true hlive)]
        exact Or.inl rfl
      · rw [if_neg fun htrue => hlive (of_decide_eq_true htrue)]
        unfold displaySeatStatus
        split_ifs with hname hnone hheld hheld
        · exact Or.inl rfl
        · cases hnone
        · cases hnone
        · exact Or.inr ⟨rfl, rfl, held, rfl, not_lt.mp hlive⟩
        · exact Or.inl rfl

theorem right_display {now : ℕ} {status : Option String}
    (hstatus : status = some (model.display now own id))
    (hlive : strict = true → ∀ held, model.hold id = some held → now < held.deadline) :
    Right strict model own id status := by
  rcases display_cases model now own id with hsame | ⟨havailable, hshown, held, hheld, hover⟩
  · exact Or.inl (by rw [hstatus, hsame])
  · cases strict with
    | true => exact absurd (hlive rfl held hheld) (not_lt.mpr hover)
    | false => exact Or.inr ⟨rfl, by rw [hstatus, havailable], hshown⟩

end Shown

section Advances

variable {model model' : Model} {own zone id : String} {strict : Bool} {cursor : ℕ}
  {state state' : ZoneAvailabilityState}

/-- The end of a list has an element of the list, or ends after it. -/
theorem mem_or_suffix {α : Type} {l front back : List α} {a : α} (h : l <:+ front ++ a :: back) :
    a ∈ l ∨ l <:+ back := by
  rcases List.suffix_or_suffix_of_suffix h (List.suffix_append front (a :: back)) with hend | hstart
  · rcases List.suffix_cons_iff.mp hend with rfl | hback
    · exact Or.inl List.mem_cons_self
    · exact Or.inr hback
  · exact Or.inl (hstart.subset List.mem_cons_self)

/-- An event after the cursor is still there, or what is left comes after the cursor. -/
theorem behind_of_event {events : List StreamEntry} (hadded : Added model model' zone events)
    {event : StreamEntry} {front back : List StreamEntry}
    (hsplit : (model.changes zone).entries ++ events = front ++ event :: back)
    (hevent : cursor < event.id) (hseat : changedSeat event = some id)
    (hback : ∀ later ∈ back, cursor < later.id) : model'.Behind zone cursor id := by
  have hentries := hadded.entries
  rw [hsplit] at hentries
  rcases mem_or_suffix hentries with hkept | hshort
  · exact Or.inl ⟨event, hkept, hevent, hseat⟩
  · exact Or.inr fun later hlater => hback later (hshort.subset hlater)

theorem Model.Behind.added {events : List StreamEntry} (h : model.Behind zone cursor id)
    (hsound : (model.changes zone).Sound) (hcursor : cursor ≤ (model.changes zone).lastId)
    (hadded : Added model model' zone events) : model'.Behind zone cursor id := by
  have hnew : ∀ event ∈ events, cursor < event.id := fun event hevent =>
    lt_of_le_of_lt hcursor (hadded.fresh event hevent).newer
  rcases h with ⟨event, hmem, hafter, hseat⟩ | htrimmed
  · obtain ⟨front, back, hsplit⟩ := List.append_of_mem hmem
    have hall : (model.changes zone).entries ++ events = front ++ event :: (back ++ events) := by
      rw [hsplit, List.append_assoc]
      rfl
    refine behind_of_event hadded hall hafter hseat fun later hlater => ?_
    rcases List.mem_append.mp hlater with hback | hadd
    · have hsorted := hsound.sorted
      rw [hsplit, List.map_append, List.map_cons] at hsorted
      have hlast := (List.pairwise_cons.mp (List.pairwise_append.mp hsorted).2.1).1
      exact hafter.trans (hlast later.id (List.mem_map_of_mem hback))
    · exact hnew later hadd
  · refine Or.inr fun event hevent => ?_
    rcases List.mem_append.mp (hadded.entries.subset hevent) with hold | hadd
    · exact htrimmed event hold
    · exact hnew event hadd

/-- A browser still follows when the model moves on. -/
theorem Follows.advance (h : Follows strict own model state zone cursor)
    (hadvances : model.Advances model') (hsound : (model.changes zone).Sound) :
    Follows strict own model' state zone cursor := by
  obtain ⟨events, hadded⟩ := hadvances.added zone
  have hzone := hadvances.layout.zoneIds zone
  refine ⟨h.reached.trans hadded.last, fun id => ?_, fun id hid => ?_⟩
  · rw [hzone]
    exact h.members id
  · rw [hzone] at hid
    have hmem := (Model.mem_zoneIds.mp hid).1
    have hmem' : id ∈ model'.ids := by
      rw [hadvances.layout.ids]
      exact hmem
    by_cases hshown : (model'.seat id).shown = (model.seat id).shown
    · rcases h.seats id hid with hright | hbehind
      · exact Or.inl (hright.congr (shownTo_congr hmem hmem' hshown))
      · exact Or.inr (hbehind.added hsound h.reached hadded)
    · obtain ⟨event, hevent, hseat⟩ := hadded.told id hid hshown
      obtain ⟨front, back, hsplit⟩ := List.append_of_mem hevent
      have hnew : ∀ later ∈ events, cursor < later.id := fun later hlater =>
        lt_of_le_of_lt h.reached (hadded.fresh later hlater).newer
      have hall : (model.changes zone).entries ++ events =
          ((model.changes zone).entries ++ front) ++ event :: back := by
        rw [hsplit, List.append_assoc]
      refine Or.inr (behind_of_event hadded hall (hnew event hevent) hseat fun later hlater =>
        hnew later ?_)
      rw [hsplit]
      exact List.mem_append_right _ (List.mem_cons_of_mem _ hlater)

end Advances

section Delta

/-- The events of a stream after the cursor, in the order of the stream. -/
def eventsAfter (stream : Stream) (cursor : ℕ) : List StreamEntry :=
  stream.entries.filter fun event => decide (cursor < event.id)

/-- The cursor after the events that were taken. -/
def cursorAfter (cursor : ℕ) (taken : List StreamEntry) : ℕ :=
  (taken.getLast?.map StreamEntry.id).getD cursor

theorem streamText_cursorAfter (cursor : ℕ) (taken : List StreamEntry) :
    (taken.getLast?.map fun event => streamText event.id).getD (streamText cursor) =
      streamText (cursorAfter cursor taken) := by
  unfold cursorAfter
  cases taken.getLast? <;> rfl

variable {stream : Stream} {cursor limit : ℕ} {event : StreamEntry}

theorem cursorAfter_le (h : stream.Sound) (hcursor : cursor ≤ stream.lastId) :
    cursorAfter cursor (((eventsAfter stream cursor).take (limit + 1)).take limit) ≤
      stream.lastId := by
  unfold cursorAfter
  cases hlast : (((eventsAfter stream cursor).take (limit + 1)).take limit).getLast? with
  | none => exact hcursor
  | some last =>
      have hmem := List.mem_of_getLast? hlast
      exact h.id_le (List.mem_filter.mp (List.mem_of_mem_take (List.mem_of_mem_take hmem))).1

/-- An event after the cursor is taken, or it comes after the events that are taken and there is
more. -/
theorem taken_or_later (h : stream.Sound) (hevent : event ∈ stream.entries)
    (hafter : cursor < event.id) :
    event ∈ ((eventsAfter stream cursor).take (limit + 1)).take limit ∨
      cursorAfter cursor (((eventsAfter stream cursor).take (limit + 1)).take limit) < event.id ∧
        limit < ((eventsAfter stream cursor).take (limit + 1)).length := by
  have hmem : event ∈ eventsAfter stream cursor :=
    List.mem_filter.mpr ⟨hevent, decide_eq_true hafter⟩
  have htake : ((eventsAfter stream cursor).take (limit + 1)).take limit =
      (eventsAfter stream cursor).take limit := by
    rw [List.take_take, min_eq_left (Nat.le_succ limit)]
  rw [htake]
  have hsorted : ((eventsAfter stream cursor).map StreamEntry.id).Pairwise (· < ·) :=
    h.sorted.sublist (List.filter_sublist.map _)
  rw [← List.take_append_drop limit (eventsAfter stream cursor)] at hmem hsorted
  rcases List.mem_append.mp hmem with htaken | hlater
  · exact Or.inl htaken
  · refine Or.inr ⟨?_, ?_⟩
    · rw [List.map_append, List.pairwise_append] at hsorted
      unfold cursorAfter
      cases hlast : ((eventsAfter stream cursor).take limit).getLast? with
      | none => exact hafter
      | some last =>
          exact hsorted.2.2 last.id (List.mem_map_of_mem (List.mem_of_getLast? hlast)) event.id
            (List.mem_map_of_mem hlater)
    · have hlength : limit < (eventsAfter stream cursor).length := by
        by_contra hshort
        rw [List.drop_eq_nil_of_le (not_lt.mp hshort)] at hlater
        cases hlater
      rw [List.length_take]
      omega

end Delta

section Answers

variable {model : Model} {own zone generation since : String} {strict : Bool} {now limit : ℕ}
  {state state' : ZoneAvailabilityState} {selection : Selection} {polling : SeatReadConfig}
  {session : String}

theorem request_named {force : Bool}
    (h : state.request zone force = (generation, since)) (hnamed : generation ≠ "") :
    ∃ sync, state.sync zone = some sync ∧ sync.generation = some generation ∧
      sync.cursor = some since := by
  unfold ZoneAvailabilityState.request at h
  split at h
  · rename_i loaded known cursor degraded hsync
    split_ifs at h
    · exact absurd (congrArg Prod.fst h).symm hnamed
    · obtain ⟨rfl, rfl⟩ := Prod.mk.inj h
      exact ⟨_, hsync, rfl, rfl⟩
  · exact absurd (congrArg Prod.fst h).symm hnamed

/-- A snapshot tells everything. -/
theorem follows_of_snapshot {ids : List String} {reset reason : String}
    (hmembers : ∀ id, id ∈ ids ↔ id ∈ model.zoneIds zone)
    (happlies : state.Applies (model.answer polling session zone own now
      ⟨"snapshot", streamText (model.changes zone).lastId, reset, "0", reason, ids⟩) state')
    (hlive : strict = true → ∀ id ∈ model.zoneIds zone, ∀ held, model.hold id = some held →
      now < held.deadline) :
    Follows strict own model state' zone (model.changes zone).lastId ∧
      ∀ id ∈ model.zoneIds zone, Right strict model own id (state'.statusBySeatId id) := by
  have hright : ∀ id ∈ model.zoneIds zone, Right strict model own id (state'.statusBySeatId id) := by
    intro id hid
    have hseat := happlies.told ⟨id, model.display now own id⟩
      (List.mem_map.mpr ⟨id, (hmembers id).mpr hid, rfl⟩)
    exact right_display hseat fun htrue => hlive htrue id hid
  have hlayout : state'.members zone = state.members zone := by
    unfold ZoneAvailabilityState.members
    rw [happlies.layout]
  refine ⟨⟨le_rfl, fun id => ?_, fun id hid => Or.inl (hright id hid)⟩, hright⟩
  rw [hlayout]
  constructor
  · intro hid
    obtain ⟨seat, hseat, rfl⟩ := happlies.complete rfl id hid
    obtain ⟨other, hother, rfl⟩ := List.mem_map.mp hseat
    exact (hmembers other).mp hother
  · intro hid
    exact happlies.members ⟨id, model.display now own id⟩
      (List.mem_map.mpr ⟨id, (hmembers id).mpr hid, rfl⟩)

/-- A delta tells what was behind, as far as it goes. -/
theorem follows_of_delta {cursor : ℕ} (h : Follows strict own model state zone cursor)
    (hsound : (model.changes zone).Sound)
    (hfirst : ∃ event ∈ (model.changes zone).entries, ¬ cursor < event.id)
    (happlies : state.Applies (model.answer polling session zone own now
      (deltaSelection (streamText cursor) limit
        ((eventsAfter (model.changes zone) cursor).take (limit + 1)))) state')
    (hlive : strict = true → ∀ id ∈ model.zoneIds zone, ∀ held, model.hold id = some held →
      now < held.deadline) :
    Follows strict own model state' zone (cursorAfter cursor
        (((eventsAfter (model.changes zone) cursor).take (limit + 1)).take limit)) ∧
      (¬ limit < ((eventsAfter (model.changes zone) cursor).take (limit + 1)).length →
        ∀ id ∈ model.zoneIds zone, Right strict model own id (state'.statusBySeatId id)) := by
  have hcases : ∀ id ∈ model.zoneIds zone, Right strict model own id (state'.statusBySeatId id) ∨
      limit < ((eventsAfter (model.changes zone) cursor).take (limit + 1)).length ∧
        model.Behind zone (cursorAfter cursor
          (((eventsAfter (model.changes zone) cursor).take (limit + 1)).take limit)) id := by
    intro id hid
    by_cases htold : id ∈ changedSeats []
        (((eventsAfter (model.changes zone) cursor).take (limit + 1)).take limit)
    · have hseat := happlies.told ⟨id, model.display now own id⟩
        (List.mem_map.mpr ⟨id, htold, rfl⟩)
      exact Or.inl (right_display hseat fun htrue => hlive htrue id hid)
    · have hsame : state'.statusBySeatId id = state.statusBySeatId id := by
        refine happlies.untold id (fun seat hseat => ?_) (Or.inl (show "delta" ≠ "snapshot" by decide))
        obtain ⟨other, hother, rfl⟩ := List.mem_map.mp hseat
        rintro rfl
        exact htold hother
      rw [hsame]
      rcases h.seats id hid with hright | ⟨event, hevent, hafter, hseat⟩ | htrimmed
      · exact Or.inl hright
      · rcases @taken_or_later _ cursor limit event hsound hevent hafter with htaken | ⟨hlater, hmore⟩
        · exact absurd (mem_changedSeats.mpr ⟨List.not_mem_nil, event, htaken, hseat⟩) htold
        · exact Or.inr ⟨hmore, Or.inl ⟨event, hevent, hlater, hseat⟩⟩
      · obtain ⟨event, hevent, hkept⟩ := hfirst
        exact absurd (htrimmed event hevent) hkept
  have hlayout : state'.members zone = state.members zone := by
    unfold ZoneAvailabilityState.members
    rw [happlies.layout]
  refine ⟨⟨cursorAfter_le hsound h.reached, fun id => ?_, fun id hid =>
    (hcases id hid).imp_right And.right⟩, fun hend id hid =>
      (hcases id hid).resolve_right fun hmore => hend hmore.1⟩
  rw [hlayout]
  exact h.members id

/-- A browser gets a snapshot, or the events after the cursor up to which it follows the zone. -/
theorem selects_cases {force : Bool}
    (hselects : model.Selects zone generation since limit selection)
    (hrequest : state.request zone force = (generation, since))
    (hfollows : ∀ sync, state.sync zone = some sync → sync.generation = some model.generation →
      ∃ cursor, sync.cursor = some (streamText cursor) ∧
        Follows strict own model state zone cursor) :
    (∃ ids reset reason, ids.Nodup ∧ (∀ id, id ∈ ids ↔ id ∈ model.zoneIds zone) ∧ selection =
        ⟨"snapshot", streamText (model.changes zone).lastId, reset, "0", reason, ids⟩) ∨
      ∃ cursor sync, state.sync zone = some sync ∧ sync.generation = some model.generation ∧
        since = streamText cursor ∧ Follows strict own model state zone cursor ∧
        (∃ event ∈ (model.changes zone).entries, ¬ cursor < event.id) ∧
        selection = deltaSelection (streamText cursor) limit
          ((eventsAfter (model.changes zone) cursor).take (limit + 1)) := by
  cases hselects with
  | @snapshot ids reset reason hnodup hmembers =>
      exact Or.inl ⟨ids, reset, reason, hnodup, hmembers, rfl⟩
  | @delta id first hknown hnamed hfound hstart hkept =>
      obtain ⟨sync, hsync, hgeneration, hcursor⟩ := request_named hrequest hnamed
      rw [hknown] at hgeneration
      obtain ⟨cursor, htext, hold⟩ := hfollows sync hsync hgeneration
      obtain rfl := Option.some.inj (hcursor.symm.trans htext)
      obtain rfl := streamId_streamText hfound
      rw [cursorless_streamText] at hkept
      have hfirst : ¬ id < first.id := fun hless => hkept (by rw [decide_eq_true hless])
      exact Or.inr ⟨id, sync, hsync, hgeneration, rfl, hold,
        ⟨first, List.mem_of_mem_head? hstart, hfirst⟩, rfl⟩

/-- An answer that is applied leaves the browser following the zone, and up to date when there is no
more to read. -/
theorem follows_of_answer {force : Bool}
    (hselects : model.Selects zone generation since limit selection)
    (hrequest : state.request zone force = (generation, since))
    (hsound : (model.changes zone).Sound)
    (happlies : state.Applies (model.answer polling session zone own now selection) state')
    (hfollows : ∀ sync, state.sync zone = some sync → sync.generation = some model.generation →
      ∃ cursor, sync.cursor = some (streamText cursor) ∧ Follows strict own model state zone cursor)
    (hlive : strict = true → ∀ id ∈ model.zoneIds zone, ∀ held, model.hold id = some held →
      now < held.deadline) :
    ∃ cursor, selection.cursor = streamText cursor ∧ Follows strict own model state' zone cursor ∧
      (selection.more ≠ "1" → ∀ id ∈ model.zoneIds zone,
        Right strict model own id (state'.statusBySeatId id)) := by
  rcases selects_cases hselects hrequest hfollows with ⟨ids, reset, reason, -, hmembers, rfl⟩ |
    ⟨cursor, -, -, -, -, hold, hfirst, rfl⟩
  · obtain ⟨hnew, hright⟩ := follows_of_snapshot hmembers happlies hlive
    exact ⟨_, rfl, hnew, fun _ => hright⟩
  · obtain ⟨hnew, hright⟩ := follows_of_delta hold hsound hfirst happlies hlive
    refine ⟨_, streamText_cursorAfter cursor _, hnew, fun hend => hright fun hmore => hend ?_⟩
    exact if_pos hmore

/-- What is told of one zone changes nothing about another. -/
theorem Follows.other {cursor : ℕ} {response : SyncBody} {other : String}
    (h : Follows strict own model state other cursor) (happlies : state.Applies response state')
    (hother : other ≠ response.zone) : Follows strict own model state' other cursor := by
  refine ⟨h.reached, fun id => ?_, fun id hid => ?_⟩
  · unfold ZoneAvailabilityState.members
    rw [happlies.layout]
    exact h.members id
  · have hmem := (h.members id).mpr hid
    have helsewhere : id ∉ state.members response.zone := fun hzone =>
      hother (ZoneAvailabilityState.zone_unique hmem hzone)
    rw [happlies.untold id (fun seat hseat hsame => helsewhere
      (hsame ▸ happlies.members seat hseat)) (Or.inr helsewhere)]
    exact h.seats id hid

end Answers

end Ticketing.Availability
