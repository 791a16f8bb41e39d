import Ticketing.SeatModelInstall
import Ticketing.SeatModelCleanup
import Ticketing.AvailabilityReads

/-!
# What the change streams tell

As a model moves on, every seat that is shown otherwise than before has an event that is newer than
all events before. Trimming drops old events only, so who knows a model and reads on from its last
events learns which seats to look at again.
-/

namespace Ticketing.Availability

open Redis

/-- What a browser is told of a seat: its status, and the owner of its hold while it is formally
available. -/
def SeatState.shown (seat : SeatState) : SeatStatus × Option String :=
  (seat.status, if seat.status = .available then seat.hold.map Held.owner else none)

/-- Events that stand after all others, about seats of the zone. -/
structure Fresh (model : Model) (zone : String) (last : ℕ) (event : StreamEntry) : Prop where
  newer : (model.changes zone).lastId < event.id
  last : event.id ≤ last
  seats : ∀ id, changedSeat event = some id → id ∈ model.zoneIds zone

/-- The zone has moved on by the added events. -/
structure Added (model model' : Model) (zone : String) (added : List StreamEntry) : Prop where
  entries : (model'.changes zone).entries <:+ (model.changes zone).entries ++ added
  fresh : ∀ event ∈ added, Fresh model zone (model'.changes zone).lastId event
  last : (model.changes zone).lastId ≤ (model'.changes zone).lastId
  told : ∀ id ∈ model.zoneIds zone, (model'.seat id).shown ≠ (model.seat id).shown →
    ∃ event ∈ added, changedSeat event = some id

structure Model.Advances (model model' : Model) : Prop where
  layout : model.SameLayout model'
  added : ∀ zone, ∃ events, Added model model' zone events

/-- The events of every zone are about its seats. -/
def Model.Logged (model : Model) : Prop := ∀ zone ∈ model.zones,
  ∀ event ∈ (model.changes zone).entries, ∀ id, changedSeat event = some id → id ∈ model.zoneIds zone

namespace Model

section Advances

variable {model model' model'' : Model}

theorem sameLayout_setHold (model : Model) (id : String) (held : Option Held) :
    model.SameLayout (model.setHold id held) :=
  sameLayout_modify (f := fun seat => { seat with hold := held }) fun _ => rfl

theorem sameLayout_setFormal (model : Model) (id : String) (status : SeatStatus) (version : ℕ) :
    model.SameLayout (model.setFormal id status version) :=
  sameLayout_modify (f := fun seat => { seat with status, version }) fun _ => rfl

/-- Nobody sees a change. -/
theorem advances_of_shown (hlayout : model.SameLayout model')
    (hchanges : model'.changes = model.changes)
    (hshown : ∀ id, (model'.seat id).shown = (model.seat id).shown) : model.Advances model' := by
  refine ⟨hlayout, fun zone => ⟨[], ?_, nofun, ?_, fun id _ hne => absurd (hshown id) hne⟩⟩
  · rw [hchanges, List.append_nil]
  · rw [hchanges]

theorem Advances.refl (model : Model) : model.Advances model :=
  advances_of_shown (.refl model) rfl fun _ => rfl

theorem Advances.trans (h : model.Advances model') (h' : model'.Advances model'') :
    model.Advances model'' := by
  refine ⟨h.layout.trans h'.layout, fun zone => ?_⟩
  obtain ⟨events, hadded⟩ := h.added zone
  obtain ⟨events', hadded'⟩ := h'.added zone
  have hzone := h.layout.zoneIds zone
  refine ⟨events ++ events', ?_, fun event hevent => ?_, hadded.last.trans hadded'.last,
    fun id hid hne => ?_⟩
  · rw [← List.append_assoc]
    obtain ⟨front, hfront⟩ := hadded.entries
    refine hadded'.entries.trans ⟨front, ?_⟩
    rw [← hfront, List.append_assoc]
  · rcases List.mem_append.mp hevent with hevent | hevent
    · have hfresh := hadded.fresh event hevent
      exact ⟨hfresh.newer, hfresh.last.trans hadded'.last, hfresh.seats⟩
    · have hfresh := hadded'.fresh event hevent
      refine ⟨lt_of_le_of_lt hadded.last hfresh.newer, hfresh.last, fun id hid => ?_⟩
      rw [← hzone]
      exact hfresh.seats id hid
  · by_cases hfirst : (model'.seat id).shown = (model.seat id).shown
    · rw [← hfirst] at hne
      obtain ⟨event, hevent, hseat⟩ := hadded'.told id (by rw [hzone]; exact hid) hne
      exact ⟨event, List.mem_append_right _ hevent, hseat⟩
    · obtain ⟨event, hevent, hseat⟩ := hadded.told id hid hfirst
      exact ⟨event, List.mem_append_left _ hevent, hseat⟩

theorem Advances.logged (h : model.Advances model') (hlogged : model.Logged) : model'.Logged := by
  intro zone hzone event hevent id hid
  obtain ⟨events, hadded⟩ := h.added zone
  rw [h.layout.zoneIds zone]
  rcases List.mem_append.mp (hadded.entries.subset hevent) with hold | hnew
  · exact hlogged zone (by rw [← h.layout.zones]; exact hzone) event hold id hid
  · exact (hadded.fresh event hnew).seats id hid

/-- The change of one seat together with its event. -/
theorem advances_log {id : String} (hid : id ∈ model.ids) (hlayout : model.SameLayout model')
    (hchanges : model'.changes = model.changes)
    (hothers : ∀ other, other ≠ id → model'.seat other = model.seat other) (env : Env)
    (maxlen : ℕ) : model.Advances (model'.log env maxlen id) := by
  have hsame : (model'.seat id).zone = (model.seat id).zone := hlayout.zone id
  refine ⟨⟨hlayout.generation, hlayout.zones, hlayout.ids, hlayout.zone⟩, fun zone => ?_⟩
  have hlog : (model'.log env maxlen id).changes = Function.update model.changes
      (model.seat id).zone ((model.changes (model.seat id).zone).add env (some maxlen)
        [("kind", "change"), ("seatId", id)]) := by
    show Function.update model'.changes _ _ = _
    rw [hchanges, hsame]
  by_cases hzone : zone = (model.seat id).zone
  · subst hzone
    refine ⟨[⟨(model.changes (model.seat id).zone).nextId env.now,
      [("kind", "change"), ("seatId", id)]⟩], ?_, fun event hevent => ?_, ?_, fun other _ hne => ?_⟩
    · rw [hlog, Function.update_self]
      exact Stream.entries_add _ _ _ _
    · obtain rfl := List.mem_singleton.mp hevent
      rw [hlog, Function.update_self]
      refine ⟨Stream.lastId_lt_nextId _ _, le_rfl, fun other hother => ?_⟩
      have hself : changedSeat ⟨(model.changes (model.seat id).zone).nextId env.now,
          [("kind", "change"), ("seatId", id)]⟩ = some id := rfl
      rw [hself] at hother
      obtain rfl := Option.some.inj hother
      exact mem_own_zone hid
    · rw [hlog, Function.update_self, Stream.lastId_add]
      exact (Stream.lastId_lt_nextId _ _).le
    · refine ⟨_, List.mem_singleton_self _, ?_⟩
      by_cases hother : other = id
      · subst hother
        rfl
      · exact absurd (congrArg SeatState.shown (hothers other hother)) hne
  · refine ⟨[], ?_, nofun, ?_, fun other hother hne => ?_⟩
    · rw [hlog, Function.update_of_ne hzone, List.append_nil]
    · rw [hlog, Function.update_of_ne hzone]
    · have hid : other ≠ id := by
        rintro rfl
        exact hzone (mem_zoneIds.mp hother).2.symm
      exact absurd (congrArg SeatState.shown (hothers other hid)) hne

end Advances

section Scripts

variable {model : Model} {id : String}

theorem advances_sync (hid : id ∈ model.ids) (env : Env) (maxlen : ℕ) (held : Option Held) :
    model.Advances (model.sync env maxlen id held) := by
  have hlayout : model.SameLayout (model.setHold id (liveHold env.now held)) :=
    sameLayout_setHold model id _
  have hothers : ∀ other, other ≠ id →
      (model.setHold id (liveHold env.now held)).seat other = model.seat other :=
    fun other hother => Function.update_of_ne hother _ _
  unfold sync
  dsimp only
  split_ifs with hchanged
  · exact advances_log hid hlayout rfl hothers env maxlen
  · refine advances_of_shown hlayout rfl fun other => ?_
    by_cases hother : other = id
    · subst hother
      have hseat : (model.setHold other (liveHold env.now held)).seat other =
          { model.seat other with hold := liveHold env.now held } := Function.update_self _ _ _
      rw [hseat]
      unfold SeatState.shown
      dsimp only
      by_cases havailable : (model.seat other).status = .available
      · have howner := not_not.mp fun hne => hchanged ⟨havailable, hne⟩
        rw [if_pos havailable, if_pos havailable, ← howner, hold_of_mem hid]
      · rw [if_neg havailable, if_neg havailable]
    · rw [hothers other hother]

theorem advances_syncAll {ids : List String} (hids : ∀ id ∈ ids, id ∈ model.ids) (env : Env)
    (maxlen : ℕ) (raw : Holds) : model.Advances (model.syncAll env maxlen raw ids) := by
  induction ids generalizing model with
  | nil => exact .refl model
  | cons id ids ih =>
      have hstep := advances_sync (hids id List.mem_cons_self) env maxlen (raw id)
      refine hstep.trans (ih fun other hother => ?_)
      rw [hstep.layout.ids]
      exact hids other (List.mem_cons_of_mem id hother)

theorem advances_project (hid : id ∈ model.ids) (env : Env) (maxlen : ℕ) (status : SeatStatus)
    (version : ℕ) : model.Advances (model.project env maxlen id status version) := by
  unfold project
  split_ifs
  · exact advances_log hid (sameLayout_setFormal model id status version) rfl
      (fun other hother => Function.update_of_ne hother _ _) env maxlen
  · exact .refl model

theorem advances_cleanSeat (env : Env) (maxlen : ℕ) (s : Model × Holds) (id : String) :
    s.1.Advances (cleanSeat env maxlen s id).1 := by
  unfold cleanSeat
  cases hhold : s.1.hold id with
  | none => exact .refl s.1
  | some copy =>
      dsimp only
      split_ifs
      · exact advances_sync (mem_of_hold hhold) env maxlen _
      · exact .refl s.1

theorem advances_cleanSeats (env : Env) (maxlen : ℕ) (s : Model × Holds) (ids : List String) :
    s.1.Advances (cleanSeats env maxlen s ids).1 := by
  induction ids generalizing s with
  | nil => exact .refl s.1
  | cons id ids ih => exact (advances_cleanSeat env maxlen s id).trans (ih _)

theorem logged_ofRows (generation : String) (env : Env) (raw : Holds) (rows : List SeatRow) :
    (ofRows generation env raw rows).Logged := by
  have hchanges : ∀ zone, (ofRows generation env raw rows).changes zone = baseline env := by
    have hfold (model : Model) : (rows.foldl (fun model row =>
        model.addSeat row.id (row.state env raw)) model).changes = model.changes := by
      induction rows generalizing model with
      | nil => rfl
      | cons row rows ih => rw [List.foldl_cons, ih, changes_addSeat]
    exact fun zone => congrFun (hfold _) zone
  intro zone _ event hevent id hid
  rw [hchanges] at hevent
  obtain rfl := List.mem_singleton.mp hevent
  cases hid

end Scripts

end Model

end Ticketing.Availability
