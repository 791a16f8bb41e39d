import Ticketing.SeatModelMirror

/-!
# Runs over the keys of a session

The keys of a session start without a model. From there on scripts run on them one after the other,
keys expire in between, and now and then everything is lost. In every state that is reached the
counters, the copies and the holds are as they should be.
-/

namespace Ticketing.Availability

open Redis Script Transition

structure Keyspace where
  store : Store Key
  now : ℕ

/-- A script at an instant, or the loss of all keys. -/
inductive SessionEvent where
  | call (env : Env) (call : SessionCall)
  | lose

/-- Well-formed holds, and neither a model nor a lock. -/
structure Starts (store : Store Key) : Prop where
  holds : ∃ raw, Carries store raw
  dropped : Dropped store
  unlocked : store .initLock = none

theorem starts_lost : Starts fun _ => none where
  holds := ⟨fun _ => none, fun _ => rfl, nofun⟩
  dropped := dropped_of_missing rfl
  unlocked := rfl

theorem Starts.refines {store : Store Key} (h : Starts store) :
    ∃ raw, Refines store ⟨raw, none, none⟩ := by
  obtain ⟨raw, hraw⟩ := h.holds
  exact ⟨raw, hraw, nofun, fun _ => h.dropped, h.unlocked⟩

namespace Keyspace

/-- The keys that are still there when a script runs. -/
def visible (k : Keyspace) (env : Env) : Store Key := k.store.visible env.now

def run (maxlen : ℕ) (k : Keyspace) (env : Env) (call : SessionCall) : Outcome Key Reply :=
  call.script maxlen env (k.visible env)

def after (maxlen : ℕ) (k : Keyspace) (env : Env) (call : SessionCall) : Keyspace :=
  ⟨(k.run maxlen env call).store, env.now⟩

def step (maxlen : ℕ) : SessionEvent → Keyspace → Keyspace → Prop
  | .call env call, k, k' => k.now ≤ env.now ∧ call.Valid ∧ k' = k.after maxlen env call
  | .lose, k, k' => k' = ⟨fun _ => none, k.now⟩

/-- The same with a clock that may also go back. -/
def stepAnytime (maxlen : ℕ) : SessionEvent → Keyspace → Keyspace → Prop
  | .call env call, k, k' => call.Valid ∧ k' = k.after maxlen env call
  | .lose, k, k' => k' = ⟨fun _ => none, k.now⟩

/-- The keys stand for a session that scripts have brought about. -/
def Tracked (k : Keyspace) : Prop := ∃ s, Refines k.store s ∧ s.Mirrors True k.now

variable {maxlen : ℕ} {k k' : Keyspace} {env : Env}

theorem tracked_start (h : Starts k.store) : k.Tracked := by
  obtain ⟨raw, hrefines⟩ := h.refines
  exact ⟨⟨raw, none, none⟩, hrefines, Session.mirrors_none rfl⟩

/-- What a script makes of tracked keys. -/
theorem Tracked.run (h : k.Tracked) (hmaxlen : maxlen ≠ 0) (hnow : k.now ≤ env.now)
    {call : SessionCall} (hvalid : call.Valid) : ∃ s t, Refines (k.visible env) s ∧
      s.Mirrors True env.now ∧ s.Next env maxlen call (k.run maxlen env call).value t ∧
      Refines (k.run maxlen env call).store t ∧ t.Mirrors True env.now := by
  obtain ⟨s, hrefines, hmirrors⟩ := h
  have hvisible := hrefines.visible env.now
  have hmirrors' := hmirrors.visible fun _ => hnow
  obtain ⟨t, hnext, hafter⟩ := SessionCall.refines hvisible hvalid hmaxlen
  exact ⟨_, t, hvisible, hmirrors', hnext, hafter, hmirrors'.next hnext⟩

theorem Tracked.step (hmaxlen : maxlen ≠ 0) {event : SessionEvent} (h : k.Tracked)
    (hstep : step maxlen event k k') : k'.Tracked := by
  cases event with
  | call env call =>
      obtain ⟨hnow, hvalid, rfl⟩ := hstep
      obtain ⟨-, t, -, -, -, hafter, hmirrors⟩ := h.run hmaxlen hnow hvalid
      exact ⟨t, hafter, hmirrors⟩
  | lose =>
      obtain rfl := hstep
      exact tracked_start starts_lost

theorem tracked_run (hmaxlen : maxlen ≠ 0) {events : List SessionEvent} (hstart : Starts k.store)
    (hrun : Trace (Keyspace.step maxlen) k events k') : k'.Tracked :=
  hrun.invariant (fun _ _ _ h hstep => h.step hmaxlen hstep) (tracked_start hstart)

theorem stepAnytime_of_step {event : SessionEvent} (h : step maxlen event k k') :
    stepAnytime maxlen event k k' := by
  cases event with
  | call env call => exact h.2
  | lose => exact h

/-- Whatever the clock does, the keys stand for a session. -/
theorem refines_run (hmaxlen : maxlen ≠ 0) {events : List SessionEvent} (hstart : Starts k.store)
    (hrun : Trace (stepAnytime maxlen) k events k') : ∃ s, Refines k'.store s := by
  refine hrun.invariant (I := fun k => ∃ s, Refines k.store s) (fun event k k' h hstep => ?_) ?_
  · cases event with
    | call env call =>
        obtain ⟨hvalid, rfl⟩ := hstep
        obtain ⟨s, hrefines⟩ := h
        obtain ⟨t, -, hafter⟩ :=
          SessionCall.refines (hrefines.visible env.now) hvalid hmaxlen
        exact ⟨t, hafter⟩
    | lose =>
        obtain rfl := hstep
        obtain ⟨raw, hrefines⟩ := starts_lost.refines
        exact ⟨_, hrefines⟩
  · obtain ⟨raw, hrefines⟩ := hstart.refines
    exact ⟨_, hrefines⟩

end Keyspace

section Example

/-- Empty keys. -/
def emptyKeys : Keyspace := ⟨fun _ => none, 0⟩

theorem starts_empty : Starts emptyKeys.store := starts_lost

/-- A session with one seat, whose model is installed before the seat is held. -/
def heldSeat : Keyspace :=
  let acquired := emptyKeys.after 10 ⟨1, fun _ => 0⟩ (.acquire "token" 1000)
  let installed := acquired.after 10 ⟨2, fun _ => 0⟩
    (.init "token" "generation" [⟨"seat", "AVAILABLE", "1", "zone"⟩])
  installed.after 10 ⟨3, fun _ => 0⟩ (.hold (.ensure "checkout" 1 1000 ["seat"]))

theorem reaches_heldSeat : ∃ events, Trace (Keyspace.step 10) emptyKeys events heldSeat :=
  ⟨[.call ⟨1, fun _ => 0⟩ (.acquire "token" 1000),
    .call ⟨2, fun _ => 0⟩ (.init "token" "generation" [⟨"seat", "AVAILABLE", "1", "zone"⟩]),
    .call ⟨3, fun _ => 0⟩ (.hold (.ensure "checkout" 1 1000 ["seat"]))],
    .cons ⟨by decide, Nat.succ_ne_zero _, rfl⟩ (.cons ⟨by decide, nofun, rfl⟩
      (.cons ⟨by decide, ⟨⟨by decide, by decide⟩, by decide⟩, rfl⟩ (.nil _)))⟩

end Example

section Observations

def fieldOf (slot : Slot) (field : String) : Option String :=
  slot.fields.bind fun fields => fields field

def membersOf (slot : Slot) : Finset String := slot.members.getD ∅

def scoreOf (slot : Slot) (member : String) : Option ℤ :=
  slot.scores.bind fun scores => scores member

def Ready (store : Store Key) : Prop := fieldOf (store .modelMeta) "ready" = some "1"

/-- What everybody sees of a seat, from its formal state and whether it has a copy of a hold. -/
def publicIn (store : Store Key) (id : String) : Option SeatStatus :=
  publicstatus (((fieldOf (store .formal) id).bind formal).map Formal.status)
    (fieldOf (store .holds) id).isSome

/-- The seats of a zone that everybody sees in this status. -/
def seatsSeen (store : Store Key) (zone : String) (status : SeatStatus) : Finset String :=
  (membersOf (store (.zoneSeats zone))).filter fun id => publicIn store id = some status

theorem fieldOf_shows {slot : Slot} {fields : String → Option String}
    (h : slot.Shows Slot.fields fields) (field : String) : fieldOf slot field = fields field := by
  unfold fieldOf
  rw [h.view]
  rfl

theorem membersOf_shows {slot : Slot} {members : Finset String}
    (h : slot.Shows Slot.members members) : membersOf slot = members := by
  unfold membersOf
  rw [h.view]
  rfl

theorem scoreOf_shows {slot : Slot} {scores : String → Option ℤ}
    (h : slot.Shows Slot.scores scores) (member : String) : scoreOf slot member = scores member := by
  unfold scoreOf
  rw [h.view]
  rfl

variable {store : Store Key} {model : Model}

/-- A ready store is not dropped, so it shows a model. -/
theorem Refines.ready {s : Session} (h : Refines store s) (hready : Ready store) :
    ∃ model, s.model = some model ∧ Models store model := by
  cases hmodel : s.model with
  | some model => exact ⟨model, rfl, h.models model hmodel⟩
  | none =>
      have hdropped := h.dropped hmodel ⟨0, fun _ => 0⟩
      obtain ⟨fields, hfields, hflag⟩ := Option.bind_eq_some_iff.mp hready
      obtain ⟨table, htable, rfl⟩ := Option.map_eq_some_iff.mp hfields
      have hkind := Slot.kind_of_field hfields (by rw [hflag]; rfl)
      have hget : hget .modelMeta "ready" ⟨0, fun _ => 0⟩ store = .done (some "1") store := by
        rw [← hflag]
        exact readKey_some htable
      unfold Availability.ready at hdropped
      rw [bind_of_done (compatible_done (Or.inr hkind)), if_pos rfl, bind_of_done hget] at hdropped
      cases hdropped

theorem publicIn_stored (h : Stored store model) {id : String} (hid : id ∈ model.ids) :
    publicIn store id = some (model.seat id).publicStatus := by
  unfold publicIn
  rw [fieldOf_shows (h .formal), fieldOf_shows (h .holds).1, Model.find_of_mem hid,
    Option.map_some, Option.bind_some, formal_formalText, Option.map_some, Option.isSome_map,
    Model.hold_of_mem hid]
  exact (model.seat id).publicstatus_eq

theorem seatsSeen_card (h : Stored store model) {zone : String} (hzone : zone ∈ model.zones)
    (status : SeatStatus) : (seatsSeen store zone status).card = model.count zone status := by
  unfold seatsSeen Model.count Tally.tally
  rw [membersOf_shows (h (.zoneSeats zone) hzone)]
  congr 1
  apply Finset.filter_congr
  intro id hid
  rw [publicIn_stored h (Model.mem_zoneIds.mp hid).1, Option.some.injEq]

end Observations

/-- The counters of a zone are the numbers of its seats. -/
structure Counted (store : Store Key) (zone : String) : Prop where
  total : fieldOf (store (.zoneSummary zone)) "total" =
    some (toString (membersOf (store (.zoneSeats zone))).card)
  counts : ∀ status, fieldOf (store (.zoneSummary zone)) (counterName status) =
    some (toString (seatsSeen store zone status).card)
  sum : (seatsSeen store zone .available).card + (seatsSeen store zone .held).card +
    (seatsSeen store zone .sold).card = (membersOf (store (.zoneSeats zone))).card

theorem counted_stored {store : Store Key} {model : Model} (h : Stored store model) {zone : String}
    (hzone : zone ∈ model.zones) : Counted store zone := by
  obtain ⟨fields, hfields, htotal, hcounts⟩ := h (.zoneSummary zone) hzone
  have hmembers := membersOf_shows (h (.zoneSeats zone) hzone)
  refine ⟨?_, fun status => ?_, ?_⟩
  · rw [fieldOf_shows hfields, hmembers]
    exact htotal
  · rw [fieldOf_shows hfields, seatsSeen_card h hzone]
    exact hcounts status
  · rw [seatsSeen_card h hzone, seatsSeen_card h hzone, seatsSeen_card h hzone, hmembers]
    exact model.sum_count zone

/-- In every state with a ready model, the counters of every zone of the model are right. -/
theorem counters_exact {maxlen : ℕ} (hmaxlen : maxlen ≠ 0) {k k' : Keyspace}
    {events : List SessionEvent} (hstart : Starts k.store)
    (hrun : Trace (Keyspace.stepAnytime maxlen) k events k') (hready : Ready k'.store)
    {zones : List String} (hzones : (k'.store .zones).list = some zones) :
    ∀ zone ∈ zones, Counted k'.store zone := by
  intro zone hzone
  obtain ⟨s, hrefines⟩ := Keyspace.refines_run hmaxlen hstart hrun
  obtain ⟨model, -, hmodels⟩ := hrefines.ready hready
  have hlist := (hmodels.stored .zones).view
  rw [hzones] at hlist
  obtain rfl := Option.some.inj hlist
  exact counted_stored hmodels.stored hzone

/-- The one seat of a zone is held. -/
theorem counters_exact_heldSeat : Counted heldSeat.store "zone" := by
  obtain ⟨events, hrun⟩ := reaches_heldSeat
  exact counters_exact (by decide) starts_empty
    (hrun.weaken fun _ _ _ => Keyspace.stepAnytime_of_step) (by unfold Ready; decide +kernel)
    (show (heldSeat.store .zones).list = some ["zone"] by decide +kernel) "zone"
    (List.mem_singleton_self _)

/-- The copies of the holds and their expiries against the holds themselves. -/
structure HoldsMirrored (k : Keyspace) : Prop where
  copied : ∀ id value deadline, (fieldOf (k.store .seatZone) id).isSome →
    k.store (.hold id) = some ⟨.string value, some deadline⟩ → k.now < deadline →
      fieldOf (k.store .holds) id = some (formatDerived value deadline)
  backed : ∀ id copy, (fieldOf (k.store .holds) id).bind hold = some copy → k.now < copy.expiry →
    k.store (.hold id) =
      some ⟨.string (formatHold copy.owner copy.revision), some copy.expiry⟩
  parsed : ∀ id text, fieldOf (k.store .holds) id = some text → (hold text).isSome
  scored : ∀ id, scoreOf (k.store .holdExpiry) id =
    ((fieldOf (k.store .holds) id).bind hold).map fun copy => (copy.expiry : ℤ)

/-- In every state with a ready model, the copies mirror the holds. -/
theorem holdsMirrored_run {maxlen : ℕ} (hmaxlen : maxlen ≠ 0) {k k' : Keyspace}
    {events : List SessionEvent} (hstart : Starts k.store)
    (hrun : Trace (Keyspace.step maxlen) k events k') (hready : Ready k'.store) :
    HoldsMirrored k' := by
  obtain ⟨s, hrefines, hmirrors⟩ := Keyspace.tracked_run hmaxlen hstart hrun
  obtain ⟨model, hmodel, hstored, -, -⟩ := hrefines.ready hready
  have hmirror := hmirrors.mirror trivial model hmodel
  obtain ⟨hholds, hnames⟩ := hstored .holds
  have hcopy (id : String) : (fieldOf (k'.store .holds) id).bind hold =
      (model.hold id).map fun found => ⟨found.owner, toString found.revision, found.deadline⟩ := by
    rw [fieldOf_shows hholds, bind_hold (hnames id)]
  refine ⟨fun id value deadline hid hslot hlive => ?_, fun id copy hfound hlive => ?_,
    fun id text htext => ?_, fun id => ?_⟩
  · rw [fieldOf_shows (hstored .seatZone), Option.isSome_map] at hid
    have hmem : id ∈ model.ids := by
      by_contra hmem
      rw [Model.find_of_notMem hmem] at hid
      cases hid
    rw [hrefines.carries.slot id] at hslot
    obtain ⟨held, hheld, hentry⟩ := Option.map_eq_some_iff.mp hslot
    injection hentry with hvalue hdeadline
    obtain rfl := Option.some.inj hdeadline
    injection hvalue with htext
    rw [fieldOf_shows hholds, hmirror.copied id hmem held hheld hlive, ← htext]
    rfl
  · rw [hcopy] at hfound
    obtain ⟨held, hheld, rfl⟩ := Option.map_eq_some_iff.mp hfound
    rw [hrefines.carries.slot id, hmirror.backed id held hheld hlive]
    rfl
  · have hfound := hcopy id
    rw [htext, Option.bind_some] at hfound
    rw [hfound, Option.isSome_map]
    rw [fieldOf_shows hholds] at htext
    obtain ⟨held, hheld, -⟩ := Option.map_eq_some_iff.mp htext
    rw [hheld]
    rfl
  · rw [scoreOf_shows (hstored .holdExpiry), hcopy, Option.map_map]
    rfl

end Ticketing.Availability
