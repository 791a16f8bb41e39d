import Mathlib
import Ticketing.WaitingMoves

/-!
# Who is in the waiting room

Over every run of one generation, with the clock never going back, the sets of the waiting room
agree with each other, a tick fills the active set to its capacity at most, and a reported
admission goes back to a tick that admitted the member and to a lease that has been running at
every moment since.
-/

namespace Ticketing.Admission

open Relational Expiring

namespace Room

def prequeueSet (room : Room) : Set String := {m | (room.prequeue.zscore m).isSome}

def waitingSet (room : Room) : Set String := {m | (room.waiting.zscore m).isSome}

def presenceSet (room : Room) : Set String := {m | (room.presence.zscore m).isSome}

def activeSet (room : Room) : Set String := {m | (room.active.zscore m).isSome}

def heartbeatSet (room : Room) : Set String := {m | (room.heartbeat.zscore m).isSome}

/-- The membership invariant over the five structures. -/
structure Consistent (room : Room) : Prop where
  prequeue_waiting : Disjoint room.prequeueSet room.waitingSet
  prequeue_active : Disjoint room.prequeueSet room.activeSet
  waiting_active : Disjoint room.waitingSet room.activeSet
  presence_eq : room.presenceSet = room.prequeueSet ∪ room.waitingSet
  heartbeat_eq : room.heartbeatSet = room.presenceSet ∪ room.activeSet

/-- At this moment the member is active and its lease has not lapsed. -/
def LeaseRuns (room : Room) (now : ℕ) (m : String) : Prop :=
  ∃ lease, (room.visible now).active.zscore m = some lease ∧ now < lease

theorem mem_prequeueSet_iff {room : Room} {m : String} {place : Place}
    (h : room.stand m = place.stand) : m ∈ room.prequeueSet ↔ place.stand.prequeue.isSome := by
  rw [← h]
  exact Iff.rfl

theorem mem_waitingSet_iff {room : Room} {m : String} {place : Place}
    (h : room.stand m = place.stand) : m ∈ room.waitingSet ↔ place.stand.waiting.isSome := by
  rw [← h]
  exact Iff.rfl

theorem mem_presenceSet_iff {room : Room} {m : String} {place : Place}
    (h : room.stand m = place.stand) : m ∈ room.presenceSet ↔ place.stand.presence.isSome := by
  rw [← h]
  exact Iff.rfl

theorem mem_activeSet_iff {room : Room} {m : String} {place : Place}
    (h : room.stand m = place.stand) : m ∈ room.activeSet ↔ place.stand.active.isSome := by
  rw [← h]
  exact Iff.rfl

theorem mem_heartbeatSet_iff {room : Room} {m : String} {place : Place}
    (h : room.stand m = place.stand) : m ∈ room.heartbeatSet ↔ place.stand.heartbeat.isSome := by
  rw [← h]
  exact Iff.rfl

theorem Sound.consistent {room : Room} (h : room.Sound) : room.Consistent where
  prequeue_waiting := by
    rw [Set.disjoint_left]
    intro m hprequeue hwaiting
    obtain ⟨place, hplace⟩ := h.placed m
    rw [mem_prequeueSet_iff hplace] at hprequeue
    rw [mem_waitingSet_iff hplace] at hwaiting
    cases place <;> simp [Place.stand] at hprequeue hwaiting
  prequeue_active := by
    rw [Set.disjoint_left]
    intro m hprequeue hactive
    obtain ⟨place, hplace⟩ := h.placed m
    rw [mem_prequeueSet_iff hplace] at hprequeue
    rw [mem_activeSet_iff hplace] at hactive
    cases place <;> simp [Place.stand] at hprequeue hactive
  waiting_active := by
    rw [Set.disjoint_left]
    intro m hwaiting hactive
    obtain ⟨place, hplace⟩ := h.placed m
    rw [mem_waitingSet_iff hplace] at hwaiting
    rw [mem_activeSet_iff hplace] at hactive
    cases place <;> simp [Place.stand] at hwaiting hactive
  presence_eq := by
    ext m
    obtain ⟨place, hplace⟩ := h.placed m
    rw [Set.mem_union, mem_presenceSet_iff hplace, mem_prequeueSet_iff hplace,
      mem_waitingSet_iff hplace]
    cases place <;> simp [Place.stand]
  heartbeat_eq := by
    ext m
    obtain ⟨place, hplace⟩ := h.placed m
    rw [Set.mem_union, mem_heartbeatSet_iff hplace, mem_presenceSet_iff hplace,
      mem_activeSet_iff hplace]
    cases place <;> simp [Place.stand]

/-- A key seen at one moment was seen at every earlier one since it was written. -/
theorem LeaseRuns.mono {room : Room} (hdue : ∃ d, room.Due d) {now earlier : ℕ} {m : String}
    (h : room.LeaseRuns now m) (hle : earlier ≤ now) : room.LeaseRuns earlier m := by
  obtain ⟨lease, hlease, hlt⟩ := h
  obtain ⟨d, hd⟩ := hdue
  rcases visible_cases hd now with ⟨hseen, hsame⟩ | hgone
  · refine ⟨lease, ?_, hle.trans_lt hlt⟩
    rcases visible_cases hd earlier with ⟨-, hsame'⟩ | hgone'
    · rw [hsame'] at ⊢
      rw [hsame] at hlease
      exact hlease
    · have hkept : room.active.visible earlier = room.active :=
        Key.visible_of_due hd.active (hle.trans hseen)
      rw [hsame] at hlease
      show (room.active.visible earlier).zscore m = some lease
      rw [hkept]
      exact hlease
  · rw [hgone] at hlease
    cases hlease

/-- A lease that runs is the place of an active member, before and after the keys are looked at. -/
theorem LeaseRuns.place {room : Room} (h : room.Sound) {now : ℕ} {m : String}
    (hruns : room.LeaseRuns now m) :
    ∃ lease next, room.stand m = (Place.active lease next).stand ∧
      (room.visible now).stand m = (Place.active lease next).stand ∧ now < lease := by
  obtain ⟨lease, hlease, hlt⟩ := hruns
  rcases stand_visible room h.due now with hsame | hgone
  · obtain ⟨place, hplace⟩ := h.placed m
    have hown : (room.visible now).active.zscore m = place.stand.active :=
      congrArg Stand.active ((hsame m).trans hplace)
    rw [hlease] at hown
    cases place with
    | outside => cases hown
    | prequeued score presence next => cases hown
    | waiting ticket presence next => cases hown
    | active lease' next =>
        cases hown
        exact ⟨lease, next, hplace, (hsame m).trans hplace, hlt⟩
  · have hown : (room.visible now).active.zscore m = none := congrArg Stand.active (hgone m)
    rw [hlease] at hown
    cases hown

theorem leaseRuns_of_place {room : Room} {now lease next : ℕ} {m : String}
    (h : (room.visible now).stand m = (Place.active lease next).stand) (hlt : now < lease) :
    room.LeaseRuns now m := ⟨lease, congrArg Stand.active h, hlt⟩

end Room

theorem zcard_removeAll_active_le (room : Room) (ids : List String) :
    (room.removeAll ids).active.zcard ≤ room.active.zcard := by
  induction ids generalizing room with
  | nil => exact le_rfl
  | cons id ids ih => exact (ih (room.remove id)).trans (Key.zcard_zrem_le _ _)

theorem zcard_expireAt_le (k : Key (SortedSet String)) (now deadline : ℕ) :
    (k.expireAt now deadline).zcard ≤ k.zcard := by
  by_cases h : deadline ≤ now
  · rw [Key.expireAt_of_le k h]
    exact Nat.zero_le _
  · unfold Key.zcard
    rw [Key.members_expireAt_of_lt k (Nat.lt_of_not_le h)]

/-- A tick fills the active set to the capacity at most. -/
theorem tick_active_le (room : Room) (h : room.Sound) (p : Policy) (now : ℕ) :
    (room.tick p now).room.active.zcard ≤ max room.active.zcard p.capacity := by
  have hcleanup : (room.cleanup p now).1.active.zcard ≤ room.active.zcard :=
    (zcard_removeAll_active_le _ _).trans (zcard_removeAll_active_le _ _)
  cases hreason : (room.cleanup p now).1.pauseReason p now with
  | some reason =>
      obtain ⟨reply, htick⟩ := Room.tick_of_paused hreason
      rw [htick]
      have htouch : ((room.cleanup p now).1.touch p now).active.zcard ≤
          (room.cleanup p now).1.active.zcard := zcard_expireAt_le _ _ _
      dsimp only
      omega
  | none =>
      obtain ⟨tokens, bucket, -, hroom⟩ := Room.tick_of_open hreason
      have hdraws := Room.draws_of_draw p now p.batch tokens (h.cleanup p now).placed
      have hfilled := hdraws.zcard_active_le
      rw [hroom]
      exact (zcard_expireAt_le _ _ _).trans (hfilled.trans (max_le_max_right _ hcleanup))

theorem script_active_le (room : Room) (h : room.Sound) (p : Policy) (now : ℕ) :
    (room.script p now .tick).room.active.zcard ≤ max room.active.zcard p.capacity := by
  unfold Room.script Room.guarded
  split_ifs
  · exact le_max_left _ _
  · exact le_max_left _ _
  · exact le_max_left _ _
  · exact tick_active_le room h p now

/-- The call tells the member that it is admitted. -/
def Room.Admits (room : Room) (event : Event) (m : String) : Prop :=
  ∃ p op now lease, event.request = .call p op ∧ op.member = some m ∧
    (room.handle event).reply = .admitted now lease

/-- A member told that it is admitted holds a lease that runs when the call begins. -/
theorem runs_of_admits {room : Room} (h : room.Sound) {event : Event} {m : String}
    (hadmits : room.Admits event m) : room.LeaseRuns event.time m := by
  obtain ⟨p, op, t, lease, hcall, hop, hreply⟩ := hadmits
  have hvisible := h.visible event.time
  have hhandle : room.handle event = (room.visible event.time).script p event.time op := by
    unfold Room.handle
    rw [hcall]
  rw [hhandle] at hreply
  have hposition : ((room.visible event.time).script p event.time op).reply.position = some 0 := by
    rw [hreply]
    rfl
  have hstate := Room.state_of_reply hop hposition
  rw [hreply] at hstate
  have htakes := Room.script_takes hvisible hcall
  obtain ⟨next, hlast, hlt⟩ := Room.place_of_admitted htakes.sound hstate
  obtain ⟨place, hplace⟩ := hvisible.placed m
  obtain ⟨place', hplace', hmove⟩ := htakes.moves m place hplace
  have hactive := Place.stand_injective (hplace'.symm.trans hlast)
  subst hactive
  generalize decide (m ∈ ((room.visible event.time).script p event.time op).released) = flag
    at hmove
  cases hmove with
  | stays => exact Room.leaseRuns_of_place hplace hlt
  | renewsActive q lease' next' hcall' hlive => exact Room.leaseRuns_of_place hplace hlive
  | admits q place x hcall' hqueued hlive hopen =>
      rw [hcall] at hcall'
      cases hcall'
      cases hop

/-- The lease of a member goes back to the tick that admitted it, and runs at every moment between
one call and the next. -/
def Leased (before : List Event) (tick : Event) (after : List Event) (m : String) : Prop :=
  (∃ p, tick.request = .call p .tick) ∧ m ∈ ((roomAfter before).handle tick).released ∧
    ∀ earlier next later, after = earlier ++ next :: later →
      ∀ now ≤ next.time, (roomAfter (before ++ tick :: earlier)).LeaseRuns now m

/-- Where a list that ends in one more element splits. -/
theorem split_append_singleton {α : Type} {as bs cs : List α} {a b : α}
    (h : as ++ [a] = bs ++ b :: cs) :
    (bs = as ∧ b = a) ∨ ∃ rest, as = bs ++ b :: rest := by
  rcases List.eq_nil_or_concat cs with hnil | ⟨rest, last, hcs⟩
  · rw [hnil] at h
    obtain ⟨has, ha⟩ := List.append_inj' h rfl
    exact Or.inl ⟨has.symm, (List.cons.inj ha).1.symm⟩
  · rw [hcs, List.concat_eq_append, ← List.cons_append, ← List.append_assoc] at h
    exact Or.inr ⟨rest, (List.append_inj' h rfl).1⟩

/-- One more call at whose time the lease still runs. -/
theorem Leased.snoc {before after : List Event} {tick event : Event} {m : String}
    (h : Leased before tick after m)
    (hruns : (roomAfter (before ++ tick :: after)).LeaseRuns event.time m) :
    Leased before tick (after ++ [event]) m := by
  obtain ⟨htick, hreleased, hsince⟩ := h
  refine ⟨htick, hreleased, ?_⟩
  intro earlier next later heq now hle
  rcases split_append_singleton heq with ⟨hall, hlast⟩ | ⟨rest, hafter⟩
  · rw [hall]
    rw [hlast] at hle
    exact hruns.mono (sound_roomAfter _).due hle
  · exact hsince earlier next rest hafter now hle

theorem leased_of_runs (events : List Event)
    (hclock : events.Pairwise fun event later => event.time ≤ later.time) {now : ℕ} {m : String}
    (hnow : ∀ event ∈ events, event.time ≤ now) (hruns : (roomAfter events).LeaseRuns now m) :
    ∃ before tick after, events = before ++ tick :: after ∧ Leased before tick after m := by
  induction events using List.reverseRecOn generalizing now with
  | nil =>
      obtain ⟨lease, hlease, -⟩ := hruns
      cases hlease
  | append_singleton events event ih =>
      have hsound := sound_roomAfter events
      rw [roomAfter_append_singleton] at hruns
      have htakes := Room.handle_takes hsound event
      obtain ⟨lease, next, hlast, -, hlt⟩ := hruns.place htakes.sound
      obtain ⟨place, hplace⟩ := (hsound.visible event.time).placed m
      obtain ⟨place', hplace', hmove⟩ := htakes.moves m place hplace
      have hactive := Place.stand_injective (hplace'.symm.trans hlast)
      subst hactive
      obtain ⟨hclockBefore, -, hlate⟩ := List.pairwise_append.mp hclock
      have hbefore : ∀ earlier ∈ events, earlier.time ≤ event.time :=
        fun earlier hin => hlate earlier hin event List.mem_cons_self
      have hevent : event.time ≤ now := hnow event (by simp)
      -- the lease ran when the last call began: the tick is further back
      have hback : (roomAfter events).LeaseRuns event.time m →
          ∃ before tick after, events ++ [event] = before ++ tick :: after ∧
            Leased before tick after m := by
        intro hran
        obtain ⟨before, tick, after, hsplit, hleased⟩ := ih hclockBefore hbefore hran
        refine ⟨before, tick, after ++ [event], by rw [hsplit]; simp, hleased.snoc ?_⟩
        rw [← hsplit]
        exact hran
      generalize hflag : decide (m ∈ ((roomAfter events).handle event).released) = flag at hmove
      cases hmove with
      | stays => exact hback (Room.leaseRuns_of_place hplace (hevent.trans_lt hlt))
      | renewsActive q lease' next' hcall' hlive => exact hback (Room.leaseRuns_of_place hplace hlive)
      | admits q place x hcall' hqueued hlive hopen =>
          refine ⟨events, event, [], rfl, ⟨q, hcall'⟩, of_decide_eq_true hflag, ?_⟩
          intro earlier following later heq
          cases earlier <;> cases heq

/-- The membership invariant, the bound on a tick and the origin of every reported admission. -/
theorem waiting_room_membership (generation : String) (events : List Event)
    (hrun : Run generation events) :
    (∀ now, ((roomAfter events).visible now).Consistent) ∧
      (∀ before tick after p, events = before ++ tick :: after → tick.request = .call p .tick →
        (roomAfter (before ++ [tick])).active.zcard ≤
          max ((roomAfter before).visible tick.time).active.zcard p.capacity) ∧
      ∀ before event after m, events = before ++ event :: after →
        (roomAfter before).Admits event m →
        ∃ start tick since, before = start ++ tick :: since ∧
          Leased start tick (since ++ [event]) m := by
  refine ⟨?_, ?_, ?_⟩
  · intro now
    exact ((sound_roomAfter events).visible now).consistent
  · intro before tick after p hsplit htick
    have hhandle : (roomAfter before).handle tick =
        ((roomAfter before).visible tick.time).script p tick.time .tick := by
      unfold Room.handle
      rw [htick]
    rw [roomAfter_append_singleton]
    unfold Room.after
    rw [hhandle]
    exact script_active_le _ ((sound_roomAfter before).visible tick.time) p tick.time
  · intro before event after m hsplit hadmits
    have hclock := hrun.chronological
    rw [hsplit] at hclock
    obtain ⟨hclockBefore, -, hlate⟩ := List.pairwise_append.mp hclock
    have hran := runs_of_admits (sound_roomAfter before) hadmits
    obtain ⟨start, tick, since, hbefore, hleased⟩ := leased_of_runs before hclockBefore
      (fun earlier hin => hlate earlier hin event List.mem_cons_self) hran
    refine ⟨start, tick, since, hbefore, hleased.snoc ?_⟩
    rw [← hbefore]
    exact hran

/-- One member joins before the sale, is admitted by the second tick and asks for its state. -/
def admittedRun : List Event :=
  [⟨10, .call openingSale (.sync true)⟩, ⟨20, .call openingSale (.join "a" 5)⟩,
    ⟨1000, .call openingSale .tick⟩, ⟨2000, .call openingSale .tick⟩]

theorem waiting_room_membership_admittedRun : ∃ start tick since,
    admittedRun = start ++ tick :: since ∧
      Leased start tick (since ++ [⟨2500, .call openingSale (.status "a")⟩]) "a" := by
  have hrun : Run "g1" (admittedRun ++ [⟨2500, .call openingSale (.status "a")⟩]) := by
    refine ⟨?_, by decide⟩
    intro event hevent p op hcall
    simp only [admittedRun, List.cons_append, List.nil_append, List.mem_cons, List.not_mem_nil,
      or_false] at hevent
    rcases hevent with rfl | rfl | rfl | rfl | rfl <;> cases hcall <;> rfl
  exact (waiting_room_membership "g1" _ hrun).2.2 admittedRun _ [] "a" rfl
    ⟨openingSale, .status "a", 2500, 12000, rfl, rfl, by decide +kernel⟩

end Ticketing.Admission
