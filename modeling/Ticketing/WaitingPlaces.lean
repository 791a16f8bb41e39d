import Ticketing.WaitingRoom

/-!
# The place of one member in the waiting room

Seen from one member the five structures of a generation amount to one place: outside, in the
prequeue, in the waiting line or active. Every operation moves a member from place to place, and
the queued members form one line, the prequeue before the waiting line.
-/

namespace Ticketing.Admission

open Relational Expiring

/-- The scores of one member in the five structures. -/
structure Stand where
  prequeue : Option ℕ
  waiting : Option ℕ
  presence : Option ℕ
  active : Option ℕ
  heartbeat : Option ℕ

def Room.stand (room : Room) (member : String) : Stand :=
  ⟨room.prequeue.zscore member, room.waiting.zscore member, room.presence.zscore member,
    room.active.zscore member, room.heartbeat.zscore member⟩

/-- A queued member carries its presence, an active one its lease; both the time from which they
may send the next heartbeat. -/
inductive Place where
  | outside
  | prequeued (score presence next : ℕ)
  | waiting (ticket presence next : ℕ)
  | active (lease next : ℕ)

namespace Place

def stand : Place → Stand
  | outside => ⟨none, none, none, none, none⟩
  | prequeued score presence next => ⟨some score, none, some presence, none, some next⟩
  | waiting ticket presence next => ⟨none, some ticket, some presence, none, some next⟩
  | active lease next => ⟨none, none, none, some lease, some next⟩

/-- Whether the presence or the lease runs beyond the time. -/
def live (now : ℕ) : Place → Prop
  | outside => False
  | prequeued _ presence _ => now < presence
  | waiting _ presence _ => now < presence
  | active lease _ => now < lease

/-- Where a queued member stands in the one line. -/
def standing (member : String) : Place → Option (ℕ ×ₗ (ℕ ×ₗ String))
  | prequeued score _ _ => some (toLex (0, toLex (score, member)))
  | waiting ticket _ _ => some (toLex (1, toLex (ticket, member)))
  | _ => none

theorem stand_injective {place place' : Place} (h : place.stand = place'.stand) :
    place = place' := by
  cases place <;> cases place' <;> cases h <;> rfl

end Place

namespace Room

theorem stand_remove (room : Room) (id m : String) :
    (room.remove id).stand m = if m = id then Place.outside.stand else room.stand m := by
  unfold stand remove
  simp only [Key.zscore_zrem]
  by_cases h : m = id
  · simp only [if_pos h, Place.stand]
  · simp only [if_neg h]

theorem stand_remove_self (room : Room) (id : String) :
    (room.remove id).stand id = Place.outside.stand := by
  rw [stand_remove, if_pos rfl]

theorem stand_remove_of_ne (room : Room) {id m : String} (h : m ≠ id) :
    (room.remove id).stand m = room.stand m := by
  rw [stand_remove, if_neg h]

theorem stand_touch (room : Room) (p : Policy) (now : ℕ) :
    (∀ m, (room.touch p now).stand m = room.stand m) ∨
      ∀ m, (room.touch p now).stand m = Place.outside.stand := by
  by_cases h : p.ttl now ≤ now
  · apply Or.inr
    intro m
    unfold stand touch
    simp only [Key.expireAt_of_le _ h, Key.zscore_none, Place.stand]
  · apply Or.inl
    intro m
    have hlt : now < p.ttl now := Nat.lt_of_not_le h
    unfold stand touch Key.zscore
    simp only [Key.members_expireAt_of_lt _ hlt]

/-- All keys but the pause marker expire together. -/
structure Due (room : Room) (d : ℕ) : Prop where
  runtime : room.runtime.Due d
  prequeue : room.prequeue.Due d
  waiting : room.waiting.Due d
  presence : room.presence.Due d
  active : room.active.Due d
  heartbeat : room.heartbeat.Due d
  sequence : room.sequence.Due d
  release : room.release.Due d

theorem due_touch (room : Room) (p : Policy) (now : ℕ) : (room.touch p now).Due (p.ttl now) where
  runtime := Key.due_expireAt _ _ _
  prequeue := Key.due_expireAt _ _ _
  waiting := Key.due_expireAt _ _ _
  presence := Key.due_expireAt _ _ _
  active := Key.due_expireAt _ _ _
  heartbeat := Key.due_expireAt _ _ _
  sequence := Key.due_expireAt _ _ _
  release := Key.due_expireAt _ _ _

theorem due_remove {room : Room} {d : ℕ} (h : room.Due d) (id : String) :
    (room.remove id).Due d :=
  { h with
    prequeue := Key.due_zrem h.prequeue id
    waiting := Key.due_zrem h.waiting id
    presence := Key.due_zrem h.presence id
    active := Key.due_zrem h.active id
    heartbeat := Key.due_zrem h.heartbeat id }

/-- The sequence never runs behind a ticket it gave. -/
def Ticketed (room : Room) : Prop :=
  ∀ m ticket, room.waiting.zscore m = some ticket →
    ∃ last, room.sequence.content = some last ∧ ticket ≤ last

theorem ticketed_touch {room : Room} (h : room.Ticketed) (p : Policy) (now : ℕ) :
    (room.touch p now).Ticketed := by
  intro m ticket hticket
  have hscore : (room.waiting.expireAt now (p.ttl now)).zscore m = some ticket := hticket
  show ∃ last, (room.sequence.expireAt now (p.ttl now)).content = some last ∧ ticket ≤ last
  by_cases hle : p.ttl now ≤ now
  · rw [Key.expireAt_of_le _ hle, Key.zscore_none] at hscore
    cases hscore
  · have hlt : now < p.ttl now := Nat.lt_of_not_le hle
    unfold Key.zscore at hscore
    rw [Key.members_expireAt_of_lt _ hlt] at hscore
    rw [Key.content_expireAt_of_lt _ hlt]
    exact h m ticket hscore

theorem ticketed_remove {room : Room} (h : room.Ticketed) (id : String) :
    (room.remove id).Ticketed := by
  intro m ticket hticket
  have hscore : (room.waiting.zrem id).zscore m = some ticket := hticket
  rw [Key.zscore_zrem] at hscore
  split_ifs at hscore with hm
  exact h m ticket hscore

/-- The five structures agree on the place of every member. -/
structure Sound (room : Room) : Prop where
  placed : ∀ m, ∃ place : Place, room.stand m = place.stand
  ticketed : room.Ticketed
  due : ∃ d, room.Due d

theorem sound_empty : empty.Sound where
  placed := fun _ => ⟨.outside, rfl⟩
  ticketed := by
    intro m ticket h
    cases h
  due := ⟨0, ⟨Key.due_none 0, Key.due_none 0, Key.due_none 0, Key.due_none 0, Key.due_none 0,
    Key.due_none 0, Key.due_none 0, Key.due_none 0⟩⟩

/-- Up to their deadline the keys are seen, the pause marker perhaps not. -/
theorem visible_of_due {room : Room} {d now : ℕ} (h : room.Due d) (hle : now ≤ d) :
    room.visible now = { room with pause := room.pause.visible now } := by
  unfold visible
  rw [Key.visible_of_due h.runtime hle, Key.visible_of_due h.prequeue hle,
    Key.visible_of_due h.waiting hle, Key.visible_of_due h.presence hle,
    Key.visible_of_due h.active hle, Key.visible_of_due h.heartbeat hle,
    Key.visible_of_due h.sequence hle, Key.visible_of_due h.release hle]

/-- Either nothing has expired, or everything but perhaps the pause marker has. -/
theorem visible_cases {room : Room} {d : ℕ} (h : room.Due d) (now : ℕ) :
    (now ≤ d ∧ room.visible now = { room with pause := room.pause.visible now }) ∨
      room.visible now = { empty with pause := room.pause.visible now } := by
  by_cases hle : now ≤ d
  · exact Or.inl ⟨hle, visible_of_due h hle⟩
  · apply Or.inr
    have hlt : d < now := Nat.lt_of_not_le hle
    unfold visible
    rw [Key.visible_of_past h.runtime hlt, Key.visible_of_past h.prequeue hlt,
      Key.visible_of_past h.waiting hlt, Key.visible_of_past h.presence hlt,
      Key.visible_of_past h.active hlt, Key.visible_of_past h.heartbeat hlt,
      Key.visible_of_past h.sequence hlt, Key.visible_of_past h.release hlt]
    rfl

theorem stand_visible (room : Room) (hdue : ∃ d, room.Due d) (now : ℕ) :
    (∀ m, (room.visible now).stand m = room.stand m) ∨
      ∀ m, (room.visible now).stand m = Place.outside.stand := by
  obtain ⟨d, hd⟩ := hdue
  rcases visible_cases hd now with ⟨-, hsame⟩ | hgone
  · apply Or.inl
    intro m
    rw [hsame]
    rfl
  · apply Or.inr
    intro m
    rw [hgone]
    rfl

/-- The invariant does not look at the pause marker. -/
theorem Sound.with_pause {room : Room} (h : room.Sound) (pause : Key ℕ) :
    { room with pause := pause }.Sound where
  placed := h.placed
  ticketed := h.ticketed
  due := by
    obtain ⟨d, hd⟩ := h.due
    exact ⟨d, ⟨hd.runtime, hd.prequeue, hd.waiting, hd.presence, hd.active, hd.heartbeat,
      hd.sequence, hd.release⟩⟩

theorem Sound.visible {room : Room} (h : room.Sound) (now : ℕ) : (room.visible now).Sound := by
  obtain ⟨d, hd⟩ := h.due
  rcases visible_cases hd now with ⟨-, hsame⟩ | hgone
  · rw [hsame]
    exact h.with_pause _
  · rw [hgone]
    exact sound_empty.with_pause _

theorem Sound.remove {room : Room} (h : room.Sound) (id : String) : (room.remove id).Sound where
  placed := by
    intro m
    rw [stand_remove]
    split_ifs with hm
    · exact ⟨.outside, rfl⟩
    · exact h.placed m
  ticketed := ticketed_remove h.ticketed id
  due := by
    obtain ⟨d, hd⟩ := h.due
    exact ⟨d, due_remove hd id⟩

theorem Sound.touch_of {room : Room} (hplaced : ∀ m, ∃ place : Place, room.stand m = place.stand)
    (hticketed : room.Ticketed) (p : Policy) (now : ℕ) : (room.touch p now).Sound where
  placed := by
    intro m
    rcases stand_touch room p now with hsame | hgone
    · rw [hsame]
      exact hplaced m
    · exact ⟨.outside, hgone m⟩
  ticketed := ticketed_touch hticketed p now
  due := ⟨p.ttl now, due_touch room p now⟩

theorem lt_ttl {p : Policy} {now : ℕ} (h : now < p.ends) : now < p.ttl now := by
  unfold Policy.ttl
  omega

theorem stand_touch_of_open (room : Room) {p : Policy} {now : ℕ} (h : now < p.ends) (m : String) :
    (room.touch p now).stand m = room.stand m := by
  unfold stand touch Key.zscore
  simp only [Key.members_expireAt_of_lt _ (lt_ttl h)]

/-- A queued member has a rank in its line. -/
theorem exists_position {room : Room} {m : String} {place : Place} (hplace : room.stand m = place.stand)
    {x : ℕ ×ₗ (ℕ ×ₗ String)} (hx : place.standing m = some x) : ∃ n, room.position m = some n := by
  unfold position Key.zrank SortedSet.rank
  cases place with
  | outside => cases hx
  | active lease next => cases hx
  | prequeued score presence next =>
      have hscore : room.prequeue.members.find m = some score := congrArg Stand.prequeue hplace
      rw [hscore]
      exact ⟨_, rfl⟩
  | waiting ticket presence next =>
      have hnone : room.prequeue.members.find m = none := congrArg Stand.prequeue hplace
      have hticket : room.waiting.members.find m = some ticket := congrArg Stand.waiting hplace
      rw [hnone, hticket]
      exact ⟨_, rfl⟩

theorem state_of_ended (room : Room) {p : Policy} {now : ℕ} (h : p.ends ≤ now) (m : String) :
    room.state p now m = .salesEnded now := if_pos h

theorem state_of_lapsed {room : Room} {p : Policy} {now : ℕ} {m : String} {place : Place}
    (hplace : room.stand m = place.stand) (hopen : now < p.ends) (hgone : ¬place.live now) :
    room.state p now m = .notJoined now := by
  have hactive : room.active.zscore m = place.stand.active := congrArg Stand.active hplace
  have hpresence : room.presence.zscore m = place.stand.presence := congrArg Stand.presence hplace
  have hnotActive : ¬now < (place.stand.active).getD 0 := by
    cases place with
    | active lease next => exact hgone
    | outside => exact Nat.not_lt_zero now
    | prequeued score presence next => exact Nat.not_lt_zero now
    | waiting ticket presence next => exact Nat.not_lt_zero now
  have hnotPresent : ¬now < (place.stand.presence).getD 0 := by
    cases place with
    | active lease next => exact Nat.not_lt_zero now
    | outside => exact Nat.not_lt_zero now
    | prequeued score presence next => exact hgone
    | waiting ticket presence next => exact hgone
  unfold state
  rw [if_neg (Nat.not_le.mpr hopen), hactive, hpresence]
  simp only [if_neg hnotActive, if_neg hnotPresent]

theorem state_of_active {room : Room} {p : Policy} {now lease next : ℕ} {m : String}
    (hplace : room.stand m = (Place.active lease next).stand) (hopen : now < p.ends)
    (hlive : now < lease) : room.state p now m = .admitted now lease := by
  have hactive : room.active.zscore m = some lease := congrArg Stand.active hplace
  unfold state
  rw [if_neg (Nat.not_le.mpr hopen), hactive]
  exact if_pos hlive

theorem state_of_queued {room : Room} {p : Policy} {now : ℕ} {m : String} {place : Place}
    (hplace : room.stand m = place.stand) (hopen : now < p.ends) (hlive : place.live now)
    {x : ℕ ×ₗ (ℕ ×ₗ String)} (hx : place.standing m = some x) :
    ∃ n, room.position m = some n ∧
      room.state p now m = .queued (room.queueStatus p now m) now n := by
  obtain ⟨n, hn⟩ := exists_position hplace hx
  refine ⟨n, hn, ?_⟩
  have hactive : room.active.zscore m = place.stand.active := congrArg Stand.active hplace
  have hpresence : room.presence.zscore m = place.stand.presence := congrArg Stand.presence hplace
  have hnotActive : ¬now < (place.stand.active).getD 0 := by
    cases place with
    | active lease next => cases hx
    | outside => cases hx
    | prequeued score presence next => exact Nat.not_lt_zero now
    | waiting ticket presence next => exact Nat.not_lt_zero now
  have hpresent : now < (place.stand.presence).getD 0 := by
    cases place with
    | active lease next => cases hx
    | outside => cases hx
    | prequeued score presence next => exact hlive
    | waiting ticket presence next => exact hlive
  unfold state
  rw [if_neg (Nat.not_le.mpr hopen), hactive, hpresence]
  simp only [if_neg hnotActive, if_pos hpresent, hn]

/-- Only a running lease is reported as an admission. -/
theorem place_of_admitted {room : Room} (h : room.Sound) {p : Policy} {now t lease : ℕ} {m : String}
    (hstate : room.state p now m = .admitted t lease) :
    ∃ next, room.stand m = (Place.active lease next).stand ∧ now < lease := by
  obtain ⟨place, hplace⟩ := h.placed m
  by_cases hended : p.ends ≤ now
  · rw [state_of_ended room hended] at hstate
    cases hstate
  · have hopen : now < p.ends := Nat.lt_of_not_le hended
    by_cases hlive : place.live now
    · cases hcase : place with
      | outside =>
          rw [hcase] at hlive
          exact hlive.elim
      | active lease' next =>
          rw [hcase] at hplace hlive
          rw [state_of_active hplace hopen hlive] at hstate
          cases hstate
          exact ⟨next, hplace, hlive⟩
      | prequeued score presence next =>
          obtain ⟨n, -, hqueued⟩ := state_of_queued hplace hopen hlive (by rw [hcase]; rfl)
          rw [hqueued] at hstate
          cases hstate
      | waiting ticket presence next =>
          obtain ⟨n, -, hqueued⟩ := state_of_queued hplace hopen hlive (by rw [hcase]; rfl)
          rw [hqueued] at hstate
          cases hstate
    · rw [state_of_lapsed hplace hopen hlive] at hstate
      cases hstate

theorem live_of_state {room : Room} {p : Policy} {now : ℕ} {m : String} {place : Place}
    (hplace : room.stand m = place.stand) (hopen : now < p.ends)
    (hstate : room.state p now m ≠ .notJoined now) : place.live now := by
  by_contra hgone
  exact hstate (state_of_lapsed hplace hopen hgone)

theorem state_ne_notJoined {room : Room} {p : Policy} {now : ℕ} {m : String} {place : Place}
    (hplace : room.stand m = place.stand) (hopen : now < p.ends) (hlive : place.live now) :
    room.state p now m ≠ .notJoined now := by
  cases hcase : place with
  | outside =>
      rw [hcase] at hlive
      exact hlive.elim
  | active lease next =>
      rw [hcase] at hplace hlive
      rw [state_of_active hplace hopen hlive]
      exact Reply.noConfusion
  | prequeued score presence next =>
      obtain ⟨n, -, hqueued⟩ := state_of_queued hplace hopen hlive (by rw [hcase]; rfl)
      rw [hqueued]
      exact Reply.noConfusion
  | waiting ticket presence next =>
      obtain ⟨n, -, hqueued⟩ := state_of_queued hplace hopen hlive (by rw [hcase]; rfl)
      rw [hqueued]
      exact Reply.noConfusion

end Room

end Ticketing.Admission
