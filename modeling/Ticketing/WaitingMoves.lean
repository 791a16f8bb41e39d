import Ticketing.WaitingPlaces

/-!
# How an operation moves a member

One relation lists every move a call can make with the place of a member: it stays, it leaves the
room, it joins one of the two lines, it renews what it has, or a tick admits it from a line. Every
operation of the script is shown to make these moves only and to keep the room sound.
-/

namespace Ticketing.Admission

open Relational Expiring

def Op.member : Op → Option String
  | .status member => some member
  | .leave member => some member
  | .join member _ => some member
  | .heartbeat member => some member
  | _ => none

/-- The position a reply carries; an admitted member has nobody before it. -/
def Reply.position : Reply → Option ℕ
  | .queued _ _ position => some position
  | .admitted _ _ => some 0
  | _ => none

def Room.Fresh (room : Room) (ticket : ℕ) : Prop :=
  ∀ m t, room.waiting.zscore m = some t → t < ticket

/-- The moves of one member; the flag tells whether the call released it. -/
inductive Moves (event : Event) (fresh : ℕ → Prop) (m : String) : Bool → Place → Place → Prop where
  | stays (place : Place) : Moves event fresh m false place place
  | drops (place : Place) : Moves event fresh m false place .outside
  | joinsPrequeue (p : Policy) (score : ℕ) (place : Place)
      (hcall : event.request = .call p (.join m score)) (hearly : event.time < p.starts)
      (hgone : ¬place.live event.time) :
      Moves event fresh m false place
        (.prequeued score (event.time + p.presence) (event.time + p.heartbeat))
  | joinsWaiting (p : Policy) (score ticket : ℕ) (place : Place)
      (hcall : event.request = .call p (.join m score)) (hlate : p.starts ≤ event.time)
      (hgone : ¬place.live event.time) (hfresh : fresh ticket) :
      Moves event fresh m false place
        (.waiting ticket (event.time + p.presence) (event.time + p.heartbeat))
  | renewsPrequeued (p : Policy) (score presence next : ℕ)
      (hcall : event.request = .call p (.heartbeat m)) (hlive : event.time < presence) :
      Moves event fresh m false (.prequeued score presence next)
        (.prequeued score (event.time + p.presence) (event.time + p.heartbeat))
  | renewsWaiting (p : Policy) (ticket presence next : ℕ)
      (hcall : event.request = .call p (.heartbeat m)) (hlive : event.time < presence) :
      Moves event fresh m false (.waiting ticket presence next)
        (.waiting ticket (event.time + p.presence) (event.time + p.heartbeat))
  | renewsActive (p : Policy) (lease next : ℕ)
      (hcall : event.request = .call p (.heartbeat m)) (hlive : event.time < lease) :
      Moves event fresh m false (.active lease next)
        (.active (event.time + p.lease) (event.time + p.heartbeat))
  | admits (p : Policy) (place : Place) (x : ℕ ×ₗ (ℕ ×ₗ String))
      (hcall : event.request = .call p .tick) (hqueued : place.standing m = some x)
      (hlive : place.live event.time) (hopen : p.starts ≤ event.time) :
      Moves event fresh m true place
        (.active (event.time + p.lease) (event.time + p.heartbeat))

/-- What the room of an outcome has to do with the room the call found. -/
structure Room.Takes (room : Room) (event : Event) (out : Outcome) : Prop where
  sound : out.room.Sound
  moves : ∀ m (place : Place), room.stand m = place.stand → ∃ place' : Place,
    out.room.stand m = place'.stand ∧
      Moves event room.Fresh m (decide (m ∈ out.released)) place place'

namespace Room

variable {room : Room} {event : Event}

theorem takes_same (h : room.Sound) (reply : Reply) : room.Takes event ⟨reply, [], room⟩ where
  sound := h
  moves := fun m place hplace => ⟨place, hplace, by
    have hnot : decide (m ∈ ([] : List String)) = false := rfl
    rw [hnot]
    exact .stays place⟩

/-- A call that releases nobody and ends by moving the expiry of the keys. -/
theorem takes_touch {next : Room} {reply : Reply} (h : room.Sound) (p : Policy) (now : ℕ)
    (hticketed : next.Ticketed)
    (hmoves : ∀ m (place : Place), room.stand m = place.stand → ∃ place' : Place,
      next.stand m = place'.stand ∧ Moves event room.Fresh m false place place') :
    room.Takes event ⟨reply, [], next.touch p now⟩ where
  sound := by
    apply Sound.touch_of _ hticketed
    intro m
    obtain ⟨place, hplace⟩ := h.placed m
    obtain ⟨place', hplace', -⟩ := hmoves m place hplace
    exact ⟨place', hplace'⟩
  moves := by
    intro m place hplace
    have hnot : decide (m ∈ ([] : List String)) = false := rfl
    rw [hnot]
    rcases stand_touch next p now with hsame | hgone
    · obtain ⟨place', hplace', hmove⟩ := hmoves m place hplace
      exact ⟨place', by rw [hsame, hplace'], hmove⟩
    · exact ⟨.outside, hgone m, .drops place⟩

theorem sync_takes (h : room.Sound) (p : Policy) (now : ℕ) (bootstrap : Bool) :
    room.Takes event (room.sync p now bootstrap) := by
  unfold sync
  dsimp only
  split_ifs with hstale hmissing hother
  · exact takes_same h _
  · exact takes_same h _
  · exact takes_same h _
  · apply takes_touch h p now
    · exact h.ticketed
    · exact fun m place hplace => ⟨place, hplace, .stays place⟩

/-- A call that releases nobody and takes one member out. -/
theorem takes_remove {next : Room} (member : String) (hsound : next.Sound)
    (hstand : ∀ m, next.stand m = (room.remove member).stand m) (reply : Reply) :
    room.Takes event ⟨reply, [], next⟩ where
  sound := hsound
  moves := by
    intro m place hplace
    have hnot : decide (m ∈ ([] : List String)) = false := rfl
    rw [hnot]
    by_cases hm : m = member
    · refine ⟨.outside, ?_, .drops place⟩
      rw [hstand, hm, stand_remove_self]
    · refine ⟨place, ?_, .stays place⟩
      rw [hstand, stand_remove_of_ne room hm, hplace]

theorem leave_takes (h : room.Sound) (now : ℕ) (member : String) :
    room.Takes event (room.leave now member) :=
  takes_remove member (h.remove member) (fun _ => rfl) _

/-- The member queues with a score of the prequeue; nobody else is touched. -/
theorem stand_joinPrequeue (room : Room) (p : Policy) (now : ℕ) (member : String) (score : ℕ)
    (m : String) :
    (enter { room.remove member with
      prequeue := (room.remove member).prequeue.zadd score member } p now member).stand m =
    if m = member then (Place.prequeued score (now + p.presence) (now + p.heartbeat)).stand
    else room.stand m := by
  unfold enter remove stand
  simp only [Key.zscore_zadd, Key.zscore_zrem]
  by_cases hm : m = member
  · simp only [if_pos hm, Place.stand]
  · simp only [if_neg hm]

theorem stand_joinWaiting (room : Room) (p : Policy) (now : ℕ) (member : String) (ticket : ℕ)
    (sequence : Key ℕ) (m : String) :
    (enter { room.remove member with
      sequence := sequence
      waiting := (room.remove member).waiting.zadd ticket member } p now member).stand m =
    if m = member then (Place.waiting ticket (now + p.presence) (now + p.heartbeat)).stand
    else room.stand m := by
  unfold enter remove stand
  simp only [Key.zscore_zadd, Key.zscore_zrem]
  by_cases hm : m = member
  · simp only [if_pos hm, Place.stand]
  · simp only [if_neg hm]

/-- The next number of the sequence is above every ticket. -/
theorem fresh_next (h : room.Ticketed) : room.Fresh (room.sequence.content.getD 0 + 1) := by
  intro m t ht
  obtain ⟨last, hlast, hle⟩ := h m t ht
  rw [hlast]
  exact Nat.lt_succ_of_le hle

/-- Advancing an existing sequence keeps the room sound. -/
theorem Sound.advance (h : room.Sound) {last : ℕ} (hlast : room.sequence.content = some last) :
    Sound { room with sequence := room.sequence.write (last + 1) } where
  placed := h.placed
  ticketed := by
    intro m t ht
    obtain ⟨last', hlast', hle⟩ := h.ticketed m t ht
    rw [hlast] at hlast'
    cases hlast'
    exact ⟨last + 1, rfl, Nat.le_succ_of_le hle⟩
  due := by
    obtain ⟨d, hd⟩ := h.due
    have hsome : room.sequence.isSome := by
      obtain ⟨cell, hcell, -⟩ := Option.map_eq_some_iff.mp hlast
      rw [hcell]
      rfl
    exact ⟨d, { hd with sequence := Key.due_write _ hd.sequence hsome }⟩

theorem ticketed_joinWaiting (h : room.Ticketed) (p : Policy) (now : ℕ) (member : String) :
    Ticketed (enter { room with
      sequence := room.sequence.write (room.sequence.content.getD 0 + 1)
      waiting := room.waiting.zadd (room.sequence.content.getD 0 + 1) member } p now member) := by
  intro m t ht
  have hscore : (room.waiting.zadd (room.sequence.content.getD 0 + 1) member).zscore m = some t := ht
  refine ⟨_, rfl, ?_⟩
  rw [Key.zscore_zadd] at hscore
  by_cases hm : m = member
  · rw [if_pos hm] at hscore
    cases hscore
    exact le_rfl
  · rw [if_neg hm] at hscore
    exact (fresh_next h m t hscore).le

theorem join_takes (h : room.Sound) {p : Policy} {member : String} {score : ℕ}
    (hcall : event.request = .call p (.join member score)) :
    room.Takes event (room.join p event.time member score) := by
  unfold join
  dsimp only
  split_ifs with hended hopen hstate hscore hearly hraised hexhausted
  · exact takes_same h _
  · exact takes_same h _
  · exact takes_same h _
  · exact takes_same h _
  · -- the prequeue
    apply takes_touch h p event.time
    · exact ticketed_remove h.ticketed member
    · intro m place hplace
      rw [stand_joinPrequeue]
      by_cases hm : m = member
      · subst hm
        refine ⟨_, if_pos rfl, .joinsPrequeue p score place hcall hearly ?_⟩
        intro hlive
        exact hstate (state_ne_notJoined hplace (Nat.lt_of_not_le hended) hlive)
      · exact ⟨place, by rw [if_neg hm, hplace], .stays place⟩
  · -- the sequence overflows after the member was taken out
    exact takes_remove member (h.remove member) (fun _ => rfl) _
  · -- the sequence is exhausted after the member was taken out
    have hlast : (room.remove member).sequence.content =
        some ((room.remove member).sequence.content.getD 0) := by
      cases hcontent : (room.remove member).sequence.content with
      | some last => rfl
      | none =>
          rw [hcontent] at hexhausted
          exact absurd hexhausted (by decide)
    exact takes_remove member ((h.remove member).advance hlast) (fun _ => rfl) _
  · -- the waiting line
    apply takes_touch h p event.time
    · exact ticketed_joinWaiting (ticketed_remove h.ticketed member) p event.time member
    · intro m place hplace
      rw [stand_joinWaiting]
      by_cases hm : m = member
      · subst hm
        refine ⟨_, if_pos rfl, .joinsWaiting p score _ place hcall (Nat.le_of_not_lt hearly) ?_ ?_⟩
        · intro hlive
          exact hstate (state_ne_notJoined hplace (Nat.lt_of_not_le hended) hlive)
        · exact fresh_next h.ticketed
      · exact ⟨place, by rw [if_neg hm, hplace], .stays place⟩

theorem stand_renew (room : Room) (p : Policy) (now : ℕ) (member : String) (admitted : Bool)
    (m : String) : (room.renew p now member admitted).stand m =
      if m = member then
        { room.stand m with
          presence := if admitted then room.presence.zscore m else some (now + p.presence)
          active := if admitted then some (now + p.lease) else room.active.zscore m
          heartbeat := some (now + p.heartbeat) }
      else room.stand m := by
  unfold renew stand
  by_cases hm : m = member
  · cases admitted <;> simp [hm]
  · cases admitted <;> simp [hm]

theorem beat_takes (h : room.Sound) {p : Policy} {member : String}
    (hcall : event.request = .call p (.heartbeat member)) :
    room.Takes event (room.beat p event.time member) := by
  unfold beat
  dsimp only
  split_ifs with hstate hearly
  · exact takes_same h _
  · exact takes_same h _
  have hopen : event.time < p.ends := by
    by_contra hended
    exact hstate (Or.inr (state_of_ended room (Nat.le_of_not_lt hended) member))
  apply takes_touch h p event.time
  · exact h.ticketed
  · intro m place hplace
    rw [stand_renew]
    by_cases hm : m = member
    · subst hm
      have hlive : place.live event.time :=
        live_of_state hplace hopen fun heq => hstate (Or.inl heq)
      have hactive : room.active.zscore m = place.stand.active := congrArg Stand.active hplace
      have hpresence : room.presence.zscore m = place.stand.presence :=
        congrArg Stand.presence hplace
      rw [if_pos rfl, hplace, hactive, hpresence]
      cases place with
      | outside => exact hlive.elim
      | active lease next =>
          have hrunning : event.time < lease := hlive
          exact ⟨_, by simp [Place.stand, hrunning], .renewsActive p lease next hcall hlive⟩
      | prequeued score presence next =>
          exact ⟨_, by simp [Place.stand], .renewsPrequeued p score presence next hcall hlive⟩
      | waiting ticket presence next =>
          exact ⟨_, by simp [Place.stand], .renewsWaiting p ticket presence next hcall hlive⟩
    · exact ⟨place, by rw [if_neg hm, hplace], .stays place⟩

theorem removeAll_cons (room : Room) (id : String) (ids : List String) :
    room.removeAll (id :: ids) = (room.remove id).removeAll ids := rfl

theorem stand_removeAll (room : Room) (ids : List String) (m : String) :
    (room.removeAll ids).stand m = if m ∈ ids then Place.outside.stand else room.stand m := by
  induction ids generalizing room with
  | nil => rfl
  | cons id ids ih =>
      rw [removeAll_cons, ih, stand_remove]
      by_cases hids : m ∈ ids
      · rw [if_pos hids, if_pos (List.mem_cons_of_mem id hids)]
      · rw [if_neg hids]
        by_cases hm : m = id
        · rw [if_pos hm, if_pos (hm ▸ List.mem_cons_self)]
        · rw [if_neg hm, if_neg (List.not_mem_cons_of_ne_of_not_mem hm hids)]

theorem Sound.removeAll (h : room.Sound) (ids : List String) : (room.removeAll ids).Sound := by
  induction ids generalizing room with
  | nil => exact h
  | cons id ids ih => exact ih (h.remove id)

/-- The keys that hold no members. -/
def fixtures (room : Room) : Key Runtime × Key ℕ × Key Bucket × Key ℕ :=
  (room.runtime, room.sequence, room.release, room.pause)

theorem removeAll_fixtures (room : Room) (ids : List String) :
    (room.removeAll ids).fixtures = room.fixtures := by
  induction ids generalizing room with
  | nil => rfl
  | cons id ids ih => exact ih (room.remove id)

theorem cleanup_fixtures (room : Room) (p : Policy) (now : ℕ) :
    (room.cleanup p now).1.fixtures = room.fixtures :=
  (removeAll_fixtures _ _).trans (removeAll_fixtures _ _)

theorem candidate_fixtures {rest : Room} {id : String} (h : room.candidate = some (id, rest)) :
    rest.fixtures = room.fixtures := by
  unfold candidate at h
  split at h
  · cases h
    rfl
  · split at h
    · cases h
      rfl
    · cases h

theorem draw_fixtures (p : Policy) (now turns tokens : ℕ) (room : Room) :
    (draw p now turns tokens room).room.fixtures = room.fixtures := by
  induction turns generalizing tokens room with
  | zero => rfl
  | succ turns ih =>
      unfold draw
      split_ifs with hstop
      · rfl
      · split
        · rfl
        · rename_i id rest hcandidate
          have hrest := candidate_fixtures hcandidate
          split_ifs with hpresent
          · exact (ih _ (rest.activate p now id)).trans hrest
          · exact (ih _ (rest.remove id)).trans hrest

theorem Sound.cleanup (h : room.Sound) (p : Policy) (now : ℕ) : (room.cleanup p now).1.Sound :=
  (h.removeAll _).removeAll _

theorem stand_cleanup (room : Room) (p : Policy) (now : ℕ) (m : String) :
    (room.cleanup p now).1.stand m = room.stand m ∨
      (room.cleanup p now).1.stand m = Place.outside.stand := by
  unfold cleanup
  dsimp only
  rw [stand_removeAll, stand_removeAll]
  split_ifs
  · exact Or.inr rfl
  · exact Or.inr rfl
  · exact Or.inl rfl

/-- A cleanup passes over the members that are live. -/
theorem stand_cleanup_of_live {p : Policy} {now : ℕ} {m : String} {place : Place}
    (hplace : room.stand m = place.stand) (hlive : place.live now) :
    (room.cleanup p now).1.stand m = room.stand m := by
  have hpresent : ∀ score, place.stand.presence = some score → now < score := by
    intro score hscore
    cases place <;> cases hscore <;> exact hlive
  have hrunning : ∀ score, place.stand.active = some score → now < score := by
    intro score hscore
    cases place <;> cases hscore
    exact hlive
  have hkeptPresence : m ∉ room.presence.zrangeByScore now p.batch := by
    intro hm
    obtain ⟨score, hscore, hle⟩ := Key.mem_zrangeByScore hm
    have hown : room.presence.zscore m = place.stand.presence := congrArg Stand.presence hplace
    rw [hown] at hscore
    exact absurd (hpresent score hscore) (Nat.not_lt.mpr hle)
  have hfirst : (room.removeAll (room.presence.zrangeByScore now p.batch)).stand m = room.stand m := by
    rw [stand_removeAll, if_neg hkeptPresence]
  have hkeptActive :
      m ∉ (room.removeAll (room.presence.zrangeByScore now p.batch)).active.zrangeByScore now
        p.batch := by
    intro hm
    obtain ⟨score, hscore, hle⟩ := Key.mem_zrangeByScore hm
    have hown : (room.removeAll (room.presence.zrangeByScore now p.batch)).active.zscore m =
        place.stand.active := congrArg Stand.active (hfirst.trans hplace)
    rw [hown] at hscore
    exact absurd (hrunning score hscore) (Nat.not_lt.mpr hle)
  unfold cleanup
  dsimp only
  rw [stand_removeAll, if_neg hkeptActive, hfirst]

/-- The head is queued, stands before every other queued member, and is taken out of its line. -/
structure Heads (room : Room) (id : String) (rest : Room) : Prop where
  queued : ∃ (place : Place) (x : ℕ ×ₗ (ℕ ×ₗ String)),
    room.stand id = place.stand ∧ place.standing id = some x ∧
      ∀ m (other : Place) y, room.stand m = other.stand → other.standing m = some y → x ≤ y
  self : rest.stand id = { room.stand id with prequeue := none, waiting := none }
  others : ∀ m, m ≠ id → rest.stand m = room.stand m
  active : rest.active = room.active
  presence : rest.presence = room.presence
  sequence : rest.sequence = room.sequence

theorem heads_of_candidate (hplaced : ∀ m, ∃ place : Place, room.stand m = place.stand)
    {id : String} {rest : Room} (h : room.candidate = some (id, rest)) : room.Heads id rest := by
  unfold candidate at h
  cases hpre : room.prequeue.zfirst with
  | some first =>
      rw [hpre] at h
      cases h
      obtain ⟨score, hscore, hleast⟩ := SortedSet.first_spec hpre
      obtain ⟨place, hplace⟩ := hplaced id
      have hown : place.stand.prequeue = some score := by
        rw [← hplace]
        exact hscore
      have hnotWaiting : room.waiting.zscore id = none := by
        have hwaiting : room.waiting.zscore id = place.stand.waiting := congrArg Stand.waiting hplace
        rw [hwaiting]
        cases place <;> cases hown
        rfl
      refine ⟨⟨place, toLex (0, toLex (score, id)), hplace, ?_, ?_⟩, ?_, ?_, rfl, rfl, rfl⟩
      · cases place <;> cases hown
        rfl
      · intro m other y hother hy
        cases other with
        | outside => cases hy
        | active lease next => cases hy
        | waiting ticket presence next =>
            cases hy
            exact Prod.Lex.toLex_le_toLex.mpr (Or.inl Nat.zero_lt_one)
        | prequeued score' presence next =>
            cases hy
            have hle := hleast m score' (congrArg Stand.prequeue hother)
            exact Prod.Lex.toLex_le_toLex.mpr (Or.inr ⟨rfl, hle⟩)
      · unfold stand
        rw [Key.zscore_zrem, if_pos rfl, hnotWaiting]
      · intro m hm
        unfold stand
        rw [Key.zscore_zrem, if_neg hm]
  | none =>
      rw [hpre] at h
      cases hwait : room.waiting.zfirst with
      | none =>
          rw [hwait] at h
          cases h
      | some first =>
          rw [hwait] at h
          cases h
          obtain ⟨ticket, hticket, hleast⟩ := SortedSet.first_spec hwait
          have hempty : ∀ m, room.prequeue.zscore m = none := by
            intro m
            exact Table.find_of_rows_nil (SortedSet.first_eq_none.mp hpre) m
          obtain ⟨place, hplace⟩ := hplaced id
          have hown : place.stand.waiting = some ticket := by
            rw [← hplace]
            exact hticket
          refine ⟨⟨place, toLex (1, toLex (ticket, id)), hplace, ?_, ?_⟩, ?_, ?_, rfl, rfl, rfl⟩
          · cases place <;> cases hown
            rfl
          · intro m other y hother hy
            cases other with
            | outside => cases hy
            | active lease next => cases hy
            | prequeued score presence next =>
                have hscore : room.prequeue.zscore m = some score := congrArg Stand.prequeue hother
                rw [hempty m] at hscore
                cases hscore
            | waiting ticket' presence next =>
                cases hy
                have hle := hleast m ticket' (congrArg Stand.waiting hother)
                exact Prod.Lex.toLex_le_toLex.mpr (Or.inr ⟨rfl, hle⟩)
          · unfold stand
            rw [Key.zscore_zrem, if_pos rfl, hempty id]
          · intro m hm
            unfold stand
            rw [Key.zscore_zrem, if_neg hm]

/-- Without a head nobody is queued. -/
theorem not_queued_of_no_candidate (h : room.candidate = none) (m : String) (place : Place)
    (hplace : room.stand m = place.stand) : place.standing m = none := by
  unfold candidate at h
  cases hpre : room.prequeue.zfirst with
  | some first =>
      rw [hpre] at h
      cases h
  | none =>
      rw [hpre] at h
      cases hwait : room.waiting.zfirst with
      | some first =>
          rw [hwait] at h
          cases h
      | none =>
          cases place with
          | outside => rfl
          | active lease next => rfl
          | prequeued score presence next =>
              have hscore : room.prequeue.zscore m = some score := congrArg Stand.prequeue hplace
              rw [show room.prequeue.zscore m = none from
                Table.find_of_rows_nil (SortedSet.first_eq_none.mp hpre) m] at hscore
              cases hscore
          | waiting ticket presence next =>
              have hticket : room.waiting.zscore m = some ticket := congrArg Stand.waiting hplace
              rw [show room.waiting.zscore m = none from
                Table.find_of_rows_nil (SortedSet.first_eq_none.mp hwait) m] at hticket
              cases hticket

theorem Heads.stand_activate {id : String} {rest : Room} (h : room.Heads id rest) (p : Policy)
    (now : ℕ) (m : String) : (rest.activate p now id).stand m =
      if m = id then (Place.active (now + p.lease) (now + p.heartbeat)).stand
      else room.stand m := by
  by_cases hm : m = id
  · rw [if_pos hm, hm]
    have hprequeue : rest.prequeue.zscore id = none := congrArg Stand.prequeue h.self
    have hwaiting : rest.waiting.zscore id = none := congrArg Stand.waiting h.self
    unfold activate stand
    simp only [Key.zscore_zadd, Key.zscore_zrem, if_true, hprequeue, hwaiting, Place.stand]
  · rw [if_neg hm, ← h.others m hm]
    unfold activate stand
    simp only [Key.zscore_zadd, Key.zscore_zrem, if_neg hm]

theorem Heads.stand_remove {id : String} {rest : Room} (h : room.Heads id rest) (m : String) :
    (rest.remove id).stand m = if m = id then Place.outside.stand else room.stand m := by
  rw [Room.stand_remove]
  by_cases hm : m = id
  · rw [if_pos hm, if_pos hm]
  · rw [if_neg hm, if_neg hm, h.others m hm]

/-- The rounds of a release: every round admits the head of the line or drops it. -/
inductive Draws (p : Policy) (now : ℕ) : Room → List String → Room → Prop where
  | stop (room : Room) : Draws p now room [] room
  | admits {room rest last : Room} {id : String} {place : Place} {released : List String}
      (head : room.Heads id rest) (stands : room.stand id = place.stand)
      (lives : place.live now) (spare : room.active.zcard < p.capacity)
      (next : Draws p now (rest.activate p now id) released last) :
      Draws p now room (id :: released) last
  | drops {room rest last : Room} {id : String} {place : Place} {released : List String}
      (head : room.Heads id rest) (stands : room.stand id = place.stand)
      (lapsed : ¬place.live now) (next : Draws p now (rest.remove id) released last) :
      Draws p now room released last

/-- A queued member is live as long as its presence is. -/
theorem live_iff_presence {m : String} {place : Place} {now : ℕ} {x : ℕ ×ₗ (ℕ ×ₗ String)}
    (hplace : room.stand m = place.stand) (hx : place.standing m = some x) :
    place.live now ↔ now < (room.presence.zscore m).getD 0 := by
  have hpresence : room.presence.zscore m = place.stand.presence := congrArg Stand.presence hplace
  rw [hpresence]
  cases place with
  | outside => cases hx
  | active lease next => cases hx
  | prequeued score presence next => exact Iff.rfl
  | waiting ticket presence next => exact Iff.rfl

theorem draws_of_draw (p : Policy) (now turns tokens : ℕ)
    (hplaced : ∀ m, ∃ place : Place, room.stand m = place.stand) :
    Draws p now room (draw p now turns tokens room).released (draw p now turns tokens room).room := by
  induction turns generalizing tokens room with
  | zero => exact .stop room
  | succ turns ih =>
      unfold draw
      by_cases hstop : tokens < 1000 ∨ p.capacity ≤ room.active.zcard
      · rw [if_pos hstop]
        exact .stop room
      · rw [if_neg hstop]
        cases hcandidate : room.candidate with
        | none => exact .stop room
        | some head =>
            obtain ⟨id, rest⟩ := head
            have hhead := heads_of_candidate hplaced hcandidate
            obtain ⟨place, x, hplace, hx, -⟩ := hhead.queued
            have hlive : place.live now ↔ now < (room.presence.zscore id).getD 0 :=
              live_iff_presence hplace hx
            dsimp only
            rw [hhead.presence]
            by_cases hpresent : now < (room.presence.zscore id).getD 0
            · rw [if_pos hpresent]
              apply Draws.admits hhead hplace (hlive.mpr hpresent)
              · omega
              · apply ih
                intro m
                rw [hhead.stand_activate]
                split_ifs with hm
                · exact ⟨_, rfl⟩
                · exact hplaced m
            · rw [if_neg hpresent]
              apply Draws.drops hhead hplace (fun h => hpresent (hlive.mp h))
              apply ih
              intro m
              rw [hhead.stand_remove]
              split_ifs with hm
              · exact ⟨.outside, rfl⟩
              · exact hplaced m

/-- A member outside the line is passed over by every round. -/
theorem Draws.stand_of_not_queued {p : Policy} {now : ℕ} {last : Room} {released : List String}
    (h : Draws p now room released last) {m : String} {place : Place}
    (hplace : room.stand m = place.stand) (hout : place.standing m = none) :
    m ∉ released ∧ last.stand m = place.stand := by
  have hother : ∀ {room rest : Room} {id : String}, room.Heads id rest →
      room.stand m = place.stand → m ≠ id := by
    rintro room rest id hhead hstand rfl
    obtain ⟨head, x, hheadPlace, hx, -⟩ := hhead.queued
    rw [Place.stand_injective (hheadPlace.symm.trans hstand), hout] at hx
    cases hx
  induction h with
  | stop room => exact ⟨List.not_mem_nil, hplace⟩
  | admits head stands lives spare next ih =>
      have hm := hother head hplace
      obtain ⟨hnot, hlast⟩ := ih (by rw [head.stand_activate, if_neg hm, hplace])
      exact ⟨List.not_mem_cons_of_ne_of_not_mem hm hnot, hlast⟩
  | drops head stands lapsed next ih =>
      have hm := hother head hplace
      exact ih (by rw [head.stand_remove, if_neg hm, hplace])

/-- What the rounds of a release do to one member. -/
inductive Pulled (p : Policy) (now : ℕ) (m : String) : Bool → Place → Place → Prop where
  | stays (place : Place) : Pulled p now m false place place
  | drops (place : Place) (hlapsed : ¬place.live now) : Pulled p now m false place .outside
  | admits (place : Place) (x : ℕ ×ₗ (ℕ ×ₗ String)) (hqueued : place.standing m = some x)
      (hlive : place.live now) :
      Pulled p now m true place (.active (now + p.lease) (now + p.heartbeat))

theorem Draws.pulled {p : Policy} {now : ℕ} {last : Room} {released : List String}
    (h : Draws p now room released last) {m : String} {place : Place}
    (hplace : room.stand m = place.stand) :
    ∃ place' : Place, last.stand m = place'.stand ∧
      Pulled p now m (decide (m ∈ released)) place place' := by
  induction h with
  | stop room => exact ⟨place, hplace, .stays place⟩
  | @admits room rest last id headPlace released head stands lives spare next ih =>
      by_cases hm : m = id
      · subst hm
        have hactive : (rest.activate p now m).stand m =
            (Place.active (now + p.lease) (now + p.heartbeat)).stand := by
          rw [head.stand_activate, if_pos rfl]
        obtain ⟨hnot, hlast⟩ := next.stand_of_not_queued hactive rfl
        obtain ⟨queued, x, hqueued, hx, -⟩ := head.queued
        have hsame := Place.stand_injective (hqueued.symm.trans hplace)
        have hlive := Place.stand_injective (stands.symm.trans hplace) ▸ lives
        have hin : decide (m ∈ m :: released) = true := decide_eq_true List.mem_cons_self
        rw [hin]
        exact ⟨_, hlast, .admits place x (hsame ▸ hx) hlive⟩
      · obtain ⟨place', hlast, hpulled⟩ := ih (by rw [head.stand_activate, if_neg hm, hplace])
        have hin : decide (m ∈ id :: released) = decide (m ∈ released) := by
          simp [List.mem_cons, hm]
        rw [hin]
        exact ⟨place', hlast, hpulled⟩
  | @drops room rest last id headPlace released head stands lapsed next ih =>
      by_cases hm : m = id
      · subst hm
        have hout : (rest.remove m).stand m = Place.outside.stand := by
          rw [head.stand_remove, if_pos rfl]
        obtain ⟨hnot, hlast⟩ := next.stand_of_not_queued hout rfl
        have hlapsed := Place.stand_injective (stands.symm.trans hplace) ▸ lapsed
        rw [decide_eq_false hnot]
        exact ⟨.outside, hlast, .drops place hlapsed⟩
      · exact ih (by rw [head.stand_remove, if_neg hm, hplace])

/-- A release leaves the sequence alone. -/
theorem Draws.sequence_eq {p : Policy} {now : ℕ} {last : Room} {released : List String}
    (h : Draws p now room released last) : last.sequence = room.sequence := by
  induction h with
  | stop room => rfl
  | admits head stands lives spare next ih => exact ih.trans head.sequence
  | drops head stands lapsed next ih => exact ih.trans head.sequence

/-- Rounds that admit stop at the capacity. -/
theorem Draws.zcard_active_le {p : Policy} {now : ℕ} {last : Room} {released : List String}
    (h : Draws p now room released last) : last.active.zcard ≤ max room.active.zcard p.capacity := by
  induction h with
  | stop room => exact le_max_left _ _
  | @admits room rest last id place released head stands lives spare next ih =>
      have hone : (rest.activate p now id).active.zcard ≤ rest.active.zcard + 1 := Key.zcard_zadd_le _ _ _
      rw [head.active] at hone
      omega
  | @drops room rest last id place released head stands lapsed next ih =>
      have hone : (rest.remove id).active.zcard ≤ rest.active.zcard := Key.zcard_zrem_le _ _
      rw [head.active] at hone
      omega

/-- Of two queued members the one ahead is released first. -/
theorem Draws.released_before {p : Policy} {now : ℕ} {last : Room} {released : List String}
    (h : Draws p now room released last) {a b : String} {placeA placeB : Place}
    {x y : ℕ ×ₗ (ℕ ×ₗ String)} (hA : room.stand a = placeA.stand) (hx : placeA.standing a = some x)
    (hlive : placeA.live now) (hB : room.stand b = placeB.stand) (hy : placeB.standing b = some y)
    (hahead : x < y) (hb : b ∈ released) :
    ∃ earlier later, released = earlier ++ b :: later ∧ a ∈ earlier := by
  have hnotHead : ∀ {room rest : Room}, room.stand a = placeA.stand → room.stand b = placeB.stand →
      ¬room.Heads b rest := by
    intro room rest hroomA hroomB hhead
    obtain ⟨head, z, hheadPlace, hz, hleast⟩ := hhead.queued
    rw [Place.stand_injective (hheadPlace.symm.trans hroomB), hy] at hz
    cases hz
    exact absurd (hleast a placeA x hroomA hx) (not_le_of_gt hahead)
  induction h with
  | stop room => cases hb
  | @admits room rest last id place released head stands lives spare next ih =>
      have hbid : b ≠ id := by
        rintro rfl
        exact hnotHead hA hB head
      have hbrest : b ∈ released := by
        cases List.mem_cons.mp hb with
        | inl heq => exact absurd heq hbid
        | inr hin => exact hin
      by_cases haid : a = id
      · obtain ⟨earlier, later, hsplit⟩ := List.append_of_mem hbrest
        exact ⟨id :: earlier, later, by rw [hsplit, List.cons_append],
          haid ▸ List.mem_cons_self⟩
      · obtain ⟨earlier, later, hsplit, ha⟩ := ih
          (by rw [head.stand_activate, if_neg haid, hA]) (by rw [head.stand_activate, if_neg hbid, hB])
          hbrest
        exact ⟨id :: earlier, later, by rw [hsplit, List.cons_append], List.mem_cons_of_mem id ha⟩
  | @drops room rest last id place released head stands lapsed next ih =>
      have hbid : b ≠ id := by
        rintro rfl
        exact hnotHead hA hB head
      have haid : a ≠ id := by
        rintro rfl
        exact lapsed (Place.stand_injective (stands.symm.trans hA) ▸ hlive)
      exact ih (by rw [head.stand_remove, if_neg haid, hA])
        (by rw [head.stand_remove, if_neg hbid, hB]) hb

theorem of_pauseReason_none {p : Policy} {now : ℕ} (h : room.pauseReason p now = none) :
    now < p.ends ∧ p.starts ≤ now ∧ room.runtimePaused now = false := by
  unfold pauseReason at h
  split_ifs at h with hended hearly hmode hpaused
  exact ⟨Nat.lt_of_not_le hended, Nat.le_of_not_lt hearly, Bool.eq_false_iff.mpr hpaused⟩

/-- The rounds of a tick run on the room its cleanup leaves. -/
theorem tick_of_open {p : Policy} {now : ℕ}
    (h : (room.cleanup p now).1.pauseReason p now = none) :
    ∃ tokens bucket, (room.tick p now).released =
        (draw p now p.batch tokens (room.cleanup p now).1).released ∧
      (room.tick p now).room = Room.touch
        { (draw p now p.batch tokens (room.cleanup p now).1).room with release := bucket } p now := by
  unfold tick
  dsimp only
  rw [h]
  exact ⟨_, _, rfl, rfl⟩

theorem tick_of_paused {p : Policy} {now : ℕ} {reason : Reason}
    (h : (room.cleanup p now).1.pauseReason p now = some reason) :
    ∃ reply, room.tick p now = ⟨reply, [], (room.cleanup p now).1.touch p now⟩ := by
  unfold tick
  dsimp only
  rw [h]
  exact ⟨_, rfl⟩

/-- A release keeps the tickets below the sequence. -/
theorem Draws.ticketed {p : Policy} {now : ℕ} {last : Room} {released : List String}
    (hsound : room.Sound) (h : Draws p now room released last) : last.Ticketed := by
  intro m ticket hticket
  obtain ⟨place, hplace⟩ := hsound.placed m
  obtain ⟨place', hlast, hpulled⟩ := h.pulled hplace
  rw [h.sequence_eq]
  have hown : last.waiting.zscore m = place'.stand.waiting := congrArg Stand.waiting hlast
  rw [hown] at hticket
  generalize decide (m ∈ released) = flag at hpulled
  cases hpulled with
  | stays => exact hsound.ticketed m ticket ((congrArg Stand.waiting hplace).trans hticket)
  | drops => cases hticket
  | admits => cases hticket

theorem tick_takes (h : room.Sound) {p : Policy} (hcall : event.request = .call p .tick) :
    room.Takes event (room.tick p event.time) := by
  have hclean := h.cleanup p event.time
  have hcleanMoves : ∀ m (place : Place), room.stand m = place.stand → ∃ place' : Place,
      (room.cleanup p event.time).1.stand m = place'.stand ∧ (place' = place ∨ place' = .outside) := by
    intro m place hplace
    rcases stand_cleanup room p event.time m with hsame | hgone
    · exact ⟨place, hsame.trans hplace, Or.inl rfl⟩
    · exact ⟨.outside, hgone, Or.inr rfl⟩
  cases hreason : (room.cleanup p event.time).1.pauseReason p event.time with
  | some reason =>
      obtain ⟨reply, htick⟩ := tick_of_paused hreason
      rw [htick]
      apply takes_touch h p event.time hclean.ticketed
      intro m place hplace
      obtain ⟨place', hplace', hcase⟩ := hcleanMoves m place hplace
      cases hcase with
      | inl hsame => exact ⟨place', hplace', hsame ▸ .stays place'⟩
      | inr hgone => exact ⟨place', hplace', hgone ▸ .drops place⟩
  | none =>
      obtain ⟨hopen, hstarted, -⟩ := of_pauseReason_none hreason
      obtain ⟨tokens, bucket, hreleased, hroom⟩ := tick_of_open hreason
      have hdraws := draws_of_draw p event.time p.batch tokens hclean.placed
      have hticketed := Draws.ticketed hclean hdraws
      refine ⟨?_, ?_⟩
      · rw [hroom]
        apply Sound.touch_of
        · intro m
          obtain ⟨place, hplace⟩ := hclean.placed m
          obtain ⟨place', hlast, -⟩ := hdraws.pulled hplace
          exact ⟨place', hlast⟩
        · exact hticketed
      · intro m place hplace
        obtain ⟨middle, hmiddle, hcase⟩ := hcleanMoves m place hplace
        obtain ⟨place', hlast, hpulled⟩ := hdraws.pulled hmiddle
        refine ⟨place', ?_, ?_⟩
        · rw [hroom, stand_touch_of_open _ hopen]
          exact hlast
        · rw [hreleased]
          generalize decide (m ∈ (draw p event.time p.batch tokens
            (room.cleanup p event.time).1).released) = flag at hpulled
          cases hpulled with
          | stays =>
              cases hcase with
              | inl hsame => exact hsame ▸ .stays middle
              | inr hgone => exact hgone ▸ .drops place
          | drops => exact .drops place
          | admits _ x hqueued hlive =>
              cases hcase with
              | inl hsame =>
                  subst hsame
                  exact .admits p middle x hcall hqueued hlive hstarted
              | inr hgone =>
                  subst hgone
                  cases hqueued

theorem guarded_takes (h : room.Sound) (p : Policy) (now : ℕ) {out : Outcome}
    (hout : room.Takes event out) : room.Takes event (room.guarded p now out) := by
  unfold guarded
  split_ifs
  · exact takes_same h _
  · exact takes_same h _
  · exact hout

theorem script_takes (h : room.Sound) {p : Policy} {op : Op} (hcall : event.request = .call p op) :
    room.Takes event (room.script p event.time op) := by
  unfold script
  split_ifs with hvalid
  · exact takes_same h _
  · cases op with
    | sync bootstrap => exact sync_takes h p _ bootstrap
    | status member => exact guarded_takes h p _ (takes_same h _)
    | leave member => exact guarded_takes h p _ (leave_takes h _ member)
    | join member score => exact guarded_takes h p _ (join_takes h hcall)
    | heartbeat member => exact guarded_takes h p _ (beat_takes h hcall)
    | tick => exact guarded_takes h p _ (tick_takes h hcall)

theorem markPause_takes (h : room.Sound) (now : ℕ) : room.Takes event (room.markPause now) := by
  unfold markPause
  split_ifs with hmarked
  · exact takes_same h _
  · refine ⟨h.with_pause _, ?_⟩
    intro m place hplace
    exact ⟨place, hplace, .stays place⟩

/-- Every call keeps the room sound and moves every member as listed. -/
theorem handle_takes (h : room.Sound) (event : Event) :
    (room.visible event.time).Takes event (room.handle event) := by
  have hvisible := h.visible event.time
  unfold handle
  cases hrequest : event.request with
  | call policy op => exact script_takes hvisible hrequest
  | pause => exact markPause_takes hvisible event.time

theorem guarded_of_position {p : Policy} {now n : ℕ} {out : Outcome}
    (h : (room.guarded p now out).reply.position = some n) : room.guarded p now out = out := by
  unfold guarded at h ⊢
  split_ifs at h ⊢ with hfenced hoff
  · cases h
  · cases h
  · rfl

theorem join_state_of_reply {p : Policy} {now score n : ℕ} {m : String}
    (h : (room.join p now m score).reply.position = some n) :
    (room.join p now m score).room.state p now m = (room.join p now m score).reply := by
  unfold join at h ⊢
  dsimp only at h ⊢
  split_ifs at h ⊢ with hended hopen hstate hscore hearly hraised hexhausted
  · cases h
  · cases h
  · rfl
  · cases h
  · rfl
  · cases h
  · cases h
  · rfl

theorem beat_state_of_reply (p : Policy) (now : ℕ) (m : String) :
    (room.beat p now m).room.state p now m = (room.beat p now m).reply := by
  unfold beat
  dsimp only
  split_ifs with hstate hearly
  · rfl
  · rfl
  · rfl

/-- A position is read off the room the call left. -/
theorem state_of_reply {p : Policy} {op : Op} {now n : ℕ} {m : String} (hop : op.member = some m)
    (h : (room.script p now op).reply.position = some n) :
    (room.script p now op).room.state p now m = (room.script p now op).reply := by
  unfold script at h ⊢
  by_cases hvalid : p.valid = false
  · rw [if_pos hvalid] at h
    cases h
  · rw [if_neg hvalid] at h ⊢
    cases op with
    | sync bootstrap => cases hop
    | tick => cases hop
    | status member =>
        cases hop
        dsimp only at h ⊢
        rw [guarded_of_position h]
    | leave member =>
        dsimp only at h
        have hrun := guarded_of_position h
        rw [hrun] at h
        cases h
    | join member score =>
        cases hop
        dsimp only at h ⊢
        have hrun := guarded_of_position h
        rw [hrun] at h ⊢
        exact join_state_of_reply h
    | heartbeat member =>
        cases hop
        dsimp only at h ⊢
        rw [guarded_of_position h]
        exact beat_state_of_reply p now m

end Room

/-- Only a tick that runs releases anybody. -/
theorem tick_of_released {room : Room} (h : room.Sound) {event : Event} {b : String}
    (hb : b ∈ (room.handle event).released) : ∃ p, event.request = .call p .tick ∧
      p.starts ≤ event.time ∧
      room.handle event = (room.visible event.time).tick p event.time := by
  obtain ⟨place, hplace⟩ := (h.visible event.time).placed b
  obtain ⟨place', -, hmove⟩ := (Room.handle_takes h event).moves b place hplace
  rw [decide_eq_true hb] at hmove
  cases hmove with
  | admits p _ x hcall hqueued hlive hopen =>
      refine ⟨p, hcall, hopen, ?_⟩
      unfold Room.handle Room.script Room.guarded at hb ⊢
      rw [hcall] at hb ⊢
      dsimp only at hb ⊢
      split_ifs at hb ⊢ with hvalid hfenced hoff
      · exact absurd hb List.not_mem_nil
      · exact absurd hb List.not_mem_nil
      · exact absurd hb List.not_mem_nil
      · rfl

theorem sound_roomAfter (events : List Event) : (roomAfter events).Sound := by
  induction events using List.reverseRecOn with
  | nil => exact Room.sound_empty
  | append_singleton events event ih =>
      rw [roomAfter_append_singleton]
      exact (Room.handle_takes ih event).sound

end Ticketing.Admission
