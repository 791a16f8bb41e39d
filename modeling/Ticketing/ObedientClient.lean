import Ticketing.WaitingHeartbeats

/-!
# A client that keeps its heartbeats

The configuration promises a presence of more than two heartbeats; no check relates the lease of a
policy to the heartbeat. A release starts the interval anew, so a client can have one heartbeat
ignored right after it, and two intervals may pass before the first effective one. A lease of two
heartbeats is exactly enough.
-/

namespace Ticketing.Admission

open Relational Expiring

/-- What Redis has executed up to now, every call under one policy. -/
structure PolicyRun (p : Policy) (events : List Event) (now : ℕ) : Prop where
  policy : ∀ event ∈ events, ∀ q op, event.request = .call q op → q = p
  chronological : events.Pairwise fun event later => event.time ≤ later.time
  past : ∀ event ∈ events, event.time ≤ now

/-- A client that joins with the call of this index and does not leave, and whose heartbeats arrive
one announced interval apart, the first of them at most one interval after the join. -/
structure Obedient (p : Policy) (events : List Event) (m : String) (i first now : ℕ) : Prop where
  joined : ∃ event, Joins events i m event ∧ event.time ≤ first ∧ first ≤ event.time + p.heartbeat
  remains : ∀ (n : ℕ) (event : Event), i < n → events[n]? = some event →
    event.request ≠ .call p (.leave m)
  spaced : ∀ (n : ℕ) (event : Event), i < n → events[n]? = some event →
    event.request = .call p (.heartbeat m) → ∃ k, event.time = first + k * p.heartbeat
  sent : ∀ k, first + k * p.heartbeat < now → ∃ (n : ℕ) (event : Event), i < n ∧
    events[n]? = some event ∧ event.request = .call p (.heartbeat m) ∧
      event.time = first + k * p.heartbeat

/-- The lease is of two heartbeats at least, or the mode releases nobody. -/
def Policy.Lasting (p : Policy) : Prop :=
  2 * p.heartbeat ≤ p.lease ∨ p.mode = .off ∨ p.mode = .paused

/-- What the room tells the member at this moment. -/
def told (p : Policy) (events : List Event) (m : String) (now : ℕ) : Reply :=
  ((roomAfter events).handle ⟨now, .call p (.status m)⟩).reply

/-- The member that joined with the call of this index still stands in the line where it joined and
is told so, or it has been released and is told that it is admitted. -/
structure KeepsPlace (p : Policy) (events : List Event) (m : String) (i now : ℕ) : Prop where
  waiting : (∀ n, i < n → m ∉ releasedAt events n) → ∃ x status position,
    (roomAfter (events.take (i + 1))).StandsAt m (some x) ∧
      (roomAfter events).StandsAt m (some x) ∧ told p events m now = .queued status now position
  admitted : (∃ n, i < n ∧ m ∈ releasedAt events n) → ∃ lease, told p events m now = .admitted now lease

/-- Between one and two intervals after any moment a heartbeat of the client is due. -/
theorem exists_beat {first heartbeat since : ℕ} (hpositive : 0 < heartbeat)
    (hfirst : first ≤ since + heartbeat) :
    ∃ k, since + heartbeat ≤ first + k * heartbeat ∧ first + k * heartbeat < since + 2 * heartbeat := by
  refine ⟨(since + 2 * heartbeat - 1 - first) / heartbeat, ?_⟩
  have hdiv := Nat.div_add_mod (since + 2 * heartbeat - 1 - first) heartbeat
  have hmod := Nat.mod_lt (since + 2 * heartbeat - 1 - first) hpositive
  rw [Nat.mul_comm] at hdiv
  omega

/-- Among the calls after the join, up to this one, no tick released the member and it stands where it
joined; or one did and it stands in no line. -/
def Queues (p : Policy) (events : List Event) (m : String) (i : ℕ) (x : ℕ ×ₗ (ℕ ×ₗ String)) (n : ℕ)
    (place : Place) : Prop :=
  (place.standing m = some x ∧ ∀ j, i < j → j < n → m ∉ releasedAt events j) ∨
    (place.standing m = none ∧ p.mode ≠ .paused ∧ ∃ j, i < j ∧ j < n ∧ m ∈ releasedAt events j)

/-- After this many calls the member has the place, counted from the last effective moment. -/
structure Held (p : Policy) (events : List Event) (m : String) (i : ℕ) (x : ℕ ×ₗ (ℕ ×ₗ String))
    (n since : ℕ) (place : Place) : Prop where
  stand : (roomAfter (events.take n)).stand m = place.stand
  inside : place ≠ .outside
  counted : place.renewed p since = place
  ignored : ∀ (j : ℕ) (event : Event), i < j → j < n → events[j]? = some event →
    event.request = .call p (.heartbeat m) → event.time < since + p.heartbeat
  due : ∃ d, (roomAfter (events.take n)).Due d ∧ p.ttl since ≤ d
  operates : (roomAfter (events.take n)).Operates p
  line : Queues p events m i x n place

namespace Place

theorem live_of_queued {p : Policy} {since now : ℕ} {m : String} {x : ℕ ×ₗ (ℕ ×ₗ String)}
    {place : Place} (hcounted : place.renewed p since = place) (hx : place.standing m = some x)
    (hpresence : now < since + p.presence) : place.live now := by
  rw [← hcounted]
  cases place with
  | outside => cases hx
  | prequeued score presence next => exact hpresence
  | waiting ticket presence next => exact hpresence
  | active lease next => cases hx

theorem live_of_active {p : Policy} {since now : ℕ} {m : String} {place : Place}
    (hinside : place ≠ .outside) (hcounted : place.renewed p since = place)
    (hnone : place.standing m = none) (hlease : now < since + p.lease) : place.live now := by
  rw [← hcounted]
  cases place with
  | outside => exact hinside rfl
  | prequeued score presence next => cases hnone
  | waiting ticket presence next => cases hnone
  | active lease next => exact hlease

theorem renewed_renewed (p : Policy) (since now : ℕ) (place : Place) :
    (place.renewed p since).renewed p now = place.renewed p now := by
  cases place <;> rfl

theorem renewed_ne_outside {p : Policy} {now : ℕ} {place : Place} (h : place ≠ .outside) :
    place.renewed p now ≠ .outside := by
  cases place with
  | outside => exact absurd rfl h
  | prequeued score presence next => exact nofun
  | waiting ticket presence next => exact nofun
  | active lease next => exact nofun

end Place

theorem ttl_mono (p : Policy) {since now : ℕ} (h : since ≤ now) : p.ttl since ≤ p.ttl now := by
  unfold Policy.ttl
  omega

theorem Policy.heartbeat_of_valid {p : Policy} (h : p.valid = true) :
    1000 ≤ p.heartbeat ∧ p.heartbeat ≤ 10000 := by
  unfold Policy.valid at h
  rw [decide_eq_true_eq] at h
  omega

section runs

variable {p : Policy} {events : List Event} {m : String} {i first now n since : ℕ}
  {x : ℕ ×ₗ (ℕ ×ₗ String)} {place : Place}

/-- The member joins, and is counted from then on. -/
theorem Obedient.held (hrun : PolicyRun p events now) (h : Obedient p events m i first now) :
    ∃ x event place, events[i]? = some event ∧ first ≤ event.time + p.heartbeat ∧
      Held p events m i x (i + 1) event.time place := by
  obtain ⟨event, ⟨hfound, ⟨q, score, hcall⟩, habsent, hqueued⟩, hafter, hfirst⟩ := h.joined
  cases hrun.policy event (List.mem_of_getElem? hfound) q _ hcall
  have hsound := sound_roomAfter (events.take i)
  rw [roomAfter_succ hfound] at hqueued
  obtain ⟨place, hplace⟩ := (hsound.visible event.time).placed m
  have hgone := (live_iff_of_place hplace).not.mp habsent
  have hnextSound : ((roomAfter (events.take i)).after event).Sound :=
    (Room.handle_takes hsound event).sound
  obtain ⟨last, hlast, -, hlive, -⟩ := exists_place_of_live hnextSound hqueued
  have hhandle : (roomAfter (events.take i)).after event =
      (((roomAfter (events.take i)).visible event.time).script p event.time (.join m score)).room := by
    unfold Room.after Room.handle
    rw [hcall]
  rw [hhandle] at hlast
  have henters := Room.script_join_enters hplace hgone hlast hlive
  obtain ⟨queued, x, hstand, hx, hcounted⟩ := henters.queued
  refine ⟨x, event, queued, hfound, hfirst, ?_, ?_, hcounted, ?_, ?_, ?_, ?_⟩
  · rw [roomAfter_succ hfound, hhandle]
    exact hstand
  · rintro rfl
    cases hx
  · omega
  · rw [roomAfter_succ hfound, hhandle]
    exact ⟨_, henters.due, le_rfl⟩
  · rw [roomAfter_succ hfound, hhandle]
    exact henters.operates.of_runtime henters.runtime
  · exact Or.inl ⟨hx, by omega⟩

/-- As long as every heartbeat due so far has been executed, the last effective one is less than two
intervals back. -/
theorem Held.lt_gap (held : Held p events m i x n since place) (hpositive : 0 < p.heartbeat)
    (hfirst : first ≤ since + p.heartbeat) {t : ℕ}
    (hsent : ∀ k, first + k * p.heartbeat < t → ∃ (j : ℕ) (event : Event), i < j ∧ j < n ∧
      events[j]? = some event ∧ event.request = .call p (.heartbeat m) ∧
        event.time = first + k * p.heartbeat) : t < since + 2 * p.heartbeat := by
  by_contra hlate
  obtain ⟨k, hdue, hbefore⟩ := exists_beat hpositive hfirst
  obtain ⟨j, event, hij, hjn, hfound, hcall, htime⟩ := hsent k (by omega)
  have hignored := held.ignored j event hij hjn hfound hcall
  omega

/-- A place counted from less than two intervals ago lasts, and its keys are seen. -/
theorem Held.lasts (held : Held p events m i x n since place) (hpresence : 2 * p.heartbeat ≤ p.presence)
    (hlease : p.Lasting) {t : ℕ} (hgap : t < since + 2 * p.heartbeat)
    (hopen : t < p.ends) :
    place.live t ∧ ∃ d, (roomAfter (events.take n)).Due d ∧ t ≤ d ∧ p.ttl since ≤ d := by
  constructor
  · rcases held.line with ⟨hx, -⟩ | ⟨hnone, hreleases, -⟩
    · exact Place.live_of_queued held.counted hx (by omega)
    · rcases hlease with hlong | hoff | hpaused
      · exact Place.live_of_active held.inside held.counted hnone (by omega)
      · exact absurd hoff held.operates.mode
      · exact absurd hpaused hreleases
  · obtain ⟨d, hd, hle⟩ := held.due
    have hbounds := Policy.heartbeat_of_valid held.operates.valid
    refine ⟨d, hd, ?_, hle⟩
    unfold Policy.ttl at hle
    omega

/-- A call that does not release the member leaves it in its line or out of it. -/
theorem Queues.kept (h : Queues p events m i x n place) {place' : Place}
    (hsame : place'.standing m = place.standing m) (hnot : m ∉ releasedAt events n) :
    Queues p events m i x (n + 1) place' := by
  rcases h with ⟨hx, hwaits⟩ | ⟨hnone, hmode, j, hij, hjn, hreleased⟩
  · refine Or.inl ⟨hsame.trans hx, ?_⟩
    intro j hij hjn
    rcases Nat.lt_succ_iff_lt_or_eq.mp hjn with hlt | rfl
    · exact hwaits j hij hlt
    · exact hnot
  · exact Or.inr ⟨hsame.trans hnone, hmode, j, hij, Nat.lt_succ_of_lt hjn, hreleased⟩

/-- One more call: the member is counted from where it was, or from this call on. -/
theorem Held.next (hrun : PolicyRun p events now) (held : Held p events m i x n since place)
    (hremains : ∀ (j : ℕ) (event : Event), i < j → events[j]? = some event →
      event.request ≠ .call p (.leave m)) (hin : i < n) {event : Event}
    (hfound : events[n]? = some event) (hlive : place.live event.time) {d : ℕ}
    (hd : (roomAfter (events.take n)).Due d) (hseen : event.time ≤ d) (hdue : p.ttl since ≤ d)
    (hopen : event.time < p.ends) (hsince : since ≤ event.time) :
    ∃ since' place', Held p events m i x (n + 1) since' place' ∧ since ≤ since' ∧
      since' ≤ event.time := by
  have hserves := Room.handle_serves (sound_roomAfter (events.take n)) hd hseen held.operates held.stand
    hlive hopen (hrun.policy event (List.mem_of_getElem? hfound)) (hremains n event hin hfound)
  obtain ⟨place', hlast, hpasses⟩ := hserves.passes
  have hmoved := hserves.moved d hd
  have hroom : roomAfter (events.take (n + 1)) = ((roomAfter (events.take n)).handle event).room :=
    roomAfter_succ hfound
  have hoperates : (roomAfter (events.take (n + 1))).Operates p := by
    rw [hroom]
    exact held.operates.of_runtime hserves.runtime
  have hpositive := (Policy.heartbeat_of_valid held.operates.valid).1
  rw [← hroom] at hlast hpasses hmoved
  rw [← releasedAt_of_found hfound] at hpasses
  -- a heartbeat executed so far came before this call
  have hignored : ∀ (j : ℕ) (other : Event), i < j → j < n + 1 → events[j]? = some other →
      other.request = .call p (.heartbeat m) → other.time < event.time + p.heartbeat := by
    intro j other hij hjn hother _
    have hle := time_le_of_chronological hrun.chronological hother hfound (Nat.le_of_lt_succ hjn)
    omega
  generalize hflag : decide (m ∈ releasedAt events n) = flag at hpasses
  cases hpasses with
  | stays _ hearly =>
      have hnext : place.next = since + p.heartbeat := by
        rw [← held.counted]
        exact Place.next_renewed held.inside
      refine ⟨since, place, ⟨hlast, held.inside, held.counted, ?_, ?_, hoperates, ?_⟩,
        le_rfl, hsince⟩
      · intro j other hij hjn hother hcall
        rcases Nat.lt_succ_iff_lt_or_eq.mp hjn with hlt | rfl
        · exact held.ignored j other hij hlt hother hcall
        · rw [hfound] at hother
          cases hother
          rw [← hnext]
          exact hearly hcall
      · rcases hmoved with hkept | htouched
        · exact ⟨d, hkept, hdue⟩
        · exact ⟨_, htouched, ttl_mono p hsince⟩
      · exact held.line.kept rfl (of_decide_eq_false hflag)
  | renews _ hcall _ htouched =>
      refine ⟨event.time, place.renewed p event.time, ⟨hlast, Place.renewed_ne_outside held.inside,
        Place.renewed_renewed p _ _ place, hignored, ⟨_, htouched, le_rfl⟩, hoperates, ?_⟩,
        hsince, le_rfl⟩
      exact held.line.kept (Place.standing_renewed p _ m place) (of_decide_eq_false hflag)
  | admits _ y hqueued hmode htouched =>
      refine ⟨event.time, _, ⟨hlast, nofun, rfl, hignored, ⟨_, htouched, le_rfl⟩, hoperates,
        ?_⟩, hsince, le_rfl⟩
      exact Or.inr ⟨rfl, hmode, n, hin, Nat.lt_succ_self n, of_decide_eq_true hflag⟩

/-- The heartbeats that were due before a call are among the calls before it. -/
theorem Obedient.sent_before (hrun : PolicyRun p events now) (h : Obedient p events m i first now)
    {event : Event} (hfound : events[n]? = some event) (k : ℕ)
    (hk : first + k * p.heartbeat < event.time) : ∃ (j : ℕ) (other : Event), i < j ∧ j < n ∧
      events[j]? = some other ∧ other.request = .call p (.heartbeat m) ∧
        other.time = first + k * p.heartbeat := by
  have hnow := hrun.past event (List.mem_of_getElem? hfound)
  obtain ⟨j, other, hij, hother, hcall, htime⟩ := h.sent k (hk.trans_le hnow)
  refine ⟨j, other, hij, ?_, hother, hcall, htime⟩
  by_contra hnj
  have hle := time_le_of_chronological hrun.chronological hfound hother (Nat.le_of_not_lt hnj)
  omega

/-- The member is held from its join on: the induction is on the calls after it. -/
theorem Obedient.held_run (hrun : PolicyRun p events now) (h : Obedient p events m i first now)
    (hpresence : 2 * p.heartbeat ≤ p.presence) (hlease : p.Lasting)
    (hopen : now < p.ends) : ∃ x, (roomAfter (events.take (i + 1))).StandsAt m (some x) ∧
      ∀ n, i + 1 ≤ n → n ≤ events.length → ∃ since place, Held p events m i x n since place ∧
        first ≤ since + p.heartbeat ∧ since ≤ now ∧
          ∀ later, events[n]? = some later → since ≤ later.time := by
  obtain ⟨x, event, joined, hevent, hfirst, hjoined⟩ := h.held hrun
  refine ⟨x, ?_, ?_⟩
  · rcases hjoined.line with ⟨hx, -⟩ | ⟨-, -, j, hij, hj, -⟩
    · exact ⟨joined, hjoined.stand, hx⟩
    · omega
  intro n hin
  induction n, hin using Nat.le_induction with
  | base =>
      intro _
      refine ⟨event.time, joined, hjoined, hfirst, hrun.past event (List.mem_of_getElem? hevent), ?_⟩
      intro later hfoundLater
      exact time_le_of_chronological hrun.chronological hevent hfoundLater i.le_succ
  | succ n hin ih =>
      intro hn
      have hfound : events[n]? = some events[n] := List.getElem?_eq_getElem (by omega)
      obtain ⟨since, place, held, hfirst, hnow, hlater⟩ := ih (by omega)
      have hpast := hrun.past events[n] (List.getElem_mem _)
      have hpositive := (Policy.heartbeat_of_valid held.operates.valid).1
      have hgap := held.lt_gap (by omega) hfirst fun k hk => h.sent_before hrun hfound k hk
      obtain ⟨hlive, d, hd, hseen, hdue⟩ := held.lasts hpresence hlease hgap (by omega)
      obtain ⟨since', place', held', hle, hle'⟩ := held.next hrun h.remains hin hfound hlive hd hseen hdue
        (by omega) (hlater _ hfound)
      refine ⟨since', place', held', by omega, by omega, ?_⟩
      intro later hfoundLater
      exact hle'.trans (time_le_of_chronological hrun.chronological hfound hfoundLater n.le_succ)

theorem lt_length_of_released {r : ℕ} (h : m ∈ releasedAt events r) : r < events.length := by
  by_contra hle
  unfold releasedAt at h
  rw [List.getElem?_eq_none (Nat.le_of_not_lt hle)] at h
  cases h

/-- A live member is told its place before the keys are due. -/
theorem told_eq (hruns : (roomAfter events).Operates p) {d : ℕ} (hd : (roomAfter events).Due d)
    (hseen : now ≤ d) : told p events m now = (roomAfter events).state p now m := by
  have hruns' : ((roomAfter events).visible now).Operates p := by
    rw [Room.visible_of_due hd hseen]
    exact hruns.of_runtime rfl
  have hvalid : ¬p.valid = false := by
    rw [hruns.valid]
    decide
  unfold told Room.handle Room.script
  dsimp only
  rw [if_neg hvalid, hruns'.guarded_eq]
  dsimp only
  rw [Room.visible_of_due hd hseen]
  rfl

/-- A lease of two heartbeats keeps the place of an obedient client at every moment of a sale. -/
theorem Obedient.keepsPlace (hrun : PolicyRun p events now) (h : Obedient p events m i first now)
    (hpresence : 2 * p.heartbeat ≤ p.presence) (hlease : p.Lasting)
    (hopen : now < p.ends) : KeepsPlace p events m i now := by
  obtain ⟨x, hjoined, hheld⟩ := h.held_run hrun hpresence hlease hopen
  obtain ⟨event, hjoins, -⟩ := h.joined
  have hlt : i < events.length := (List.getElem?_eq_some_iff.mp hjoins.found).1
  obtain ⟨since, place, held, hfirst, -, -⟩ := hheld events.length hlt le_rfl
  have hpositive := (Policy.heartbeat_of_valid held.operates.valid).1
  have hgap := held.lt_gap (by omega) hfirst fun k hk => by
    obtain ⟨j, other, hij, hother, hcall⟩ := h.sent k hk
    exact ⟨j, other, hij, (List.getElem?_eq_some_iff.mp hother).1, hother, hcall⟩
  obtain ⟨hlive, d, hd, hseen, -⟩ := held.lasts hpresence hlease hgap hopen
  have hstand := held.stand
  have hoperates := held.operates
  rw [List.take_length] at hd hstand hoperates
  have htold : told p events m now = (roomAfter events).state p now m := told_eq hoperates hd hseen
  rcases held.line with ⟨hx, hwaits⟩ | ⟨hnone, -, r, hir, hr, hreleased⟩
  · refine ⟨fun _ => ?_, ?_⟩
    · obtain ⟨position, -, hstate⟩ := Room.state_of_queued hstand hopen hlive hx
      exact ⟨x, _, position, hjoined, ⟨place, hstand, hx⟩, htold.trans hstate⟩
    · rintro ⟨r, hir, hreleased⟩
      exact absurd hreleased (hwaits r hir (lt_length_of_released hreleased))
  · refine ⟨fun hwaits => absurd hreleased (hwaits r hir), fun _ => ?_⟩
    cases place with
    | outside => exact hlive.elim
    | prequeued score presence next => cases hnone
    | waiting ticket presence next => cases hnone
    | active lease next => exact ⟨lease, htold.trans (Room.state_of_active hstand hopen hlive)⟩

end runs

end Ticketing.Admission
