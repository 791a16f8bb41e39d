import Ticketing.WaitingMoves

/-!
# Fairness of the waiting room

Under one policy the members stand in one line, by their fixed scores before the sale and by their
arrival after it. A member that stays live keeps its standing until it is released, so nobody is
released ahead of it, and from the sale start on its reported position never grows.
-/

namespace Ticketing.Admission

open Relational Expiring

/-- A run under one policy and with one score per member, the clock never going back. -/
structure FixedRun (p : Policy) (score : String → ℕ) (events : List Event) : Prop where
  policy : ∀ event ∈ events, ∀ q op, event.request = .call q op → q = p
  scores : ∀ event ∈ events, ∀ q m s, event.request = .call q (.join m s) → s = score m
  chronological : events.Pairwise fun event later => event.time ≤ later.time

/-- The member is present in a line or holds a lease that runs. -/
def Room.Live (room : Room) (now : ℕ) (m : String) : Prop :=
  now < ((room.visible now).presence.zscore m).getD 0 ∨
    now < ((room.visible now).active.zscore m).getD 0

instance (room : Room) (now : ℕ) (m : String) : Decidable (room.Live now m) :=
  inferInstanceAs (Decidable (_ ∨ _))

/-- The call with this index joins a member that was not in the room. -/
structure Joins (events : List Event) (i : ℕ) (m : String) (event : Event) : Prop where
  found : events[i]? = some event
  call : ∃ p score, event.request = .call p (.join m score)
  absent : ¬(roomAfter (events.take i)).Live event.time m
  queued : (roomAfter (events.take (i + 1))).Live event.time m

/-- The member stays live at every call after one index up to another. -/
def StaysLive (events : List Event) (m : String) (i k : ℕ) : Prop :=
  ∀ n event, i < n → n ≤ k → events[n]? = some event →
    (roomAfter (events.take n)).Live event.time m

def releasedAt (events : List Event) (n : ℕ) : List String :=
  match events[n]? with
  | some event => ((roomAfter (events.take n)).handle event).released
  | none => []

/-- The member that joined at `i` was released by an earlier call, or earlier in the same one. -/
def ReleasedBefore (events : List Event) (i k : ℕ) (a b : String) : Prop :=
  (∃ r < k, i < r ∧ a ∈ releasedAt events r) ∨
    ∃ earlier later, releasedAt events k = earlier ++ b :: later ∧ a ∈ earlier

/-- Who is ahead of whom by the rules of the queue. -/
def Ahead (p : Policy) (score : String → ℕ) (a b : String) (i j : ℕ) (joinA joinB : Event) : Prop :=
  (joinA.time < p.starts ∧ joinB.time < p.starts ∧ toLex (score a, a) < toLex (score b, b)) ∨
    (joinA.time < p.starts ∧ p.starts ≤ joinB.time) ∨
    (p.starts ≤ joinA.time ∧ p.starts ≤ joinB.time ∧ i < j)

theorem live_iff_of_place {room : Room} {now : ℕ} {m : String} {place : Place}
    (h : (room.visible now).stand m = place.stand) : room.Live now m ↔ place.live now := by
  have hpresence : (room.visible now).presence.zscore m = place.stand.presence :=
    congrArg Stand.presence h
  have hactive : (room.visible now).active.zscore m = place.stand.active := congrArg Stand.active h
  unfold Room.Live
  rw [hpresence, hactive]
  cases place with
  | outside => simp [Place.stand, Place.live]
  | prequeued score presence next => simp [Place.stand, Place.live]
  | waiting ticket presence next => simp [Place.stand, Place.live]
  | active lease next => simp [Place.stand, Place.live]

/-- A live member has its place whether or not the keys are looked at. -/
theorem exists_place_of_live {room : Room} (h : room.Sound) {now : ℕ} {m : String}
    (hlive : room.Live now m) : ∃ place : Place, room.stand m = place.stand ∧
      (room.visible now).stand m = place.stand ∧ place.live now ∧
      ∀ k, (room.visible now).stand k = room.stand k := by
  obtain ⟨place, hplace⟩ := (h.visible now).placed m
  have hplaceLive := (live_iff_of_place hplace).mp hlive
  rcases Room.stand_visible room h.due now with hsame | hgone
  · exact ⟨place, (hsame m).symm.trans hplace, hplace, hplaceLive, hsame⟩
  · rw [Place.stand_injective (hplace.symm.trans (hgone m))] at hplaceLive
    exact hplaceLive.elim

/-- Where the member stands in the line, if it does. -/
def Room.StandsAt (room : Room) (m : String) (x : Option (ℕ ×ₗ (ℕ ×ₗ String))) : Prop :=
  ∃ place : Place, room.stand m = place.stand ∧ place.standing m = x

theorem take_succ_of_found {events : List Event} {n : ℕ} {event : Event}
    (h : events[n]? = some event) : events.take (n + 1) = events.take n ++ [event] := by
  rw [List.take_add_one, h]
  rfl

theorem roomAfter_succ {events : List Event} {n : ℕ} {event : Event} (h : events[n]? = some event) :
    roomAfter (events.take (n + 1)) = (roomAfter (events.take n)).after event := by
  rw [take_succ_of_found h, roomAfter_append_singleton]

theorem releasedAt_of_found {events : List Event} {n : ℕ} {event : Event}
    (h : events[n]? = some event) :
    releasedAt events n = ((roomAfter (events.take n)).handle event).released := by
  unfold releasedAt
  rw [h]

theorem not_live_of_outside {room : Room} (h : room.Sound) {now : ℕ} {m : String}
    (hout : room.stand m = Place.outside.stand) : ¬room.Live now m := by
  intro hlive
  obtain ⟨place, hplace, -, hplaceLive, -⟩ := exists_place_of_live h hlive
  rw [Place.stand_injective (hplace.symm.trans hout)] at hplaceLive
  exact hplaceLive

/-- One call: a live member drops out, keeps its standing, or leaves the line by a release. -/
theorem standsAt_after {room : Room} (h : room.Sound) {event : Event} {m : String}
    {x : Option (ℕ ×ₗ (ℕ ×ₗ String))} (hlive : room.Live event.time m) (hstands : room.StandsAt m x) :
    (room.after event).stand m = Place.outside.stand ∨
      (m ∉ (room.handle event).released ∧ (room.after event).StandsAt m x) ∨
      (m ∈ (room.handle event).released ∧ x ≠ none ∧ (room.after event).StandsAt m none) := by
  obtain ⟨place, hplace, hvisible, hplaceLive, -⟩ := exists_place_of_live h hlive
  obtain ⟨standing, hstanding, hx⟩ := hstands
  rw [Place.stand_injective (hstanding.symm.trans hplace)] at hx
  obtain ⟨place', hlast, hmove⟩ := (Room.handle_takes h event).moves m place hvisible
  generalize hflag : decide (m ∈ (room.handle event).released) = flag at hmove
  cases hmove with
  | stays => exact Or.inr (Or.inl ⟨of_decide_eq_false hflag, place, hlast, hx⟩)
  | drops => exact Or.inl hlast
  | joinsPrequeue q score _ hcall hearly hgone => exact absurd hplaceLive hgone
  | joinsWaiting q score ticket _ hcall hlate hgone hfresh => exact absurd hplaceLive hgone
  | renewsPrequeued q score presence next hcall hrun =>
      exact Or.inr (Or.inl ⟨of_decide_eq_false hflag, _, hlast, hx⟩)
  | renewsWaiting q ticket presence next hcall hrun =>
      exact Or.inr (Or.inl ⟨of_decide_eq_false hflag, _, hlast, hx⟩)
  | renewsActive q lease next hcall hrun =>
      exact Or.inr (Or.inl ⟨of_decide_eq_false hflag, _, hlast, hx⟩)
  | admits q _ y hcall hqueued hrun hopen =>
      refine Or.inr (Or.inr ⟨of_decide_eq_true hflag, ?_, _, hlast, rfl⟩)
      rw [← hx, hqueued]
      exact Option.some_ne_none y

/-- A member that stays live keeps its standing until it is released. -/
theorem tracked {events : List Event} {m : String} {i k : ℕ} {x : ℕ ×ₗ (ℕ ×ₗ String)}
    (hjoined : (roomAfter (events.take (i + 1))).StandsAt m (some x))
    (hlive : StaysLive events m i k) (hk : k < events.length) (n : ℕ) (hin : i + 1 ≤ n) (hnk : n ≤ k) :
    (roomAfter (events.take n)).StandsAt m (some x) ∨
      ((∃ r < n, i < r ∧ m ∈ releasedAt events r) ∧ (roomAfter (events.take n)).StandsAt m none) := by
  induction n, hin using Nat.le_induction with
  | base => exact Or.inl hjoined
  | succ n hin ih =>
      have hfound : events[n]? = some events[n] := List.getElem?_eq_getElem (by omega)
      have hnext : events[n + 1]? = some events[n + 1] := List.getElem?_eq_getElem (by omega)
      have hsound := sound_roomAfter (events.take n)
      have hhere := hlive n _ (by omega) (by omega) hfound
      have hthere := hlive (n + 1) _ (by omega) hnk hnext
      rw [roomAfter_succ hfound] at hthere ⊢
      have hnotOut : ((roomAfter (events.take n)).after events[n]).stand m ≠ Place.outside.stand :=
        fun hout => not_live_of_outside (Room.handle_takes hsound _).sound hout hthere
      rcases ih (by omega) with hstands | ⟨⟨r, hrn, hir, hreleased⟩, hstands⟩
      · rcases standsAt_after hsound hhere hstands with hout | ⟨-, hkept⟩ | ⟨hin', -, hkept⟩
        · exact absurd hout hnotOut
        · exact Or.inl hkept
        · refine Or.inr ⟨⟨n, Nat.lt_succ_self n, by omega, ?_⟩, hkept⟩
          rw [releasedAt_of_found hfound]
          exact hin'
      · rcases standsAt_after hsound hhere hstands with hout | ⟨-, hkept⟩ | ⟨-, hne, -⟩
        · exact absurd hout hnotOut
        · exact Or.inr ⟨⟨r, by omega, hir, hreleased⟩, hkept⟩
        · exact absurd rfl hne

theorem time_le_of_chronological {events : List Event}
    (h : events.Pairwise fun event later => event.time ≤ later.time) {i k : ℕ} {event later : Event}
    (hi : events[i]? = some event) (hk : events[k]? = some later) (hik : i ≤ k) :
    event.time ≤ later.time := by
  obtain ⟨hilt, hi'⟩ := List.getElem?_eq_some_iff.mp hi
  obtain ⟨hklt, hk'⟩ := List.getElem?_eq_some_iff.mp hk
  rcases Nat.eq_or_lt_of_le hik with heq | hlt
  · subst heq
    rw [← hi', ← hk']
  · have hle := List.pairwise_iff_getElem.mp h i k hilt hklt hlt
    rwa [hi', hk'] at hle

/-- What a join does to the place of its member. -/
theorem Joins.moves {events : List Event} {i : ℕ} {m : String} {event : Event}
    (h : Joins events i m event) : ∃ p score, event.request = .call p (.join m score) ∧
      ((event.time < p.starts ∧ (roomAfter (events.take (i + 1))).StandsAt m
          (some (toLex (0, toLex (score, m))))) ∨
        (p.starts ≤ event.time ∧ ∃ ticket, (roomAfter (events.take (i + 1))).StandsAt m
            (some (toLex (1, toLex (ticket, m)))) ∧
          ((roomAfter (events.take i)).visible event.time).Fresh ticket)) := by
  obtain ⟨hfound, ⟨p, score, hcall⟩, habsent, hqueued⟩ := h
  have hsound := sound_roomAfter (events.take i)
  have htakes := Room.handle_takes hsound event
  rw [roomAfter_succ hfound] at hqueued ⊢
  obtain ⟨place, hplace⟩ := (hsound.visible event.time).placed m
  have hgone := (live_iff_of_place hplace).not.mp habsent
  obtain ⟨place', hlast, hmove⟩ := htakes.moves m place hplace
  obtain ⟨last, hlastPlace, -, hlastLive, -⟩ := exists_place_of_live htakes.sound hqueued
  rw [Place.stand_injective (hlastPlace.symm.trans hlast)] at hlastLive
  refine ⟨p, score, hcall, ?_⟩
  generalize decide (m ∈ ((roomAfter (events.take i)).handle event).released) = flag at hmove
  cases hmove with
  | stays => exact absurd hlastLive hgone
  | drops => exact hlastLive.elim
  | joinsPrequeue q score' _ hcall' hearly _ =>
      rw [hcall] at hcall'
      cases hcall'
      exact Or.inl ⟨hearly, _, hlast, rfl⟩
  | joinsWaiting q score' ticket _ hcall' hlate _ hfresh =>
      rw [hcall] at hcall'
      cases hcall'
      exact Or.inr ⟨hlate, ticket, ⟨_, hlast, rfl⟩, hfresh⟩
  | renewsPrequeued q score' presence next hcall' hrun => exact absurd hrun hgone
  | renewsWaiting q ticket presence next hcall' hrun => exact absurd hrun hgone
  | renewsActive q lease next hcall' hrun => exact absurd hrun hgone
  | admits q _ y hcall' hqueued' hrun hopen => exact absurd hrun hgone

/-- In one call the member ahead is released first. -/
theorem released_before_of_handle {room : Room} (h : room.Sound) {event : Event} {a b : String}
    {x y : ℕ ×ₗ (ℕ ×ₗ String)} (hliveA : room.Live event.time a) (hA : room.StandsAt a (some x))
    (hB : room.StandsAt b (some y)) (hahead : x < y) (hb : b ∈ (room.handle event).released) :
    ∃ earlier later, (room.handle event).released = earlier ++ b :: later ∧ a ∈ earlier := by
  obtain ⟨p, -, -, hhandle⟩ := tick_of_released h hb
  rw [hhandle] at hb ⊢
  obtain ⟨placeA, hplaceA, hvisibleA, hliveA', hsame⟩ := exists_place_of_live h hliveA
  obtain ⟨standingA, hstandingA, hx⟩ := hA
  rw [Place.stand_injective (hstandingA.symm.trans hplaceA)] at hx
  obtain ⟨placeB, hplaceB, hy⟩ := hB
  have hvisible := h.visible event.time
  have hclean := hvisible.cleanup p event.time
  have hcleanA : ((room.visible event.time).cleanup p event.time).1.stand a = placeA.stand :=
    (Room.stand_cleanup_of_live hvisibleA hliveA').trans hvisibleA
  cases hreason : ((room.visible event.time).cleanup p event.time).1.pauseReason p event.time with
  | some reason =>
      obtain ⟨reply, htick⟩ := Room.tick_of_paused hreason
      rw [htick] at hb
      exact absurd hb List.not_mem_nil
  | none =>
      obtain ⟨tokens, bucket, hreleased, -⟩ := Room.tick_of_open hreason
      have hdraws := Room.draws_of_draw p event.time p.batch tokens hclean.placed
      rw [hreleased] at hb ⊢
      rcases Room.stand_cleanup (room.visible event.time) p event.time b with hkept | hgone
      · have hcleanB := hkept.trans ((hsame b).trans hplaceB)
        exact hdraws.released_before hcleanA hx hliveA' hcleanB hy hahead hb
      · exact absurd hb (hdraws.stand_of_not_queued hgone rfl).1

/-- Whoever is released was queued when the call began. -/
theorem queued_of_released {room : Room} (h : room.Sound) {event : Event} {b : String}
    {x : Option (ℕ ×ₗ (ℕ ×ₗ String))} (hlive : room.Live event.time b) (hstands : room.StandsAt b x)
    (hb : b ∈ (room.handle event).released) : x ≠ none := by
  obtain ⟨place, hplace, hvisible, -, -⟩ := exists_place_of_live h hlive
  obtain ⟨standing, hstanding, hx⟩ := hstands
  rw [Place.stand_injective (hstanding.symm.trans hplace)] at hx
  obtain ⟨place', -, hmove⟩ := (Room.handle_takes h event).moves b place hvisible
  rw [decide_eq_true hb] at hmove
  cases hmove with
  | admits p _ y hcall hqueued hrun hopen =>
      rw [← hx, hqueued]
      exact Option.some_ne_none y

section runs

variable {p : Policy} {score : String → ℕ} {events : List Event}

theorem FixedRun.time_le (h : FixedRun p score events) {i k : ℕ} {event later : Event}
    (hi : events[i]? = some event) (hk : events[k]? = some later) (hik : i ≤ k) :
    event.time ≤ later.time := time_le_of_chronological h.chronological hi hk hik

/-- The standing a join gives under the fixed policy. -/
theorem FixedRun.joined (h : FixedRun p score events) {i : ℕ} {m : String} {event : Event}
    (hjoin : Joins events i m event) :
    (event.time < p.starts → (roomAfter (events.take (i + 1))).StandsAt m
      (some (toLex (0, toLex (score m, m))))) ∧
    (p.starts ≤ event.time → ∃ ticket, (roomAfter (events.take (i + 1))).StandsAt m
        (some (toLex (1, toLex (ticket, m)))) ∧
      ((roomAfter (events.take i)).visible event.time).Fresh ticket) := by
  obtain ⟨q, s, hcall, hcase⟩ := hjoin.moves
  have hmem : event ∈ events := List.mem_of_getElem? hjoin.found
  have hq : q = p := h.policy event hmem q _ hcall
  have hs : s = score m := h.scores event hmem q m s hcall
  subst hq
  subst hs
  rcases hcase with ⟨hearly, hstands⟩ | ⟨hlate, hticket⟩
  · exact ⟨fun _ => hstands, fun hle => absurd hearly (Nat.not_lt.mpr hle)⟩
  · exact ⟨fun hlt => absurd hlt (Nat.not_lt.mpr hlate), fun _ => hticket⟩

/-- A member that stays live from its join on and is released stood in the line until then. -/
theorem standsAt_of_released {i k : ℕ} {m : String} {x : ℕ ×ₗ (ℕ ×ₗ String)}
    (hjoined : (roomAfter (events.take (i + 1))).StandsAt m (some x)) (hlive : StaysLive events m i k)
    (hik : i < k) (hreleased : m ∈ releasedAt events k) :
    (roomAfter (events.take k)).StandsAt m (some x) := by
  have hklt : k < events.length := by
    by_contra hge
    unfold releasedAt at hreleased
    rw [List.getElem?_eq_none (Nat.le_of_not_lt hge)] at hreleased
    cases hreleased
  have hfound : events[k]? = some events[k] := List.getElem?_eq_getElem hklt
  rw [releasedAt_of_found hfound] at hreleased
  rcases tracked hjoined hlive hklt k hik le_rfl with hstands | ⟨-, hstands⟩
  · exact hstands
  · exact absurd rfl (queued_of_released (sound_roomAfter _) (hlive k _ hik le_rfl hfound) hstands
      hreleased)

/-- A standing ahead of another is served ahead of it. -/
theorem releasedBefore_of_lt {i j k : ℕ} {a b : String} {x y : ℕ ×ₗ (ℕ ×ₗ String)}
    (hA : (roomAfter (events.take (i + 1))).StandsAt a (some x))
    (hB : (roomAfter (events.take (j + 1))).StandsAt b (some y)) (hlt : x < y)
    (hliveA : StaysLive events a i k) (hliveB : StaysLive events b j k) (hik : i < k) (hjk : j < k)
    (hreleased : b ∈ releasedAt events k) : ReleasedBefore events i k a b := by
  have hstandsB := standsAt_of_released hB hliveB hjk hreleased
  have hklt : k < events.length := by
    by_contra hge
    unfold releasedAt at hreleased
    rw [List.getElem?_eq_none (Nat.le_of_not_lt hge)] at hreleased
    cases hreleased
  have hfound : events[k]? = some events[k] := List.getElem?_eq_getElem hklt
  rcases tracked hA hliveA hklt k hik le_rfl with hstandsA | ⟨⟨r, hrk, hir, hr⟩, -⟩
  · apply Or.inr
    rw [releasedAt_of_found hfound] at hreleased ⊢
    exact released_before_of_handle (sound_roomAfter _) (hliveA k _ hik le_rfl hfound) hstandsA
      hstandsB hlt hreleased
  · exact Or.inl ⟨r, hrk, hir, hr⟩

/-- Nobody is released ahead of a live member that comes first by the rules. -/
theorem FixedRun.releasedBefore (h : FixedRun p score events) {a b : String} {i j k : ℕ}
    {joinA joinB : Event} (hA : Joins events i a joinA) (hB : Joins events j b joinB)
    (hahead : Ahead p score a b i j joinA joinB) (hliveA : StaysLive events a i k)
    (hliveB : StaysLive events b j k) (hjk : j < k) (hreleased : b ∈ releasedAt events k) :
    ReleasedBefore events i k a b := by
  have hklt : k < events.length := by
    by_contra hge
    unfold releasedAt at hreleased
    rw [List.getElem?_eq_none (Nat.le_of_not_lt hge)] at hreleased
    cases hreleased
  have hfound : events[k]? = some events[k] := List.getElem?_eq_getElem hklt
  -- nobody is released before the sale starts
  have hstarted : p.starts ≤ events[k].time := by
    rw [releasedAt_of_found hfound] at hreleased
    obtain ⟨q, hcall, hopen, -⟩ := tick_of_released (sound_roomAfter _) hreleased
    rw [h.policy _ (List.getElem_mem hklt) q _ hcall] at hopen
    exact hopen
  have hearly : joinA.time < p.starts → i < k := by
    intro hlt
    by_contra hge
    have hle := h.time_le hfound hA.found (Nat.le_of_not_lt hge)
    omega
  rcases hahead with ⟨hbeforeA, hbeforeB, hlt⟩ | ⟨hbeforeA, hafterB⟩ | ⟨hafterA, hafterB, hij⟩
  · apply releasedBefore_of_lt ((h.joined hA).1 hbeforeA) ((h.joined hB).1 hbeforeB) _ hliveA hliveB
      (hearly hbeforeA) hjk hreleased
    exact Prod.Lex.toLex_lt_toLex.mpr (Or.inr ⟨rfl, hlt⟩)
  · obtain ⟨ticket, hstandsB, -⟩ := (h.joined hB).2 hafterB
    apply releasedBefore_of_lt ((h.joined hA).1 hbeforeA) hstandsB _ hliveA hliveB
      (hearly hbeforeA) hjk hreleased
    exact Prod.Lex.toLex_lt_toLex.mpr (Or.inl Nat.zero_lt_one)
  · obtain ⟨ticketA, hstandsA, -⟩ := (h.joined hA).2 hafterA
    obtain ⟨ticketB, hstandsB, hfresh⟩ := (h.joined hB).2 hafterB
    -- at the second join the first member still has its ticket, or was released
    rcases tracked hstandsA hliveA hklt j hij hjk.le with hstandsThen | ⟨⟨r, hrj, hir, hr⟩, -⟩
    · have hliveThen := hliveA j joinB hij hjk.le hB.found
      obtain ⟨place, hplace, hvisible, -, -⟩ := exists_place_of_live (sound_roomAfter _) hliveThen
      obtain ⟨standing, hstanding, hx⟩ := hstandsThen
      rw [Place.stand_injective (hstanding.symm.trans hplace)] at hx
      have hticket : ((roomAfter (events.take j)).visible joinB.time).waiting.zscore a =
          some ticketA := by
        have hown := congrArg Stand.waiting hvisible
        cases place with
        | outside => cases hx
        | active lease next => cases hx
        | prequeued score' presence next => cases hx
        | waiting ticket presence next =>
            cases hx
            exact hown
      have hlt := hfresh a ticketA hticket
      apply releasedBefore_of_lt hstandsA hstandsB _ hliveA hliveB (hij.trans hjk) hjk hreleased
      exact Prod.Lex.toLex_lt_toLex.mpr
        (Or.inr ⟨rfl, Prod.Lex.toLex_lt_toLex.mpr (Or.inl hlt)⟩)
    · exact Or.inl ⟨r, hrj.trans hjk, hir, hr⟩

end runs

theorem position_of_prequeued {room : Room} {m : String} {score presence next : ℕ}
    (h : room.stand m = (Place.prequeued score presence next).stand) :
    room.position m =
      some (room.prequeue.members.before (SortedSet.place (m, score)) + 1) := by
  have hscore : room.prequeue.members.find m = some score := congrArg Stand.prequeue h
  unfold Room.position Key.zrank SortedSet.rank
  rw [hscore]
  rfl

theorem position_of_waiting {room : Room} {m : String} {ticket presence next : ℕ}
    (h : room.stand m = (Place.waiting ticket presence next).stand) :
    room.position m = some (room.prequeue.zcard +
      room.waiting.members.before (SortedSet.place (m, ticket)) + 1) := by
  have hnone : room.prequeue.members.find m = none := congrArg Stand.prequeue h
  have hticket : room.waiting.members.find m = some ticket := congrArg Stand.waiting h
  unfold Room.position Key.zrank SortedSet.rank
  rw [hnone, hticket]
  rfl

/-- After the sale start nobody enters the prequeue. -/
theorem prequeue_shrinks {room : Room} (h : room.Sound) {event : Event} {p : Policy}
    (hpolicy : ∀ q op, event.request = .call q op → q = p) (hstarted : p.starts ≤ event.time)
    (k : String) (r : ℕ) (hk : (room.after event).prequeue.zscore k = some r) :
    (room.visible event.time).prequeue.zscore k = some r := by
  obtain ⟨place, hplace⟩ := (h.visible event.time).placed k
  obtain ⟨place', hlast, hmove⟩ := (Room.handle_takes h event).moves k place hplace
  have hown : (room.visible event.time).prequeue.zscore k = place.stand.prequeue :=
    congrArg Stand.prequeue hplace
  have hnext : (room.after event).prequeue.zscore k = place'.stand.prequeue :=
    congrArg Stand.prequeue hlast
  rw [hnext] at hk
  rw [hown]
  generalize decide (k ∈ (room.handle event).released) = flag at hmove
  cases hmove with
  | stays => exact hk
  | drops => cases hk
  | joinsPrequeue q score _ hcall hearly hgone =>
      rw [hpolicy q _ hcall] at hearly
      omega
  | joinsWaiting q score ticket _ hcall hlate hgone hfresh => cases hk
  | renewsPrequeued q score presence next hcall hrun => exact hk
  | renewsWaiting q ticket presence next hcall hrun => cases hk
  | renewsActive q lease next hcall hrun => cases hk
  | admits q _ y hcall hqueued hrun hopen => cases hk

/-- A new ticket is behind every other. -/
theorem waiting_extends {room : Room} (h : room.Sound) {event : Event} (k : String) (r : ℕ)
    (hk : (room.after event).waiting.zscore k = some r) :
    (room.visible event.time).waiting.zscore k = some r ∨ (room.visible event.time).Fresh r := by
  obtain ⟨place, hplace⟩ := (h.visible event.time).placed k
  obtain ⟨place', hlast, hmove⟩ := (Room.handle_takes h event).moves k place hplace
  have hown : (room.visible event.time).waiting.zscore k = place.stand.waiting :=
    congrArg Stand.waiting hplace
  have hnext : (room.after event).waiting.zscore k = place'.stand.waiting :=
    congrArg Stand.waiting hlast
  rw [hnext] at hk
  rw [hown]
  generalize decide (k ∈ (room.handle event).released) = flag at hmove
  cases hmove with
  | stays => exact Or.inl hk
  | drops => cases hk
  | joinsPrequeue q score _ hcall hearly hgone => cases hk
  | joinsWaiting q score ticket _ hcall hlate hgone hfresh =>
      cases hk
      exact Or.inr hfresh
  | renewsPrequeued q score presence next hcall hrun => cases hk
  | renewsWaiting q ticket presence next hcall hrun => exact Or.inl hk
  | renewsActive q lease next hcall hrun => cases hk
  | admits q _ y hcall hqueued hrun hopen => cases hk

/-- While a member keeps its standing, a call after the sale start does not move it back. -/
theorem position_after_le {room : Room} (h : room.Sound) {event : Event} {p : Policy}
    (hpolicy : ∀ q op, event.request = .call q op → q = p) (hstarted : p.starts ≤ event.time)
    {m : String} {x : ℕ ×ₗ (ℕ ×ₗ String)} (hbefore : (room.visible event.time).StandsAt m (some x))
    (hafter : (room.after event).StandsAt m (some x)) {n : ℕ}
    (hn : (room.visible event.time).position m = some n) :
    ∃ n' ≤ n, (room.after event).position m = some n' := by
  obtain ⟨place, hplace, hx⟩ := hbefore
  obtain ⟨place', hplace', hx'⟩ := hafter
  have hprequeue := prequeue_shrinks h hpolicy hstarted
  cases place with
  | outside => cases hx
  | active lease next => cases hx
  | prequeued score presence next =>
      cases hx
      cases place' with
      | outside => cases hx'
      | active lease' next' => cases hx'
      | waiting ticket presence' next' => cases hx'
      | prequeued score' presence' next' =>
          cases hx'
          rw [position_of_prequeued hplace] at hn
          cases hn
          refine ⟨_, ?_, position_of_prequeued hplace'⟩
          apply Nat.succ_le_succ
          apply SortedSet.before_le_of_find
          exact fun k r _ hk => hprequeue k r hk
  | waiting ticket presence next =>
      cases hx
      cases place' with
      | outside => cases hx'
      | active lease' next' => cases hx'
      | prequeued score presence' next' => cases hx'
      | waiting ticket' presence' next' =>
          cases hx'
          rw [position_of_waiting hplace] at hn
          cases hn
          refine ⟨_, ?_, position_of_waiting hplace'⟩
          have hcard : (room.after event).prequeue.zcard ≤ (room.visible event.time).prequeue.zcard := by
            apply SortedSet.card_le_of_find
            intro k r hk
            exact Option.isSome_iff_exists.mpr ⟨r, hprequeue k r hk⟩
          have hline : (room.after event).waiting.members.before (SortedSet.place (m, ticket)) ≤
              (room.visible event.time).waiting.members.before (SortedSet.place (m, ticket)) := by
            apply SortedSet.before_le_of_find
            intro k r hlt hk
            rcases waiting_extends h k r hk with hold | hfresh
            · exact hold
            · have hbehind := hfresh m ticket (congrArg Stand.waiting hplace)
              have hahead : r ≤ ticket := by
                rcases Prod.Lex.toLex_lt_toLex.mp hlt with hless | ⟨heq, -⟩
                · exact hless.le
                · exact heq.le
              omega
          omega

/-- The member is active, or in the line at this position or before. -/
def Room.PositionAtMost (room : Room) (m : String) (n : ℕ) : Prop :=
  (∃ x n', room.StandsAt m (some x) ∧ room.position m = some n' ∧ n' ≤ n) ∨
    ∃ lease next, room.stand m = (Place.active lease next).stand

theorem visible_of_live {room : Room} (h : room.Sound) {now : ℕ} {m : String}
    (hlive : room.Live now m) :
    room.visible now = { room with pause := room.pause.visible now } := by
  obtain ⟨d, hd⟩ := h.due
  rcases Room.visible_cases hd now with ⟨-, hsame⟩ | hgone
  · exact hsame
  · exfalso
    unfold Room.Live at hlive
    rw [hgone] at hlive
    rcases hlive with hlt | hlt
    · exact Nat.not_lt_zero now hlt
    · exact Nat.not_lt_zero now hlt

/-- One call after the sale start at whose time the member is live. -/
theorem positionAtMost_after {room : Room} (h : room.Sound) {event : Event} {p : Policy}
    (hpolicy : ∀ q op, event.request = .call q op → q = p) (hstarted : p.starts ≤ event.time)
    {m : String} {n : ℕ} (hlive : room.Live event.time m) (hmost : room.PositionAtMost m n) :
    (room.after event).stand m = Place.outside.stand ∨ (room.after event).PositionAtMost m n := by
  have hvisible := visible_of_live h hlive
  rcases hmost with ⟨x, n', hstands, hn', hle⟩ | ⟨lease, next, hactive⟩
  · rcases standsAt_after h hlive hstands with hout | ⟨-, hkept⟩ | ⟨-, -, place, hplace, hnone⟩
    · exact Or.inl hout
    · have hbefore : (room.visible event.time).StandsAt m (some x) := by
        rw [hvisible]
        exact hstands
      have hposition : (room.visible event.time).position m = some n' := by
        rw [hvisible]
        exact hn'
      obtain ⟨n'', hle', hn''⟩ := position_after_le h hpolicy hstarted hbefore hkept hposition
      exact Or.inr (Or.inl ⟨x, n'', hkept, hn'', hle'.trans hle⟩)
    · cases place with
      | outside => exact Or.inl hplace
      | active lease next => exact Or.inr (Or.inr ⟨lease, next, hplace⟩)
      | prequeued score presence next => cases hnone
      | waiting ticket presence next => cases hnone
  · rcases standsAt_after h hlive ⟨_, hactive, rfl⟩ with hout | ⟨-, place, hplace, hnone⟩ | ⟨-, hne, -⟩
    · exact Or.inl hout
    · cases place with
      | outside => exact Or.inl hplace
      | active lease next => exact Or.inr (Or.inr ⟨lease, next, hplace⟩)
      | prequeued score presence next => cases hnone
      | waiting ticket presence next => cases hnone
    · exact absurd rfl hne

/-- The call with this index tells its member a position. -/
structure Polls (events : List Event) (i : ℕ) (m : String) (event : Event) (position : ℕ) : Prop where
  found : events[i]? = some event
  call : ∃ p op, event.request = .call p op ∧ op.member = some m
  reply : ((roomAfter (events.take i)).handle event).reply.position = some position

/-- A reported position is the one in the room the call left. -/
theorem Polls.place {events : List Event} {i n : ℕ} {m : String} {event : Event}
    (h : Polls events i m event n) :
    (∃ x, (roomAfter (events.take (i + 1))).StandsAt m (some x) ∧
      (roomAfter (events.take (i + 1))).position m = some n) ∨
    (n = 0 ∧ ∃ lease next,
      (roomAfter (events.take (i + 1))).stand m = (Place.active lease next).stand) := by
  obtain ⟨hfound, ⟨p, op, hcall, hop⟩, hreply⟩ := h
  rw [roomAfter_succ hfound]
  unfold Room.after
  have hhandle : (roomAfter (events.take i)).handle event =
      ((roomAfter (events.take i)).visible event.time).script p event.time op := by
    unfold Room.handle
    rw [hcall]
  rw [hhandle] at hreply ⊢
  have hstate := Room.state_of_reply hop hreply
  have hsound := (Room.script_takes ((sound_roomAfter (events.take i)).visible event.time) hcall).sound
  obtain ⟨place, hplace⟩ := hsound.placed m
  rw [← hstate] at hreply
  by_cases hended : p.ends ≤ event.time
  · rw [Room.state_of_ended _ hended] at hreply
    cases hreply
  · have hopen : event.time < p.ends := Nat.lt_of_not_le hended
    by_cases hlive : place.live event.time
    · cases hx : place.standing m with
      | some x =>
          obtain ⟨n', hn', hqueued⟩ := Room.state_of_queued hplace hopen hlive hx
          rw [hqueued] at hreply
          cases hreply
          exact Or.inl ⟨x, ⟨place, hplace, hx⟩, hn'⟩
      | none =>
          cases place with
          | outside => exact hlive.elim
          | prequeued score presence next => cases hx
          | waiting ticket presence next => cases hx
          | active lease next =>
              rw [Room.state_of_active hplace hopen hlive] at hreply
              cases hreply
              exact Or.inr ⟨rfl, lease, next, hplace⟩
    · rw [Room.state_of_lapsed hplace hopen hlive] at hreply
      cases hreply

section runs

variable {p : Policy} {score : String → ℕ} {events : List Event}

theorem FixedRun.positionAtMost (h : FixedRun p score events) {m : String} {i k n : ℕ} {event : Event}
    (hfound : events[i]? = some event) (hstarted : p.starts ≤ event.time)
    (hmost : (roomAfter (events.take (i + 1))).PositionAtMost m n) (hlive : StaysLive events m i k)
    (hk : k < events.length) (j : ℕ) (hij : i + 1 ≤ j) (hjk : j ≤ k) :
    (roomAfter (events.take j)).PositionAtMost m n := by
  induction j, hij using Nat.le_induction with
  | base => exact hmost
  | succ j hij ih =>
      have hfoundJ : events[j]? = some events[j] := List.getElem?_eq_getElem (by omega)
      have hnext : events[j + 1]? = some events[j + 1] := List.getElem?_eq_getElem (by omega)
      have hhere := hlive j _ (by omega) (by omega) hfoundJ
      have hthere := hlive (j + 1) _ (by omega) hjk hnext
      have hlate := h.time_le hfound hfoundJ (by omega)
      rw [roomAfter_succ hfoundJ] at hthere ⊢
      rcases positionAtMost_after (sound_roomAfter _) (h.policy _ (List.getElem_mem _))
        (hstarted.trans hlate) hhere (ih (by omega)) with hout | hkept
      · exact absurd hthere (not_live_of_outside (Room.handle_takes (sound_roomAfter _) _).sound hout)
      · exact hkept

/-- Between two polls of a live member after the sale start the position does not grow. -/
theorem FixedRun.position_le (h : FixedRun p score events) {m : String} {i j n n' : ℕ}
    {event later : Event} (hi : Polls events i m event n) (hj : Polls events j m later n')
    (hstarted : p.starts ≤ event.time) (hij : i < j) (hlive : StaysLive events m i j) : n' ≤ n := by
  have hjlt : j < events.length := (List.getElem?_eq_some_iff.mp hj.found).1
  have hmost : (roomAfter (events.take (i + 1))).PositionAtMost m n := by
    rcases hi.place with ⟨x, hstands, hn⟩ | ⟨-, hactive⟩
    · exact Or.inl ⟨x, n, hstands, hn, le_rfl⟩
    · exact Or.inr hactive
  have hbefore := h.positionAtMost hi.found hstarted hmost hlive hjlt j hij le_rfl
  have hlate := h.time_le hi.found hj.found hij.le
  have hafter := positionAtMost_after (sound_roomAfter _)
    (h.policy later (List.mem_of_getElem? hj.found)) (hstarted.trans hlate)
    (hlive j later hij le_rfl hj.found) hbefore
  rw [← roomAfter_succ hj.found] at hafter
  rcases hj.place with ⟨x, ⟨place, hplace, hx⟩, hn'⟩ | ⟨hzero, -⟩
  · rcases hafter with hout | ⟨-, n'', -, hn'', hle⟩ | ⟨lease, next, hactive⟩
    · rw [Place.stand_injective (hplace.symm.trans hout)] at hx
      cases hx
    · rw [hn'] at hn''
      cases hn''
      exact hle
    · rw [Place.stand_injective (hplace.symm.trans hactive)] at hx
      cases hx
  · omega

/-- Nobody overtakes a live member, and its reported position never grows after the sale start. -/
theorem waiting_room_fairness (p : Policy) (score : String → ℕ) (events : List Event)
    (h : FixedRun p score events) :
    (∀ a b i j k joinA joinB, Joins events i a joinA → Joins events j b joinB →
      Ahead p score a b i j joinA joinB → StaysLive events a i k → StaysLive events b j k →
      j < k → b ∈ releasedAt events k → ReleasedBefore events i k a b) ∧
    ∀ m i j event later n n', Polls events i m event n → Polls events j m later n' →
      p.starts ≤ event.time → i < j → StaysLive events m i j → n' ≤ n := by
  constructor
  · intro a b i j k joinA joinB hA hB hahead hliveA hliveB hjk hreleased
    exact h.releasedBefore hA hB hahead hliveA hliveB hjk hreleased
  · intro m i j event later n n' hi hj hstarted hij hlive
    exact h.position_le hi hj hstarted hij hlive

end runs

/-- Two members join before the sale, the one with the smaller score second. -/
def openingRun : List Event :=
  [⟨10, .call openingSale (.sync true)⟩, ⟨20, .call openingSale (.join "b" 9)⟩,
    ⟨21, .call openingSale (.join "a" 3)⟩, ⟨1000, .call openingSale .tick⟩,
    ⟨1100, .call openingSale (.status "b")⟩, ⟨2000, .call openingSale .tick⟩,
    ⟨2100, .call openingSale (.status "b")⟩]

def openingScore (m : String) : ℕ := if m = "a" then 3 else 9

theorem waiting_room_fairness_openingRun : ReleasedBefore openingRun 2 5 "a" "b" ∧
    ∃ n n' event later, Polls openingRun 4 "b" event n ∧ Polls openingRun 6 "b" later n' ∧
      n' ≤ n := by
  have hrun : FixedRun openingSale openingScore openingRun := by
    refine ⟨?_, ?_, by decide⟩
    · intro event hevent q op hcall
      simp only [openingRun, List.mem_cons, List.not_mem_nil, or_false] at hevent
      rcases hevent with rfl | rfl | rfl | rfl | rfl | rfl | rfl <;> cases hcall <;> rfl
    · intro event hevent q m s hcall
      simp only [openingRun, List.mem_cons, List.not_mem_nil, or_false] at hevent
      rcases hevent with rfl | rfl | rfl | rfl | rfl | rfl | rfl <;> cases hcall <;> rfl
  have hliveA : StaysLive openingRun "a" 2 5 := by
    intro n event hlt hle hfound
    interval_cases n <;> cases hfound <;> decide +kernel
  have hliveB : StaysLive openingRun "b" 1 6 := by
    intro n event hlt hle hfound
    interval_cases n <;> cases hfound <;> decide +kernel
  have hfair := waiting_room_fairness openingSale openingScore openingRun hrun
  refine ⟨?_, ?_⟩
  · apply hfair.1 "a" "b" 2 1 5 ⟨21, .call openingSale (.join "a" 3)⟩
      ⟨20, .call openingSale (.join "b" 9)⟩
    · exact ⟨rfl, ⟨_, _, rfl⟩, by decide +kernel, by decide +kernel⟩
    · exact ⟨rfl, ⟨_, _, rfl⟩, by decide +kernel, by decide +kernel⟩
    · exact Or.inl (by decide +kernel)
    · exact hliveA
    · exact fun n event hlt hle hfound => hliveB n event hlt (by omega) hfound
    · decide
    · decide +kernel
  · have hfirst : Polls openingRun 4 "b" ⟨1100, .call openingSale (.status "b")⟩ 2 :=
      ⟨rfl, ⟨_, _, rfl, rfl⟩, by decide +kernel⟩
    have hsecond : Polls openingRun 6 "b" ⟨2100, .call openingSale (.status "b")⟩ 0 :=
      ⟨rfl, ⟨_, _, rfl, rfl⟩, by decide +kernel⟩
    refine ⟨2, 0, _, _, hfirst, hsecond, ?_⟩
    exact hfair.2 "b" 4 6 _ _ 2 0 hfirst hsecond (by decide) (by decide)
      fun n event hlt hle hfound => hliveB n event (by omega) hle hfound

end Ticketing.Admission
