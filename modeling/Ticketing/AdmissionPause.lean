import Ticketing.WaitingMoves

/-!
# The runtime pause of an admission generation

A pause request writes a marker that names the end of the pause, unless a marker is there. Every
call that touches the keys moves the expiry of the marker as well, so a marker can outlive its
pause by days and swallow the requests that follow. A request that finds the marker gone stops the
releases for five seconds; requests repeated during the pause change nothing.
-/

namespace Ticketing.Admission

open Relational Expiring

def Room.PauseInForce (room : Room) (now : ℕ) : Prop :=
  now < (room.visible now).pause.content.getD 0

instance (room : Room) (now : ℕ) : Decidable (room.PauseInForce now) :=
  inferInstanceAs (Decidable (_ < _))

/-- A request processed while no pause is in force stops the releases for five seconds; one
processed during a pause leaves the room as it is; and releases are stopped only within five seconds
of a request of the first kind. -/
structure PauseTakesEffect (events : List Event) : Prop where
  stops : ∀ before pause between late after,
    events = before ++ pause :: (between ++ late :: after) → pause.request = .pause →
    ¬(roomAfter before).PauseInForce pause.time → late.time < pause.time + 5000 →
    ((roomAfter (before ++ pause :: between)).handle late).released = []
  repeats : ∀ before pause after, events = before ++ pause :: after → pause.request = .pause →
    (roomAfter before).PauseInForce pause.time →
    roomAfter (before ++ [pause]) = (roomAfter before).visible pause.time
  resumes : ∀ before tick after now expired depth active,
    events = before ++ tick :: after →
    ((roomAfter before).handle tick).reply = .paused now expired depth active .runtimePaused →
    ∃ start pause between, before = start ++ pause :: between ∧ pause.request = .pause ∧
      ¬(roomAfter start).PauseInForce pause.time ∧ tick.time < pause.time + 5000

def Op.sweeps : Op → Bool
  | .sync _ => true
  | .tick => true
  | _ => false

/-- No request meets the marker of a pause that is over, and no synchronisation or tick under a
policy long ended lets the marker of a pause in force expire before its end. -/
structure MarkerClears (events : List Event) : Prop where
  clear : ∀ before pause after, events = before ++ pause :: after → pause.request = .pause →
    ¬(roomAfter before).PauseInForce pause.time →
    ((roomAfter before).visible pause.time).pause = none
  lasts : ∀ before event after p op, events = before ++ event :: after →
    event.request = .call p op → op.sweeps = true → (roomAfter before).PauseInForce event.time →
    ((roomAfter before).visible event.time).pause.content.getD 0 ≤ p.ttl event.time

namespace Room

/-- What a call does to the marker: nothing, or it moves the expiry. -/
def Marks (p : Policy) (op : Op) (now : ℕ) (before after : Key ℕ) : Prop :=
  after = before ∨ (p.valid = true ∧ (now < p.ends ∨ op.sweeps = true) ∧
    after = before.expireAt now (p.ttl now))

theorem sync_pause (room : Room) (p : Policy) (now : ℕ) (bootstrap : Bool) :
    (room.sync p now bootstrap).room.pause = room.pause ∨
      (room.sync p now bootstrap).room.pause = room.pause.expireAt now (p.ttl now) := by
  unfold sync
  dsimp only
  split_ifs
  · exact Or.inl rfl
  · exact Or.inl rfl
  · exact Or.inl rfl
  · exact Or.inr rfl

theorem join_pause (room : Room) (p : Policy) (now : ℕ) (m : String) (score : ℕ) :
    (room.join p now m score).room.pause = room.pause ∨ (now < p.ends ∧
      (room.join p now m score).room.pause = room.pause.expireAt now (p.ttl now)) := by
  unfold join
  dsimp only
  split_ifs with hended
  · exact Or.inl rfl
  · exact Or.inl rfl
  · exact Or.inl rfl
  · exact Or.inl rfl
  · exact Or.inr ⟨Nat.lt_of_not_le hended, rfl⟩
  · exact Or.inl rfl
  · exact Or.inl rfl
  · exact Or.inr ⟨Nat.lt_of_not_le hended, rfl⟩

theorem beat_pause (room : Room) (p : Policy) (now : ℕ) (m : String) :
    (room.beat p now m).room.pause = room.pause ∨ (now < p.ends ∧
      (room.beat p now m).room.pause = room.pause.expireAt now (p.ttl now)) := by
  unfold beat
  dsimp only
  split_ifs with hstate hearly
  · exact Or.inl rfl
  · exact Or.inl rfl
  · refine Or.inr ⟨?_, rfl⟩
    by_contra hended
    exact hstate (Or.inr (state_of_ended room (Nat.le_of_not_lt hended) m))

theorem cleanup_pause (room : Room) (p : Policy) (now : ℕ) :
    (room.cleanup p now).1.pause = room.pause :=
  congrArg (fun keys => keys.2.2.2) (cleanup_fixtures room p now)

theorem draw_pause (p : Policy) (now turns tokens : ℕ) (room : Room) :
    (draw p now turns tokens room).room.pause = room.pause :=
  congrArg (fun keys => keys.2.2.2) (draw_fixtures p now turns tokens room)

theorem tick_pause (room : Room) (p : Policy) (now : ℕ) :
    (room.tick p now).room.pause = room.pause.expireAt now (p.ttl now) := by
  have hclean := cleanup_pause room p now
  cases hreason : (room.cleanup p now).1.pauseReason p now with
  | some reason =>
      obtain ⟨reply, htick⟩ := tick_of_paused hreason
      rw [htick, ← hclean]
      rfl
  | none =>
      obtain ⟨tokens, bucket, -, hroom⟩ := tick_of_open hreason
      rw [hroom]
      show (draw p now p.batch tokens (room.cleanup p now).1).room.pause.expireAt now (p.ttl now) = _
      rw [draw_pause, hclean]

theorem script_pause (room : Room) (p : Policy) (now : ℕ) (op : Op) :
    Marks p op now room.pause (room.script p now op).room.pause := by
  have hguarded : ∀ out : Outcome, Marks p op now room.pause out.room.pause →
      Marks p op now room.pause (room.guarded p now out).room.pause := by
    intro out hout
    unfold guarded
    split_ifs
    · exact Or.inl rfl
    · exact Or.inl rfl
    · exact hout
  unfold script
  by_cases hvalid : p.valid = false
  · rw [if_pos hvalid]
    exact Or.inl rfl
  · rw [if_neg hvalid]
    have hp : p.valid = true := Bool.eq_true_of_not_eq_false hvalid
    cases op with
    | sync bootstrap =>
        rcases sync_pause room p now bootstrap with hsame | hmoved
        · exact Or.inl hsame
        · exact Or.inr ⟨hp, Or.inr rfl, hmoved⟩
    | status member => exact hguarded _ (Or.inl rfl)
    | leave member => exact hguarded _ (Or.inl rfl)
    | join member score =>
        apply hguarded
        rcases join_pause room p now member score with hsame | ⟨hopen, hmoved⟩
        · exact Or.inl hsame
        · exact Or.inr ⟨hp, Or.inl hopen, hmoved⟩
    | heartbeat member =>
        apply hguarded
        rcases beat_pause room p now member with hsame | ⟨hopen, hmoved⟩
        · exact Or.inl hsame
        · exact Or.inr ⟨hp, Or.inl hopen, hmoved⟩
    | tick => exact hguarded _ (Or.inr ⟨hp, Or.inr rfl, tick_pause room p now⟩)

end Room

/-- The marker of a pause until this time, not expiring before. -/
def Room.MarkedUntil (room : Room) (stop : ℕ) : Prop :=
  ∃ deadline, room.pause = some ⟨stop, some deadline⟩ ∧ stop ≤ deadline

theorem Room.MarkedUntil.visible {room : Room} {stop now : ℕ} (h : room.MarkedUntil stop)
    (hnow : now ≤ stop) : (room.visible now).MarkedUntil stop := by
  obtain ⟨deadline, hmarker, hle⟩ := h
  refine ⟨deadline, ?_, hle⟩
  show room.pause.visible now = _
  rw [hmarker]
  simp [Key.visible, Option.filter, hnow.trans hle]

theorem Room.MarkedUntil.inForce {room : Room} {stop now : ℕ} (h : room.MarkedUntil stop)
    (hnow : now < stop) : room.PauseInForce now := by
  obtain ⟨deadline, hmarker, -⟩ := h.visible hnow.le
  unfold Room.PauseInForce
  rw [hmarker]
  exact hnow

/-- One call during the pause keeps its marker, unless it lets it expire early. -/
theorem markedUntil_after {room : Room} {event : Event} {stop : ℕ} (h : room.MarkedUntil stop)
    (hnow : event.time < stop) (hstop : stop ≤ event.time + 5000)
    (hlasts : ∀ p op, event.request = .call p op → op.sweeps = true → stop ≤ p.ttl event.time) :
    (room.after event).MarkedUntil stop := by
  have hvisible := h.visible hnow.le
  unfold Room.after Room.handle
  cases hrequest : event.request with
  | pause =>
      have hmarked : (room.visible event.time).pause.isSome := by
        obtain ⟨deadline, hmarker, -⟩ := hvisible
        rw [hmarker]
        rfl
      dsimp only
      unfold Room.markPause
      rw [if_pos hmarked]
      exact hvisible
  | call p op =>
      rcases Room.script_pause (room.visible event.time) p event.time op with
        hsame | ⟨hvalid, hreason, hmoved⟩
      · obtain ⟨deadline, hmarker, hle⟩ := hvisible
        exact ⟨deadline, hsame.trans hmarker, hle⟩
      · have hbeyond : stop ≤ p.ttl event.time := by
          rcases hreason with hopen | hsweeps
          · -- a call before the end of the sale sets an expiry twenty seconds ahead
            unfold Policy.valid at hvalid
            have hbounds := of_decide_eq_true hvalid
            unfold Policy.ttl
            omega
          · exact hlasts p op hrequest hsweeps
        obtain ⟨deadline, hmarker, -⟩ := hvisible
        refine ⟨p.ttl event.time, ?_, hbeyond⟩
        rw [hmoved, hmarker]
        unfold Key.expireAt
        rw [if_neg (by omega)]
        rfl

/-- During a pause no tick releases anybody. -/
theorem released_of_markedUntil {room : Room} (hsound : room.Sound) {event : Event} {stop : ℕ}
    (h : room.MarkedUntil stop) (hnow : event.time < stop) : (room.handle event).released = [] := by
  apply List.eq_nil_iff_forall_not_mem.mpr
  intro m hm
  obtain ⟨p, -, -, hhandle⟩ := tick_of_released hsound hm
  rw [hhandle] at hm
  cases hreason : ((room.visible event.time).cleanup p event.time).1.pauseReason p event.time with
  | some reason =>
      obtain ⟨reply, htick⟩ := Room.tick_of_paused hreason
      rw [htick] at hm
      exact absurd hm List.not_mem_nil
  | none =>
      obtain ⟨-, -, hrunning⟩ := Room.of_pauseReason_none hreason
      unfold Room.runtimePaused at hrunning
      rw [Room.cleanup_pause] at hrunning
      exact of_decide_eq_false hrunning (h.inForce hnow)

section runs

variable {generation : String} {events : List Event}

/-- The marker of an effective request lasts through the calls of the five seconds. -/
theorem markedUntil_of_pause (hrun : Run generation events) (hclears : MarkerClears events)
    {before between : List Event} {pause : Event} (after : List Event)
    (hsplit : events = before ++ pause :: (between ++ after)) (hpause : pause.request = .pause)
    (hfree : ¬(roomAfter before).PauseInForce pause.time)
    (hsoon : ∀ event ∈ between, event.time < pause.time + 5000) :
    (roomAfter (before ++ pause :: between)).MarkedUntil (pause.time + 5000) := by
  induction between using List.reverseRecOn generalizing after with
  | nil =>
      have hclear := hclears.clear before pause after hsplit hpause hfree
      rw [roomAfter_append_singleton]
      unfold Room.after Room.handle
      rw [hpause]
      dsimp only
      unfold Room.markPause
      rw [hclear]
      exact ⟨pause.time + 5000, rfl, le_rfl⟩
  | append_singleton between event ih =>
      have hsplit' : events = before ++ pause :: (between ++ event :: after) := by
        rw [hsplit]
        simp
      have hmarked := ih (event :: after) hsplit'
        (fun earlier hin => hsoon earlier (List.mem_append_left _ hin))
      have hsoonEvent := hsoon event (by simp)
      have hclock := hrun.chronological
      rw [hsplit'] at hclock
      have hlate : pause.time ≤ event.time := by
        have htail := (List.pairwise_append.mp hclock).2.1
        exact List.rel_of_pairwise_cons htail (by simp)
      have hassoc : before ++ pause :: (between ++ [event]) = (before ++ pause :: between) ++ [event] := by
        simp
      rw [hassoc, roomAfter_append_singleton]
      apply markedUntil_after hmarked hsoonEvent (by omega)
      intro p op hcall hsweeps
      have hlasts := hclears.lasts (before ++ pause :: between) event after p op
        (by rw [hsplit']; simp) hcall hsweeps (hmarked.inForce hsoonEvent)
      obtain ⟨deadline, hmarker, -⟩ := hmarked.visible hsoonEvent.le
      rw [hmarker] at hlasts
      exact hlasts

end runs

/-- Every marker was written by a request that found none. -/
theorem exists_pause_of_marker (events : List Event) (cell : Cell ℕ)
    (h : (roomAfter events).pause = some cell) :
    ∃ before pause after, events = before ++ pause :: after ∧ pause.request = .pause ∧
      ¬(roomAfter before).PauseInForce pause.time ∧ cell.content = pause.time + 5000 := by
  induction events using List.reverseRecOn generalizing cell with
  | nil => cases h
  | append_singleton events event ih =>
      rw [roomAfter_append_singleton] at h
      -- the marker was there when the last call began
      have hback : ∀ old : Cell ℕ, ((roomAfter events).visible event.time).pause = some old →
          old.content = cell.content → ∃ before pause after,
            events ++ [event] = before ++ pause :: after ∧ pause.request = .pause ∧
              ¬(roomAfter before).PauseInForce pause.time ∧ cell.content = pause.time + 5000 := by
        intro old hold hcontent
        have hraw : (roomAfter events).pause = some old :=
          (Option.filter_eq_some_iff.mp (show (roomAfter events).pause.filter _ = some old from hold)).1
        obtain ⟨before, pause, after, hsplit, hrequest, hfree, hstop⟩ := ih old hraw
        exact ⟨before, pause, after ++ [event], by rw [hsplit]; simp, hrequest, hfree,
          hcontent ▸ hstop⟩
      unfold Room.after Room.handle at h
      cases hrequest : event.request with
      | call p op =>
          rw [hrequest] at h
          rcases Room.script_pause ((roomAfter events).visible event.time) p event.time op with
            hsame | ⟨-, -, hmoved⟩
          · exact hback cell (hsame.symm.trans h) rfl
          · have hexpire := hmoved.symm.trans h
            unfold Key.expireAt at hexpire
            split_ifs at hexpire with hgone
            obtain ⟨old, hold, hcell⟩ := Option.map_eq_some_iff.mp hexpire
            exact hback old hold (by rw [← hcell])
      | pause =>
          rw [hrequest] at h
          dsimp only at h
          unfold Room.markPause at h
          split_ifs at h with hmarked
          · exact hback cell h rfl
          · cases h
            refine ⟨events, event, [], rfl, hrequest, ?_, rfl⟩
            intro hforce
            unfold Room.PauseInForce at hforce
            rw [Option.not_isSome_iff_eq_none.mp hmarked] at hforce
            exact Nat.not_lt_zero _ hforce

theorem lt_content_of_inForce {room : Room} {now : ℕ} {cell : Cell ℕ} (h : room.PauseInForce now)
    (hmarker : room.pause = some cell) : now < cell.content := by
  unfold Room.PauseInForce at h
  cases hvisible : (room.visible now).pause with
  | none =>
      rw [hvisible] at h
      exact absurd h (Nat.not_lt_zero now)
  | some seen =>
      rw [hvisible] at h
      have hraw := (Option.filter_eq_some_iff.mp (show room.pause.filter _ = some seen from hvisible)).1
      rw [hmarker] at hraw
      cases hraw
      exact h

namespace Room

variable {room : Room} {p : Policy} {now time expired depth active : ℕ} {reason : Reason}

theorem state_ne_paused {m : String} :
    room.state p now m ≠ .paused time expired depth active reason := by
  intro h
  unfold state at h
  dsimp only at h
  split_ifs at h
  split at h
  · cases h
  · cases h

theorem join_reply_ne_paused {m : String} {score : ℕ} :
    (room.join p now m score).reply ≠ .paused time expired depth active reason := by
  intro h
  unfold join at h
  dsimp only at h
  split_ifs at h
  · exact state_ne_paused h
  · exact state_ne_paused h
  · exact state_ne_paused h

theorem beat_reply_ne_paused {m : String} :
    (room.beat p now m).reply ≠ .paused time expired depth active reason := by
  intro h
  unfold beat at h
  dsimp only at h
  split_ifs at h
  · exact state_ne_paused h
  · exact state_ne_paused h
  · exact state_ne_paused h

theorem pauseReason_of_tick (h : (room.tick p now).reply = .paused time expired depth active reason) :
    (room.cleanup p now).1.pauseReason p now = some reason := by
  unfold tick at h
  dsimp only at h
  split at h
  · rename_i hreason
    cases h
    exact hreason
  · cases h

theorem guarded_reply_of_paused {out : Outcome}
    (h : (room.guarded p now out).reply = .paused time expired depth active reason) :
    out.reply = .paused time expired depth active reason := by
  unfold guarded at h
  split_ifs at h
  exact h

/-- Only a tick reports a pause. -/
theorem pauseReason_of_script {op : Op}
    (h : (room.script p now op).reply = .paused time expired depth active reason) :
    (room.cleanup p now).1.pauseReason p now = some reason := by
  unfold script at h
  by_cases hvalid : p.valid = false
  · rw [if_pos hvalid] at h
    cases h
  · rw [if_neg hvalid] at h
    cases op with
    | sync bootstrap =>
        dsimp only at h
        unfold sync at h
        dsimp only at h
        split_ifs at h
    | status member => exact absurd (guarded_reply_of_paused h) state_ne_paused
    | leave member => exact absurd (guarded_reply_of_paused h) Reply.noConfusion
    | join member score => exact absurd (guarded_reply_of_paused h) join_reply_ne_paused
    | heartbeat member => exact absurd (guarded_reply_of_paused h) beat_reply_ne_paused
    | tick => exact pauseReason_of_tick (guarded_reply_of_paused h)

end Room

/-- A tick that reports the runtime pause ran while one was in force. -/
theorem inForce_of_runtimePaused {room : Room} {event : Event} {now expired depth active : ℕ}
    (h : (room.handle event).reply = .paused now expired depth active .runtimePaused) :
    room.PauseInForce event.time := by
  unfold Room.handle at h
  cases hrequest : event.request with
  | pause =>
      rw [hrequest] at h
      dsimp only at h
      unfold Room.markPause at h
      split_ifs at h
  | call p op =>
      rw [hrequest] at h
      have hreason := Room.pauseReason_of_script h
      unfold Room.pauseReason at hreason
      split_ifs at hreason with hended hearly hmode hpaused
      · cases hreason
      · cases hreason
      · cases hreason
      · unfold Room.runtimePaused at hpaused
        rw [Room.cleanup_pause] at hpaused
        exact of_decide_eq_true hpaused

/-- Where no request meets the marker of a pause that is over, every pause takes effect. -/
theorem pause_takes_effect (generation : String) (events : List Event) (hrun : Run generation events)
    (hclears : MarkerClears events) : PauseTakesEffect events where
  stops := by
    intro before pause between late after hsplit hpause hfree hlate
    have hclock := hrun.chronological
    rw [hsplit] at hclock
    have hbetween : ∀ event ∈ between, event.time ≤ late.time := by
      intro event hin
      have htail := (List.pairwise_cons.mp (List.pairwise_append.mp hclock).2.1).2
      exact (List.pairwise_append.mp htail).2.2 event hin late List.mem_cons_self
    have hmarked := markedUntil_of_pause hrun hclears (late :: after) hsplit hpause hfree
      fun event hin => (hbetween event hin).trans_lt hlate
    exact released_of_markedUntil (sound_roomAfter _) hmarked hlate
  repeats := by
    intro before pause after hsplit hpause hforce
    have hmarked : ((roomAfter before).visible pause.time).pause.isSome := by
      unfold Room.PauseInForce at hforce
      cases hmarker : ((roomAfter before).visible pause.time).pause with
      | some cell => rfl
      | none =>
          rw [hmarker] at hforce
          exact absurd hforce (Nat.not_lt_zero _)
    rw [roomAfter_append_singleton]
    unfold Room.after Room.handle
    rw [hpause]
    dsimp only
    unfold Room.markPause
    rw [if_pos hmarked]
  resumes := by
    intro before tick after now expired depth active hsplit hreply
    have hforce := inForce_of_runtimePaused hreply
    cases hmarker : (roomAfter before).pause with
    | none =>
        unfold Room.PauseInForce at hforce
        rw [show ((roomAfter before).visible tick.time).pause = none from by
          show (roomAfter before).pause.visible tick.time = none
          rw [hmarker]
          rfl] at hforce
        exact absurd hforce (Nat.not_lt_zero _)
    | some cell =>
        obtain ⟨start, pause, between, hbefore, hpause, hfree, hstop⟩ :=
          exists_pause_of_marker before cell hmarker
        refine ⟨start, pause, between, hbefore, hpause, hfree, ?_⟩
        rw [← hstop]
        exact lt_content_of_inForce hforce hmarker

/-- A pause between the arrival of a member and the next tick. -/
def pausedRun : List Event :=
  [⟨10, .call openingSale (.sync true)⟩, ⟨1000, .call openingSale .tick⟩,
    ⟨1050, .call openingSale (.join "a" 3)⟩, ⟨1100, .pause⟩, ⟨2000, .call openingSale .tick⟩]

theorem pause_takes_effect_pausedRun :
    ((roomAfter (pausedRun.take 4)).handle ⟨2000, .call openingSale .tick⟩).released = [] := by
  have hsplits : ∀ before event after, pausedRun = before ++ event :: after →
      ∃ n < 5, before = pausedRun.take n ∧ pausedRun[n]? = some event := by
    intro before event after hsplit
    refine ⟨before.length, ?_, by rw [hsplit]; simp, by rw [hsplit]; simp⟩
    have hlength := congrArg List.length hsplit
    simp [pausedRun] at hlength
    omega
  have hrun : Run "g1" pausedRun := by
    refine ⟨?_, by decide⟩
    intro event hevent p op hcall
    simp only [pausedRun, List.mem_cons, List.not_mem_nil, or_false] at hevent
    rcases hevent with rfl | rfl | rfl | rfl | rfl <;> cases hcall <;> rfl
  have hclears : MarkerClears pausedRun := by
    refine ⟨?_, ?_⟩
    · intro before pause after hsplit hpause hfree
      obtain ⟨n, hn, hbefore, hevent⟩ := hsplits before pause after hsplit
      subst hbefore
      interval_cases n <;> cases hevent <;> cases hpause
      rfl
    · intro before event after p op hsplit hcall hsweeps hforce
      obtain ⟨n, hn, hbefore, hevent⟩ := hsplits before event after hsplit
      subst hbefore
      interval_cases n <;> cases hevent <;> cases hcall <;> decide +kernel
  exact (pause_takes_effect "g1" pausedRun hrun hclears).stops (pausedRun.take 3) ⟨1100, .pause⟩ []
    ⟨2000, .call openingSale .tick⟩ [] rfl rfl (by decide +kernel) (by decide)

/-- A second pause of a generation whose first marker was touched in between. -/
def secondPause : List Event :=
  [⟨10, .call openingSale (.sync true)⟩, ⟨1000, .pause⟩, ⟨1200, .call openingSale .tick⟩,
    ⟨6200, .call openingSale .tick⟩, ⟨6500, .call openingSale (.join "a" 3)⟩, ⟨7000, .pause⟩,
    ⟨7500, .call openingSale .tick⟩]

/-- The second request is swallowed: half a second later a member is released. -/
theorem second_pause_swallowed : Run "g1" secondPause ∧ ¬PauseTakesEffect secondPause := by
  refine ⟨⟨?_, by decide⟩, ?_⟩
  · intro event hevent p op hcall
    simp only [secondPause, List.mem_cons, List.not_mem_nil, or_false] at hevent
    rcases hevent with rfl | rfl | rfl | rfl | rfl | rfl | rfl <;> cases hcall <;> rfl
  · intro heffect
    have hnone := heffect.stops (secondPause.take 5) ⟨7000, .pause⟩ []
      ⟨7500, .call openingSale .tick⟩ [] rfl rfl (by decide +kernel) (by decide)
    have hsome : ((roomAfter (secondPause.take 5 ++ [⟨7000, .pause⟩])).handle
        ⟨7500, .call openingSale .tick⟩).released = ["a"] := by decide +kernel
    rw [hnone] at hsome
    cases hsome

end Ticketing.Admission
