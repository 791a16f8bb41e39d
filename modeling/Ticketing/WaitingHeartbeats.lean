import Ticketing.AdmissionSettings
import Ticketing.WaitingFairness

/-!
# The place of a client that sends its heartbeats

A heartbeat before its time changes nothing; one in time counts the presence or the lease of the
member from then on, and so does its release. Every other call before the end of the sale passes
over a live member. A client whose heartbeats arrive one announced interval apart therefore never
goes two intervals without an effective one.
-/

namespace Ticketing.Admission

open Relational Expiring

namespace Place

/-- The time from which the next heartbeat is effective. -/
def next : Place → ℕ
  | outside => 0
  | prequeued _ _ next => next
  | waiting _ _ next => next
  | active _ next => next

/-- The place with its deadlines counted from this moment. -/
def renewed (p : Policy) (now : ℕ) : Place → Place
  | outside => outside
  | prequeued score _ _ => prequeued score (now + p.presence) (now + p.heartbeat)
  | waiting ticket _ _ => waiting ticket (now + p.presence) (now + p.heartbeat)
  | active _ _ => active (now + p.lease) (now + p.heartbeat)

theorem standing_renewed (p : Policy) (now : ℕ) (m : String) (place : Place) :
    (place.renewed p now).standing m = place.standing m := by
  cases place <;> rfl

theorem next_renewed {p : Policy} {now : ℕ} {place : Place} (h : place ≠ .outside) :
    (place.renewed p now).next = now + p.heartbeat := by
  cases place with
  | outside => exact absurd rfl h
  | prequeued score presence next => rfl
  | waiting ticket presence next => rfl
  | active lease next => rfl

end Place

/-- What a call before the end of the sale does to a live member that does not leave; the flag tells
whether the call released it. A call that counts the member anew also moves the expiry of the keys
it leaves. -/
inductive Passes (p : Policy) (event : Event) (m : String) (last : Room) :
    Bool → Place → Place → Prop where
  | stays (place : Place)
      (hearly : event.request = .call p (.heartbeat m) → event.time < place.next) :
      Passes p event m last false place place
  | renews (place : Place) (hcall : event.request = .call p (.heartbeat m))
      (hlate : place.next ≤ event.time) (hdue : last.Due (p.ttl event.time)) :
      Passes p event m last false place (place.renewed p event.time)
  | admits (place : Place) (x : ℕ ×ₗ (ℕ ×ₗ String)) (hqueued : place.standing m = some x)
      (hmode : p.mode ≠ .paused) (hdue : last.Due (p.ttl event.time)) :
      Passes p event m last true place (.active (event.time + p.lease) (event.time + p.heartbeat))

/-- The keys stay due together, at their old time or at the one the call moved them to. -/
def Room.Moved (room : Room) (p : Policy) (now : ℕ) (next : Room) : Prop :=
  ∀ d, room.Due d → next.Due d ∨ next.Due (p.ttl now)

/-- What the room of an outcome keeps for one member. -/
structure Room.Serves (room : Room) (p : Policy) (event : Event) (m : String) (place : Place)
    (out : Outcome) : Prop where
  passes : ∃ place' : Place, out.room.stand m = place'.stand ∧
    Passes p event m out.room (decide (m ∈ out.released)) place place'
  runtime : out.room.runtime.content = room.runtime.content
  moved : room.Moved p event.time out.room

namespace Room

variable {room : Room} {p : Policy} {event : Event} {m : String} {place : Place}

/-- A call that releases nobody and changes no key. -/
theorem serves_same (hplace : room.stand m = place.stand) (reply : Reply)
    (hearly : event.request = .call p (.heartbeat m) → event.time < place.next) :
    room.Serves p event m place ⟨reply, [], room⟩ where
  passes := ⟨place, hplace, .stays place hearly⟩
  runtime := rfl
  moved := fun _ hd => Or.inl hd

/-- A call that releases nobody and ends by moving the expiry of the keys. -/
theorem serves_touch {next : Room} {place' : Place} {reply : Reply} (hopen : event.time < p.ends)
    (hnext : next.stand m = place'.stand)
    (hpasses : Passes p event m (next.touch p event.time) false place place')
    (hruntime : next.runtime.content = room.runtime.content) :
    room.Serves p event m place ⟨reply, [], next.touch p event.time⟩ where
  passes := ⟨place', (stand_touch_of_open next hopen m).trans hnext, hpasses⟩
  runtime := (Key.content_expireAt_of_lt next.runtime (lt_ttl hopen)).trans hruntime
  moved := fun _ _ => Or.inr (due_touch next p event.time)

/-- A call that releases nobody and takes another member out. -/
theorem serves_remove {next : Room} {member : String} {reply : Reply} (hm : m ≠ member)
    (hplace : room.stand m = place.stand) (hnext : next.stand m = (room.remove member).stand m)
    (hearly : event.request = .call p (.heartbeat m) → event.time < place.next)
    (hruntime : next.runtime.content = room.runtime.content) (hdue : ∀ d, room.Due d → next.Due d) :
    room.Serves p event m place ⟨reply, [], next⟩ where
  passes := by
    refine ⟨place, ?_, .stays place hearly⟩
    rw [hnext, stand_remove_of_ne room hm, hplace]
  runtime := hruntime
  moved := fun d hd => Or.inl (hdue d hd)

theorem sync_serves (hplace : room.stand m = place.stand) (hopen : event.time < p.ends)
    (hfenced : room.fenced p = true) {bootstrap : Bool}
    (hcall : event.request = .call p (.sync bootstrap)) :
    room.Serves p event m place (room.sync p event.time bootstrap) := by
  have hearly : event.request = .call p (.heartbeat m) → event.time < place.next := by
    intro hbeat
    rw [hcall] at hbeat
    cases hbeat
  unfold sync
  dsimp only
  split_ifs with hstale hmissing hother
  · exact serves_same hplace _ hearly
  · exact serves_same hplace _ hearly
  · exact serves_same hplace _ hearly
  · refine serves_touch hopen ?_ (.stays place hearly) ?_
    · exact hplace
    · exact (of_decide_eq_true hfenced).symm

theorem leave_serves (hplace : room.stand m = place.stand) {member : String} (hm : m ≠ member)
    (hcall : event.request = .call p (.leave member)) :
    room.Serves p event m place (room.leave event.time member) := by
  apply serves_remove hm hplace rfl
  · intro hbeat
    rw [hcall] at hbeat
    cases hbeat
  · rfl
  · exact fun d hd => due_remove hd member

theorem join_serves (hplace : room.stand m = place.stand) (hlive : place.live event.time)
    (hopen : event.time < p.ends) {member : String} {score : ℕ}
    (hcall : event.request = .call p (.join member score)) :
    room.Serves p event m place (room.join p event.time member score) := by
  have hearly : event.request = .call p (.heartbeat m) → event.time < place.next := by
    intro hbeat
    rw [hcall] at hbeat
    cases hbeat
  have hother : room.state p event.time member = .notJoined event.time → m ≠ member := by
    rintro hstate rfl
    exact state_ne_notJoined hplace hopen hlive hstate
  unfold join
  dsimp only
  split_ifs with hended hearlier hstate hscore hprequeue hraised hexhausted
  · exact serves_same hplace _ hearly
  · exact serves_same hplace _ hearly
  · exact serves_same hplace _ hearly
  · exact serves_same hplace _ hearly
  · -- somebody else joins the prequeue
    have hm := hother (not_not.mp hstate)
    refine serves_touch hopen ?_ (.stays place hearly) ?_
    · rw [stand_joinPrequeue, if_neg hm, hplace]
    · rfl
  · exact serves_remove (hother (not_not.mp hstate)) hplace rfl hearly rfl
      fun d hd => due_remove hd member
  · -- the sequence exists, so its key keeps the deadline
    refine serves_remove (hother (not_not.mp hstate)) hplace ?_ hearly ?_ ?_
    · rfl
    · rfl
    intro d hd
    have hsome : room.sequence.isSome := by
      cases hsequence : room.sequence with
      | some cell => rfl
      | none =>
          have hnone : (room.remove member).sequence.content = none := by
            show room.sequence.content = none
            rw [hsequence]
            rfl
          rw [hnone] at hexhausted
          exact absurd hexhausted (by decide)
    exact { due_remove hd member with sequence := Key.due_write _ hd.sequence hsome }
  · -- somebody else joins the waiting line
    have hm := hother (not_not.mp hstate)
    refine serves_touch hopen ?_ (.stays place hearly) ?_
    · rw [stand_joinWaiting, if_neg hm, hplace]
    · rfl

theorem state_ne_salesEnded (room : Room) {now : ℕ} (hopen : now < p.ends) (m : String) :
    room.state p now m ≠ .salesEnded now := by
  unfold state
  rw [if_neg (Nat.not_le.mpr hopen)]
  dsimp only
  split_ifs
  · exact Reply.noConfusion
  · split
    · exact Reply.noConfusion
    · exact Reply.noConfusion
  · exact Reply.noConfusion

/-- A heartbeat before its time is ignored, one in time renews the member. -/
theorem beat_serves (hplace : room.stand m = place.stand) (hlive : place.live event.time)
    (hopen : event.time < p.ends) {member : String}
    (hcall : event.request = .call p (.heartbeat member)) :
    room.Serves p event m place (room.beat p event.time member) := by
  have hheartbeat : room.heartbeat.zscore m = place.stand.heartbeat := congrArg Stand.heartbeat hplace
  by_cases hm : m = member
  · subst hm
    have hactive : room.active.zscore m = place.stand.active := congrArg Stand.active hplace
    have hpresence : room.presence.zscore m = place.stand.presence := congrArg Stand.presence hplace
    have hnext : place.stand.heartbeat.getD 0 = place.next := by
      cases place with
      | outside => exact hlive.elim
      | prequeued score presence next => rfl
      | waiting ticket presence next => rfl
      | active lease next => rfl
    unfold beat
    dsimp only
    split_ifs with hstate hwait
    · rcases hstate with hgone | hended
      · exact absurd hgone (state_ne_notJoined hplace hopen hlive)
      · exact absurd hended (state_ne_salesEnded room hopen m)
    · apply serves_same hplace
      intro _
      rw [hheartbeat, hnext] at hwait
      exact hwait
    · rw [hheartbeat, hnext] at hwait
      refine serves_touch hopen ?_
        (.renews place hcall (Nat.le_of_not_lt hwait) (due_touch _ p event.time)) ?_
      · rw [stand_renew, if_pos rfl, hplace, hactive, hpresence]
        cases place with
        | outside => exact hlive.elim
        | active lease next =>
            have hrunning : event.time < lease := hlive
            simp [Place.stand, Place.renewed, hrunning]
        | prequeued score presence next => simp [Place.stand, Place.renewed]
        | waiting ticket presence next => simp [Place.stand, Place.renewed]
      · rfl
  · have hearly : event.request = .call p (.heartbeat m) → event.time < place.next := by
      intro hbeat
      rw [hcall] at hbeat
      cases hbeat
      exact absurd rfl hm
    unfold beat
    dsimp only
    split_ifs with hstate hwait
    · exact serves_same hplace _ hearly
    · exact serves_same hplace _ hearly
    · refine serves_touch hopen ?_ (.stays place hearly) ?_
      · rw [stand_renew, if_neg hm, hplace]
      · rfl

theorem mode_of_pauseReason_none {now : ℕ} (h : room.pauseReason p now = none) :
    p.mode ≠ .paused := by
  unfold pauseReason at h
  split_ifs at h with hended hearly hmode hpaused
  exact hmode

/-- A tick passes over a live member or releases it. -/
theorem tick_serves (h : room.Sound) (hplace : room.stand m = place.stand)
    (hlive : place.live event.time) (hopen : event.time < p.ends)
    (hcall : event.request = .call p .tick) :
    room.Serves p event m place (room.tick p event.time) := by
  have hearly : event.request = .call p (.heartbeat m) → event.time < place.next := by
    intro hbeat
    rw [hcall] at hbeat
    cases hbeat
  have hclean : (room.cleanup p event.time).1.stand m = place.stand :=
    (stand_cleanup_of_live hplace hlive).trans hplace
  have hfixtures := cleanup_fixtures room p event.time
  have hruntime : (room.cleanup p event.time).1.runtime = room.runtime :=
    congrArg Prod.fst hfixtures
  cases hreason : (room.cleanup p event.time).1.pauseReason p event.time with
  | some reason =>
      obtain ⟨reply, htick⟩ := tick_of_paused hreason
      rw [htick]
      exact serves_touch hopen hclean (.stays place hearly) (congrArg Key.content hruntime)
  | none =>
      obtain ⟨tokens, bucket, hreleased, hroom⟩ := tick_of_open hreason
      have hdraws := draws_of_draw p event.time p.batch tokens (h.cleanup p event.time).placed
      obtain ⟨place', hlast, hpulled⟩ := hdraws.pulled hclean
      refine ⟨⟨place', ?_, ?_⟩, ?_, ?_⟩
      · rw [hroom, stand_touch_of_open _ hopen]
        exact hlast
      · rw [hreleased]
        generalize decide (m ∈ (draw p event.time p.batch tokens
          (room.cleanup p event.time).1).released) = flag at hpulled
        cases hpulled with
        | stays => exact .stays place hearly
        | drops _ hlapsed => exact absurd hlive hlapsed
        | admits _ x hqueued _ =>
            rw [hroom]
            exact .admits place x hqueued (mode_of_pauseReason_none hreason)
              (due_touch _ p event.time)
      · have hdrawn := draw_fixtures p event.time p.batch tokens (room.cleanup p event.time).1
        rw [hroom]
        refine (Key.content_expireAt_of_lt _ (lt_ttl hopen)).trans ?_
        exact congrArg Key.content ((congrArg Prod.fst hdrawn).trans hruntime)
      · intro d _
        rw [hroom]
        exact Or.inr (due_touch _ p event.time)

/-- The room carries out the calls of this policy. -/
structure Operates (room : Room) (p : Policy) : Prop where
  valid : p.valid = true
  fenced : room.fenced p = true
  mode : p.mode ≠ .off

theorem Operates.of_runtime (h : room.Operates p) {next : Room}
    (hruntime : next.runtime.content = room.runtime.content) : next.Operates p where
  valid := h.valid
  fenced := by
    unfold Room.fenced
    rw [hruntime]
    exact h.fenced
  mode := h.mode

theorem Operates.guarded_eq (h : room.Operates p) (now : ℕ) (out : Outcome) :
    room.guarded p now out = out := by
  have hfenced : ¬room.fenced p = false := by
    rw [h.fenced]
    decide
  unfold guarded
  rw [if_neg hfenced, if_neg h.mode]

theorem script_serves (h : room.Sound) (hruns : room.Operates p) (hplace : room.stand m = place.stand)
    (hlive : place.live event.time) (hopen : event.time < p.ends) {op : Op}
    (hcall : event.request = .call p op) (hremains : op ≠ .leave m) :
    room.Serves p event m place (room.script p event.time op) := by
  have hvalid : ¬p.valid = false := by
    rw [hruns.valid]
    decide
  unfold script
  rw [if_neg hvalid]
  cases op with
  | sync bootstrap => exact sync_serves hplace hopen hruns.fenced hcall
  | status member =>
      dsimp only
      rw [hruns.guarded_eq]
      apply serves_same hplace
      intro hbeat
      rw [hcall] at hbeat
      cases hbeat
  | leave member =>
      dsimp only
      rw [hruns.guarded_eq]
      exact leave_serves hplace (fun hm => hremains (by rw [hm])) hcall
  | join member score =>
      dsimp only
      rw [hruns.guarded_eq]
      exact join_serves hplace hlive hopen hcall
  | heartbeat member =>
      dsimp only
      rw [hruns.guarded_eq]
      exact beat_serves hplace hlive hopen hcall
  | tick =>
      dsimp only
      rw [hruns.guarded_eq]
      exact tick_serves h hplace hlive hopen hcall

theorem markPause_serves (hplace : room.stand m = place.stand) (hcall : event.request = .pause) :
    room.Serves p event m place (room.markPause event.time) := by
  have hearly : event.request = .call p (.heartbeat m) → event.time < place.next := by
    intro hbeat
    rw [hcall] at hbeat
    cases hbeat
  unfold markPause
  split_ifs with hmarked
  · exact serves_same hplace _ hearly
  · exact ⟨⟨place, hplace, .stays place hearly⟩, rfl, fun d hd => Or.inl
      ⟨hd.runtime, hd.prequeue, hd.waiting, hd.presence, hd.active, hd.heartbeat, hd.sequence,
        hd.release⟩⟩

/-- The pause marker is no part of what a call keeps for a member. -/
theorem Serves.of_pause {pause : Key ℕ} {out : Outcome}
    (h : { room with pause := pause }.Serves p event m place out) : room.Serves p event m place out where
  passes := h.passes
  runtime := h.runtime
  moved := fun d hd => h.moved d ⟨hd.runtime, hd.prequeue, hd.waiting, hd.presence, hd.active,
    hd.heartbeat, hd.sequence, hd.release⟩

/-- Every call under the policy in force, before the keys are due, serves a member that stays. -/
theorem handle_serves (h : room.Sound) {d : ℕ} (hd : room.Due d) (hseen : event.time ≤ d)
    (hruns : room.Operates p) (hplace : room.stand m = place.stand) (hlive : place.live event.time)
    (hopen : event.time < p.ends) (hpolicy : ∀ q op, event.request = .call q op → q = p)
    (hremains : event.request ≠ .call p (.leave m)) :
    room.Serves p event m place (room.handle event) := by
  have hsound := h.with_pause (room.pause.visible event.time)
  have hoperates : { room with pause := room.pause.visible event.time }.Operates p :=
    hruns.of_runtime rfl
  unfold handle
  rw [visible_of_due hd hseen]
  refine @Serves.of_pause room p event m place (room.pause.visible event.time) _ ?_
  cases hrequest : event.request with
  | call q op =>
      cases hpolicy q op hrequest
      refine script_serves hsound hoperates hplace hlive hopen hrequest ?_
      rintro rfl
      exact hremains hrequest
  | pause => exact markPause_serves hplace hrequest

/-- A join that lets in a member who was not there: it queues, counted from now on. -/
structure Enters (room : Room) (p : Policy) (now : ℕ) (m : String) (last : Room) : Prop where
  operates : room.Operates p
  queued : ∃ (place : Place) (x : ℕ ×ₗ (ℕ ×ₗ String)), last.stand m = place.stand ∧
    place.standing m = some x ∧ place.renewed p now = place
  runtime : last.runtime.content = room.runtime.content
  due : last.Due (p.ttl now)

theorem enters_touch {next : Room} {now : ℕ} {x : ℕ ×ₗ (ℕ ×ₗ String)} (hruns : room.Operates p)
    (hopen : now < p.ends) (hnext : next.stand m = place.stand) (hx : place.standing m = some x)
    (hcounted : place.renewed p now = place) (hruntime : next.runtime = room.runtime) :
    room.Enters p now m (next.touch p now) where
  operates := hruns
  queued := ⟨place, x, (stand_touch_of_open next hopen m).trans hnext, hx, hcounted⟩
  runtime := (Key.content_expireAt_of_lt next.runtime (lt_ttl hopen)).trans
    (congrArg Key.content hruntime)
  due := due_touch next p now

theorem join_enters {now score : ℕ} (hruns : room.Operates p) (hplace : room.stand m = place.stand)
    (hgone : ¬place.live now) {last : Place}
    (hlast : (room.join p now m score).room.stand m = last.stand) (hlive : last.live now) :
    room.Enters p now m (room.join p now m score).room := by
  have hsame : room.stand m ≠ last.stand := by
    intro heq
    exact hgone (Place.stand_injective (hplace.symm.trans heq) ▸ hlive)
  have hout : last.stand ≠ Place.outside.stand := by
    intro heq
    rw [Place.stand_injective heq] at hlive
    exact hlive
  unfold join at hlast ⊢
  dsimp only at hlast ⊢
  split_ifs at hlast ⊢ with hended hearlier hstate hscore hprequeue hraised hexhausted
  · exact absurd hlast hsame
  · exact absurd hlast hsame
  · exact absurd hlast hsame
  · exact absurd hlast hsame
  · have hnext := stand_joinPrequeue room p now m score m
    rw [if_pos rfl] at hnext
    exact enters_touch hruns (Nat.lt_of_not_le hended) hnext rfl rfl rfl
  · exact absurd (hlast.symm.trans (stand_remove_self room m)) hout
  · exact absurd (hlast.symm.trans (stand_remove_self room m)) hout
  · have hnext := stand_joinWaiting room p now m ((room.remove m).sequence.content.getD 0 + 1)
      ((room.remove m).sequence.write ((room.remove m).sequence.content.getD 0 + 1)) m
    rw [if_pos rfl] at hnext
    exact enters_touch hruns (Nat.lt_of_not_le hended) hnext rfl rfl rfl

/-- The policy of a join that lets a member in is the one in force. -/
theorem script_join_enters {now score : ℕ} (hplace : room.stand m = place.stand)
    (hgone : ¬place.live now) {last : Place}
    (hlast : (room.script p now (.join m score)).room.stand m = last.stand) (hlive : last.live now) :
    room.Enters p now m (room.script p now (.join m score)).room := by
  have hsame : room.stand m ≠ last.stand := by
    intro heq
    exact hgone (Place.stand_injective (hplace.symm.trans heq) ▸ hlive)
  unfold script guarded at hlast ⊢
  dsimp only at hlast ⊢
  split_ifs at hlast ⊢ with hinvalid hother hoff
  · exact absurd hlast hsame
  · exact absurd hlast hsame
  · exact absurd hlast hsame
  · have hruns : room.Operates p := ⟨by simpa using hinvalid, by simpa using hother, hoff⟩
    exact join_enters hruns hplace hgone hlast hlive

end Room

end Ticketing.Admission
