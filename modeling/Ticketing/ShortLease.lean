import Ticketing.ObedientClient

/-!
# A lease of less than two heartbeats

A member is released right after it joined; its first heartbeat comes just before the interval that
the release began is over and is ignored, and the lease lapses before the second one.
-/

namespace Ticketing.Admission

open Relational Expiring

/-- A sale that is open from the start, under a policy that releases members. -/
structure OpenSale (p : Policy) : Prop where
  valid : p.valid = true
  on : p.mode ≠ .off
  running : p.mode ≠ .paused
  version : 0 < p.version
  prestart : p.prestart = 0
  starts : p.starts = 0
  ends : 1000 + p.lease < p.ends

def lostRun (p : Policy) : List Event :=
  [⟨0, .call p (.sync true)⟩, ⟨0, .call p .tick⟩, ⟨999, .call p (.join "m" 0)⟩,
    ⟨1000, .call p .tick⟩, ⟨999 + p.heartbeat, .call p (.heartbeat "m")⟩]

namespace Room

variable {p : Policy} {room : Room}

/-- The member waits alone, and the clock of the release has started. -/
structure Alone (room : Room) (p : Policy) (d : ℕ) (place : Place) : Prop where
  operates : room.Operates p
  due : room.Due d
  unmarked : room.pause = none
  release : room.release.content = some ⟨0, 0⟩
  self : room.stand "m" = place.stand
  others : ∀ k, k ≠ "m" → room.stand k = Place.outside.stand

/-- The policy is in force, and nobody has joined yet. -/
def synced (p : Policy) (release : Key Bucket) : Room :=
  { empty with
    runtime := some ⟨⟨p.generation, p.version, p.mode⟩, some (p.ttl 0)⟩
    release := release }

theorem after_sync (h : OpenSale p) : empty.after ⟨0, .call p (.sync true)⟩ = synced p none := by
  have hopen : 0 < p.ttl 0 := lt_ttl (by have := h.ends; omega)
  have hvalid := h.valid
  have hversion := h.version.ne
  unfold after handle script
  dsimp only
  rw [hvalid]
  simp [empty, visible, sync, synced, touch, hversion, Key.content, Key.write, Key.visible_none,
    Key.expireAt, hopen.ne']

theorem visible_eq {d now : ℕ} (hdue : room.Due d) (hle : now ≤ d) (hpause : room.pause = none) :
    room.visible now = room := by
  rw [visible_of_due hdue hle, hpause, Key.visible_none, ← hpause]

theorem operates_synced (h : OpenSale p) (release : Key Bucket) : (synced p release).Operates p where
  valid := h.valid
  fenced := decide_eq_true rfl
  mode := h.on

theorem due_synced (p : Policy) {release : Key Bucket} (hrelease : release.Due (p.ttl 0)) :
    (synced p release).Due (p.ttl 0) where
  runtime := by
    intro cell hcell
    cases hcell
    rfl
  prequeue := Key.due_none _
  waiting := Key.due_none _
  presence := Key.due_none _
  active := Key.due_none _
  heartbeat := Key.due_none _
  sequence := Key.due_none _
  release := hrelease

/-- The first tick finds nobody and only starts the clock of the release. -/
theorem after_tick (h : OpenSale p) : (synced p none).after ⟨0, .call p .tick⟩ =
    synced p (some ⟨⟨0, 0⟩, some (p.ttl 0)⟩) := by
  have hopen : 0 < p.ends := by have := h.ends; omega
  have hvisible : (synced p none).visible 0 = synced p none :=
    visible_eq (due_synced p (Key.due_none _)) (lt_ttl hopen).le rfl
  have hvalid := h.valid
  obtain ⟨turns, hbatch⟩ : ∃ turns, p.batch = turns + 1 := by
    unfold Policy.valid at hvalid
    rw [decide_eq_true_eq] at hvalid
    exact ⟨p.batch - 1, by omega⟩
  have hclean : (synced p none).cleanup p 0 = (synced p none, 0) := by
    have hpresence : (synced p none).presence.zrangeByScore 0 p.batch = [] :=
      Key.zrangeByScore_none 0 p.batch
    have hactive : (synced p none).active.zrangeByScore 0 p.batch = [] :=
      Key.zrangeByScore_none 0 p.batch
    unfold cleanup
    dsimp only
    rw [hpresence]
    show ((synced p none).removeAll ((synced p none).active.zrangeByScore 0 p.batch), _) = _
    rw [show ((synced p none).removeAll []) = synced p none from rfl, hactive]
    rfl
  have hreason : (synced p none).pauseReason p 0 = none := by
    unfold pauseReason runtimePaused
    simp [h.starts, h.running, hopen.ne', synced, empty, Key.content]
  have hdraw : draw p 0 p.batch ((synced p none).refill p 0) (synced p none) =
      ⟨0, [], synced p none⟩ := by
    have htokens : (synced p none).refill p 0 = 0 := by
      unfold refill previousRelease
      simp [synced, empty, Key.content]
    rw [htokens, hbatch]
    unfold draw
    rw [if_pos (Or.inl (by decide))]
  unfold after handle script
  dsimp only
  rw [hvisible, hvalid, (operates_synced h none).guarded_eq]
  unfold tick
  rw [hclean]
  dsimp only
  rw [hreason, hdraw]
  simp [synced, empty, touch, Key.write, Key.expireAt, Key.content, previousRelease,
    (lt_ttl hopen).ne']

/-- The only member joins the waiting line. -/
theorem after_join (h : OpenSale p) {release : Key Bucket} (hrelease : release.Due (p.ttl 0))
    (hcontent : release.content = some ⟨0, 0⟩) :
    ((synced p release).after ⟨999, .call p (.join "m" 0)⟩).Alone p (p.ttl 999)
      (.waiting 1 (999 + p.presence) (999 + p.heartbeat)) := by
  have hopen : 999 < p.ends := by have := h.ends; omega
  have hdue : 999 ≤ p.ttl 0 := by
    unfold Policy.ttl
    omega
  have hvisible : (synced p release).visible 999 = synced p release :=
    visible_eq (due_synced p hrelease) hdue rfl
  have hruns := operates_synced h release
  have hstate : (synced p release).state p 999 "m" = .notJoined 999 :=
    @state_of_lapsed _ _ _ _ .outside rfl hopen not_false
  have hafter : (synced p release).after ⟨999, .call p (.join "m" 0)⟩ =
      (enter { (synced p release).remove "m" with
        sequence := Key.write (none : Key ℕ) 1
        waiting := ((synced p release).remove "m").waiting.zadd 1 "m" } p 999 "m").touch p 999 := by
    unfold after handle script
    dsimp only
    rw [hvisible, h.valid, hruns.guarded_eq]
    unfold join
    rw [if_neg (Nat.not_le.mpr hopen), h.prestart, h.starts, hstate]
    rfl
  rw [hafter]
  refine ⟨?_, due_touch _ p 999, ?_, ?_, ?_, ?_⟩
  · apply hruns.of_runtime
    exact Key.content_expireAt_of_lt _ (lt_ttl hopen)
  · exact Key.expireAt_none 999 _
  · exact (Key.content_expireAt_of_lt _ (lt_ttl hopen)).trans hcontent
  · rw [stand_touch_of_open _ hopen, stand_joinWaiting, if_pos rfl]
  · intro k hk
    rw [stand_touch_of_open _ hopen, stand_joinWaiting, if_neg hk]
    rfl

/-- A queued member that is alone is released when there is a token and a place for it. -/
theorem released_of_alone {place : Place} {x : ℕ ×ₗ (ℕ ×ₗ String)} {m : String} {now tokens turns : ℕ}
    (hself : room.stand m = place.stand) (hx : place.standing m = some x) (hlive : place.live now)
    (hothers : ∀ k, k ≠ m → room.stand k = Place.outside.stand) (htokens : 1000 ≤ tokens)
    (hspare : room.active.zcard < p.capacity) :
    m ∈ (draw p now (turns + 1) tokens room).released := by
  have hplaced : ∀ k, ∃ place : Place, room.stand k = place.stand := by
    intro k
    by_cases hk : k = m
    · exact ⟨place, by rw [hk, hself]⟩
    · exact ⟨.outside, hothers k hk⟩
  unfold draw
  rw [if_neg (by omega)]
  cases hcandidate : room.candidate with
  | none =>
      rw [not_queued_of_no_candidate hcandidate m place hself] at hx
      cases hx
  | some head =>
      obtain ⟨id, rest⟩ := head
      have hhead := heads_of_candidate hplaced hcandidate
      obtain ⟨queued, y, hqueued, hy, -⟩ := hhead.queued
      have hid : id = m := by
        by_contra hne
        rw [Place.stand_injective (hqueued.symm.trans (hothers id hne))] at hy
        cases hy
      subst hid
      have hpresent := (live_iff_presence hself hx).mp hlive
      dsimp only
      rw [hhead.presence, if_pos hpresent]
      exact List.mem_cons_self

/-- The second tick finds a token for the member that waits. -/
theorem released_by_tick (h : OpenSale p) (halone : room.Alone p (p.ttl 999)
    (.waiting 1 (999 + p.presence) (999 + p.heartbeat))) :
    "m" ∈ (room.handle ⟨1000, .call p .tick⟩).released := by
  have hopen : 1000 < p.ends := by have := h.ends; omega
  have hvalid := h.valid
  unfold Policy.valid at hvalid
  rw [decide_eq_true_eq] at hvalid
  have hdue : 1000 ≤ p.ttl 999 := by
    unfold Policy.ttl
    omega
  have hvisible := visible_eq halone.due hdue halone.unmarked
  have hlive : (Place.waiting 1 (999 + p.presence) (999 + p.heartbeat)).live 1000 := by
    show 1000 < 999 + p.presence
    omega
  have hself : (room.cleanup p 1000).1.stand "m" = room.stand "m" :=
    stand_cleanup_of_live halone.self hlive
  have hothers : ∀ k, k ≠ "m" → (room.cleanup p 1000).1.stand k = Place.outside.stand := by
    intro k hk
    rcases stand_cleanup room p 1000 k with hsame | hgone
    · rw [hsame, halone.others k hk]
    · exact hgone
  have hidle : (room.cleanup p 1000).1.active.zcard = 0 := by
    apply Key.zcard_eq_zero
    intro k
    by_cases hk : k = "m"
    · rw [hk]
      exact congrArg Stand.active (hself.trans halone.self)
    · exact congrArg Stand.active (hothers k hk)
  have hfixtures := cleanup_fixtures room p 1000
  have hrelease : (room.cleanup p 1000).1.release.content = some ⟨0, 0⟩ := by
    rw [show (room.cleanup p 1000).1.release = room.release from
      congrArg (fun keys => keys.2.2.1) hfixtures]
    exact halone.release
  have htokens : 1000 ≤ (room.cleanup p 1000).1.refill p 1000 := by
    unfold refill previousRelease
    rw [hrelease]
    simp only [Option.map_some, Option.getD_some]
    rw [show min 3600000 (1000 - 0) = 1000 from rfl]
    omega
  have hreason : (room.cleanup p 1000).1.pauseReason p 1000 = none := by
    have hpause : (room.cleanup p 1000).1.pause = none :=
      (congrArg (fun keys => keys.2.2.2) hfixtures).trans halone.unmarked
    unfold pauseReason runtimePaused
    rw [hpause, h.starts, if_neg (Nat.not_le.mpr hopen), if_neg (by decide), if_neg h.running]
    rfl
  obtain ⟨turns, hbatch⟩ : ∃ turns, p.batch = turns + 1 := ⟨p.batch - 1, by omega⟩
  have hreleased : "m" ∈ (draw p 1000 p.batch ((room.cleanup p 1000).1.refill p 1000)
      (room.cleanup p 1000).1).released := by
    rw [hbatch]
    exact released_of_alone (hself.trans halone.self) rfl hlive hothers htokens (by omega)
  unfold handle script
  dsimp only
  rw [hvisible, h.valid, halone.operates.guarded_eq]
  unfold tick
  dsimp only
  rw [hreason]
  exact hreleased

end Room

section run

variable {p : Policy}

theorem joined_lostRun (h : OpenSale p) : (roomAfter ((lostRun p).take 3)).Alone p (p.ttl 999)
    (.waiting 1 (999 + p.presence) (999 + p.heartbeat)) := by
  have hrun : roomAfter ((lostRun p).take 3) =
      ((Room.empty.after ⟨0, .call p (.sync true)⟩).after ⟨0, .call p .tick⟩).after
        ⟨999, .call p (.join "m" 0)⟩ := rfl
  rw [hrun, Room.after_sync h, Room.after_tick h]
  apply Room.after_join h
  · intro cell hcell
    cases hcell
    rfl
  · rfl

theorem released_lostRun (h : OpenSale p) : "m" ∈ releasedAt (lostRun p) 3 :=
  Room.released_by_tick h (joined_lostRun h)

theorem OpenSale.bounds (h : OpenSale p) : 10000 ≤ p.lease ∧ p.lease ≤ 3600000 ∧
    1000 ≤ p.heartbeat ∧ p.heartbeat ≤ 10000 := by
  have hvalid := h.valid
  unfold Policy.valid at hvalid
  rw [decide_eq_true_eq] at hvalid
  omega

/-- A call at these times, from the join on, is before the end of the sale and of the keys. -/
theorem OpenSale.seen (h : OpenSale p) (since : ℕ) {now : ℕ} (hnow : now ≤ 1000 + p.lease) :
    now < p.ends ∧ now ≤ p.ttl since := by
  have hends := h.ends
  have hbounds := h.bounds
  unfold Policy.ttl
  omega

/-- The tick admits the member that joined. -/
theorem admitted_lostRun (h : OpenSale p) :
    (roomAfter ((lostRun p).take 4)).stand "m" =
        (Place.active (1000 + p.lease) (1000 + p.heartbeat)).stand ∧
      (roomAfter ((lostRun p).take 4)).Due (p.ttl 1000) ∧
      (roomAfter ((lostRun p).take 4)).Operates p := by
  have halone := joined_lostRun h
  obtain ⟨hopen, hseen⟩ : 1000 < p.ends ∧ 1000 ≤ p.ttl 999 := h.seen 999 (by omega)
  have hvalid := h.valid
  have hlive : (Place.waiting 1 (999 + p.presence) (999 + p.heartbeat)).live 1000 := by
    unfold Policy.valid at hvalid
    rw [decide_eq_true_eq] at hvalid
    show 1000 < 999 + p.presence
    omega
  have hserves : (roomAfter ((lostRun p).take 3)).Serves p ⟨1000, .call p .tick⟩ "m"
      (.waiting 1 (999 + p.presence) (999 + p.heartbeat))
      ((roomAfter ((lostRun p).take 3)).handle ⟨1000, .call p .tick⟩) :=
    Room.handle_serves (sound_roomAfter _) halone.due hseen halone.operates halone.self hlive hopen
      (by rintro q op ⟨⟩; rfl) nofun
  have hreleased := Room.released_by_tick h halone
  obtain ⟨place, hplace, hpasses⟩ := hserves.passes
  rw [decide_eq_true hreleased] at hpasses
  cases hpasses with
  | admits _ x hqueued hmode hdue =>
      exact ⟨hplace, hdue, halone.operates.of_runtime hserves.runtime⟩

/-- The heartbeat comes too early to renew the lease. -/
theorem ignored_lostRun (h : OpenSale p) :
    (roomAfter (lostRun p)).stand "m" =
        (Place.active (1000 + p.lease) (1000 + p.heartbeat)).stand ∧
      (∃ since, (roomAfter (lostRun p)).Due (p.ttl since)) ∧ (roomAfter (lostRun p)).Operates p := by
  obtain ⟨hstand, hdue, hruns⟩ := admitted_lostRun h
  have hbounds := h.bounds
  obtain ⟨hopen, hseen⟩ : 999 + p.heartbeat < p.ends ∧ 999 + p.heartbeat ≤ p.ttl 1000 :=
    h.seen 1000 (by omega)
  have hlive : (Place.active (1000 + p.lease) (1000 + p.heartbeat)).live (999 + p.heartbeat) := by
    show 999 + p.heartbeat < 1000 + p.lease
    omega
  have hserves : (roomAfter ((lostRun p).take 4)).Serves p
      ⟨999 + p.heartbeat, .call p (.heartbeat "m")⟩ "m"
      (.active (1000 + p.lease) (1000 + p.heartbeat))
      ((roomAfter ((lostRun p).take 4)).handle ⟨999 + p.heartbeat, .call p (.heartbeat "m")⟩) :=
    Room.handle_serves (sound_roomAfter _) hdue hseen hruns hstand hlive hopen
      (by rintro q op ⟨⟩; rfl) nofun
  obtain ⟨place, hplace, hpasses⟩ := hserves.passes
  have hmoved : ∃ since, (roomAfter (lostRun p)).Due (p.ttl since) := by
    rcases hserves.moved _ hdue with hkept | htouched
    · exact ⟨1000, hkept⟩
    · exact ⟨_, htouched⟩
  have hoperates := hruns.of_runtime hserves.runtime
  generalize decide ("m" ∈ ((roomAfter ((lostRun p).take 4)).handle
    ⟨999 + p.heartbeat, .call p (.heartbeat "m")⟩).released) = flag at hpasses
  cases hpasses with
  | stays => exact ⟨hplace, hmoved, hoperates⟩
  | renews _ _ hlate _ =>
      have hnext : 1000 + p.heartbeat ≤ 999 + p.heartbeat := hlate
      omega
  | admits _ x hqueued => cases hqueued

theorem told_lostRun (h : OpenSale p) :
    told p (lostRun p) "m" (1000 + p.lease) = .notJoined (1000 + p.lease) := by
  obtain ⟨hstand, ⟨since, hdue⟩, hruns⟩ := ignored_lostRun h
  obtain ⟨hopen, hseen⟩ := h.seen since le_rfl
  rw [told_eq hruns hdue hseen]
  exact Room.state_of_lapsed hstand hopen (lt_irrefl _)

theorem not_keepsPlace_lostRun (h : OpenSale p) :
    ¬KeepsPlace p (lostRun p) "m" 2 (1000 + p.lease) := by
  intro hkeeps
  obtain ⟨lease, htold⟩ := hkeeps.admitted ⟨3, by decide, released_lostRun h⟩
  rw [told_lostRun h] at htold
  cases htold

theorem policyRun_lostRun (h : OpenSale p) : PolicyRun p (lostRun p) (1000 + p.lease) := by
  have hbounds := h.bounds
  refine ⟨?_, ?_, ?_⟩
  · intro event hevent q op hcall
    simp only [lostRun, List.mem_cons, List.not_mem_nil, or_false] at hevent
    rcases hevent with rfl | rfl | rfl | rfl | rfl <;> cases hcall <;> rfl
  · simp only [lostRun, List.pairwise_cons, List.mem_cons, List.not_mem_nil, or_false,
      forall_eq_or_imp, forall_eq, List.Pairwise.nil, and_true, IsEmpty.forall_iff, implies_true]
    omega
  · intro event hevent
    simp only [lostRun, List.mem_cons, List.not_mem_nil, or_false] at hevent
    rcases hevent with rfl | rfl | rfl | rfl | rfl <;> dsimp only <;> omega

theorem joins_lostRun (h : OpenSale p) :
    Joins (lostRun p) 2 "m" ⟨999, .call p (.join "m" 0)⟩ := by
  have halone := joined_lostRun h
  have hseen : 999 ≤ p.ttl 999 := (h.seen 999 (by omega)).2
  have hvalid := h.valid
  have hrun : roomAfter ((lostRun p).take 2) =
      Room.synced p (some ⟨⟨0, 0⟩, some (p.ttl 0)⟩) := by
    have hsteps : roomAfter ((lostRun p).take 2) =
        (Room.empty.after ⟨0, .call p (.sync true)⟩).after ⟨0, .call p .tick⟩ := rfl
    rw [hsteps, Room.after_sync h, Room.after_tick h]
  refine ⟨rfl, ⟨p, 0, rfl⟩, ?_, ?_⟩
  · apply not_live_of_outside (sound_roomAfter _)
    rw [hrun]
    rfl
  · have hstand : ((roomAfter ((lostRun p).take 3)).visible 999).stand "m" =
        (Place.waiting 1 (999 + p.presence) (999 + p.heartbeat)).stand := by
      rw [Room.visible_eq halone.due hseen halone.unmarked]
      exact halone.self
    apply (live_iff_of_place hstand).mpr
    unfold Policy.valid at hvalid
    rw [decide_eq_true_eq] at hvalid
    show 999 < 999 + p.presence
    omega

/-- The calls of the run after the join. -/
theorem later_lostRun {n : ℕ} {event : Event} (hn : 2 < n) (hfound : (lostRun p)[n]? = some event) :
    event = ⟨1000, .call p .tick⟩ ∨ event = ⟨999 + p.heartbeat, .call p (.heartbeat "m")⟩ := by
  have hlt : n < 5 := (List.getElem?_eq_some_iff.mp hfound).1
  interval_cases n
  · cases hfound
    exact Or.inl rfl
  · cases hfound
    exact Or.inr rfl

/-- With a lease of less than two heartbeats the client of this run is an obedient one. -/
theorem obedient_lostRun (h : OpenSale p) (hshort : p.lease < 2 * p.heartbeat) :
    Obedient p (lostRun p) "m" 2 (999 + p.heartbeat) (1000 + p.lease) := by
  have hbounds := h.bounds
  refine ⟨⟨_, joins_lostRun h, Nat.le_add_right _ _, le_rfl⟩, ?_, ?_, ?_⟩
  · intro n event hn hfound
    rcases later_lostRun hn hfound with rfl | rfl
    · exact nofun
    · exact nofun
  · intro n event hn hfound hcall
    rcases later_lostRun hn hfound with rfl | rfl
    · cases hcall
    · exact ⟨0, by rw [Nat.zero_mul, Nat.add_zero]⟩
  · intro k hk
    have hzero : k = 0 := by
      by_contra hne
      have hone : p.heartbeat ≤ k * p.heartbeat := Nat.le_mul_of_pos_left _ (Nat.pos_of_ne_zero hne)
      omega
    subst hzero
    exact ⟨4, _, by decide, rfl, rfl, by rw [Nat.zero_mul, Nat.add_zero]⟩

end run

/-- Under these settings and this policy every obedient client of every sale keeps its place. -/
def KeepsObedient (c : Config) (input : PolicyInput) : Prop :=
  ∀ (version : ℕ) (generation : String) (startsMs endsMs : ℕ) (events : List Event) (m : String)
    (i first now : ℕ),
    PolicyRun (scriptPolicy c (input.row version generation) startsMs endsMs) events now →
    Obedient (scriptPolicy c (input.row version generation) startsMs endsMs) events m i first now →
    now < endsMs → KeepsPlace (scriptPolicy c (input.row version generation) startsMs endsMs) events m i now

/-- Of the settings and policies that the validators accept, those with a shorter lease lose the
place of an obedient client. -/
theorem not_keepsObedient {settings request : JsonCpp.Value} {c : Config} {input : PolicyInput}
    (hsettings : Config.parse settings = .ok c) (hrequest : parsePolicyInput request = .ok input)
    (hshort : input.leaseSeconds * 1000 < 2 * c.heartbeatMs) (hoff : input.mode ≠ .off)
    (hpaused : input.mode ≠ .paused) : ¬KeepsObedient c input := by
  intro hkeeps
  have haccepted := parsePolicyInput_accepted hrequest
  have hsale : OpenSale (scriptPolicy c (input.row 1 "g1") 0 5000000) := by
    refine ⟨scriptPolicy_valid (Config.parse_spec hsettings).1 haccepted 1 "g1" (by decide), hoff,
      hpaused, Nat.zero_lt_one, Nat.zero_sub _, rfl, ?_⟩
    unfold PolicyInput.accepted at haccepted
    rw [decide_eq_true_eq] at haccepted
    show 1000 + input.leaseSeconds * 1000 < 5000000
    omega
  have hkept := hkeeps 1 "g1" 0 5000000 (lostRun _) "m" 2 _ _ (policyRun_lostRun hsale)
    (obedient_lostRun hsale hshort) (hsale.seen 0 le_rfl).1
  exact not_keepsPlace_lostRun hsale hkept

/-- Of the settings and policies that the validators accept, exactly those with a lease of two
heartbeats, or with a mode that releases nobody, keep the places of obedient clients. -/
theorem keepsObedient_iff {settings request : JsonCpp.Value} {c : Config} {input : PolicyInput}
    (hsettings : Config.parse settings = .ok c) (hrequest : parsePolicyInput request = .ok input) :
    KeepsObedient c input ↔ 2 * c.heartbeatMs ≤ input.leaseSeconds * 1000 ∨ input.mode = .off ∨
      input.mode = .paused := by
  constructor
  · intro hkeeps
    by_contra hnot
    push Not at hnot
    obtain ⟨hshort, hoff, hpaused⟩ := hnot
    exact not_keepsObedient hsettings hrequest hshort hoff hpaused hkeeps
  · intro hlasting version generation startsMs endsMs events m i first now hrun hclient hopen
    apply hclient.keepsPlace hrun
    · rw [scriptPolicy_heartbeat, scriptPolicy_presence, Nat.mul_comm]
      exact (Config.parse_spec hsettings).2.le
    · exact hlasting
    · exact hopen

/-- Settings with the longest interval, and policies with the shortest lease and with a longer one. -/
def slowHeartbeats : JsonCpp.Value := .object [("heartbeat_ms", .int 10000)]

def policyRequest (leaseSeconds : ℤ) : JsonCpp.Value := .object
  [("mode", .string "ENFORCED"), ("prequeueSeconds", .int 0), ("maxActiveUsers", .int 10),
    ("admissionRatePerSecond", .int 1), ("leaseSeconds", .int leaseSeconds),
    ("expectedPolicyVersion", .int 0)]

theorem parse_slowHeartbeats : Config.parse slowHeartbeats = .ok { heartbeatMs := 10000 } := rfl

/-- The validators accept the shortest lease with the longest interval. -/
theorem slowHeartbeats_lose_place :
    parsePolicyInput (policyRequest 10) = .ok ⟨.enforced, 0, 10, 1, 10, 0⟩ ∧
      ¬KeepsObedient { heartbeatMs := 10000 } ⟨.enforced, 0, 10, 1, 10, 0⟩ :=
  ⟨rfl, @not_keepsObedient slowHeartbeats (policyRequest 10) _ _ parse_slowHeartbeats rfl
    (by decide) (by decide) (by decide)⟩

theorem keepsObedient_iff_slowHeartbeats :
    ¬KeepsObedient { heartbeatMs := 10000 } ⟨.enforced, 0, 10, 1, 10, 0⟩ ∧
      KeepsObedient { heartbeatMs := 10000 } ⟨.enforced, 0, 10, 1, 20, 0⟩ := by
  have hshort : parsePolicyInput (policyRequest 10) = .ok ⟨.enforced, 0, 10, 1, 10, 0⟩ := rfl
  have hlong : parsePolicyInput (policyRequest 20) = .ok ⟨.enforced, 0, 10, 1, 20, 0⟩ := rfl
  rw [keepsObedient_iff parse_slowHeartbeats hshort, keepsObedient_iff parse_slowHeartbeats hlong]
  decide

end Ticketing.Admission
