import Ticketing.ReadOnlyResults

/-!
# Every read-only call is completed

Each step but the start of a call brings the calls and the leaders nearer to their end. When no
step is left, every call has been completed and no group is left in the map.
-/

namespace Ticketing

open Relational Threads

def LookupPhase.weight : LookupPhase → ℕ
  | .reading => 4
  | .validating _ => 3
  | .loading => 3
  | .touching _ => 2
  | .ended _ => 1

def LeaderPhase.weight : LeaderPhase → ℕ
  | .acquiring => 5
  | .looking lookup => lookup.weight
  | .refused => 1
  | .calling _ _ => 0

def ReadOnlyPhase.weight : ReadOnlyPhase → ℕ
  | .reading => 8
  | .missed => 7
  | .rejected => 1
  | .waiting => 1
  | .completed => 0

/-- An answer or a step of the service; a new call is not one. -/
def ReadOnlyEvent.internal : ReadOnlyEvent → Prop
  | .authenticateReadOnly _ => False
  | _ => True

namespace LookupPhase

theorem finishRecord_weight (config : AuthConfig) (record : AuthSessionRecord) (now : Instant) :
    (finishRecord config record now).weight < 3 := by
  unfold finishRecord
  split_ifs <;> simp [authenticated, weight]

theorem answered_weight {config : AuthConfig} {now : Instant} {lookup next : LookupPhase}
    {reply : LookupReply} (h : lookup.answered config now reply = some next) :
    next.weight < lookup.weight := by
  unfold answered at h
  split at h <;> cases h
  case h_4 | h_7 => exact finishRecord_weight config _ now
  all_goals simp [unauthenticated, unavailable, authenticated, weight]

/-- A strict call that goes on waits for an answer. -/
theorem exists_answer (config : AuthConfig) (now : Instant) {lookup : LookupPhase}
    (h : ∀ result, lookup ≠ .ended result) :
    ∃ reply next, lookup.answered config now reply = some next := by
  cases lookup with
  | reading => exact ⟨.cache .miss, _, rfl⟩
  | validating record => exact ⟨.failure, _, rfl⟩
  | loading => exact ⟨.failure, _, rfl⟩
  | touching sessionId => exact ⟨.failure, _, rfl⟩
  | ended result => exact absurd rfl (h result)

end LookupPhase

namespace ReadOnlyAuth

def remaining (s : ReadOnlyAuth) : ℕ :=
  (s.calls.map fun call => call.phase.weight).sum +
    (s.leaders.map fun leader => leader.phase.weight).sum

/-- The strict call of a token is under way. -/
def looks (tokenHash : String) (leader : Leader) : Bool :=
  decide (leader.tokenHash = tokenHash) && leader.phase.running

/-- A group is in the map exactly while one leader works for its token, the one that its calls have
joined, and no token has two strict calls at once. -/
structure Bounded (s : ReadOnlyAuth) : Prop where
  grouped : Led s
  few : s.pending.rows.length ≤ 64
  small : ∀ tokenHash group, s.pending.find tokenHash = some group → group.length ≤ 8
  led : ∀ tokenHash, s.leaders.countP (leads tokenHash) =
    if (s.pending.find tokenHash).isSome then 1 else 0
  single : ∀ tokenHash, s.leaders.countP (looks tokenHash) ≤ 1

/-- The answers and the steps of the service come to an end, and then every call has been
completed and no group is left. -/
def Ends (config : AuthConfig) (sha256Hex : String → String) (s : ReadOnlyAuth) : Prop :=
  ∀ later t, (∀ event ∈ later, event.internal) →
    run (step config sha256Hex) later s = some t → later.length ≤ s.remaining ∧
      (Quiet (step config sha256Hex) ReadOnlyEvent.internal t →
        (∀ call ∈ t.calls, call.completions.length = 1) ∧
          ∀ tokenHash, t.pending.find tokenHash = none)

section Progress

variable {config : AuthConfig} {sha256Hex : String → String} {s s' : ReadOnlyAuth}

theorem remaining_setCall {i : ℕ} {call : ReadOnlyCall} (hcall : s.calls[i]? = some call)
    (next : ReadOnlyCall) :
    (s.setCall i next).remaining + call.phase.weight = s.remaining + next.phase.weight := by
  have hsum := sum_map_set (fun call : ReadOnlyCall => call.phase.weight) hcall next
  unfold remaining setCall
  simp only at hsum ⊢
  omega

theorem remaining_setLeader {l : ℕ} {leader : Leader} (hleader : s.leaders[l]? = some leader)
    (phase : LeaderPhase) :
    (s.setLeader l leader phase).remaining + leader.phase.weight =
      s.remaining + phase.weight := by
  have hsum := sum_map_set (fun leader : Leader => leader.phase.weight) hleader
    { leader with phase := phase }
  unfold remaining setLeader
  simp only at hsum ⊢
  omega

theorem remaining_enter {i : ℕ} (hstep : s.enter sha256Hex i = some s') :
    s'.remaining < s.remaining := by
  unfold enter at hstep
  split at hstep
  case h_2 => cases hstep
  rename_i call hcall
  by_cases hphase : call.phase = .missed
  case neg =>
    rw [if_pos hphase] at hstep
    cases hstep
  rw [if_neg (not_not.mpr hphase)] at hstep
  have hrejected := remaining_setCall hcall { call with phase := .rejected }
  have hwaiting (leader : Option ℕ) :=
    remaining_setCall hcall { call with phase := .waiting, joined := leader }
  rw [hphase] at hrejected
  simp only [hphase, ReadOnlyPhase.weight] at hrejected hwaiting
  simp only at hstep
  split at hstep
  · split_ifs at hstep <;> cases hstep
    · omega
    · have hjoins := hwaiting (s.leaders.findIdx? (leads (sha256Hex call.rawToken)))
      have hless : (s.setCall i { call with
          phase := .waiting
          joined := s.leaders.findIdx? (leads (sha256Hex call.rawToken)) }).remaining <
            s.remaining := by omega
      exact hless
  · split_ifs at hstep <;> cases hstep
    · omega
    · have hleads := hwaiting (some s.leaders.length)
      unfold remaining at hleads ⊢
      simp only [setCall, List.map_append, List.sum_append, List.map_cons, List.map_nil,
        List.sum_singleton, LeaderPhase.weight] at hleads ⊢
      omega

theorem remaining_callback {l : ℕ} (h : Sound sha256Hex s)
    (hstep : s.callback l = some s') : s'.remaining < s.remaining := by
  unfold callback at hstep
  split at hstep
  case h_2 => cases hstep
  rename_i tokenHash result i callbacks hleader
  obtain ⟨call, hcall, rfl⟩ := Option.map_eq_some_iff.mp hstep
  have hwaits := h.waits hleader hcall List.mem_cons_self
  have hcompleted := remaining_setCall hcall { call with
    phase := .completed
    completions := call.completions ++ [(result, tokenHash)] }
  have hcalling := remaining_setLeader
    (show (s.complete i call result tokenHash).leaders[l]? = _ from hleader)
    (.calling result callbacks)
  rw [hwaits] at hcompleted
  simp only [ReadOnlyPhase.weight] at hcompleted
  simp only [LeaderPhase.weight] at hcalling
  unfold complete at hcalling ⊢
  omega

theorem remaining_lt {event : ReadOnlyEvent} (h : Sound sha256Hex s)
    (hinternal : event.internal) (hstep : step config sha256Hex s event = some s') :
    s'.remaining < s.remaining := by
  cases event with
  | authenticateReadOnly rawToken => exact absurd hinternal id
  | cacheAnswered i result now =>
      simp only [step, cacheAnswered] at hstep
      split at hstep
      case h_2 => cases hstep
      rename_i rawToken answer completions hcall
      have hless : ∀ next : ReadOnlyCall, next.phase = .missed ∨ next.phase = .completed →
          (s.setCall i next).remaining < s.remaining := by
        intro next hnext
        have hset := remaining_setCall hcall next
        rcases hnext with hnext | hnext <;> rw [hnext] at hset <;>
          simp only [ReadOnlyPhase.weight] at hset <;> omega
      split at hstep
      · split_ifs at hstep <;> cases hstep
        · exact hless _ (Or.inr rfl)
        · exact hless _ (Or.inl rfl)
      · cases hstep
        exact hless _ (Or.inl rfl)
  | enter i => exact remaining_enter hstep
  | reject i =>
      simp only [step, reject] at hstep
      split at hstep
      case h_2 => cases hstep
      rename_i call hcall
      split_ifs at hstep with hphase
      cases hstep
      rw [ne_eq, not_not] at hphase
      have hset := remaining_setCall hcall { call with
        phase := .completed
        completions := call.completions ++ [(unavailable, sha256Hex call.rawToken)] }
      rw [hphase] at hset
      simp only [ReadOnlyPhase.weight] at hset
      unfold complete
      omega
  | acquire l permit =>
      simp only [step, acquire] at hstep
      split at hstep
      case h_2 => cases hstep
      rename_i leader hleader
      split_ifs at hstep with hphase <;> cases hstep <;> rw [ne_eq, not_not] at hphase
      · have hset := remaining_setLeader hleader (.looking .reading)
        rw [hphase] at hset
        simp only [LeaderPhase.weight, LookupPhase.weight] at hset
        omega
      · have hset := remaining_setLeader hleader .refused
        rw [hphase] at hset
        simp only [LeaderPhase.weight] at hset
        omega
  | answered l reply now =>
      simp only [step, answered] at hstep
      split at hstep
      case h_2 => cases hstep
      rename_i tokenHash lookup hleader
      obtain ⟨next, hnext, rfl⟩ := Option.map_eq_some_iff.mp hstep
      have hset := remaining_setLeader hleader (.looking next)
      have hweight := LookupPhase.answered_weight hnext
      simp only [LeaderPhase.weight] at hset
      omega
  | drain l =>
      simp only [step, drain] at hstep
      split at hstep
      case h_2 => cases hstep
      rename_i leader hleader
      split at hstep
      case h_2 => cases hstep
      rename_i result group hundrained hresult hgroup
      cases hstep
      have hset := remaining_setLeader hleader (.calling result group)
      have hpos : 0 < leader.phase.weight := by
        cases hphase : leader.phase with
        | calling result callbacks =>
            rw [hphase] at hundrained
            cases hundrained
        | looking lookup =>
            cases lookup <;> simp [LeaderPhase.weight, LookupPhase.weight]
        | _ => simp [LeaderPhase.weight]
      have hless : (s.setLeader l leader (.calling result group)).remaining < s.remaining := by
        simp only [LeaderPhase.weight] at hset hpos
        omega
      exact hless
  | callback l => exact remaining_callback h hstep

/-- A leader that can do nothing more has called all completions of its group. -/
theorem Sound.leader_done (h : Sound sha256Hex s)
    (hquiet : Quiet (step config sha256Hex) ReadOnlyEvent.internal s) {leader : Leader}
    (hmem : leader ∈ s.leaders) : ∃ result, leader.phase = .calling result [] := by
  obtain ⟨l, hleader⟩ := List.mem_iff_getElem?.mp hmem
  have hgroup : leader.phase.undrained = true → ∃ group,
      s.pending.find leader.tokenHash = some group := by
    intro hundrained
    have hpos : 0 < s.leaders.countP (leads leader.tokenHash) :=
      List.countP_pos_iff.mpr ⟨leader, hmem, by rw [leads, hundrained, decide_eq_true rfl]; rfl⟩
    rw [h.led] at hpos
    split_ifs at hpos with hsome
    · exact Option.isSome_iff_exists.mp hsome
    · exact absurd hpos (Nat.lt_irrefl 0)
  have hdrain := hquiet (.drain l) trivial
  simp only [step, drain, hleader] at hdrain
  cases hphase : leader.phase with
  | acquiring =>
      have hstuck := hquiet (.acquire l true) trivial
      simp [step, acquire, hleader, hphase] at hstuck
  | refused =>
      obtain ⟨group, hfind⟩ := hgroup (by rw [hphase]; rfl)
      rw [hphase, hfind] at hdrain
      cases hdrain
  | looking lookup =>
      obtain ⟨tokenHash, phase⟩ := leader
      cases hphase
      by_cases hended : ∃ result, lookup = .ended result
      · obtain ⟨result, rfl⟩ := hended
        obtain ⟨group, hfind⟩ := hgroup rfl
        simp only at hfind hdrain
        rw [hfind] at hdrain
        cases hdrain
      · push Not at hended
        obtain ⟨reply, next, hnext⟩ := LookupPhase.exists_answer config 0 hended
        have hstuck := hquiet (.answered l reply 0) trivial
        simp [step, answered, hleader, hnext] at hstuck
  | calling result callbacks =>
      cases callbacks with
      | nil => exact ⟨result, rfl⟩
      | cons i rest =>
          have htoken := h.taken leader hmem i (by rw [hphase]; exact List.mem_cons_self)
          obtain ⟨call, hcall, -⟩ := Option.map_eq_some_iff.mp htoken
          obtain ⟨tokenHash, phase⟩ := leader
          cases hphase
          have hstuck := hquiet (.callback l) trivial
          simp [step, callback, hleader, hcall] at hstuck

/-- When no step is left, no group is in the map. -/
theorem Sound.none_pending (h : Sound sha256Hex s)
    (hquiet : Quiet (step config sha256Hex) ReadOnlyEvent.internal s) (tokenHash : String) :
    s.pending.find tokenHash = none := by
  have hnone : s.leaders.countP (leads tokenHash) = 0 := by
    rw [List.countP_eq_zero]
    intro leader hmem hleads
    obtain ⟨result, hphase⟩ := h.leader_done hquiet hmem
    rw [leads, hphase, LeaderPhase.undrained, Bool.and_false] at hleads
    cases hleads
  rw [h.led] at hnone
  split_ifs at hnone with hsome
  simpa using hsome

theorem Sound.completed (h : Sound sha256Hex s)
    (hquiet : Quiet (step config sha256Hex) ReadOnlyEvent.internal s) {call : ReadOnlyCall}
    (hmem : call ∈ s.calls) : call.completions.length = 1 := by
  obtain ⟨i, hcall⟩ := List.mem_iff_getElem?.mp hmem
  rw [h.called call hmem, if_pos]
  cases hphase : call.phase with
  | completed => rfl
  | reading =>
      obtain ⟨rawToken, phase, answer, completions⟩ := call
      cases hphase
      have hstuck := hquiet (.cacheAnswered i .miss 0) trivial
      simp [step, cacheAnswered, hcall] at hstuck
  | missed =>
      have hstuck := hquiet (.enter i) trivial
      simp only [step, enter, hcall, hphase, ne_eq, not_true_eq_false, if_false] at hstuck
      rw [h.none_pending hquiet] at hstuck
      simp only at hstuck
      split_ifs at hstuck
  | rejected =>
      have hstuck := hquiet (.reject i) trivial
      simp [step, reject, hcall, hphase] at hstuck
  | waiting =>
      have hheld := h.waiting i call hcall
      rw [if_pos hphase] at hheld
      unfold held at hheld
      rw [h.none_pending hquiet, Option.getD_none, List.count_nil, Nat.zero_add] at hheld
      have hzero : (s.leaders.map fun leader => leader.phase.callbacks.count i).sum = 0 := by
        rw [List.sum_eq_zero_iff]
        intro count hcount
        obtain ⟨leader, hleader, rfl⟩ := List.mem_map.mp hcount
        obtain ⟨result, hcalling⟩ := h.leader_done hquiet hleader
        rw [hcalling]
        rfl
      omega

theorem running_le_leads (tokenHash : String) :
    s.leaders.countP (looks tokenHash) ≤ s.leaders.countP (leads tokenHash) := by
  apply List.countP_mono_left
  intro leader _ hlooks
  rw [looks, Bool.and_eq_true] at hlooks
  rw [leads, Bool.and_eq_true]
  refine ⟨hlooks.1, ?_⟩
  cases hphase : leader.phase with
  | calling result callbacks =>
      rw [hphase] at hlooks
      cases hlooks.2
  | _ => rfl

theorem Sound.bounded (h : Sound sha256Hex s) (hled : Led s) : Bounded s := by
  refine ⟨hled, h.few, h.small, h.led, fun tokenHash => ?_⟩
  calc s.leaders.countP (looks tokenHash)
      ≤ s.leaders.countP (leads tokenHash) := running_le_leads tokenHash
    _ = if (s.pending.find tokenHash).isSome then 1 else 0 := h.led tokenHash
    _ ≤ 1 := by split_ifs <;> omega

theorem Sound.ends (h : Sound sha256Hex s) : Ends config sha256Hex s := by
  intro later t hlater hrun
  have hstepped : ∀ (s : ReadOnlyAuth) event t, Sound sha256Hex s →
      step config sha256Hex s event = some t → Sound sha256Hex t :=
    fun _ _ _ hs hstep => hs.stepped hstep
  have hbound : later.length + t.remaining ≤ s.remaining :=
    run_bounded hstepped (fun _ _ _ hs hinternal hstep => remaining_lt hs hinternal hstep) h
      hlater hrun
  have hsound : Sound sha256Hex t := run_invariant hstepped h hrun
  refine ⟨(Nat.le_add_right _ _).trans hbound, fun hquiet => ⟨?_, ?_⟩⟩
  · intro call hmem
    exact hsound.completed hquiet hmem
  · intro tokenHash
    exact hsound.none_pending hquiet tokenHash

end Progress

/-- Every call is completed once at most, and the steps that are left complete it: with the result
of a lookup of its own token, its own or that of the leader whose group it has joined, or with a
refusal for lack of room. Only a call whose token cannot be one is completed when it starts, without
a lookup. At most 64 groups of 8 calls are in the map, each while one leader works for it. -/
theorem calls_coalesce (config : AuthConfig) (sha256Hex : String → String)
    (events : List ReadOnlyEvent) (s : ReadOnlyAuth)
    (hrun : run (step config sha256Hex) events {} = some s) :
    Bounded s ∧
      (∀ call ∈ s.calls, call.completions.length ≤ 1 ∧ Justified config sha256Hex s call) ∧
      Ends config sha256Hex s := by
  obtain ⟨hsound, htied⟩ := run_tied hrun
  refine ⟨hsound.bounded htied.grouped, fun call hmem => ⟨?_, htied.justified call hmem⟩,
    hsound.ends⟩
  rw [hsound.called call hmem]
  split_ifs <;> omega

def someToken : String := String.ofList (List.replicate 64 'a')

/-- A second call joins while the first one loads the session, and a third one has no token. -/
def twoCalls : List ReadOnlyEvent :=
  [.authenticateReadOnly someToken, .authenticateReadOnly someToken, .cacheAnswered 0 .miss 0,
    .cacheAnswered 1 .unavailable 0, .enter 0, .acquire 0 true, .enter 1,
    .authenticateReadOnly "abc", .answered 0 (.cache .miss) 0, .answered 0 (.record none) 0,
    .drain 0, .callback 0]

theorem twoCalls_coalesce : ∃ s : ReadOnlyAuth,
    run (step ⟨1800, 86400, 60, 300⟩ id) twoCalls {} = some s ∧
      s.calls.map ReadOnlyCall.phase = [.completed, .waiting, .completed] ∧
      s.calls.map ReadOnlyCall.joined = [some 0, some 0, none] ∧
      Bounded s ∧
      (∀ call ∈ s.calls, call.completions.length ≤ 1 ∧
        Justified ⟨1800, 86400, 60, 300⟩ id s call) ∧
      Ends ⟨1800, 86400, 60, 300⟩ id s :=
  ⟨_, rfl, rfl, rfl, calls_coalesce ⟨1800, 86400, 60, 300⟩ id twoCalls _ rfl⟩

/-- A short token is refused with a result that no lookup gave. -/
theorem short_token_refused : ¬ ∀ (config : AuthConfig) (sha256Hex : String → String)
    (events : List ReadOnlyEvent) (s : ReadOnlyAuth),
    run (step config sha256Hex) events {} = some s → ∀ call ∈ s.calls,
      ∀ completion ∈ call.completions, LookedUp config sha256Hex s call completion := by
  intro h
  have hlooked := h ⟨1800, 86400, 60, 300⟩ id [.authenticateReadOnly "abc"] _ rfl
    _ List.mem_cons_self _ List.mem_cons_self
  exact absurd hlooked.token (show "" ≠ "abc" by decide)

end ReadOnlyAuth
end Ticketing
