import Ticketing.ReadOnlyAuth

/-!
# Read-only calls and their groups

A call that waits is held exactly once, by the group of its token or by the leader that took that
group out of the map, and a group is in the map exactly while one leader works for it.
-/

namespace Ticketing

open Relational Threads

namespace ReadOnlyAuth

/-- How often the completion of a call is held by the group of a token or by a leader. -/
def held (s : ReadOnlyAuth) (tokenHash : String) (call : ℕ) : ℕ :=
  ((s.pending.find tokenHash).getD []).count call +
    (s.leaders.map fun leader => leader.phase.callbacks.count call).sum

section Invariant

variable (config : AuthConfig) (sha256Hex : String → String)

def token (s : ReadOnlyAuth) (call : ℕ) : Option String :=
  (s.calls[call]?).map fun state => sha256Hex state.rawToken

structure Sound (s : ReadOnlyAuth) : Prop where
  called : ∀ call ∈ s.calls,
    call.completions.length = if call.phase = .completed then 1 else 0
  waiting : ∀ i call, s.calls[i]? = some call →
    s.held (sha256Hex call.rawToken) i = if call.phase = .waiting then 1 else 0
  grouped : ∀ tokenHash group, s.pending.find tokenHash = some group →
    ∀ i ∈ group, s.token sha256Hex i = some tokenHash
  taken : ∀ leader ∈ s.leaders, ∀ i ∈ leader.phase.callbacks,
    s.token sha256Hex i = some leader.tokenHash
  led : ∀ tokenHash, s.leaders.countP (leads tokenHash) =
    if (s.pending.find tokenHash).isSome then 1 else 0
  few : s.pending.rows.length ≤ 64
  small : ∀ tokenHash group, s.pending.find tokenHash = some group → group.length ≤ 8

variable {config sha256Hex} {s s' : ReadOnlyAuth}

theorem init_sound : Sound sha256Hex {} where
  called _ h := absurd h List.not_mem_nil
  waiting _ _ h := by cases h
  grouped _ _ h := by cases h
  taken _ h := absurd h List.not_mem_nil
  led _ := rfl
  few := Nat.zero_le _
  small _ _ h := by cases h

theorem Sound.uncompleted (h : Sound sha256Hex s) {call : ReadOnlyCall} (hmem : call ∈ s.calls)
    (hphase : call.phase ≠ .completed) : call.completions = [] := by
  have hcalled := h.called call hmem
  rw [if_neg hphase] at hcalled
  exact List.length_eq_zero_iff.mp hcalled

theorem token_eq_some {i : ℕ} {call : ReadOnlyCall} (h : s.calls[i]? = some call) :
    s.token sha256Hex i = some (sha256Hex call.rawToken) := by
  rw [token, h]
  rfl

/-- A call that changes keeps its token. -/
theorem token_setCall {i : ℕ} {call : ReadOnlyCall} (h : s.calls[i]? = some call)
    (next : ReadOnlyCall) (htoken : next.rawToken = call.rawToken) (j : ℕ) :
    (s.setCall i next).token sha256Hex j = s.token sha256Hex j := by
  unfold token setCall
  by_cases hj : j = i
  · rw [hj, h, getElem?_set_self h next, Option.map_some, Option.map_some, htoken]
  · rw [getElem?_set_of_ne hj next]

theorem called_setCall {i : ℕ} {next : ReadOnlyCall} (h : Sound sha256Hex s)
    (hnext : next.completions.length = if next.phase = .completed then 1 else 0) :
    ∀ call ∈ (s.setCall i next).calls,
      call.completions.length = if call.phase = .completed then 1 else 0 := by
  intro call hmem
  rcases List.mem_or_eq_of_mem_set hmem with hold | hnew
  · exact h.called call hold
  · rw [hnew]
    exact hnext

/-- A call goes on without joining or leaving a group. -/
theorem Sound.callMoved {i : ℕ} {call : ReadOnlyCall} (h : Sound sha256Hex s)
    (hcall : s.calls[i]? = some call) (next : ReadOnlyCall) (htoken : next.rawToken = call.rawToken)
    (hbefore : call.phase ≠ .waiting) (hafter : next.phase ≠ .waiting)
    (hcalled : next.completions.length = if next.phase = .completed then 1 else 0) :
    Sound sha256Hex (s.setCall i next) where
  called := called_setCall h hcalled
  waiting j other hother := by
    have hheld : s.held (sha256Hex call.rawToken) i = 0 := by
      rw [h.waiting i call hcall, if_neg hbefore]
    rcases getElem?_set_cases hother with ⟨rfl, rfl⟩ | ⟨-, hold⟩
    · rw [if_neg hafter, htoken]
      exact hheld
    · exact h.waiting j other hold
  grouped tokenHash group hgroup j hj := by
    rw [token_setCall hcall next htoken]
    exact h.grouped tokenHash group hgroup j hj
  taken leader hleader j hj := by
    rw [token_setCall hcall next htoken]
    exact h.taken leader hleader j hj
  led := h.led
  few := h.few
  small := h.small

/-- A call is not held before it has started. -/
theorem Sound.fresh (h : Sound sha256Hex s) (tokenHash : String) :
    s.held tokenHash s.calls.length = 0 := by
  have hnone : s.token sha256Hex s.calls.length = none := by
    rw [token, List.getElem?_eq_none le_rfl]
    rfl
  unfold held
  rw [Nat.add_eq_zero_iff]
  constructor
  · rw [List.count_eq_zero]
    intro hmem
    cases hgroup : s.pending.find tokenHash with
    | none =>
        rw [hgroup] at hmem
        exact List.not_mem_nil hmem
    | some group =>
        rw [hgroup] at hmem
        rw [h.grouped tokenHash group hgroup _ hmem] at hnone
        cases hnone
  · rw [List.sum_eq_zero_iff]
    intro count hcount
    obtain ⟨leader, hleader, rfl⟩ := List.mem_map.mp hcount
    rw [List.count_eq_zero]
    intro hmem
    rw [h.taken leader hleader _ hmem] at hnone
    cases hnone

theorem token_append {i : ℕ} {tokenHash : String} (h : s.token sha256Hex i = some tokenHash)
    (next : ReadOnlyCall) :
    token sha256Hex { s with calls := s.calls ++ [next] } i = some tokenHash := by
  unfold token at h ⊢
  obtain ⟨call, hcall, hhash⟩ := Option.map_eq_some_iff.mp h
  rw [getElem?_append_of_some hcall, Option.map_some, hhash]

theorem authenticateReadOnly_sound (h : Sound sha256Hex s) (rawToken : String) :
    Sound sha256Hex (s.authenticateReadOnly rawToken) := by
  have hnew : ∀ next : ReadOnlyCall,
      next.completions.length = (if next.phase = .completed then 1 else 0) →
      next.phase ≠ .waiting →
      Sound sha256Hex { s with calls := s.calls ++ [next] } := by
    intro next hcalled hphase
    refine ⟨fun call hmem => ?_,
      fun i call hcall => ?_, fun tokenHash group hgroup i hi => ?_,
      fun leader hleader i hi => ?_, h.led, h.few, h.small⟩
    · rcases List.mem_append.mp hmem with hold | hlast
      · exact h.called call hold
      · rw [List.mem_singleton.mp hlast]
        exact hcalled
    · rcases getElem?_append_cases hcall with ⟨rfl, rfl⟩ | hold
      · rw [if_neg hphase]
        exact h.fresh _
      · exact h.waiting i call hold
    · exact token_append (h.grouped tokenHash group hgroup i hi) next
    · exact token_append (h.taken leader hleader i hi) next
  unfold authenticateReadOnly
  split_ifs with hmalformed
  · exact hnew _ rfl (by simp)
  · exact hnew _ rfl (by simp)

theorem cacheAnswered_sound {i : ℕ} {result : SessionCacheResult} {now : Instant}
    (h : Sound sha256Hex s) (hstep : s.cacheAnswered config sha256Hex i result now = some s') :
    Sound sha256Hex s' := by
  unfold cacheAnswered at hstep
  split at hstep
  case h_2 => cases hstep
  rename_i rawToken answer joined completions hcall
  have hnone : completions = [] := h.uncompleted (List.mem_of_getElem? hcall) (by simp)
  have hmissed : Sound sha256Hex
      (s.setCall i ⟨rawToken, .missed, some (result, now), joined, completions⟩) := by
    apply h.callMoved hcall ⟨rawToken, .missed, some (result, now), joined, completions⟩ rfl (by simp)
      (by simp)
    rw [hnone]
    rfl
  cases result with
  | hit record =>
      simp only at hstep
      split_ifs at hstep with htrusted <;> cases hstep
      · refine h.callMoved hcall _ rfl (by simp) (by simp) ?_
        rw [hnone]
        rfl
      · exact hmissed
  | miss =>
      cases hstep
      exact hmissed
  | unavailable =>
      cases hstep
      exact hmissed

theorem reject_sound {i : ℕ} (h : Sound sha256Hex s)
    (hstep : s.reject sha256Hex i = some s') : Sound sha256Hex s' := by
  unfold reject at hstep
  split at hstep
  case h_2 => cases hstep
  rename_i call hcall
  split_ifs at hstep with hphase
  cases hstep
  rw [ne_eq, not_not] at hphase
  have hnone : call.completions = [] :=
    h.uncompleted (List.mem_of_getElem? hcall) (by simp [hphase])
  refine h.callMoved hcall _ rfl (by simp [hphase]) (by simp) ?_
  rw [hnone]
  rfl

/-- A call joins the group of its token, or a new one with a leader of its own. -/
theorem Sound.joined {i : ℕ} {call : ReadOnlyCall} {tokenHash : String} {group : List ℕ}
    {extra : List Leader} (h : Sound sha256Hex s) (leader : Option ℕ) (hcall : s.calls[i]? = some call)
    (hphase : call.phase = .missed) (htoken : tokenHash = sha256Hex call.rawToken)
    (hgroup : (s.pending.find tokenHash).getD [] = group) (hsmall : group.length < 8)
    (hextra : extra = if (s.pending.find tokenHash).isSome then [] else [⟨tokenHash, .acquiring⟩])
    (hfew : (s.pending.find tokenHash).isSome ∨ s.pending.rows.length < 64) :
    Sound sha256Hex { s.setCall i { call with phase := .waiting, joined := leader } with
      pending := s.pending.set tokenHash (group ++ [i])
      leaders := s.leaders ++ extra } := by
  have hnoCallbacks : ∀ leader ∈ extra, leader.phase.callbacks = [] := by
    intro leader hleader
    rw [hextra] at hleader
    split_ifs at hleader
    · exact absurd hleader List.not_mem_nil
    · rw [List.mem_singleton.mp hleader]
      rfl
  have hsum : ∀ j, ((s.leaders ++ extra).map fun leader => leader.phase.callbacks.count j).sum =
      (s.leaders.map fun leader => leader.phase.callbacks.count j).sum := by
    intro j
    have hzero : (extra.map fun leader => leader.phase.callbacks.count j).sum = 0 := by
      rw [List.sum_eq_zero_iff]
      intro count hcount
      obtain ⟨leader, hleader, rfl⟩ := List.mem_map.mp hcount
      rw [hnoCallbacks leader hleader, List.count_nil]
    rw [List.map_append, List.sum_append, hzero, Nat.add_zero]
  have hnone : call.completions = [] :=
    h.uncompleted (List.mem_of_getElem? hcall) (by simp [hphase])
  have htokens : ∀ j, token sha256Hex { s.setCall i { call with phase := .waiting, joined := leader } with
      pending := s.pending.set tokenHash (group ++ [i])
      leaders := s.leaders ++ extra } j = s.token sha256Hex j :=
    fun j => token_setCall hcall { call with phase := .waiting, joined := leader } rfl j
  refine ⟨?_, ?_, ?_, ?_, ?_, ?_, ?_⟩
  · apply called_setCall h
    rw [hnone]
    rfl
  · intro j other hother
    have hbefore := h.waiting i call hcall
    rw [hphase, ← htoken] at hbefore
    simp only [reduceCtorEq, if_false] at hbefore
    unfold held at hbefore ⊢
    rw [hgroup] at hbefore
    rw [hsum]
    rcases getElem?_set_cases hother with ⟨rfl, rfl⟩ | ⟨hne, hold⟩
    · simp only
      rw [← htoken, Table.find_set_self, Option.getD_some, List.count_append,
        List.count_singleton_self, if_pos trivial]
      omega
    · rw [← h.waiting j other hold]
      unfold held
      by_cases hsame : sha256Hex other.rawToken = tokenHash
      · simp only
        rw [hsame, Table.find_set_self, Option.getD_some, List.count_append, hgroup,
          List.count_singleton, if_neg (by simpa using Ne.symm hne)]
        omega
      · simp only
        rw [Table.find_set_of_ne _ _ hsame]
  · intro other members hfind j hj
    rw [htokens]
    simp only [Table.find_set] at hfind
    split_ifs at hfind with hother
    · cases hfind
      rw [hother]
      rcases List.mem_append.mp hj with hold | hnew
      · cases hfound : s.pending.find tokenHash with
        | none =>
            rw [hfound] at hgroup
            rw [← hgroup] at hold
            exact absurd hold List.not_mem_nil
        | some members =>
            rw [← hgroup, hfound] at hold
            exact h.grouped tokenHash members hfound j hold
      · rw [List.mem_singleton.mp hnew, token_eq_some hcall, htoken]
    · exact h.grouped other members hfind j hj
  · intro leader hleader j hj
    rw [htokens]
    rcases List.mem_append.mp hleader with hold | hnew
    · exact h.taken leader hold j hj
    · rw [hnoCallbacks leader hnew] at hj
      exact absurd hj List.not_mem_nil
  · intro other
    have hled := h.led other
    simp only [List.countP_append, Table.find_set, hled, hextra]
    by_cases hother : other = tokenHash
    · rw [hother]
      cases s.pending.find tokenHash with
      | none => simp [leads, LeaderPhase.undrained]
      | some group => simp
    · rw [if_neg hother]
      cases s.pending.find tokenHash with
      | none => simp [leads, Ne.symm hother]
      | some group => simp
  · simp only [Table.length_set]
    have hbound := h.few
    rcases hfew with hsome | hroom
    · rw [if_pos hsome]
      omega
    · split_ifs <;> omega
  · intro other members hfind
    simp only [Table.find_set] at hfind
    split_ifs at hfind with hother
    · cases hfind
      rw [List.length_append, List.length_singleton]
      omega
    · exact h.small other members hfind

theorem enter_sound {i : ℕ} (h : Sound sha256Hex s)
    (hstep : s.enter sha256Hex i = some s') : Sound sha256Hex s' := by
  unfold enter at hstep
  split at hstep
  case h_2 => cases hstep
  rename_i call hcall
  by_cases hphase : call.phase = .missed
  case neg =>
    rw [if_pos hphase] at hstep
    cases hstep
  rw [if_neg (not_not.mpr hphase)] at hstep
  have hnone : call.completions = [] :=
    h.uncompleted (List.mem_of_getElem? hcall) (by simp [hphase])
  have hrejected : Sound sha256Hex (s.setCall i { call with phase := .rejected }) := by
    refine h.callMoved hcall { call with phase := .rejected } rfl (by simp [hphase]) (by simp) ?_
    rw [hnone]
    rfl
  simp only at hstep
  split at hstep
  · rename_i group hgroup
    split_ifs at hstep with hlength <;> cases hstep
    · exact hrejected
    · have hjoined := @Sound.joined sha256Hex s i call _ group [] h
        (s.leaders.findIdx? (leads (sha256Hex call.rawToken))) hcall hphase rfl
        (by rw [hgroup]; rfl) (by omega) (by rw [hgroup]; rfl) (Or.inl (by rw [hgroup]; rfl))
      rw [List.append_nil] at hjoined
      exact hjoined
  · rename_i hgroup
    split_ifs at hstep with hlength <;> cases hstep
    · exact hrejected
    · exact @Sound.joined sha256Hex s i call _ [] [⟨sha256Hex call.rawToken, .acquiring⟩] h
        (some s.leaders.length) hcall hphase rfl (by rw [hgroup]; rfl) (by simp)
        (by rw [hgroup]; rfl) (Or.inr (by omega))

theorem callbacks_of_undrained {phase : LeaderPhase} (h : phase.undrained = true) :
    phase.callbacks = [] := by
  cases phase with
  | calling result callbacks => cases h
  | _ => rfl

/-- A leader goes on before it takes its group out of the map. -/
theorem Sound.leaderMoved {l : ℕ} {leader : Leader} {phase : LeaderPhase}
    (h : Sound sha256Hex s) (hleader : s.leaders[l]? = some leader)
    (hbefore : leader.phase.undrained = true) (hafter : phase.undrained = true) :
    Sound sha256Hex (s.setLeader l leader phase) := by
  have hsum : ∀ j, ((s.setLeader l leader phase).leaders.map
      fun leader => leader.phase.callbacks.count j).sum =
        (s.leaders.map fun leader => leader.phase.callbacks.count j).sum := by
    intro j
    have hset := sum_map_set (fun leader : Leader => leader.phase.callbacks.count j) hleader
      { leader with phase := phase }
    simp only [callbacks_of_undrained hbefore, callbacks_of_undrained hafter, List.count_nil,
      Nat.add_zero] at hset
    exact hset
  refine ⟨h.called, fun i call hcall => ?_, h.grouped,
    fun other hmem i hi => ?_, fun tokenHash => ?_, h.few, h.small⟩
  · rw [← h.waiting i call hcall]
    unfold held
    rw [hsum]
    rfl
  · rcases List.mem_or_eq_of_mem_set hmem with hold | hnew
    · exact h.taken other hold i hi
    · rw [hnew, callbacks_of_undrained hafter] at hi
      exact absurd hi List.not_mem_nil
  · have hcount := countP_set (leads tokenHash) hleader { leader with phase := phase }
    have hsame : leads tokenHash { leader with phase := phase } = leads tokenHash leader := by
      rw [leads, leads, hbefore, hafter]
    rw [hsame] at hcount
    exact (Nat.add_right_cancel hcount).trans (h.led tokenHash)

theorem acquire_sound {l : ℕ} {permit : Bool} (h : Sound sha256Hex s)
    (hstep : s.acquire l permit = some s') : Sound sha256Hex s' := by
  unfold acquire at hstep
  split at hstep
  case h_2 => cases hstep
  rename_i leader hleader
  split_ifs at hstep with hphase <;> cases hstep <;> rw [ne_eq, not_not] at hphase <;>
    exact h.leaderMoved hleader (by rw [hphase]; rfl) rfl

theorem answered_sound {l : ℕ} {reply : LookupReply} {now : Instant}
    (h : Sound sha256Hex s) (hstep : s.answered config l reply now = some s') :
    Sound sha256Hex s' := by
  unfold answered at hstep
  split at hstep
  case h_2 => cases hstep
  rename_i tokenHash lookup hleader
  obtain ⟨next, hnext, rfl⟩ := Option.map_eq_some_iff.mp hstep
  exact h.leaderMoved hleader rfl rfl

theorem drain_sound {l : ℕ} (h : Sound sha256Hex s) (hstep : s.drain l = some s') :
    Sound sha256Hex s' := by
  unfold drain at hstep
  split at hstep
  case h_2 => cases hstep
  rename_i leader hleader
  split at hstep
  case h_2 => cases hstep
  rename_i result group hundrained hresult hgroup
  cases hstep
  have hsum : ∀ j, ((s.leaders.set l { leader with phase := .calling result group }).map
      fun leader => leader.phase.callbacks.count j).sum =
        (s.leaders.map fun leader => leader.phase.callbacks.count j).sum + group.count j := by
    intro j
    have hset := sum_map_set (fun leader : Leader => leader.phase.callbacks.count j) hleader
      { leader with phase := .calling result group }
    simp only [callbacks_of_undrained hundrained, List.count_nil, Nat.add_zero] at hset
    exact hset
  refine ⟨h.called, fun i call hcall => ?_,
    fun tokenHash members hfind => ?_, fun other hmem i hi => ?_, fun tokenHash => ?_, ?_,
    fun tokenHash members hfind => ?_⟩
  · rw [← h.waiting i call hcall]
    unfold held
    simp only [setLeader, hsum, Table.find_erase]
    by_cases hsame : sha256Hex call.rawToken = leader.tokenHash
    · rw [if_pos hsame, hsame, hgroup, Option.getD_none, Option.getD_some, List.count_nil]
      omega
    · have hother : group.count i = 0 := by
        rw [List.count_eq_zero]
        intro hmem
        have htoken := h.grouped _ _ hgroup i hmem
        rw [token_eq_some (show s.calls[i]? = some call from hcall)] at htoken
        exact hsame (Option.some.inj htoken)
      rw [if_neg hsame, hother, Nat.add_zero]
  · simp only [Table.find_erase] at hfind
    split_ifs at hfind
    exact h.grouped tokenHash members hfind
  · rcases List.mem_or_eq_of_mem_set hmem with hold | hnew
    · exact h.taken other hold i hi
    · rw [hnew] at hi ⊢
      have htoken := h.grouped _ group hgroup i hi
      exact htoken
  · have hcount := countP_set (leads tokenHash) hleader
      { leader with phase := .calling result group }
    have hled := h.led tokenHash
    simp only [setLeader, Table.find_erase]
    have hafter : leads tokenHash { leader with phase := .calling result group } = false := by
      rw [leads, LeaderPhase.undrained, Bool.and_false]
    rw [hafter, hled] at hcount
    by_cases hsame : tokenHash = leader.tokenHash
    · have hbefore : leads tokenHash leader = true := by
        rw [leads, hundrained, decide_eq_true hsame.symm, Bool.and_true]
      rw [if_pos hsame]
      rw [hbefore, hsame, hgroup] at hcount
      simpa [hsame] using hcount
    · have hbefore : leads tokenHash leader = false := by
        rw [leads, decide_eq_false (Ne.symm hsame), Bool.false_and]
      rw [if_neg hsame]
      rw [hbefore] at hcount
      exact Nat.add_right_cancel hcount
  · exact (s.pending.length_erase_le leader.tokenHash).trans h.few
  · simp only [Table.find_erase] at hfind
    split_ifs at hfind
    exact h.small tokenHash members hfind

/-- A call that a leader still holds waits. -/
theorem Sound.waits {l i : ℕ} {leader : Leader} {call : ReadOnlyCall}
    (h : Sound sha256Hex s) (hleader : s.leaders[l]? = some leader)
    (hcall : s.calls[i]? = some call) (hmem : i ∈ leader.phase.callbacks) :
    call.phase = .waiting := by
  by_contra hphase
  have hheld := h.waiting i call hcall
  rw [if_neg hphase] at hheld
  have hsum : (s.leaders.map fun leader => leader.phase.callbacks.count i).sum = 0 := by
    unfold held at hheld
    omega
  rw [List.sum_eq_zero_iff] at hsum
  have hzero := hsum _ (List.mem_map.mpr ⟨leader, List.mem_of_getElem? hleader, rfl⟩)
  exact List.count_eq_zero.mp hzero hmem

theorem callback_sound {l : ℕ} (h : Sound sha256Hex s) (hstep : s.callback l = some s') :
    Sound sha256Hex s' := by
  unfold callback at hstep
  split at hstep
  case h_2 => cases hstep
  rename_i tokenHash result i callbacks hleader
  obtain ⟨call, hcall, rfl⟩ := Option.map_eq_some_iff.mp hstep
  have hwaits := h.waits hleader hcall List.mem_cons_self
  have htoken : sha256Hex call.rawToken = tokenHash := by
    have htaken := h.taken _ (List.mem_of_getElem? hleader) i List.mem_cons_self
    rw [token_eq_some hcall] at htaken
    exact Option.some.inj htaken
  have hnone : call.completions = [] :=
    h.uncompleted (List.mem_of_getElem? hcall) (by simp [hwaits])
  obtain ⟨next, hnext⟩ : ∃ next : ReadOnlyCall, next = { call with
    phase := .completed
    completions := call.completions ++ [(result, tokenHash)] } := ⟨_, rfl⟩
  have hshape : (s.complete i call result tokenHash).setLeader l
      ⟨tokenHash, .calling result (i :: callbacks)⟩ (.calling result callbacks) =
        { s with
          calls := s.calls.set i next
          leaders := s.leaders.set l ⟨tokenHash, .calling result callbacks⟩ } := by
    rw [hnext]
    rfl
  rw [hshape]
  have htokens : ∀ j, token sha256Hex { s with
      calls := s.calls.set i next
      leaders := s.leaders.set l ⟨tokenHash, .calling result callbacks⟩ } j =
        s.token sha256Hex j := by
    intro j
    exact token_setCall hcall next (by rw [hnext]) j
  have hsum : ∀ j, ((s.leaders.set l ⟨tokenHash, .calling result callbacks⟩).map
      fun leader => leader.phase.callbacks.count j).sum + (i :: callbacks).count j =
        (s.leaders.map fun leader => leader.phase.callbacks.count j).sum + callbacks.count j :=
    fun j => sum_map_set (fun leader : Leader => leader.phase.callbacks.count j) hleader
      ⟨tokenHash, .calling result callbacks⟩
  refine ⟨?_, fun j other hother => ?_, fun hash members hfind j hj => ?_,
    fun leader hmem j hj => ?_, fun hash => ?_, h.few, h.small⟩
  · refine called_setCall h ?_
    rw [hnext, hnone]
    rfl
  · have hcount := hsum j
    unfold held
    simp only
    rcases getElem?_set_cases hother with ⟨hji, hlast⟩ | ⟨hne, hold⟩
    · have hbefore := h.waiting _ call hcall
      rw [if_pos hwaits] at hbefore
      unfold held at hbefore
      rw [hji, List.count_cons_self] at hcount
      rw [hlast, hnext, hji, if_neg (by simp)]
      simp only
      omega
    · have hbefore := h.waiting j other hold
      unfold held at hbefore
      rw [List.count_cons_of_ne (Ne.symm hne)] at hcount
      omega
  · rw [htokens]
    exact h.grouped hash members hfind j hj
  · rw [htokens]
    rcases List.mem_or_eq_of_mem_set hmem with hold | hnew
    · exact h.taken leader hold j hj
    · rw [hnew] at hj ⊢
      exact h.taken _ (List.mem_of_getElem? hleader) j (List.mem_cons_of_mem i hj)
  · have hled := countP_set (leads hash) hleader ⟨tokenHash, .calling result callbacks⟩
    exact (Nat.add_right_cancel hled).trans (h.led hash)

theorem Sound.stepped {event : ReadOnlyEvent} (h : Sound sha256Hex s)
    (hstep : step config sha256Hex s event = some s') : Sound sha256Hex s' := by
  cases event with
  | authenticateReadOnly rawToken =>
      cases hstep
      exact authenticateReadOnly_sound h rawToken
  | cacheAnswered call result now => exact cacheAnswered_sound h hstep
  | enter call => exact enter_sound h hstep
  | reject call => exact reject_sound h hstep
  | acquire leader permit => exact acquire_sound h hstep
  | answered leader reply now => exact answered_sound h hstep
  | drain leader => exact drain_sound h hstep
  | callback leader => exact callback_sound h hstep

end Invariant

end ReadOnlyAuth
end Ticketing
