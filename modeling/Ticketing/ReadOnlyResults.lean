import Ticketing.ReadOnlyGroups

/-!
# Whose result a read-only call gets

A call is completed with a fresh record of the cache, for lack of room, or by the leader that worked
for its group when it joined. A call whose token is malformed is completed when it starts.
-/

namespace Ticketing

open Relational Threads

namespace ReadOnlyAuth

/-- The leader of the group that the call joined. -/
def joined (s : ReadOnlyAuth) (call : ℕ) : Option ℕ := (s.calls[call]?).bind ReadOnlyCall.joined

section Invariant

variable (config : AuthConfig) (sha256Hex : String → String)

/-- A completion that comes from a lookup: the cache had a fresh record for the token of the call,
or the leader of the group that the call joined ended with that result, or there was no room. -/
inductive LookedUp (s : ReadOnlyAuth) (call : ReadOnlyCall) : AuthenticateResult × String → Prop
  | fresh {record : AuthSessionRecord} {now : Instant} (alone : call.joined = none)
      (answer : call.answer = some (.hit record, now))
      (trusted : AuthSystem.trusted config record now = true) :
      LookedUp s call ({ outcome := .authenticated, session := some record },
        sha256Hex call.rawToken)
  | led {l : ℕ} {leader : Leader} {result : AuthenticateResult} (joined : call.joined = some l)
      (found : s.leaders[l]? = some leader) (token : leader.tokenHash = sha256Hex call.rawToken)
      (ended : leader.phase.result = some result) :
      LookedUp s call (result, sha256Hex call.rawToken)
  | rejected (alone : call.joined = none) : LookedUp s call (unavailable, sha256Hex call.rawToken)

/-- A malformed token is refused at once and without a lookup; every other call gets the result of
a lookup. -/
structure Justified (s : ReadOnlyAuth) (call : ReadOnlyCall) : Prop where
  refused : malformed call.rawToken = true → call.phase = .completed ∧ call.answer = none ∧
    call.joined = none ∧ call.completions = [({ outcome := .unauthenticated }, "")]
  lookedUp : malformed call.rawToken = false → ∀ completion ∈ call.completions,
    LookedUp config sha256Hex s call completion

/-- The group of a token is led by one leader, and its calls have joined that one. -/
def Led (s : ReadOnlyAuth) : Prop :=
  ∀ tokenHash group, s.pending.find tokenHash = some group → ∃ l leader,
    s.leaders[l]? = some leader ∧ leads tokenHash leader = true ∧ ∀ i ∈ group, s.joined i = some l

structure Tied (s : ReadOnlyAuth) : Prop where
  grouped : Led s
  taken : ∀ l leader, s.leaders[l]? = some leader → ∀ i ∈ leader.phase.callbacks,
    s.joined i = some l
  alone : ∀ call ∈ s.calls, call.phase ≠ .waiting → call.phase ≠ .completed → call.joined = none
  justified : ∀ call ∈ s.calls, Justified config sha256Hex s call

variable {config sha256Hex} {s s' : ReadOnlyAuth}

theorem init_tied : Tied config sha256Hex {} where
  grouped _ _ h := by cases h
  taken _ _ h := by cases h
  alone _ h := absurd h List.not_mem_nil
  justified _ h := absurd h List.not_mem_nil

/-- The results of leaders stay. -/
def Keeps (s s' : ReadOnlyAuth) : Prop :=
  ∀ (l : ℕ) (leader : Leader) (result : AuthenticateResult),
    s.leaders[l]? = some leader → leader.phase.result = some result →
    ∃ later, s'.leaders[l]? = some later ∧ later.tokenHash = leader.tokenHash ∧
      later.phase.result = some result

theorem keeps_of_leaders (h : s'.leaders = s.leaders) : Keeps s s' :=
  fun _ leader _ hleader hresult => ⟨leader, h ▸ hleader, rfl, hresult⟩

theorem keeps_append {extra : List Leader} (h : s'.leaders = s.leaders ++ extra) : Keeps s s' := by
  intro l leader result hleader hresult
  refine ⟨leader, ?_, rfl, hresult⟩
  rw [h, List.getElem?_append_left (List.getElem?_eq_some_iff.mp hleader).1]
  exact hleader

theorem keeps_setLeader {l : ℕ} {leader : Leader} {phase : LeaderPhase}
    (hleader : s.leaders[l]? = some leader)
    (hresult : ∀ result, leader.phase.result = some result → phase.result = some result)
    (hleaders : s'.leaders = s.leaders.set l { leader with phase := phase }) : Keeps s s' := by
  intro j other result hj hother
  rw [hleaders]
  by_cases hjl : j = l
  · rw [hjl, hleader] at hj
    cases hj
    refine ⟨{ leader with phase := phase }, ?_, rfl, hresult result hother⟩
    rw [hjl]
    exact getElem?_set_self hleader _
  · exact ⟨other, by rw [getElem?_set_of_ne hjl]; exact hj, rfl, hother⟩

theorem LookedUp.kept {call : ReadOnlyCall} {completion : AuthenticateResult × String}
    (h : LookedUp config sha256Hex s call completion) (hkeeps : Keeps s s') :
    LookedUp config sha256Hex s' call completion := by
  cases h with
  | fresh halone hanswer htrusted => exact .fresh halone hanswer htrusted
  | led hjoined hleader htoken hended =>
      obtain ⟨later, hlater, hsame, hresult⟩ := hkeeps _ _ _ hleader hended
      exact .led hjoined hlater (hsame.trans htoken) hresult
  | rejected halone => exact .rejected halone

/-- A lookup is one of the token of the call. -/
theorem LookedUp.token {call : ReadOnlyCall} {completion : AuthenticateResult × String}
    (h : LookedUp config sha256Hex s call completion) :
    completion.2 = sha256Hex call.rawToken := by
  cases h <;> rfl

theorem Justified.kept {call : ReadOnlyCall} (h : Justified config sha256Hex s call)
    (hkeeps : Keeps s s') : Justified config sha256Hex s' call where
  refused := h.refused
  lookedUp hformed completion hcompletion := (h.lookedUp hformed completion hcompletion).kept hkeeps

/-- A call that has not been completed has a token of the right form. -/
theorem Justified.formed {call : ReadOnlyCall} (h : Justified config sha256Hex s call)
    (hphase : call.phase ≠ .completed) : malformed call.rawToken = false := by
  by_contra hmalformed
  exact hphase (h.refused (by simpa using hmalformed)).1

theorem justified_of_formed {call : ReadOnlyCall} (hformed : malformed call.rawToken = false)
    (hlookedUp : ∀ completion ∈ call.completions, LookedUp config sha256Hex s call completion) :
    Justified config sha256Hex s call where
  refused hmalformed := by
    rw [hformed] at hmalformed
    cases hmalformed
  lookedUp _ := hlookedUp

theorem joined_eq {i : ℕ} {call : ReadOnlyCall} (h : s.calls[i]? = some call) :
    s.joined i = call.joined := by
  unfold joined
  rw [h]
  rfl

theorem joined_setCall {i : ℕ} {call : ReadOnlyCall} (h : s.calls[i]? = some call)
    {next : ReadOnlyCall} (hjoined : next.joined = call.joined) (j : ℕ) :
    (s.setCall i next).joined j = s.joined j := by
  by_cases hj : j = i
  · rw [hj, joined_eq h]
    exact (joined_eq (s := s.setCall i next) (getElem?_set_self h next)).trans hjoined
  · unfold joined setCall
    rw [getElem?_set_of_ne hj next]

/-- A call goes on without joining a group. -/
theorem Tied.callMoved {i : ℕ} {call next : ReadOnlyCall} (h : Tied config sha256Hex s)
    (hcall : s.calls[i]? = some call) (hjoined : next.joined = call.joined)
    (halone : next.phase ≠ .waiting → next.phase ≠ .completed → next.joined = none)
    (hjustified : Justified config sha256Hex (s.setCall i next) next) :
    Tied config sha256Hex (s.setCall i next) where
  grouped tokenHash group hgroup := by
    obtain ⟨l, leader, hleader, hleads, hall⟩ := h.grouped tokenHash group hgroup
    refine ⟨l, leader, hleader, hleads, fun j hj => ?_⟩
    rw [joined_setCall hcall hjoined]
    exact hall j hj
  taken l leader hleader j hj := by
    rw [joined_setCall hcall hjoined]
    exact h.taken l leader hleader j hj
  alone other hmem := by
    rcases List.mem_or_eq_of_mem_set hmem with hold | rfl
    · exact h.alone other hold
    · exact halone
  justified other hmem := by
    rcases List.mem_or_eq_of_mem_set hmem with hold | rfl
    · exact (h.justified other hold).kept (keeps_of_leaders rfl)
    · exact hjustified

theorem joined_append {i : ℕ} {l : ℕ} (h : s.joined i = some l) (next : ReadOnlyCall) :
    joined { s with calls := s.calls ++ [next] } i = some l := by
  unfold joined at h ⊢
  obtain ⟨call, hcall, hjoined⟩ := Option.bind_eq_some_iff.mp h
  rw [getElem?_append_of_some hcall, Option.bind_some, hjoined]

theorem authenticateReadOnly_tied (h : Tied config sha256Hex s) (rawToken : String) :
    Tied config sha256Hex (s.authenticateReadOnly rawToken) := by
  have hnew : ∀ next : ReadOnlyCall, next.joined = none → Justified config sha256Hex s next →
      Tied config sha256Hex { s with calls := s.calls ++ [next] } := by
    intro next hnone hjustified
    refine ⟨fun tokenHash group hgroup => ?_, fun l leader hleader i hi =>
      joined_append (h.taken l leader hleader i hi) next, fun call hmem => ?_, fun call hmem => ?_⟩
    · obtain ⟨l, leader, hleader, hleads, hall⟩ := h.grouped tokenHash group hgroup
      exact ⟨l, leader, hleader, hleads, fun i hi => joined_append (hall i hi) next⟩
    · rcases List.mem_append.mp hmem with hold | hlast
      · exact h.alone call hold
      · rw [List.mem_singleton.mp hlast]
        exact fun _ _ => hnone
    · refine @Justified.kept _ _ s _ _ ?_ (keeps_of_leaders rfl)
      rcases List.mem_append.mp hmem with hold | hlast
      · exact h.justified call hold
      · rw [List.mem_singleton.mp hlast]
        exact hjustified
  unfold authenticateReadOnly
  split_ifs with hmalformed
  · refine hnew _ rfl ⟨fun _ => ⟨rfl, rfl, rfl, rfl⟩, fun hformed => ?_⟩
    exact absurd hmalformed (by rw [show malformed rawToken = false from hformed]; simp)
  · refine hnew _ rfl ⟨fun hagain => absurd hagain hmalformed, fun _ _ hnone => ?_⟩
    exact absurd hnone List.not_mem_nil

theorem cacheAnswered_tied {i : ℕ} {result : SessionCacheResult} {now : Instant}
    (hs : Sound sha256Hex s) (h : Tied config sha256Hex s)
    (hstep : s.cacheAnswered config sha256Hex i result now = some s') :
    Tied config sha256Hex s' := by
  unfold cacheAnswered at hstep
  split at hstep
  case h_2 => cases hstep
  rename_i rawToken answer joined completions hcall
  have hmem := List.mem_of_getElem? hcall
  obtain rfl : completions = [] := hs.uncompleted hmem (by simp)
  obtain rfl : joined = none := h.alone _ hmem (by simp) (by simp)
  have hformed : malformed rawToken = false := (h.justified _ hmem).formed (by simp)
  have hmissed : Tied config sha256Hex
      (s.setCall i ⟨rawToken, .missed, some (result, now), none, []⟩) := by
    refine h.callMoved hcall rfl (fun _ _ => rfl) (justified_of_formed hformed fun _ hnone => ?_)
    exact absurd hnone List.not_mem_nil
  cases result with
  | hit record =>
      simp only at hstep
      split_ifs at hstep with htrusted <;> cases hstep
      · refine h.callMoved hcall rfl (fun _ hopen => absurd rfl hopen)
          (justified_of_formed hformed fun completion hcompletion => ?_)
        rw [List.nil_append, List.mem_singleton] at hcompletion
        rw [hcompletion]
        exact .fresh rfl rfl htrusted
      · exact hmissed
  | miss =>
      cases hstep
      exact hmissed
  | unavailable =>
      cases hstep
      exact hmissed

theorem reject_tied {i : ℕ} (hs : Sound sha256Hex s) (h : Tied config sha256Hex s)
    (hstep : s.reject sha256Hex i = some s') : Tied config sha256Hex s' := by
  unfold reject at hstep
  split at hstep
  case h_2 => cases hstep
  rename_i call hcall
  split_ifs at hstep with hphase
  cases hstep
  rw [ne_eq, not_not] at hphase
  have hmem := List.mem_of_getElem? hcall
  have hnone : call.completions = [] := hs.uncompleted hmem (by simp [hphase])
  have halone : call.joined = none := h.alone _ hmem (by simp [hphase]) (by simp [hphase])
  have hformed := (h.justified _ hmem).formed (by simp [hphase])
  refine h.callMoved hcall rfl (fun _ hopen => absurd rfl hopen)
    (justified_of_formed hformed fun completion hcompletion => ?_)
  rw [hnone, List.nil_append, List.mem_singleton] at hcompletion
  rw [hcompletion]
  exact .rejected halone

/-- A call joins a group that a leader works for. -/
theorem Tied.joins {i l : ℕ} {call : ReadOnlyCall} {tokenHash : String} {group : List ℕ}
    {extra : List Leader} {leader : Leader} (hs : Sound sha256Hex s) (h : Tied config sha256Hex s)
    (hcall : s.calls[i]? = some call) (hphase : call.phase = .missed)
    (hleader : (s.leaders ++ extra)[l]? = some leader) (hleads : leads tokenHash leader = true)
    (hgroup : ∀ j ∈ group, s.joined j = some l)
    (hextra : ∀ other ∈ extra, other.phase.callbacks = []) :
    Tied config sha256Hex
      { s.setCall i { call with phase := .waiting, joined := some l } with
        pending := s.pending.set tokenHash (group ++ [i])
        leaders := s.leaders ++ extra } := by
  have hmem := List.mem_of_getElem? hcall
  have hfree : s.joined i = none :=
    (joined_eq hcall).trans (h.alone _ hmem (by simp [hphase]) (by simp [hphase]))
  have hothers : ∀ j m, s.joined j = some m → joined
      { s.setCall i { call with phase := .waiting, joined := some l } with
        pending := s.pending.set tokenHash (group ++ [i])
        leaders := s.leaders ++ extra } j = some m := by
    intro j m hj
    have hne : j ≠ i := by
      rintro rfl
      rw [hfree] at hj
      cases hj
    unfold joined setCall at *
    simp only
    rw [getElem?_set_of_ne hne]
    exact hj
  have hnone : call.completions = [] := hs.uncompleted hmem (by simp [hphase])
  have hformed := (h.justified _ hmem).formed (by simp [hphase])
  refine ⟨fun other members hfind => ?_, fun m other hother j hj => ?_, fun other hother => ?_,
    fun other hother => ?_⟩
  · simp only [Table.find_set] at hfind
    split_ifs at hfind with hsame
    · cases hfind
      refine ⟨l, leader, hleader, by rw [hsame]; exact hleads, fun j hj => ?_⟩
      rcases List.mem_append.mp hj with hold | hnew
      · exact hothers j l (hgroup j hold)
      · rw [List.mem_singleton.mp hnew]
        unfold joined setCall
        simp only
        rw [getElem?_set_self hcall]
        rfl
    · obtain ⟨m, found, hfound, hfoundLeads, hall⟩ := h.grouped other members hfind
      refine ⟨m, found, ?_, hfoundLeads, fun j hj => hothers j m (hall j hj)⟩
      rw [List.getElem?_append_left (List.getElem?_eq_some_iff.mp hfound).1]
      exact hfound
  · simp only at hother
    rw [List.getElem?_append] at hother
    split_ifs at hother
    · exact hothers j m (h.taken m other hother j hj)
    · rw [hextra other (List.mem_of_getElem? hother)] at hj
      exact absurd hj List.not_mem_nil
  · rcases List.mem_or_eq_of_mem_set hother with hold | rfl
    · exact h.alone other hold
    · exact fun hopen => absurd rfl hopen
  · rcases List.mem_or_eq_of_mem_set hother with hold | rfl
    · exact (h.justified other hold).kept (keeps_append rfl)
    · refine justified_of_formed hformed fun completion hcompletion => ?_
      rw [show call.completions = [] from hnone] at hcompletion
      exact absurd hcompletion List.not_mem_nil

theorem enter_tied {i : ℕ} (hs : Sound sha256Hex s) (h : Tied config sha256Hex s)
    (hstep : s.enter sha256Hex i = some s') : Tied config sha256Hex s' := by
  unfold enter at hstep
  split at hstep
  case h_2 => cases hstep
  rename_i call hcall
  by_cases hphase : call.phase = .missed
  case neg =>
    rw [if_pos hphase] at hstep
    cases hstep
  rw [if_neg (not_not.mpr hphase)] at hstep
  have hmem := List.mem_of_getElem? hcall
  have halone : call.joined = none := h.alone _ hmem (by simp [hphase]) (by simp [hphase])
  have hrejected : Tied config sha256Hex (s.setCall i { call with phase := .rejected }) := by
    have hformed := (h.justified _ hmem).formed (by simp [hphase])
    have hnone : call.completions = [] := hs.uncompleted hmem (by simp [hphase])
    refine h.callMoved hcall rfl (fun _ _ => halone)
      (justified_of_formed hformed fun completion hcompletion => ?_)
    rw [show call.completions = [] from hnone] at hcompletion
    exact absurd hcompletion List.not_mem_nil
  simp only at hstep
  split at hstep
  · rename_i group hgroup
    split_ifs at hstep with hlength <;> cases hstep
    · exact hrejected
    · obtain ⟨l, leader, hleader, hleads, hall⟩ := h.grouped _ group hgroup
      have hled := hs.led (sha256Hex call.rawToken)
      have hfound := findIdx?_of_countP (hled.trans_le (by split_ifs <;> omega)) hleader hleads
      rw [hfound]
      have hjoined := @Tied.joins config sha256Hex s i l call _ group [] leader hs h hcall hphase
        (by rw [List.append_nil]; exact hleader) hleads hall (by simp)
      rw [List.append_nil] at hjoined
      exact hjoined
  · rename_i hgroup
    split_ifs at hstep with hlength <;> cases hstep
    · exact hrejected
    · refine @Tied.joins config sha256Hex s i s.leaders.length call _ []
        [⟨sha256Hex call.rawToken, .acquiring⟩] ⟨sha256Hex call.rawToken, .acquiring⟩ hs h hcall
        hphase ?_ ?_ (by simp) ?_
      · simp
      · simp [leads, LeaderPhase.undrained]
      · simp [LeaderPhase.callbacks]

/-- A leader goes on before it takes its group out of the map. -/
theorem Tied.leaderMoved {l : ℕ} {leader : Leader} {phase : LeaderPhase}
    (h : Tied config sha256Hex s) (hleader : s.leaders[l]? = some leader)
    (hbefore : leader.phase.undrained = true) (hafter : phase.undrained = true)
    (hresult : leader.phase.result = none) :
    Tied config sha256Hex (s.setLeader l leader phase) := by
  have hkeeps : Keeps s (s.setLeader l leader phase) := by
    refine keeps_setLeader hleader (fun result hold => ?_) rfl
    rw [hresult] at hold
    cases hold
  refine ⟨fun tokenHash group hgroup => ?_, fun j other hother i hi => ?_, h.alone,
    fun call hmem => (h.justified call hmem).kept hkeeps⟩
  · obtain ⟨j, found, hfound, hleads, hall⟩ := h.grouped tokenHash group hgroup
    by_cases hj : j = l
    · subst hj
      rw [hleader] at hfound
      obtain rfl := Option.some.inj hfound
      refine ⟨j, { leader with phase := phase }, getElem?_set_self hleader _, ?_, hall⟩
      rw [leads, hbefore] at hleads
      rw [leads, hafter]
      exact hleads
    · exact ⟨j, found, (getElem?_set_of_ne hj _).trans hfound, hleads, hall⟩
  · rcases getElem?_set_cases hother with ⟨-, rfl⟩ | ⟨-, hold⟩
    · rw [callbacks_of_undrained hafter] at hi
      exact absurd hi List.not_mem_nil
    · exact h.taken j other hold i hi

theorem acquire_tied {l : ℕ} {permit : Bool} (h : Tied config sha256Hex s)
    (hstep : s.acquire l permit = some s') : Tied config sha256Hex s' := by
  unfold acquire at hstep
  split at hstep
  case h_2 => cases hstep
  rename_i leader hleader
  split_ifs at hstep with hphase <;> cases hstep <;> rw [ne_eq, not_not] at hphase <;>
    exact h.leaderMoved hleader (by rw [hphase]; rfl) rfl (by rw [hphase]; rfl)

theorem answered_tied {l : ℕ} {reply : LookupReply} {now : Instant}
    (h : Tied config sha256Hex s) (hstep : s.answered config l reply now = some s') :
    Tied config sha256Hex s' := by
  unfold answered at hstep
  split at hstep
  case h_2 => cases hstep
  rename_i tokenHash lookup hleader
  obtain ⟨next, hnext, rfl⟩ := Option.map_eq_some_iff.mp hstep
  refine h.leaderMoved hleader rfl rfl ?_
  cases lookup with
  | ended result => cases hnext
  | _ => rfl

/-- The leader that takes a group out of the map is the one that its calls have joined. -/
theorem drain_tied {l : ℕ} (hs : Sound sha256Hex s) (h : Tied config sha256Hex s)
    (hstep : s.drain l = some s') : Tied config sha256Hex s' := by
  unfold drain at hstep
  split at hstep
  case h_2 => cases hstep
  rename_i leader hleader
  split at hstep
  case h_2 => cases hstep
  rename_i result group hundrained hresult hgroup
  cases hstep
  have hkeeps : Keeps s { s.setLeader l leader (.calling result group) with
      pending := s.pending.erase leader.tokenHash } := by
    refine keeps_setLeader hleader (fun other hother => ?_) rfl
    rw [hresult] at hother
    exact hother
  have hleads : leads leader.tokenHash leader = true := by
    rw [leads, hundrained, decide_eq_true rfl]
    rfl
  refine ⟨fun tokenHash members hfind => ?_, fun j other hother i hi => ?_, h.alone,
    fun call hmem => (h.justified call hmem).kept hkeeps⟩
  · simp only [Table.find_erase] at hfind
    split_ifs at hfind with hother
    obtain ⟨j, found, hfound, hfoundLeads, hall⟩ := h.grouped tokenHash members hfind
    have hj : j ≠ l := by
      rintro rfl
      rw [hleader] at hfound
      obtain rfl := Option.some.inj hfound
      rw [leads, Bool.and_eq_true_iff, decide_eq_true_iff] at hfoundLeads
      exact hother hfoundLeads.1.symm
    exact ⟨j, found, (getElem?_set_of_ne hj _).trans hfound, hfoundLeads, hall⟩
  · rcases getElem?_set_cases hother with ⟨rfl, rfl⟩ | ⟨-, hold⟩
    · obtain ⟨m, found, hfound, hfoundLeads, hall⟩ := h.grouped _ group hgroup
      have hled := hs.led leader.tokenHash
      obtain rfl := eq_of_countP_le_one (hled.trans_le (by split_ifs <;> omega)) hfound hleader
        hfoundLeads hleads
      exact hall i hi
    · exact h.taken j other hold i hi

theorem callback_tied {l : ℕ} (hs : Sound sha256Hex s) (h : Tied config sha256Hex s)
    (hstep : s.callback l = some s') : Tied config sha256Hex s' := by
  unfold callback at hstep
  split at hstep
  case h_2 => cases hstep
  rename_i tokenHash result i callbacks hleader
  obtain ⟨call, hcall, rfl⟩ := Option.map_eq_some_iff.mp hstep
  have hmem := List.mem_of_getElem? hcall
  have hwaits := hs.waits hleader hcall List.mem_cons_self
  have htoken : tokenHash = sha256Hex call.rawToken := by
    have htaken := hs.taken _ (List.mem_of_getElem? hleader) i List.mem_cons_self
    rw [token_eq_some hcall] at htaken
    exact (Option.some.inj htaken).symm
  have hjoined : call.joined = some l :=
    (joined_eq hcall).symm.trans (h.taken l _ hleader i List.mem_cons_self)
  have hnone : call.completions = [] := hs.uncompleted hmem (by simp [hwaits])
  have hformed := (h.justified _ hmem).formed (by simp [hwaits])
  have hkeeps : Keeps s ((s.complete i call result tokenHash).setLeader l
      ⟨tokenHash, .calling result (i :: callbacks)⟩ (.calling result callbacks)) :=
    @keeps_setLeader s _ l _ (.calling result callbacks) hleader (fun _ hsame => hsame) rfl
  have hsame : ∀ j, joined ((s.complete i call result tokenHash).setLeader l
      ⟨tokenHash, .calling result (i :: callbacks)⟩ (.calling result callbacks)) j = s.joined j :=
    @joined_setCall s i call hcall { call with
      phase := .completed
      completions := call.completions ++ [(result, tokenHash)] } rfl
  refine ⟨fun hash members hfind => ?_, fun j other hother k hk => ?_, fun other hother => ?_,
    fun other hother => ?_⟩
  · obtain ⟨j, found, hfound, hleads, hall⟩ := h.grouped hash members hfind
    have hj : j ≠ l := by
      rintro rfl
      rw [hleader] at hfound
      obtain rfl := Option.some.inj hfound
      rw [leads, LeaderPhase.undrained, Bool.and_false] at hleads
      cases hleads
    exact ⟨j, found, (getElem?_set_of_ne hj _).trans hfound, hleads,
      fun k hk => (hsame k).trans (hall k hk)⟩
  · rw [hsame]
    rcases getElem?_set_cases hother with ⟨rfl, rfl⟩ | ⟨-, hold⟩
    · exact h.taken j _ hleader k (List.mem_cons_of_mem i hk)
    · exact h.taken j other hold k hk
  · rcases List.mem_or_eq_of_mem_set hother with hold | rfl
    · exact h.alone other hold
    · exact fun _ hopen => absurd rfl hopen
  · rcases List.mem_or_eq_of_mem_set hother with hold | rfl
    · exact (h.justified other hold).kept hkeeps
    · refine justified_of_formed hformed fun completion hcompletion => ?_
      rw [hnone, List.nil_append, List.mem_singleton] at hcompletion
      rw [hcompletion]
      subst htoken
      exact .led hjoined (getElem?_set_self hleader _) rfl rfl

theorem Tied.stepped {event : ReadOnlyEvent} (hs : Sound sha256Hex s) (h : Tied config sha256Hex s)
    (hstep : step config sha256Hex s event = some s') : Tied config sha256Hex s' := by
  cases event with
  | authenticateReadOnly rawToken =>
      cases hstep
      exact authenticateReadOnly_tied h rawToken
  | cacheAnswered call result now => exact cacheAnswered_tied hs h hstep
  | enter call => exact enter_tied hs h hstep
  | reject call => exact reject_tied hs h hstep
  | acquire leader permit => exact acquire_tied h hstep
  | answered leader reply now => exact answered_tied h hstep
  | drain leader => exact drain_tied hs h hstep
  | callback leader => exact callback_tied hs h hstep

theorem run_tied {events : List ReadOnlyEvent}
    (hrun : run (step config sha256Hex) events {} = some s) :
    Sound sha256Hex s ∧ Tied config sha256Hex s :=
  run_invariant (I := fun s => Sound sha256Hex s ∧ Tied config sha256Hex s)
    (fun _ _ _ hs hstep => ⟨hs.1.stepped hstep, hs.2.stepped hs.1 hstep⟩) ⟨init_sound, init_tied⟩
    hrun

end Invariant

end ReadOnlyAuth
end Ticketing
