import Ticketing.SingleFlightResults

/-!
# Every call of a single flight finishes

A flight finishes the call that started it, and only then do the calls that wait run again; each
of them runs again at most once for every flight that is started meanwhile.
-/

namespace Ticketing

open Threads

def FlightPhase.weight : FlightPhase → ℕ
  | .launching => 5
  | .subscribing _ => 3
  | .loading _ => 2
  | .following _ _ => 1
  | .settled _ => 0

def RunCall.unfinished (call : RunCall) : Bool := call.phase.awaited.isSome

/-- The call waits for a flight that is not pending any more. -/
def RunCall.released (pending : Option ℕ) (call : RunCall) : Bool :=
  match call.phase with
  | .waiting f => decide (pending ≠ some f)
  | _ => false

def Load.running (load : Load) : Bool := load.result.isNone

/-- A microtask, or a load that settles. -/
def FlightEvent.internal : FlightEvent → Bool
  | .tick _ => true
  | .settle _ _ => true
  | _ => false

namespace SingleFlight

/-- What the calls still have before them: a call that finishes may release all that are left. -/
def work (calls : List RunCall) (pending : Option ℕ) : ℕ :=
  3 * calls.countP RunCall.unfinished * (calls.countP RunCall.unfinished + 1) +
    6 * calls.countP (RunCall.released pending)

def remaining (s : SingleFlight) : ℕ :=
  work s.calls s.pending + (s.flights.map fun flight => flight.phase.weight).sum +
    s.loads.countP Load.running

/-- When no further call comes, the microtasks and the loads that settle are bounded, and when
none is left every call has finished. -/
def Settles (s : SingleFlight) : Prop :=
  ∀ later t, (∀ event ∈ later, ∀ key current, event ≠ .run key current) →
    Threads.run step later s = some t →
      (later.countP fun event => decide (event.internal = true)) ≤ s.remaining ∧
        (Quiet step (fun event => event.internal = true) t →
          ∀ call ∈ t.calls, ∃ result current, call.phase = .finished result current)

section Progress

variable {s s' : SingleFlight}

theorem released_le_unfinished (calls : List RunCall) (pending : Option ℕ) :
    calls.countP (RunCall.released pending) ≤ calls.countP RunCall.unfinished := by
  apply List.countP_mono_left
  intro call _ hreleased
  unfold RunCall.released at hreleased
  unfold RunCall.unfinished
  cases hphase : call.phase with
  | finished result current =>
      rw [hphase] at hreleased
      cases hreleased
  | _ => rfl

theorem work_finish {calls : List RunCall} {i : ℕ} {call next : RunCall}
    (hcall : calls[i]? = some call) (hunfinished : call.unfinished = true)
    (hnext : next.unfinished = false) (pending pending' : Option ℕ) :
    work (calls.set i next) pending' < work calls pending := by
  have hcount := countP_set RunCall.unfinished hcall next
  rw [if_pos hunfinished, hnext] at hcount
  have hreleased := released_le_unfinished (calls.set i next) pending'
  simp only [Bool.false_eq_true, if_false, Nat.add_zero] at hcount
  unfold work
  rw [← hcount]
  generalize (calls.set i next).countP RunCall.unfinished = left at hreleased ⊢
  have hsquare : 3 * (left + 1) * (left + 1 + 1) = 3 * left * (left + 1) + 6 * left + 6 := by ring
  omega

theorem work_stale {calls : List RunCall} {i : ℕ} {call next : RunCall}
    (hcall : calls[i]? = some call) (hphase : next.phase = call.phase) (pending : Option ℕ) :
    work (calls.set i next) pending = work calls pending := by
  have hunfinished := countP_set RunCall.unfinished hcall next
  have hreleased := countP_set (RunCall.released pending) hcall next
  have hsame : next.unfinished = call.unfinished := by
    unfold RunCall.unfinished
    rw [hphase]
  have hsameReleased : next.released pending = call.released pending := by
    unfold RunCall.released
    rw [hphase]
  rw [hsame] at hunfinished
  rw [hsameReleased] at hreleased
  unfold work
  rw [Nat.add_right_cancel hunfinished, Nat.add_right_cancel hreleased]

/-- A call that was released is so no more. -/
theorem work_move {calls : List RunCall} {i : ℕ} {call next : RunCall} {pending pending' : Option ℕ}
    (hcall : calls[i]? = some call) (hunfinished : call.unfinished = true)
    (hnext : next.unfinished = true) (hreleased : call.released pending = true)
    (hheld : next.released pending' = false)
    (hothers : ∀ other ∈ calls, other.released pending' = other.released pending) :
    work (calls.set i next) pending' + 6 = work calls pending := by
  have hcount := countP_set RunCall.unfinished hcall next
  rw [if_pos hunfinished, if_pos hnext] at hcount
  have hcountReleased := countP_set (RunCall.released pending') hcall next
  have hsame : calls.countP (RunCall.released pending') = calls.countP (RunCall.released pending) :=
    List.countP_congr fun other hmem => by rw [hothers other hmem]
  rw [hothers call (List.mem_of_getElem? hcall), if_pos hreleased, hheld, hsame] at hcountReleased
  simp only [Bool.false_eq_true, if_false, Nat.add_zero] at hcountReleased
  unfold work
  rw [Nat.add_right_cancel hcount]
  omega

theorem Sound.awaits_lt {i f : ℕ} {call : RunCall} (h : Sound s)
    (hcall : s.calls[i]? = some call) (hawaited : call.phase.awaited = some f) :
    f < s.flights.length := by
  have hawaits : awaits s.calls i = some f := (awaits_of_some hcall).trans hawaited
  have hheld := h.held i
  rw [hawaits, Option.isSome_some, if_pos rfl, SingleFlight.held] at hheld
  by_cases hresume : .resume i ∈ s.microtasks
  · obtain ⟨g, flight, hsome, hflight, -⟩ := h.resumes i hresume
    rw [hawaits, Option.some.injEq] at hsome
    rw [hsome]
    exact (List.getElem?_eq_some_iff.mp hflight).1
  · rw [List.count_eq_zero.mpr hresume, Nat.zero_add] at hheld
    have hne : (s.flights.map fun flight => flight.reactions.count i).sum ≠ 0 := by omega
    rw [ne_eq, List.sum_eq_zero_iff] at hne
    push Not at hne
    obtain ⟨count, hcount, hpos⟩ := hne
    obtain ⟨flight, hmem, rfl⟩ := List.mem_map.mp hcount
    obtain ⟨g, hflight⟩ := List.mem_iff_getElem?.mp hmem
    have hreact : i ∈ flight.reactions :=
      List.count_pos_iff.mp (Nat.pos_of_ne_zero hpos)
    have hsome := (h.reacts g flight hflight i hreact).2
    rw [hawaits, Option.some.injEq] at hsome
    rw [hsome]
    exact (List.getElem?_eq_some_iff.mp hflight).1

/-- When a call that waited goes on, the flight it waited for is not pending any more. -/
theorem Sound.head_waiting {i f : ℕ} {call : RunCall} {rest : List Microtask} (h : Sound s)
    (hqueue : s.microtasks = .resume i :: rest) (hcall : s.calls[i]? = some call)
    (hphase : call.phase = .waiting f) : s.pending ≠ some f := by
  intro hpending
  obtain ⟨⟨g, flight, hawaited, hflight, hsettled⟩, -, -⟩ := h.resumed hqueue hcall
  rw [hphase] at hawaited
  cases hawaited
  obtain ⟨before, after, hsplit, hbefore⟩ := h.firstResume f flight hpending hflight hsettled
  rw [hqueue] at hsplit
  cases before with
  | nil =>
      rw [List.nil_append, List.cons.injEq, Microtask.resume.injEq] at hsplit
      obtain ⟨j, starter, hstarter, hstarts⟩ := h.led f hpending
      obtain ⟨-, lead, hlead, hsame, -⟩ := h.leads j starter f hstarter hstarts
      rw [hflight] at hlead
      cases hlead
      rw [← hsame, ← hsplit.1, hcall] at hstarter
      cases hstarter
      rw [hphase] at hstarts
      cases hstarts
  | cons first before =>
      rw [List.cons_append, List.cons.injEq] at hsplit
      have hnot := hbefore i (by rw [hsplit.1]; exact List.mem_cons_self)
      rw [awaits_of_some hcall, hphase] at hnot
      exact hnot rfl

/-- The pending flight comes nearer to its end by more than the loads that are new. -/
theorem remaining_flight {f : ℕ} {flight next : Flight} {loads : List Load}
    {rest : List Microtask} (hflight : s.flights[f]? = some flight)
    (hless : next.phase.weight + loads.countP Load.running <
      flight.phase.weight + s.loads.countP Load.running) :
    remaining { s with
      flights := s.flights.set f next, loads := loads, microtasks := rest } < s.remaining := by
  have hsum := sum_map_set (fun flight : Flight => flight.phase.weight) hflight next
  unfold remaining
  simp only
  omega

theorem remaining_settle {l : ℕ} {result : LoadResult} (hstep : s.settle l result = some s') :
    s'.remaining < s.remaining := by
  simp only [settle] at hstep
  split at hstep
  case h_2 => cases hstep
  rename_i key f hload
  have hcount := countP_set Load.running hload ⟨key, f, some result⟩
  simp only [Load.running, Option.isNone_none, Option.isNone_some, Bool.false_eq_true, if_true,
    if_false, Nat.add_zero] at hcount
  split at hstep
  case h_2 => cases hstep
  rename_i flight hflight
  split_ifs at hstep with hloading <;> cases hstep
  · refine remaining_flight hflight ?_
    simp only [hloading, FlightPhase.weight, setFlight]
    omega
  · unfold remaining
    simp only
    omega

theorem remaining_launch {f : ℕ} {throws : Bool} {rest : List Microtask}
    (hstep : launch { s with microtasks := rest } f throws = some s') :
    s'.remaining < s.remaining := by
  obtain ⟨flight, hflight, hstep⟩ := Option.bind_eq_some_iff.mp hstep
  obtain ⟨starter, hstarter, hstep⟩ := Option.bind_eq_some_iff.mp hstep
  by_cases hphase : flight.phase = .launching
  case neg =>
    rw [if_pos hphase] at hstep
    cases hstep
  rw [if_neg (not_not.mpr hphase)] at hstep
  split_ifs at hstep <;> cases hstep
  · refine @remaining_flight s f flight _ s.loads _ hflight ?_
    simp only [hphase, FlightPhase.weight]
    omega
  · refine remaining_flight hflight ?_
    simp only [hphase, FlightPhase.weight, addLoad, List.countP_append, List.countP_singleton,
      Load.running, Option.isNone_some]
    simp only [Bool.false_eq_true, if_false]
    omega
  · refine remaining_flight hflight ?_
    simp only [hphase, FlightPhase.weight, setFlight, addLoad, List.countP_append,
      List.countP_singleton, Load.running, Option.isNone_none, if_true]
    omega

theorem remaining_subscribe {f : ℕ} {rest : List Microtask}
    (hstep : subscribe { s with microtasks := rest } f = some s') :
    s'.remaining < s.remaining := by
  unfold subscribe at hstep
  split at hstep
  case h_2 => cases hstep
  rename_i flight hflight
  split at hstep
  case h_2 => cases hstep
  rename_i l hphase
  split at hstep <;> cases hstep
  · refine @remaining_flight s f flight _ s.loads _ hflight ?_
    simp only [hphase, FlightPhase.weight]
    omega
  · refine @remaining_flight s f flight _ s.loads _ hflight ?_
    simp only [hphase, FlightPhase.weight]
    omega

theorem remaining_follow {f : ℕ} {rest : List Microtask}
    (hstep : follow { s with microtasks := rest } f = some s') : s'.remaining < s.remaining := by
  unfold follow at hstep
  split at hstep
  case h_2 => cases hstep
  rename_i flight hflight
  split at hstep <;> cases hstep
  rename_i l result hphase
  refine @remaining_flight s f flight _ s.loads _ hflight ?_
  simp only [hphase, FlightPhase.weight]
  omega

/-- A call that runs again starts a flight, or awaits the one that is pending. -/
theorem remaining_entered {i f : ℕ} {call : RunCall} {rest : List Microtask}
    {entered : RunPhase × SingleFlight} (h : Sound s)
    (hqueue : s.microtasks = .resume i :: rest) (hcall : s.calls[i]? = some call)
    (hphase : call.phase = .waiting f)
    (henter : enter { s with microtasks := rest } i call.key = some entered) :
    (entered.2.setCall i call entered.1).remaining < s.remaining := by
  have hnotPending := h.head_waiting hqueue hcall hphase
  have hunfinished : call.unfinished = true := by
    rw [RunCall.unfinished, hphase]
    rfl
  have hreleased : call.released s.pending = true := by
    rw [RunCall.released, hphase]
    exact decide_eq_true hnotPending
  obtain ⟨hawaited, hcalls, hloads⟩ := enter_awaited henter
  have hmoved : ∀ pending', entered.2.pending = pending' →
      RunCall.released pending' { call with phase := entered.1 } = false →
      (∀ other ∈ s.calls, other.released pending' = other.released s.pending) →
      work (entered.2.setCall i call entered.1).calls entered.2.pending + 6 =
        work s.calls s.pending := by
    intro pending' hpending' hheld hothers
    rw [hpending', setCall, hcalls]
    exact work_move hcall hunfinished hawaited hreleased hheld hothers
  unfold enter at henter
  cases hpending : s.pending with
  | none =>
      simp only [hpending] at henter
      cases henter
      have hwork := hmoved (some s.flights.length) rfl rfl fun other hmem => by
        obtain ⟨j, hother⟩ := List.mem_iff_getElem?.mp hmem
        unfold RunCall.released
        cases hotherPhase : other.phase with
        | waiting g =>
            have hlt := h.awaits_lt hother (by rw [hotherPhase]; rfl)
            simp only [hpending, decide_eq_decide]
            simp only [ne_eq, Option.some.injEq, reduceCtorEq, not_false_eq_true, iff_true]
            omega
        | _ => rfl
      unfold remaining
      simp only [setCall, List.map_append, List.sum_append, List.map_cons, List.map_nil,
        List.sum_singleton, FlightPhase.weight] at hwork ⊢
      omega
  | some g =>
      simp only [hpending] at henter
      obtain ⟨flight, hflight, rfl⟩ := Option.map_eq_some_iff.mp henter
      have hheld : RunCall.released (some g)
          { call with phase := if flight.key = call.key then .joined g else .waiting g } =
            false := by
        unfold RunCall.released
        split_ifs <;> simp
      cases hunsettled : flight.phase.unsettled with
      | true =>
          simp only [await_unsettled hunsettled] at hmoved ⊢
          have hwork := hmoved (some g) rfl hheld fun _ _ => by rw [hpending]
          have hsum := sum_map_set (fun flight : Flight => flight.phase.weight)
            (show s.flights[g]? = some flight from hflight)
            { flight with reactions := flight.reactions ++ [i] }
          unfold remaining
          simp only [setCall] at hsum hwork ⊢
          omega
      | false =>
          simp only [await_settled hunsettled] at hmoved ⊢
          have hwork := hmoved (some g) rfl hheld fun _ _ => by rw [hpending]
          unfold remaining
          simp only [setCall, enqueue] at hwork ⊢
          omega

theorem remaining_resume {i : ℕ} {rest : List Microtask} (h : Sound s)
    (hqueue : s.microtasks = .resume i :: rest)
    (hstep : resume { s with microtasks := rest } i = some s') : s'.remaining < s.remaining := by
  obtain ⟨call, hcall, hstep⟩ := Option.bind_eq_some_iff.mp hstep
  have hfinish : ∀ result current pending', call.unfinished = true →
      work (s.calls.set i { call with phase := .finished result current }) pending' <
        work s.calls s.pending :=
    fun result current pending' hunfinished =>
      work_finish hcall hunfinished rfl s.pending pending'
  cases hphase : call.phase with
  | starting f =>
      rw [hphase] at hstep
      obtain ⟨outcome, -, rfl⟩ := Option.map_eq_some_iff.mp hstep
      have hwork := hfinish (returned call.current outcome) call.current
        (if s.pending = some f then none else s.pending)
        (by rw [RunCall.unfinished, hphase]; rfl)
      unfold remaining
      simp only [finish, setCall]
      omega
  | joined f =>
      rw [hphase] at hstep
      obtain ⟨outcome, -, rfl⟩ := Option.map_eq_some_iff.mp hstep
      have hwork := hfinish (returned call.current outcome) call.current s.pending
        (by rw [RunCall.unfinished, hphase]; rfl)
      unfold remaining
      simp only [finish, setCall]
      omega
  | waiting f =>
      rw [hphase] at hstep
      simp only at hstep
      split_ifs at hstep
      · obtain ⟨entered, henter, rfl⟩ := Option.map_eq_some_iff.mp hstep
        exact remaining_entered h hqueue hcall hphase henter
      · cases hstep
        have hwork := hfinish .undefined call.current s.pending
          (by rw [RunCall.unfinished, hphase]; rfl)
        unfold remaining
        simp only [finish, setCall]
        omega
  | finished result current =>
      rw [hphase] at hstep
      cases hstep

theorem remaining_lt {event : FlightEvent} (h : Sound s) (hinternal : event.internal = true)
    (hstep : s.step event = some s') : s'.remaining < s.remaining := by
  cases event with
  | run key current => cases hinternal
  | stale i => cases hinternal
  | settle l result => exact remaining_settle hstep
  | tick throws =>
      simp only [step, tick] at hstep
      cases hqueue : s.microtasks with
      | nil =>
          rw [hqueue] at hstep
          cases hstep
      | cons task rest =>
          rw [hqueue] at hstep
          cases task with
          | launch f => exact remaining_launch hstep
          | subscribe f => exact remaining_subscribe hstep
          | follow f => exact remaining_follow hstep
          | resume i => exact remaining_resume h hqueue hstep

theorem remaining_le {event : FlightEvent} (h : Sound s)
    (hevent : ∀ key current, event ≠ .run key current) (hstep : s.step event = some s') :
    s'.remaining ≤ s.remaining := by
  cases event with
  | run key current => exact absurd rfl (hevent key current)
  | stale i =>
      obtain ⟨call, hcall, rfl⟩ := Option.map_eq_some_iff.mp hstep
      have hwork := @work_stale s.calls i call { call with current := false } hcall rfl s.pending
      unfold remaining
      simp only
      omega
  | settle l result => exact (remaining_lt h rfl hstep).le
  | tick throws => exact (remaining_lt h rfl hstep).le

/-- The first microtask can always run. -/
theorem Sound.tick_some {task : Microtask} {rest : List Microtask} (h : Sound s)
    (hqueue : s.microtasks = task :: rest) : ∃ s', s.tick false = some s' := by
  have hdue : task.ofFlight = true → ∃ f flight, s.pending = some f ∧
      s.flights[f]? = some flight ∧ task ∈ flight.phase.tasks f := by
    intro hof
    have hmem : task ∈ s.due := by
      rw [← h.tasks, List.mem_filter, hqueue]
      exact ⟨List.mem_cons_self, hof⟩
    unfold due at hmem
    cases hpending : s.pending with
    | none =>
        rw [hpending] at hmem
        exact absurd hmem List.not_mem_nil
    | some f =>
        simp only [hpending] at hmem
        cases hflight : s.flights[f]? with
        | none =>
            rw [hflight] at hmem
            exact absurd hmem List.not_mem_nil
        | some flight =>
            rw [hflight] at hmem
            exact ⟨f, flight, rfl, hflight, hmem⟩
  unfold tick
  rw [hqueue]
  cases task with
  | launch f =>
      obtain ⟨g, flight, hpending, hflight, hmem⟩ := hdue rfl
      obtain ⟨i, starter, hstarter, hstarts⟩ := h.led g hpending
      obtain ⟨-, lead, hlead, hsame, -⟩ := h.leads i starter g hstarter hstarts
      rw [hflight] at hlead
      cases hlead
      cases hphase : flight.phase with
      | launching =>
          rw [hphase, FlightPhase.tasks, List.mem_singleton, Microtask.launch.injEq] at hmem
          subst hmem hsame
          simp only [launch, hflight, hstarter, hphase, Option.bind_eq_bind, Option.bind_some,
            ne_eq, not_true_eq_false, if_false]
          split_ifs <;> exact ⟨_, rfl⟩
      | _ =>
          rw [hphase] at hmem
          simp [FlightPhase.tasks] at hmem
  | subscribe f =>
      obtain ⟨g, flight, hpending, hflight, hmem⟩ := hdue rfl
      cases hphase : flight.phase with
      | subscribing l =>
          rw [hphase, FlightPhase.tasks, List.mem_singleton, Microtask.subscribe.injEq] at hmem
          subst hmem
          have hbacked := h.backed f flight hflight
          rw [hphase] at hbacked
          obtain ⟨result, hload⟩ := hbacked
          simp only [subscribe, hflight, hphase, hload]
          cases result <;> exact ⟨_, rfl⟩
      | _ =>
          rw [hphase] at hmem
          simp [FlightPhase.tasks] at hmem
  | follow f =>
      obtain ⟨g, flight, hpending, hflight, hmem⟩ := hdue rfl
      cases hphase : flight.phase with
      | following l result =>
          rw [hphase, FlightPhase.tasks, List.mem_singleton, Microtask.follow.injEq] at hmem
          subst hmem
          simp only [follow, hflight, hphase]
          exact ⟨_, rfl⟩
      | _ =>
          rw [hphase] at hmem
          simp [FlightPhase.tasks] at hmem
  | resume i =>
      obtain ⟨f, flight, hawaits, hflight, hsettled⟩ :=
        h.resumes i (by rw [hqueue]; exact List.mem_cons_self)
      obtain ⟨call, hcall, hawaited⟩ := Option.bind_eq_some_iff.mp hawaits
      have houtcome : ∃ outcome, s.outcome f = some outcome := by
        obtain ⟨key, starter, phase, reactions⟩ := flight
        cases phase with
        | settled outcome => exact ⟨outcome, by rw [SingleFlight.outcome, hflight]⟩
        | _ => cases hsettled
      obtain ⟨outcome, houtcome⟩ := houtcome
      have hsame : SingleFlight.outcome { s with microtasks := rest } f = some outcome := houtcome
      simp only [resume, hcall, Option.bind_eq_bind, Option.bind_some]
      cases hphase : call.phase with
      | starting g =>
          rw [hphase] at hawaited
          cases hawaited
          exact ⟨_, by simp only [hsame, Option.map_some]; rfl⟩
      | joined g =>
          rw [hphase] at hawaited
          cases hawaited
          exact ⟨_, by simp only [hsame, Option.map_some]; rfl⟩
      | waiting g =>
          simp only
          split_ifs with hcurrent
          · have henter : ∃ entered,
                enter { s with microtasks := rest } i call.key = some entered := by
              unfold enter
              cases hpending : s.pending with
              | none => exact ⟨_, rfl⟩
              | some k =>
                  obtain ⟨j, starter, hstarter, hstarts⟩ := h.led k hpending
                  obtain ⟨-, lead, hlead, -⟩ := h.leads j starter k hstarter hstarts
                  simp only [hlead, Option.map_some]
                  exact ⟨_, rfl⟩
            obtain ⟨entered, henter⟩ := henter
            exact ⟨_, by rw [henter]; rfl⟩
          · exact ⟨_, rfl⟩
      | finished result current =>
          rw [hphase] at hawaited
          cases hawaited

theorem Sound.all_finished (h : Sound s)
    (hquiet : Quiet step (fun event => event.internal = true) s) {call : RunCall}
    (hmem : call ∈ s.calls) : ∃ result current, call.phase = .finished result current := by
  have hempty : s.microtasks = [] := by
    cases hqueue : s.microtasks with
    | nil => rfl
    | cons task rest =>
        obtain ⟨s', hsome⟩ := h.tick_some hqueue
        have hstuck := hquiet (.tick false) rfl
        rw [show s.step (.tick false) = s.tick false from rfl, hsome] at hstuck
        cases hstuck
  have hsettled : ∀ (f : ℕ) (flight : Flight), s.flights[f]? = some flight →
      flight.phase.unsettled = false := by
    intro f flight hflight
    by_contra hopen
    have hunsettled : flight.phase.unsettled = true := by simpa using hopen
    have htasks := h.tasks
    unfold due at htasks
    simp only [h.single f flight hflight hunsettled, hflight, hempty, List.filter_nil] at htasks
    cases hphase : flight.phase with
    | loading l =>
        have hload := h.backed f flight hflight
        rw [hphase] at hload
        have hstuck := hquiet (.settle l .resolved) rfl
        simp only [step, settle, show s.loads[l]? = some ⟨flight.key, f, none⟩ from hload,
          hflight] at hstuck
        split_ifs at hstuck
    | settled outcome =>
        rw [hphase] at hunsettled
        cases hunsettled
    | _ =>
        rw [hphase] at htasks
        cases htasks
  obtain ⟨i, hcall⟩ := List.mem_iff_getElem?.mp hmem
  cases hphase : call.phase with
  | finished result current => exact ⟨result, current, rfl⟩
  | _ =>
      have hheld := h.held i
      rw [awaits_of_some hcall, hphase, SingleFlight.held, hempty, List.count_nil,
        Nat.zero_add] at hheld
      have hzero : (s.flights.map fun flight => flight.reactions.count i).sum = 0 := by
        rw [List.sum_eq_zero_iff]
        intro count hcount
        obtain ⟨flight, hflight, rfl⟩ := List.mem_map.mp hcount
        obtain ⟨f, hf⟩ := List.mem_iff_getElem?.mp hflight
        rw [List.count_eq_zero]
        intro hreacts
        have hunsettled := (h.reacts f flight hf i hreacts).1
        rw [hsettled f flight hf] at hunsettled
        cases hunsettled
      rw [hzero] at hheld
      cases hheld

theorem Sound.settles (h : Sound s) : Settles s := by
  intro later t hlater hrun
  have hstep : ∀ (s : SingleFlight) event t, Sound s → s.step event = some t → Sound t :=
    fun _ _ _ hs hstep => hs.stepped hstep
  have hsound : Sound t := run_invariant hstep h hrun
  have hcount := run_counted hstep
    (fun _ _ _ hs hinternal hnext => remaining_lt hs hinternal hnext)
    (fun _ _ _ hs hevent hnext => remaining_le hs hevent hnext) h hlater hrun
  exact ⟨(Nat.le_add_right _ _).trans hcount, fun hquiet call hmem =>
    hsound.all_finished hquiet hmem⟩

end Progress

/-- Loads never overlap and every call finishes. Every call that is current to its end is answered
by a load of its own key exactly if no such call goes on from a flight whose load was skipped. -/
theorem served_iff (events : List FlightEvent) (s : SingleFlight)
    (hrun : Threads.run step events {} = some s) :
    Exclusive s ∧ Settles s ∧ (Served s ↔ Through step Meets events {}) := by
  have hsound : Sound s :=
    run_invariant (fun _ _ _ hs hstep => hs.stepped hstep) init_sound hrun
  refine ⟨hsound.exclusive, hsound.settles, ?_⟩
  exact through_iff (fun _ _ _ hs hstep => Sound.stepped hs hstep)
    (fun _ _ _ hs hserved hmeets hstep => served_step hs hserved hmeets hstep)
    (fun _ _ _ hmeets hstep => lost_step hmeets hstep)
    (fun _ _ _ hlost hstep => lost_stays hlost hstep) (fun _ hlost => hlost.not_served)
    init_sound (fun _ _ _ hcall => by cases hcall) hrun

/-- A call joins a flight, and one of another key runs again after it. -/
def threeCalls : List FlightEvent :=
  [.run "seats" true, .run "seats" true, .run "zones" true, .tick false, .tick false,
    .settle 0 .resolved, .tick false, .tick false, .tick false, .tick false, .tick false,
    .tick false, .settle 1 .rejected, .tick false, .tick false]

theorem threeCalls_served_iff : ∃ s : SingleFlight,
    Threads.run step threeCalls {} = some s ∧
      s.calls.map RunCall.phase =
        [.finished (.value 0) true, .finished (.value 0) true, .finished (.error 1) true] ∧
      Exclusive s ∧ Settles s ∧ (Served s ↔ Through step Meets threeCalls {}) :=
  ⟨_, rfl, rfl, served_iff threeCalls _ rfl⟩

/-- The caller that started the flight becomes stale before its load is launched. -/
theorem skipped_load_shared : ¬ ∀ (events : List FlightEvent) (s : SingleFlight),
    Threads.run step events {} = some s → Exclusive s ∧ Settles s ∧ Served s := by
  intro h
  have hserved := (h [.run "seats" true, .run "seats" true, .stale 0, .tick false, .tick false,
    .tick false] _ rfl).2.2
  obtain ⟨l, load, -, -, ⟨hresult, -⟩ | ⟨hresult, -⟩⟩ := hserved 1 _ _ rfl rfl <;> cases hresult

end SingleFlight
end Ticketing
