import Ticketing.SingleFlightOrder

/-!
# What the calls of a single flight return

Loads never overlap, and every call finishes. A call that is current gets what a load of its own
key gave, unless it goes on from a flight whose load was skipped for a starter that was stale.
-/

namespace Ticketing

open Threads

namespace SingleFlight

/-- No two loads are under way. -/
def Exclusive (s : SingleFlight) : Prop :=
  ∀ (l l' : ℕ) (load load' : Load), s.loads[l]? = some load → s.loads[l']? = some load' →
    load.result = none → load'.result = none → l = l'

/-- A result is the value or the error of a load of the key. -/
def Answered (loads : List Load) (key : String) (result : RunResult) : Prop :=
  ∃ (l : ℕ) (load : Load), loads[l]? = some load ∧ load.key = key ∧
    ((result = .value l ∧ load.result = some .resolved) ∨
      (result = .error l ∧ load.result = some .rejected))

/-- Every call that was current to its end was answered. -/
def Served (s : SingleFlight) : Prop :=
  ∀ (i : ℕ) (call : RunCall) (result : RunResult), s.calls[i]? = some call →
    call.phase = .finished result true → Answered s.loads call.key result

/-- The next microtask is that of a call that is still current, and joined a flight whose load was
skipped. -/
def lost (s : SingleFlight) : Bool :=
  match s.microtasks with
  | .resume i :: _ =>
      match s.calls[i]? with
      | some ⟨_, true, .joined f⟩ => decide (s.outcome f = some .skipped)
      | _ => false
  | _ => false

def Meets (s : SingleFlight) : FlightEvent → Prop
  | .tick _ => s.lost = false
  | _ => True

/-- How a call goes on when its microtask runs. -/
def Continues (s : SingleFlight) (call : RunCall) (phase : RunPhase) : Prop :=
  (∃ f outcome, (call.phase = .starting f ∨ call.phase = .joined f) ∧
    s.outcome f = some outcome ∧
      phase = .finished (returned call.current outcome) call.current) ∨
  (∃ f, call.phase = .waiting f ∧
    (call.current = false ∧ phase = .finished .undefined false ∨
      call.current = true ∧ phase.awaited.isSome = true))

section Results

variable {s s' : SingleFlight}

theorem enter_awaited {i : ℕ} {key : String} {entered : RunPhase × SingleFlight}
    (h : s.enter i key = some entered) :
    entered.1.awaited.isSome = true ∧ entered.2.calls = s.calls ∧
      entered.2.loads = s.loads := by
  unfold enter at h
  cases hpending : s.pending with
  | none =>
      simp only [hpending] at h
      cases h
      exact ⟨rfl, rfl, rfl⟩
  | some f =>
      simp only [hpending] at h
      obtain ⟨flight, -, rfl⟩ := Option.map_eq_some_iff.mp h
      refine ⟨?_, await_calls s f i flight, ?_⟩
      · split_ifs <;> rfl
      · cases hunsettled : flight.phase.unsettled with
        | true => simp only [await_unsettled hunsettled]
        | false =>
            simp only [await_settled hunsettled]
            rfl

/-- What a microtask of a call does to the calls and the loads. -/
theorem resume_cases {i : ℕ} (h : s.resume i = some s') :
    s'.loads = s.loads ∧ ∃ call phase, s.calls[i]? = some call ∧ Continues s call phase ∧
      s'.calls = s.calls.set i { call with phase := phase } := by
  obtain ⟨call, hcall, h⟩ := Option.bind_eq_some_iff.mp h
  cases hphase : call.phase with
  | starting f =>
      rw [hphase] at h
      obtain ⟨outcome, houtcome, rfl⟩ := Option.map_eq_some_iff.mp h
      exact ⟨rfl, call, _, hcall, Or.inl ⟨f, outcome, Or.inl hphase, houtcome, rfl⟩, rfl⟩
  | joined f =>
      rw [hphase] at h
      obtain ⟨outcome, houtcome, rfl⟩ := Option.map_eq_some_iff.mp h
      exact ⟨rfl, call, _, hcall, Or.inl ⟨f, outcome, Or.inr hphase, houtcome, rfl⟩, rfl⟩
  | waiting f =>
      rw [hphase] at h
      simp only at h
      split_ifs at h with hcurrent
      · obtain ⟨entered, henter, rfl⟩ := Option.map_eq_some_iff.mp h
        obtain ⟨hawaited, hcalls, hloads⟩ := enter_awaited henter
        refine ⟨hloads, call, entered.1, hcall,
          Or.inr ⟨f, hphase, Or.inr ⟨hcurrent, hawaited⟩⟩, ?_⟩
        rw [setCall, hcalls]
      · cases h
        have hstale : call.current = false := by simpa using hcurrent
        refine ⟨rfl, call, .finished .undefined false, hcall,
          Or.inr ⟨f, hphase, Or.inl ⟨hstale, rfl⟩⟩, ?_⟩
        rw [finish, setCall, hstale]
  | finished result current =>
      rw [hphase] at h
      cases h

/-- A step leaves the calls as they are, starts one, makes one stale, or lets one go on. -/
theorem step_calls {event : FlightEvent} (hstep : s.step event = some s') :
    s'.calls = s.calls ∨
    (∃ call, s'.calls = s.calls ++ [call] ∧
      (call.phase.awaited.isSome = true ∨ call.phase = .finished .undefined false)) ∨
    (∃ i call, s.calls[i]? = some call ∧
      s'.calls = s.calls.set i { call with current := false }) ∨
    (∃ i call phase rest, (∃ throws, event = .tick throws) ∧ s.microtasks = .resume i :: rest ∧
      s.calls[i]? = some call ∧ Continues s call phase ∧
      s'.calls = s.calls.set i { call with phase := phase }) := by
  cases event with
  | run key current =>
      simp only [step, run] at hstep
      split_ifs at hstep
      · cases hstep
        exact Or.inr (Or.inl ⟨_, rfl, Or.inr rfl⟩)
      · obtain ⟨entered, henter, rfl⟩ := Option.map_eq_some_iff.mp hstep
        exact Or.inr (Or.inl ⟨_, rfl, Or.inl (enter_awaited henter).1⟩)
  | stale i =>
      obtain ⟨call, hcall, rfl⟩ := Option.map_eq_some_iff.mp hstep
      exact Or.inr (Or.inr (Or.inl ⟨i, call, hcall, rfl⟩))
  | settle l result =>
      simp only [step, settle] at hstep
      split at hstep
      case h_2 => cases hstep
      split at hstep
      · split_ifs at hstep <;> cases hstep <;> exact Or.inl rfl
      · cases hstep
  | tick throws =>
      simp only [step, tick] at hstep
      split at hstep
      · cases hstep
      rename_i task rest hqueue
      cases task with
      | launch f =>
          obtain ⟨flight, -, hstep⟩ := Option.bind_eq_some_iff.mp hstep
          obtain ⟨starter, -, hstep⟩ := Option.bind_eq_some_iff.mp hstep
          split_ifs at hstep <;> cases hstep <;> exact Or.inl rfl
      | subscribe f =>
          simp only [subscribe] at hstep
          split at hstep
          case h_2 => cases hstep
          split at hstep
          case h_2 => cases hstep
          split at hstep <;> cases hstep <;> exact Or.inl rfl
      | follow f =>
          simp only [follow] at hstep
          split at hstep
          case h_2 => cases hstep
          split at hstep <;> cases hstep
          exact Or.inl rfl
      | resume i =>
          obtain ⟨-, call, phase, hcall, hcontinues, hcalls⟩ := resume_cases hstep
          exact Or.inr (Or.inr (Or.inr
            ⟨i, call, phase, rest, ⟨throws, rfl⟩, hqueue, hcall, hcontinues, hcalls⟩))

/-- Loads that have settled stay. -/
theorem step_loads {event : FlightEvent} (hstep : s.step event = some s') {l : ℕ} {load : Load}
    (hload : s.loads[l]? = some load) (hresult : load.result ≠ none) :
    s'.loads[l]? = some load := by
  cases event with
  | run key current =>
      simp only [step, run] at hstep
      split_ifs at hstep
      · cases hstep
        exact hload
      · obtain ⟨entered, henter, rfl⟩ := Option.map_eq_some_iff.mp hstep
        rw [show ({ entered.2 with calls := _ } : SingleFlight).loads = s.loads from
          (enter_awaited henter).2.2]
        exact hload
  | stale i =>
      obtain ⟨call, -, rfl⟩ := Option.map_eq_some_iff.mp hstep
      exact hload
  | settle l' result =>
      simp only [step, settle] at hstep
      split at hstep
      case h_2 => cases hstep
      rename_i key f hunsettled
      have hne : l ≠ l' := by
        rintro rfl
        rw [hload] at hunsettled
        cases hunsettled
        exact hresult rfl
      have hkept : (s.loads.set l' ⟨key, f, some result⟩)[l]? = some load :=
        (getElem?_set_of_ne hne _).trans hload
      split at hstep
      · split_ifs at hstep <;> cases hstep <;> exact hkept
      · cases hstep
  | tick throws =>
      simp only [step, tick] at hstep
      split at hstep
      · cases hstep
      rename_i task rest hqueue
      cases task with
      | launch f =>
          obtain ⟨flight, -, hstep⟩ := Option.bind_eq_some_iff.mp hstep
          obtain ⟨starter, -, hstep⟩ := Option.bind_eq_some_iff.mp hstep
          split_ifs at hstep <;> cases hstep
          · exact hload
          · exact getElem?_append_of_some hload _
          · exact getElem?_append_of_some hload _
      | subscribe f =>
          simp only [subscribe] at hstep
          split at hstep
          case h_2 => cases hstep
          split at hstep
          case h_2 => cases hstep
          split at hstep <;> cases hstep <;> exact hload
      | follow f =>
          simp only [follow] at hstep
          split at hstep
          case h_2 => cases hstep
          split at hstep <;> cases hstep
          exact hload
      | resume i =>
          rw [(resume_cases hstep).1]
          exact hload

theorem outcome_eq_some {f : ℕ} {outcome : FlightOutcome} (h : s.outcome f = some outcome) :
    ∃ flight, s.flights[f]? = some flight ∧ flight.phase = .settled outcome := by
  unfold SingleFlight.outcome at h
  split at h
  · rename_i key starter settled reactions hflight
    cases h
    exact ⟨_, hflight, rfl⟩
  · cases h

theorem Sound.exclusive (h : Sound s) : Exclusive s := by
  intro l l' load load' hload hload' hresult hresult'
  obtain ⟨flight, hflight, hphase⟩ := h.running l load hload hresult
  have hunsettled : flight.phase.unsettled = true := by
    rcases hphase with hphase | hphase <;> rw [hphase] <;> rfl
  obtain ⟨-, hphase'⟩ := h.load_of_unsettled hflight hunsettled hload' hresult'
  rcases hphase with hphase | hphase <;> rw [hphase] at hphase' <;>
    rcases hphase' with hphase' | hphase' <;> cases hphase' <;> rfl

theorem Answered.kept {loads loads' : List Load} {key : String} {result : RunResult}
    (hloads : ∀ (l : ℕ) (load : Load), loads[l]? = some load → load.result ≠ none →
      loads'[l]? = some load) (h : Answered loads key result) : Answered loads' key result := by
  obtain ⟨l, load, hload, hkey, hresult⟩ := h
  refine ⟨l, load, hloads l load hload ?_, hkey, hresult⟩
  rcases hresult with ⟨-, hresult⟩ | ⟨-, hresult⟩ <;> rw [hresult] <;> nofun

/-- What a current call is given after a load of its key. -/
theorem answered_of_loaded {loads : List Load} {key : String} {f l : ℕ} {result : LoadResult}
    (h : loads[l]? = some ⟨key, f, some result⟩) :
    Answered loads key (returned true (.loaded l result)) := by
  cases result with
  | resolved => exact ⟨l, _, h, rfl, Or.inl ⟨rfl, rfl⟩⟩
  | rejected => exact ⟨l, _, h, rfl, Or.inr ⟨rfl, rfl⟩⟩

/-- A current call that goes on after a flight is answered, if it does not meet a skipped load. -/
theorem Sound.answered {i f : ℕ} {call : RunCall} {outcome : FlightOutcome} (h : Sound s)
    (hcall : s.calls[i]? = some call) (hcurrent : call.current = true)
    (hphase : call.phase = .starting f ∨ call.phase = .joined f)
    (houtcome : s.outcome f = some outcome)
    (hskipped : call.phase = .joined f → outcome ≠ .skipped) :
    Answered s.loads call.key (returned true outcome) := by
  obtain ⟨flight, hflight, hsettled⟩ := outcome_eq_some houtcome
  have hkey : flight.key = call.key := by
    rcases hphase with hphase | hphase
    · obtain ⟨-, lead, hlead, -, hkey⟩ := h.leads i call f hcall hphase
      rw [hflight] at hlead
      cases hlead
      exact hkey
    · obtain ⟨lead, hlead, hkey⟩ := h.joined i call f hcall hphase
      rw [hflight] at hlead
      cases hlead
      exact hkey
  have hbacked := h.backed f flight hflight
  rw [hsettled] at hbacked
  cases outcome with
  | skipped =>
      rcases hphase with hphase | hphase
      · -- the load was skipped because this call was stale
        obtain ⟨-, lead, hlead, hstarter, -⟩ := h.leads i call f hcall hphase
        rw [hflight] at hlead
        cases hlead
        obtain ⟨starter, hsame, hstale⟩ := h.skipped f flight hflight hsettled
        rw [hstarter, hcall] at hsame
        cases hsame
        rw [hcurrent] at hstale
        cases hstale
      · exact absurd rfl (hskipped hphase)
  | loaded l result =>
      rw [← hkey]
      exact answered_of_loaded hbacked

theorem served_step {event : FlightEvent} (h : Sound s) (hserved : Served s)
    (hmeets : Meets s event) (hstep : s.step event = some s') : Served s' := by
  have hkept : ∀ {key result}, Answered s.loads key result → Answered s'.loads key result :=
    fun hanswered => hanswered.kept fun _ _ hload hresult => step_loads hstep hload hresult
  intro i call result hcall hphase
  rcases step_calls hstep with hsame | ⟨last, hlast, hawaited⟩ | ⟨j, old, hold, hset⟩ |
    ⟨j, old, next, rest, ⟨throws, rfl⟩, hqueue, hold, hcontinues, hset⟩
  · rw [hsame] at hcall
    exact hkept (hserved i call result hcall hphase)
  · rw [hlast] at hcall
    rcases getElem?_append_cases hcall with ⟨-, rfl⟩ | hbefore
    · rw [hphase] at hawaited
      rcases hawaited with hawaited | hawaited <;> cases hawaited
    · exact hkept (hserved i call result hbefore hphase)
  · rw [hset] at hcall
    rcases getElem?_set_cases hcall with ⟨-, rfl⟩ | ⟨-, hbefore⟩
    · exact hkept (hserved j old result hold hphase)
    · exact hkept (hserved i call result hbefore hphase)
  · rw [hset] at hcall
    rcases getElem?_set_cases hcall with ⟨-, rfl⟩ | ⟨-, hbefore⟩
    · have hnext : next = .finished result true := hphase
      rcases hcontinues with ⟨f, outcome, hawaits, houtcome, hreturned⟩ |
        ⟨f, -, ⟨-, hstale⟩ | ⟨-, hagain⟩⟩
      · rw [hnext, RunPhase.finished.injEq] at hreturned
        obtain ⟨hresult, hcurrent⟩ := hreturned
        have hanswered : Answered s.loads old.key (returned true outcome) := by
          refine h.answered hold hcurrent.symm hawaits houtcome fun hjoined hskip => ?_
          have hlost : s.lost = true := by
            obtain ⟨key, current, phase⟩ := old
            simp only at hcurrent hjoined
            subst hcurrent hjoined
            unfold lost
            rw [hqueue]
            simp only [hold]
            rw [houtcome, hskip, decide_eq_true rfl]
          rw [show s.lost = false from hmeets] at hlost
          cases hlost
        rw [hresult, ← hcurrent]
        exact hkept hanswered
      · rw [hnext] at hstale
        cases hstale
      · rw [hnext] at hagain
        cases hagain
    · exact hkept (hserved i call result hbefore hphase)

/-- Some call that was current to its end was given nothing. -/
def Lost (s : SingleFlight) : Prop :=
  ∃ (i : ℕ) (call : RunCall), s.calls[i]? = some call ∧ call.phase = .finished .undefined true

theorem Lost.not_served (h : Lost s) : ¬ Served s := by
  intro hserved
  obtain ⟨i, call, hcall, hphase⟩ := h
  obtain ⟨l, load, -, -, ⟨hresult, -⟩ | ⟨hresult, -⟩⟩ := hserved i call _ hcall hphase <;>
    cases hresult

theorem lost_step {event : FlightEvent} (hmeets : ¬ Meets s event)
    (hstep : s.step event = some s') : Lost s' := by
  cases event with
  | tick throws =>
      have hlost : s.lost = true := by simpa [Meets] using hmeets
      unfold lost at hlost
      split at hlost
      case h_2 => cases hlost
      rename_i i rest hqueue
      split at hlost
      case h_2 => cases hlost
      rename_i key f hcall
      have houtcome := of_decide_eq_true hlost
      simp only [step, tick, hqueue] at hstep
      obtain ⟨-, call, phase, hsame, hcontinues, hset⟩ := resume_cases hstep
      rw [show s.calls[i]? = some call from hsame] at hcall
      cases hcall
      rcases hcontinues with ⟨g, outcome, hphase | hphase, hother, hnext⟩ | ⟨g, hphase, -⟩
      · cases hphase
      · cases hphase
        rw [show s.outcome f = some outcome from hother] at houtcome
        cases houtcome
        refine ⟨i, ⟨key, true, phase⟩, ?_, hnext⟩
        rw [hset]
        exact getElem?_set_self hsame _
      · cases hphase
  | _ => exact absurd trivial hmeets

/-- A call that has finished keeps its result. -/
theorem finished_stays {event : FlightEvent} (hstep : s.step event = some s') {i : ℕ}
    {call : RunCall} {result : RunResult} {current : Bool} (hcall : s.calls[i]? = some call)
    (hphase : call.phase = .finished result current) :
    ∃ later, s'.calls[i]? = some later ∧ later.phase = .finished result current := by
  rcases step_calls hstep with hsame | ⟨last, hlast, -⟩ | ⟨j, old, hold, hset⟩ |
    ⟨j, old, next, rest, -, -, hold, hcontinues, hset⟩
  · exact ⟨call, hsame ▸ hcall, hphase⟩
  · exact ⟨call, by rw [hlast]; exact getElem?_append_of_some hcall last, hphase⟩
  · rw [hset]
    by_cases hi : i = j
    · rw [hi, hold] at hcall
      cases hcall
      rw [hi]
      exact ⟨_, getElem?_set_self hold _, hphase⟩
    · exact ⟨call, (getElem?_set_of_ne hi _).trans hcall, hphase⟩
  · rw [hset]
    by_cases hi : i = j
    · rw [hi, hold] at hcall
      cases hcall
      rcases hcontinues with ⟨f, outcome, hawaits | hawaits, -⟩ | ⟨f, hawaits, -⟩ <;>
        rw [hphase] at hawaits <;> cases hawaits
    · exact ⟨call, (getElem?_set_of_ne hi _).trans hcall, hphase⟩

theorem lost_stays {event : FlightEvent} (h : Lost s) (hstep : s.step event = some s') :
    Lost s' := by
  obtain ⟨i, call, hcall, hphase⟩ := h
  obtain ⟨later, hlater, hsame⟩ := finished_stays hstep hcall hphase
  exact ⟨i, later, hlater, hsame⟩

end Results

end SingleFlight
end Ticketing
