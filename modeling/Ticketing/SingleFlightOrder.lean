import Ticketing.SingleFlight

/-!
# Flights and their calls

Only the pending flight is unsettled, and at most one of its microtasks is queued. A call that has
not finished is held exactly once, by the reactions of an unsettled flight or by its own microtask;
the starter of a flight is the first one to go on after it.
-/

namespace Ticketing

open Threads

namespace RunPhase

def awaited : RunPhase → Option ℕ
  | starting f => some f
  | joined f => some f
  | waiting f => some f
  | finished _ _ => none

end RunPhase

namespace FlightPhase

def unsettled : FlightPhase → Bool
  | settled _ => false
  | _ => true

/-- The microtask that brings the flight on, if one is queued for it. -/
def tasks (f : ℕ) : FlightPhase → List Microtask
  | launching => [.launch f]
  | subscribing _ => [.subscribe f]
  | following _ _ => [.follow f]
  | _ => []

end FlightPhase

def Microtask.ofFlight : Microtask → Bool
  | resume _ => false
  | _ => true

namespace SingleFlight

def awaits (calls : List RunCall) (i : ℕ) : Option ℕ :=
  (calls[i]?).bind fun call => call.phase.awaited

def held (s : SingleFlight) (i : ℕ) : ℕ :=
  s.microtasks.count (.resume i) + (s.flights.map fun flight => flight.reactions.count i).sum

/-- The microtasks of the pending flight. -/
def due (s : SingleFlight) : List Microtask :=
  match s.pending with
  | none => []
  | some f =>
      match s.flights[f]? with
      | some flight => flight.phase.tasks f
      | none => []

/-- The load a phase speaks of is a load of that flight. -/
def Backed (loads : List Load) (f : ℕ) (key : String) : FlightPhase → Prop
  | .launching => True
  | .subscribing l => ∃ result, loads[l]? = some ⟨key, f, result⟩
  | .loading l => loads[l]? = some ⟨key, f, none⟩
  | .following l result => loads[l]? = some ⟨key, f, some result⟩
  | .settled .skipped => True
  | .settled (.loaded l result) => loads[l]? = some ⟨key, f, some result⟩

/-- In the queue, the starter of a flight comes before all others that await it. -/
def First (s : SingleFlight) (f starter : ℕ) : Prop :=
  ∃ before after, s.microtasks = before ++ .resume starter :: after ∧
    ∀ i, .resume i ∈ before → awaits s.calls i ≠ some f

structure Sound (s : SingleFlight) : Prop where
  held : ∀ i, s.held i = if (awaits s.calls i).isSome then 1 else 0
  reacts : ∀ (f : ℕ) (flight : Flight), s.flights[f]? = some flight → ∀ i ∈ flight.reactions,
    flight.phase.unsettled = true ∧ awaits s.calls i = some f
  resumes : ∀ i, .resume i ∈ s.microtasks → ∃ f flight, awaits s.calls i = some f ∧
    s.flights[f]? = some flight ∧ flight.phase.unsettled = false
  tasks : s.microtasks.filter Microtask.ofFlight = s.due
  single : ∀ (f : ℕ) (flight : Flight), s.flights[f]? = some flight → flight.phase.unsettled = true →
    s.pending = some f
  led : ∀ f, s.pending = some f →
    ∃ (i : ℕ) (call : RunCall), s.calls[i]? = some call ∧ call.phase = .starting f
  leads : ∀ (i : ℕ) (call : RunCall) (f : ℕ), s.calls[i]? = some call → call.phase = .starting f →
    s.pending = some f ∧ ∃ flight, s.flights[f]? = some flight ∧ flight.starter = i ∧
      flight.key = call.key
  joined : ∀ (i : ℕ) (call : RunCall) (f : ℕ), s.calls[i]? = some call → call.phase = .joined f →
    ∃ flight, s.flights[f]? = some flight ∧ flight.key = call.key
  firstReaction : ∀ (f : ℕ) (flight : Flight), s.flights[f]? = some flight → flight.phase.unsettled = true →
    ∃ rest, flight.reactions = flight.starter :: rest
  firstResume : ∀ (f : ℕ) (flight : Flight), s.pending = some f → s.flights[f]? = some flight →
    flight.phase.unsettled = false → s.First f flight.starter
  running : ∀ (l : ℕ) (load : Load), s.loads[l]? = some load → load.result = none →
    ∃ flight, s.flights[load.flight]? = some flight ∧
      (flight.phase = .subscribing l ∨ flight.phase = .loading l)
  backed : ∀ (f : ℕ) (flight : Flight), s.flights[f]? = some flight → Backed s.loads f flight.key flight.phase
  skipped : ∀ (f : ℕ) (flight : Flight), s.flights[f]? = some flight → flight.phase = .settled .skipped →
    ∃ starter, s.calls[flight.starter]? = some starter ∧ starter.current = false

section Invariant

variable {s s' : SingleFlight}

theorem init_sound : Sound {} where
  held _ := rfl
  reacts _ _ h := by cases h
  resumes _ h := absurd h List.not_mem_nil
  tasks := rfl
  single _ _ h := by cases h
  led _ h := by cases h
  leads _ _ _ h := by cases h
  joined _ _ _ h := by cases h
  firstReaction _ _ h := by cases h
  firstResume _ _ h := by cases h
  running _ _ h := by cases h
  backed _ _ h := by cases h
  skipped _ _ h := by cases h

theorem awaits_of_some {calls : List RunCall} {i : ℕ} {call : RunCall}
    (h : calls[i]? = some call) : awaits calls i = call.phase.awaited := by
  rw [awaits, h]
  rfl

theorem awaits_set {calls : List RunCall} {i : ℕ} {call : RunCall} (h : calls[i]? = some call)
    (new : RunCall) (j : ℕ) :
    awaits (calls.set i new) j = if j = i then new.phase.awaited else awaits calls j := by
  unfold awaits
  split_ifs with hj
  · rw [hj, getElem?_set_self h new]
    rfl
  · rw [getElem?_set_of_ne hj new]

theorem awaits_append {calls : List RunCall} {call : RunCall} (h : call.phase.awaited = none)
    (i : ℕ) : awaits (calls ++ [call]) i = awaits calls i := by
  unfold awaits
  cases hi : calls[i]? with
  | some old => rw [getElem?_append_of_some hi]
  | none =>
      cases hnew : (calls ++ [call])[i]? with
      | none => rfl
      | some last =>
          rcases getElem?_append_cases hnew with ⟨-, rfl⟩ | hold
          · exact h
          · rw [hold] at hi
            cases hi

/-- A caller that is stale stays so. -/
theorem stale_set {calls : List RunCall} {i j : ℕ} {call next : RunCall}
    (hcall : calls[i]? = some call) (hcurrent : next.current = call.current)
    (h : ∃ starter, calls[j]? = some starter ∧ starter.current = false) :
    ∃ starter, (calls.set i next)[j]? = some starter ∧ starter.current = false := by
  obtain ⟨starter, hstarter, hstale⟩ := h
  by_cases hj : j = i
  · rw [hj, hcall] at hstarter
    cases hstarter
    rw [hj]
    exact ⟨next, getElem?_set_self hcall next, hcurrent.trans hstale⟩
  · exact ⟨starter, (getElem?_set_of_ne hj next).trans hstarter, hstale⟩

/-- The calls change, but not what they await. -/
theorem Sound.callsChanged {calls : List RunCall} (h : Sound s)
    (hawaits : ∀ i, awaits calls i = awaits s.calls i)
    (hforth : ∀ (i : ℕ) (call : RunCall), s.calls[i]? = some call → ∃ new, calls[i]? = some new ∧
      new.phase = call.phase ∧ (call.current = false → new.current = false))
    (hback : ∀ (i : ℕ) (call : RunCall), calls[i]? = some call → call.phase.awaited ≠ none →
      ∃ old, s.calls[i]? = some old ∧ old.phase = call.phase ∧ old.key = call.key) :
    Sound { s with calls := calls } where
  held i := by
    simp only [hawaits]
    exact h.held i
  reacts f flight hflight i hi := by
    simp only [hawaits]
    exact h.reacts f flight hflight i hi
  resumes i hi := by
    simp only [hawaits]
    exact h.resumes i hi
  tasks := h.tasks
  single := h.single
  led f hf := by
    obtain ⟨i, call, hcall, hphase⟩ := h.led f hf
    obtain ⟨new, hnew, hsame, -⟩ := hforth i call hcall
    exact ⟨i, new, hnew, hsame.trans hphase⟩
  leads i call f hcall hphase := by
    obtain ⟨old, hold, hsame, hkey⟩ := hback i call hcall (by rw [hphase]; nofun)
    rw [← hkey]
    exact h.leads i old f hold (hsame.trans hphase)
  joined i call f hcall hphase := by
    obtain ⟨old, hold, hsame, hkey⟩ := hback i call hcall (by rw [hphase]; nofun)
    rw [← hkey]
    exact h.joined i old f hold (hsame.trans hphase)
  firstReaction := h.firstReaction
  firstResume f flight hf hflight hsettled := by
    obtain ⟨before, after, hqueue, hbefore⟩ := h.firstResume f flight hf hflight hsettled
    refine ⟨before, after, hqueue, fun i hi => ?_⟩
    simp only [hawaits]
    exact hbefore i hi
  running := h.running
  backed := h.backed
  skipped f flight hflight hphase := by
    obtain ⟨starter, hstarter, hstale⟩ := h.skipped f flight hflight hphase
    obtain ⟨new, hnew, -, hcurrent⟩ := hforth flight.starter starter hstarter
    exact ⟨new, hnew, hcurrent hstale⟩

theorem Sound.appended (h : Sound s) (call : RunCall) (hphase : call.phase.awaited = none) :
    Sound { s with calls := s.calls ++ [call] } := by
  apply h.callsChanged (awaits_append hphase)
  · intro i old hold
    exact ⟨old, getElem?_append_of_some hold call, rfl, id⟩
  · intro i other hother hawaited
    rcases getElem?_append_cases hother with ⟨-, rfl⟩ | hold
    · exact absurd hphase hawaited
    · exact ⟨other, hold, rfl, rfl⟩

theorem stale_sound {i : ℕ} (h : Sound s) (hstep : s.stale i = some s') : Sound s' := by
  obtain ⟨call, hcall, rfl⟩ := Option.map_eq_some_iff.mp hstep
  apply h.callsChanged
  · intro j
    rw [awaits_set hcall]
    split_ifs with hj
    · rw [hj, awaits_of_some hcall]
    · rfl
  · intro j old hold
    by_cases hj : j = i
    · rw [hj, hcall] at hold
      cases hold
      rw [hj]
      exact ⟨_, getElem?_set_self hcall _, rfl, fun _ => rfl⟩
    · exact ⟨old, (getElem?_set_of_ne hj _).trans hold, rfl, id⟩
  · intro j other hother hawaited
    rcases getElem?_set_cases hother with ⟨rfl, rfl⟩ | ⟨-, hold⟩
    · exact ⟨call, hcall, rfl, rfl⟩
    · exact ⟨other, hold, rfl, rfl⟩

/-- A call whose microtask is queued awaits a settled flight, and is held nowhere else. -/
theorem Sound.resumed {i : ℕ} {call : RunCall} {rest : List Microtask} (h : Sound s)
    (hqueue : s.microtasks = .resume i :: rest) (hcall : s.calls[i]? = some call) :
    (∃ f flight, call.phase.awaited = some f ∧ s.flights[f]? = some flight ∧
      flight.phase.unsettled = false) ∧
      .resume i ∉ rest ∧ ∀ flight ∈ s.flights, i ∉ flight.reactions := by
  obtain ⟨f, flight, hawaits, hflight, hsettled⟩ :=
    h.resumes i (by rw [hqueue]; exact List.mem_cons_self)
  have hheld := h.held i
  rw [hawaits, Option.isSome_some, if_pos rfl, SingleFlight.held, hqueue,
    List.count_cons_self] at hheld
  rw [awaits_of_some hcall] at hawaits
  refine ⟨⟨f, flight, hawaits, hflight, hsettled⟩, ?_, fun other hmem => ?_⟩
  · rw [← List.count_eq_zero]
    omega
  · have hsum : (s.flights.map fun flight => flight.reactions.count i).sum = 0 := by omega
    rw [List.sum_eq_zero_iff] at hsum
    exact List.count_eq_zero.mp (hsum _ (List.mem_map.mpr ⟨other, hmem, rfl⟩))

/-- The microtask of a call runs, and the call finishes. A starter leaves no flight pending. -/
theorem Sound.finished {i : ℕ} {call next : RunCall} {rest : List Microtask} {pending : Option ℕ}
    (h : Sound s) (hqueue : s.microtasks = .resume i :: rest) (hcall : s.calls[i]? = some call)
    (hnext : next.phase.awaited = none) (hcurrent : next.current = call.current)
    (hpending : ∀ f, pending = some f ↔ s.pending = some f ∧ call.phase ≠ .starting f) :
    Sound { s with pending := pending, microtasks := rest, calls := s.calls.set i next } := by
  obtain ⟨⟨settled, flight, hawaited, hflight, hsettled⟩, hrest, hreactions⟩ :=
    h.resumed hqueue hcall
  have hcallAwaits : awaits s.calls i = some settled := (awaits_of_some hcall).trans hawaited
  have hmem : ∀ j, .resume j ∈ rest → j ≠ i ∧ .resume j ∈ s.microtasks := by
    intro j hj
    refine ⟨fun hji => hrest (hji ▸ hj), ?_⟩
    rw [hqueue]
    exact List.mem_cons_of_mem _ hj
  have hstarting : ∀ f, call.phase = .starting f → f = settled := by
    intro f hphase
    rw [hphase] at hawaited
    exact Option.some.inj hawaited
  have hdue : due { s with pending := pending, microtasks := rest, calls := s.calls.set i next } =
      s.due := by
    unfold due
    simp only
    cases hold : s.pending with
    | none =>
        cases hnew : pending with
        | none => rfl
        | some f =>
            have hboth := ((hpending f).mp hnew).1
            rw [hold] at hboth
            cases hboth
    | some f =>
        by_cases hphase : call.phase = .starting f
        · have hnone : pending = none := by
            cases hnew : pending with
            | none => rfl
            | some g =>
                have hboth := (hpending g).mp hnew
                rw [hold, Option.some.injEq] at hboth
                exact absurd (hboth.1 ▸ hphase) hboth.2
          rw [hnone, hstarting f hphase]
          simp only [hflight]
          cases hflightPhase : flight.phase with
          | settled outcome => rfl
          | _ =>
              rw [hflightPhase] at hsettled
              cases hsettled
        · rw [(hpending f).mpr ⟨hold, hphase⟩]
  refine ⟨fun j => ?_, fun f other hother j hj => ?_, fun j hj => ?_, ?_,
    fun f other hother hunsettled => ?_, fun f hf => ?_, fun j other f hother hphase => ?_,
    fun j other f hother hphase => ?_, h.firstReaction, fun f other hf hother hother' => ?_,
    h.running, h.backed, fun f other hother hphase => ?_⟩
  · have hheld := h.held j
    simp only [SingleFlight.held, awaits_set hcall] at hheld ⊢
    rw [hqueue] at hheld
    by_cases hj : j = i
    · rw [hj, hcallAwaits, List.count_cons_self] at hheld
      rw [if_pos hj, hnext, hj]
      simp only [Option.isSome_some, Option.isSome_none, if_true] at hheld ⊢
      simp only [Bool.false_eq_true, if_false]
      omega
    · rw [List.count_cons_of_ne (by simpa using Ne.symm hj)] at hheld
      rw [if_neg hj]
      exact hheld
  · obtain ⟨hunsettled, hawaits⟩ := h.reacts f other hother j hj
    refine ⟨hunsettled, ?_⟩
    have hne : j ≠ i := by
      rintro rfl
      exact hreactions other (List.mem_of_getElem? hother) hj
    rw [awaits_set hcall, if_neg hne]
    exact hawaits
  · obtain ⟨hne, hold⟩ := hmem j hj
    obtain ⟨f, other, hawaits, hother, hdone⟩ := h.resumes j hold
    refine ⟨f, other, ?_, hother, hdone⟩
    rw [awaits_set hcall, if_neg hne]
    exact hawaits
  · have htasks := h.tasks
    rw [hqueue, List.filter_cons_of_neg (by simp [Microtask.ofFlight])] at htasks
    rw [hdue]
    exact htasks
  · refine (hpending f).mpr ⟨h.single f other hother hunsettled, fun hphase => ?_⟩
    rw [hstarting f hphase, hflight] at hother
    cases hother
    rw [hsettled] at hunsettled
    cases hunsettled
  · obtain ⟨hold, hphase⟩ := (hpending f).mp hf
    obtain ⟨j, other, hother, hstarts⟩ := h.led f hold
    refine ⟨j, other, ?_, hstarts⟩
    have hne : j ≠ i := by
      rintro rfl
      rw [hcall] at hother
      cases hother
      exact hphase hstarts
    exact (getElem?_set_of_ne hne next).trans hother
  · rcases getElem?_set_cases hother with ⟨-, rfl⟩ | ⟨hne, hold⟩
    · rw [hphase] at hnext
      cases hnext
    · obtain ⟨hleads, other', hother', hstarter, hkey⟩ := h.leads j other f hold hphase
      refine ⟨(hpending f).mpr ⟨hleads, fun hsame => hne ?_⟩, other', hother', hstarter, hkey⟩
      obtain ⟨-, mine, hmine, hmineStarter, -⟩ := h.leads i call f hcall hsame
      rw [hother'] at hmine
      cases hmine
      exact hstarter.symm.trans hmineStarter
  · rcases getElem?_set_cases hother with ⟨-, rfl⟩ | ⟨-, hold⟩
    · rw [hphase] at hnext
      cases hnext
    · exact h.joined j other f hold hphase
  · obtain ⟨hold, hphase⟩ := (hpending f).mp hf
    obtain ⟨before, after, hsplit, hbefore⟩ := h.firstResume f other hold hother hother'
    rw [hqueue] at hsplit
    cases before with
    | nil =>
        -- the starter would be the call itself
        rw [List.nil_append, List.cons.injEq, Microtask.resume.injEq] at hsplit
        obtain ⟨j, starter, hstarter, hstarts⟩ := h.led f hold
        obtain ⟨-, lead, hlead, hsame, -⟩ := h.leads j starter f hstarter hstarts
        rw [hother] at hlead
        cases hlead
        rw [← hsame, ← hsplit.1, hcall] at hstarter
        cases hstarter
        exact absurd hstarts hphase
    | cons first before =>
        rw [List.cons_append, List.cons.injEq] at hsplit
        refine ⟨before, after, hsplit.2, fun j hj => ?_⟩
        simp only [awaits_set hcall]
        split_ifs with hji
        · rw [hnext]
          nofun
        · exact hbefore j (List.mem_cons_of_mem first hj)
  · exact stale_set hcall hcurrent (h.skipped f other hother hphase)

/-- A call that awaits nothing is held nowhere. -/
theorem Sound.free {i : ℕ} (h : Sound s) (hawaits : awaits s.calls i = none) :
    s.held i = 0 ∧ .resume i ∉ s.microtasks ∧
      ∀ (f : ℕ) (flight : Flight), s.flights[f]? = some flight → i ∉ flight.reactions := by
  refine ⟨?_, fun hmem => ?_, fun f flight hflight hmem => ?_⟩
  · rw [h.held i, hawaits]
    rfl
  · obtain ⟨f, flight, hsome, -⟩ := h.resumes i hmem
    rw [hawaits] at hsome
    cases hsome
  · have hsome := (h.reacts f flight hflight i hmem).2
    rw [hawaits] at hsome
    cases hsome

theorem Sound.filter_resume (h : Sound s) (i : ℕ) :
    (s.microtasks ++ [Microtask.resume i]).filter Microtask.ofFlight = s.due := by
  rw [List.filter_append, h.tasks]
  exact List.append_nil _

/-- A call starts a flight. -/
theorem Sound.enteredNew {i : ℕ} {call : RunCall} (h : Sound s) (hcall : s.calls[i]? = some call)
    (hphase : call.phase.awaited = none) (hpending : s.pending = none) :
    Sound { s with
      pending := some s.flights.length
      flights := s.flights ++ [⟨call.key, i, .launching, [i]⟩]
      microtasks := s.microtasks ++ [.launch s.flights.length]
      calls := s.calls.set i { call with phase := .starting s.flights.length } } := by
  have hawaits : awaits s.calls i = none := (awaits_of_some hcall).trans hphase
  obtain ⟨hheld, hresume, hreactions⟩ := h.free hawaits
  have hsettled : ∀ (f : ℕ) (flight : Flight), s.flights[f]? = some flight →
      flight.phase.unsettled = false := by
    intro f flight hflight
    by_contra hunsettled
    have hsome := h.single f flight hflight (by simpa using hunsettled)
    rw [hpending] at hsome
    cases hsome
  have hlast : (s.flights ++ [Flight.mk call.key i .launching [i]])[s.flights.length]? =
      some ⟨call.key, i, .launching, [i]⟩ := by
    rw [List.getElem?_append_right le_rfl, Nat.sub_self]
    rfl
  refine ⟨fun j => ?_, fun f flight hflight j hj => ?_, fun j hj => ?_, ?_,
    fun f flight hflight hunsettled => ?_, fun f hf => ?_, fun j other f hother hstarts => ?_,
    fun j other f hother hjoined => ?_, fun f flight hflight hunsettled => ?_,
    fun f flight hf hflight hdone => ?_, fun l load hload hresult => ?_,
    fun f flight hflight => ?_, fun f flight hflight hskipped => ?_⟩
  · have hold := h.held j
    simp only [SingleFlight.held, awaits_set hcall, List.count_append, List.map_append,
      List.sum_append, List.map_cons, List.map_nil, List.sum_singleton] at hold ⊢
    rw [List.count_singleton, if_neg (by simp)]
    by_cases hj : j = i
    · rw [hj, hawaits] at hold
      rw [if_pos hj, hj, List.count_singleton_self]
      simp only [Option.isSome_none, Bool.false_eq_true, if_false] at hold
      simp only [RunPhase.awaited, Option.isSome_some, if_true]
      omega
    · rw [if_neg hj, List.count_singleton, if_neg (by simpa using Ne.symm hj)]
      exact hold
  · rcases getElem?_append_cases hflight with ⟨rfl, rfl⟩ | hold
    · rw [List.mem_singleton] at hj
      refine ⟨rfl, ?_⟩
      rw [awaits_set hcall, if_pos hj]
      rfl
    · have hunsettled := (h.reacts f flight hold j hj).1
      rw [hsettled f flight hold] at hunsettled
      cases hunsettled
  · have hold : .resume j ∈ s.microtasks := by
      rcases List.mem_append.mp hj with hold | hnew
      · exact hold
      · simp at hnew
    obtain ⟨f, flight, hsome, hflight, hdone⟩ := h.resumes j hold
    refine ⟨f, flight, ?_, getElem?_append_of_some hflight _, hdone⟩
    have hne : j ≠ i := by
      rintro rfl
      exact hresume hold
    rw [awaits_set hcall, if_neg hne]
    exact hsome
  · have htasks := h.tasks
    unfold due at htasks ⊢
    simp only [hpending, hlast] at htasks ⊢
    rw [List.filter_append, htasks]
    rfl
  · rcases getElem?_append_cases hflight with ⟨rfl, -⟩ | hold
    · rfl
    · rw [hsettled f flight hold] at hunsettled
      cases hunsettled
  · cases hf
    exact ⟨i, _, getElem?_set_self hcall _, rfl⟩
  · rcases getElem?_set_cases hother with ⟨rfl, rfl⟩ | ⟨-, hold⟩
    · cases hstarts
      exact ⟨rfl, _, hlast, rfl, rfl⟩
    · have hsome := (h.leads j other f hold hstarts).1
      rw [hpending] at hsome
      cases hsome
  · rcases getElem?_set_cases hother with ⟨-, rfl⟩ | ⟨-, hold⟩
    · cases hjoined
    · obtain ⟨flight, hflight, hkey⟩ := h.joined j other f hold hjoined
      exact ⟨flight, getElem?_append_of_some hflight _, hkey⟩
  · rcases getElem?_append_cases hflight with ⟨-, rfl⟩ | hold
    · exact ⟨[], rfl⟩
    · exact h.firstReaction f flight hold hunsettled
  · cases hf
    rw [hlast] at hflight
    cases hflight
    cases hdone
  · obtain ⟨flight, hflight, hrunning⟩ := h.running l load hload hresult
    exact ⟨flight, getElem?_append_of_some hflight _, hrunning⟩
  · rcases getElem?_append_cases hflight with ⟨-, rfl⟩ | hold
    · trivial
    · exact h.backed f flight hold
  · rcases getElem?_append_cases hflight with ⟨-, rfl⟩ | hold
    · cases hskipped
    · exact stale_set hcall rfl (h.skipped f flight hold hskipped)

/-- A call awaits the pending flight, which has settled already. -/
theorem Sound.enteredSettled {i f : ℕ} {call : RunCall} {flight : Flight} {phase : RunPhase}
    (h : Sound s) (hcall : s.calls[i]? = some call) (hphase : call.phase.awaited = none)
    (hflight : s.flights[f]? = some flight) (hsettled : flight.phase.unsettled = false)
    (hawaited : phase.awaited = some f) (hstarting : phase ≠ .starting f)
    (hjoined : phase = .joined f → flight.key = call.key) :
    Sound { s with
      microtasks := s.microtasks ++ [.resume i]
      calls := s.calls.set i { call with phase := phase } } := by
  have hawaits : awaits s.calls i = none := (awaits_of_some hcall).trans hphase
  obtain ⟨hheld, hresume, hreactions⟩ := h.free hawaits
  refine ⟨fun j => ?_, fun g other hother j hj => ?_, fun j hj => ?_, h.filter_resume i, h.single,
    fun g hg => ?_, fun j other g hother hstarts => ?_, fun j other g hother hjoins => ?_,
    h.firstReaction, fun g other hg hother hdone => ?_, h.running, h.backed,
    fun g other hother hskipped => ?_⟩
  · have hold := h.held j
    simp only [SingleFlight.held, awaits_set hcall, List.count_append] at hold ⊢
    by_cases hj : j = i
    · rw [hj, hawaits] at hold
      rw [if_pos hj, hj, List.count_singleton_self, hawaited]
      simp only [Option.isSome_none, Bool.false_eq_true, if_false] at hold
      simp only [Option.isSome_some, if_true]
      omega
    · rw [if_neg hj, List.count_singleton, if_neg (by simpa using Ne.symm hj)]
      exact hold
  · obtain ⟨hunsettled, hsome⟩ := h.reacts g other hother j hj
    refine ⟨hunsettled, ?_⟩
    have hne : j ≠ i := by
      rintro rfl
      exact hreactions g other hother hj
    rw [awaits_set hcall, if_neg hne]
    exact hsome
  · rcases List.mem_append.mp hj with hold | hnew
    · obtain ⟨g, other, hsome, hother, hdone⟩ := h.resumes j hold
      refine ⟨g, other, ?_, hother, hdone⟩
      have hne : j ≠ i := by
        rintro rfl
        exact hresume hold
      rw [awaits_set hcall, if_neg hne]
      exact hsome
    · rw [List.mem_singleton, Microtask.resume.injEq] at hnew
      refine ⟨f, flight, ?_, hflight, hsettled⟩
      rw [awaits_set hcall, if_pos hnew]
      exact hawaited
  · obtain ⟨j, other, hother, hstarts⟩ := h.led g hg
    refine ⟨j, other, (getElem?_set_of_ne ?_ _).trans hother, hstarts⟩
    rintro rfl
    rw [hcall] at hother
    cases hother
    rw [hstarts] at hphase
    cases hphase
  · rcases getElem?_set_cases hother with ⟨rfl, rfl⟩ | ⟨-, hold⟩
    · have hsame : phase = .starting g := hstarts
      rw [hsame] at hawaited
      cases hawaited
      exact absurd hsame hstarting
    · exact h.leads j other g hold hstarts
  · rcases getElem?_set_cases hother with ⟨rfl, rfl⟩ | ⟨-, hold⟩
    · have hsame : phase = .joined g := hjoins
      rw [hsame] at hawaited
      cases hawaited
      exact ⟨flight, hflight, hjoined hsame⟩
    · exact h.joined j other g hold hjoins
  · obtain ⟨before, after, hsplit, hbefore⟩ := h.firstResume g other hg hother hdone
    refine ⟨before, after ++ [.resume i], ?_, fun j hj => ?_⟩
    · simp only [hsplit, List.append_assoc, List.cons_append]
    · have hmem : .resume j ∈ s.microtasks := by
        rw [hsplit]
        exact List.mem_append_left _ hj
      have hne : j ≠ i := by
        rintro rfl
        exact hresume hmem
      simp only [awaits_set hcall]
      rw [if_neg hne]
      exact hbefore j hj
  · exact stale_set hcall rfl (h.skipped g other hother hskipped)

/-- A call awaits the pending flight, which is under way. -/
theorem Sound.enteredUnsettled {i f : ℕ} {call : RunCall} {flight : Flight} {phase : RunPhase}
    (h : Sound s) (hcall : s.calls[i]? = some call) (hphase : call.phase.awaited = none)
    (hflight : s.flights[f]? = some flight) (hunsettled : flight.phase.unsettled = true)
    (hawaited : phase.awaited = some f) (hstarting : phase ≠ .starting f)
    (hjoined : phase = .joined f → flight.key = call.key) :
    Sound { s with
      flights := s.flights.set f { flight with reactions := flight.reactions ++ [i] }
      calls := s.calls.set i { call with phase := phase } } := by
  have hawaits : awaits s.calls i = none := (awaits_of_some hcall).trans hphase
  obtain ⟨hheld, hresume, hreactions⟩ := h.free hawaits
  have hkeeps : ∀ (g : ℕ) (other : Flight), s.flights[g]? = some other → ∃ later,
      (s.flights.set f { flight with reactions := flight.reactions ++ [i] })[g]? = some later ∧
        later.phase = other.phase ∧ later.key = other.key ∧ later.starter = other.starter := by
    intro g other hother
    by_cases hg : g = f
    · rw [hg, hflight] at hother
      cases hother
      rw [hg]
      exact ⟨_, getElem?_set_self hflight _, rfl, rfl, rfl⟩
    · exact ⟨other, (getElem?_set_of_ne hg _).trans hother, rfl, rfl, rfl⟩
  refine ⟨fun j => ?_, fun g other hother j hj => ?_, fun j hj => ?_, ?_,
    fun g other hother hopen => ?_, fun g hg => ?_, fun j other g hother hstarts => ?_,
    fun j other g hother hjoins => ?_, fun g other hother hopen => ?_,
    fun g other hg hother hdone => ?_, fun l load hload hresult => ?_,
    fun g other hother => ?_, fun g other hother hskipped => ?_⟩
  · have hold := h.held j
    have hsum := sum_map_set (fun flight : Flight => flight.reactions.count j) hflight
      { flight with reactions := flight.reactions ++ [i] }
    simp only [SingleFlight.held, awaits_set hcall, List.count_append] at hold hsum ⊢
    by_cases hj : j = i
    · rw [hj, hawaits] at hold
      rw [hj, List.count_singleton_self] at hsum
      rw [if_pos hj, hj, hawaited]
      simp only [Option.isSome_none, Bool.false_eq_true, if_false] at hold
      simp only [Option.isSome_some, if_true]
      omega
    · rw [List.count_singleton, if_neg (by simpa using Ne.symm hj)] at hsum
      rw [if_neg hj, ← hold]
      omega
  · rw [awaits_set hcall]
    rcases getElem?_set_cases hother with ⟨rfl, rfl⟩ | ⟨-, hold⟩
    · refine ⟨hunsettled, ?_⟩
      rcases List.mem_append.mp hj with hbefore | hlast
      · have hne : j ≠ i := by
          rintro rfl
          exact hreactions g flight hflight hbefore
        rw [if_neg hne]
        exact (h.reacts g flight hflight j hbefore).2
      · rw [if_pos (List.mem_singleton.mp hlast)]
        exact hawaited
    · obtain ⟨hopen, hsome⟩ := h.reacts g other hold j hj
      have hne : j ≠ i := by
        rintro rfl
        exact hreactions g other hold hj
      rw [if_neg hne]
      exact ⟨hopen, hsome⟩
  · obtain ⟨g, other, hsome, hother, hdone⟩ := h.resumes j hj
    obtain ⟨later, hlater, hsame, -⟩ := hkeeps g other hother
    have hne : j ≠ i := by
      rintro rfl
      exact hresume hj
    refine ⟨g, later, ?_, hlater, hsame ▸ hdone⟩
    rw [awaits_set hcall, if_neg hne]
    exact hsome
  · have htasks := h.tasks
    rw [htasks]
    unfold due
    simp only
    cases hpending : s.pending with
    | none => rfl
    | some g =>
        simp only
        cases hother : s.flights[g]? with
        | none =>
            obtain ⟨j, starter, hstarter, hstarts⟩ := h.led g hpending
            obtain ⟨-, lead, hlead, -⟩ := h.leads j starter g hstarter hstarts
            rw [hother] at hlead
            cases hlead
        | some other =>
            obtain ⟨later, hlater, hsame, -⟩ := hkeeps g other hother
            simp only [hlater, hsame]
  · rcases getElem?_set_cases hother with ⟨rfl, rfl⟩ | ⟨-, hold⟩
    · exact h.single g flight hflight hunsettled
    · exact h.single g other hold hopen
  · obtain ⟨j, other, hother, hstarts⟩ := h.led g hg
    refine ⟨j, other, (getElem?_set_of_ne ?_ _).trans hother, hstarts⟩
    rintro rfl
    rw [hcall] at hother
    cases hother
    rw [hstarts] at hphase
    cases hphase
  · rcases getElem?_set_cases hother with ⟨rfl, rfl⟩ | ⟨-, hold⟩
    · have hsame : phase = .starting g := hstarts
      rw [hsame] at hawaited
      cases hawaited
      exact absurd hsame hstarting
    · obtain ⟨hleads, lead, hlead, hstarter, hkey⟩ := h.leads j other g hold hstarts
      obtain ⟨later, hlater, -, hsameKey, hsameStarter⟩ := hkeeps g lead hlead
      exact ⟨hleads, later, hlater, hsameStarter.trans hstarter, hsameKey.trans hkey⟩
  · rcases getElem?_set_cases hother with ⟨rfl, rfl⟩ | ⟨-, hold⟩
    · have hsame : phase = .joined g := hjoins
      rw [hsame] at hawaited
      cases hawaited
      exact ⟨_, getElem?_set_self hflight _, hjoined hsame⟩
    · obtain ⟨lead, hlead, hkey⟩ := h.joined j other g hold hjoins
      obtain ⟨later, hlater, -, hsameKey, -⟩ := hkeeps g lead hlead
      exact ⟨later, hlater, hsameKey.trans hkey⟩
  · rcases getElem?_set_cases hother with ⟨rfl, rfl⟩ | ⟨-, hold⟩
    · obtain ⟨rest, hrest⟩ := h.firstReaction g flight hflight hunsettled
      exact ⟨rest ++ [i], by simp only [hrest, List.cons_append]⟩
    · exact h.firstReaction g other hold hopen
  · rcases getElem?_set_cases hother with ⟨rfl, rfl⟩ | ⟨-, hold⟩
    · have hagain : flight.phase.unsettled = false := hdone
      rw [hunsettled] at hagain
      cases hagain
    · obtain ⟨before, after, hsplit, hbefore⟩ := h.firstResume g other hg hold hdone
      refine ⟨before, after, hsplit, fun j hj => ?_⟩
      have hne : j ≠ i := by
        rintro rfl
        apply hresume
        rw [hsplit]
        exact List.mem_append_left _ hj
      simp only [awaits_set hcall]
      rw [if_neg hne]
      exact hbefore j hj
  · obtain ⟨other, hother, hrunning⟩ := h.running l load hload hresult
    obtain ⟨later, hlater, hsame, -⟩ := hkeeps load.flight other hother
    exact ⟨later, hlater, hsame ▸ hrunning⟩
  · rcases getElem?_set_cases hother with ⟨rfl, rfl⟩ | ⟨-, hold⟩
    · exact h.backed g flight hflight
    · exact h.backed g other hold
  · rcases getElem?_set_cases hother with ⟨rfl, rfl⟩ | ⟨-, hold⟩
    · have hdone : flight.phase = .settled .skipped := hskipped
      rw [hdone] at hunsettled
      cases hunsettled
    · exact stale_set hcall rfl (h.skipped g other hold hskipped)

/-- The flights other than the pending one have settled. -/
theorem Sound.settled_of_ne {f g : ℕ} {flight other : Flight} (h : Sound s)
    (hflight : s.flights[f]? = some flight) (hunsettled : flight.phase.unsettled = true)
    (hother : s.flights[g]? = some other) (hg : g ≠ f) : other.phase.unsettled = false := by
  by_contra hopen
  have hfirst := h.single f flight hflight hunsettled
  have hsecond := h.single g other hother (by simpa using hopen)
  rw [hfirst, Option.some.injEq] at hsecond
  exact hg hsecond.symm

/-- Loads that have settled stay, and so does what settled flights rest on. -/
theorem backed_of_settled {loads loads' : List Load} {f : ℕ} {key : String} {phase : FlightPhase}
    (hloads : ∀ (l : ℕ) (load : Load), loads[l]? = some load → load.result ≠ none →
      loads'[l]? = some load)
    (hsettled : phase.unsettled = false) (h : Backed loads f key phase) :
    Backed loads' f key phase := by
  cases phase with
  | settled outcome =>
      cases outcome with
      | skipped => trivial
      | loaded l result => exact hloads l _ h (by simp)
  | _ => cases hsettled

theorem not_mem_tasks (phase : FlightPhase) (f i : ℕ) : .resume i ∉ phase.tasks f := by
  cases phase <;> simp [FlightPhase.tasks]

theorem filter_tasks (phase : FlightPhase) (f : ℕ) :
    (phase.tasks f).filter Microtask.ofFlight = phase.tasks f := by
  cases phase <;> rfl

theorem count_tasks (phase : FlightPhase) (f i : ℕ) : (phase.tasks f).count (.resume i) = 0 :=
  List.count_eq_zero.mpr (not_mem_tasks phase f i)

/-- Apart from the microtask of the pending flight, only calls are queued. -/
theorem Sound.filter_rest {f : ℕ} {flight : Flight} {rest : List Microtask} (h : Sound s)
    (hflight : s.flights[f]? = some flight) (hunsettled : flight.phase.unsettled = true)
    (hqueue : s.microtasks = flight.phase.tasks f ++ rest) :
    rest.filter Microtask.ofFlight = [] := by
  have htasks := h.tasks
  unfold due at htasks
  simp only [h.single f flight hflight hunsettled, hflight] at htasks
  rw [hqueue, List.filter_append, filter_tasks] at htasks
  exact List.append_right_eq_self.mp htasks

/-- The pending flight goes on, and its next microtask is queued. -/
theorem Sound.flightMoved {f : ℕ} {flight : Flight} {phase : FlightPhase} {loads : List Load}
    {rest : List Microtask} (h : Sound s) (hflight : s.flights[f]? = some flight)
    (hbefore : flight.phase.unsettled = true) (hafter : phase.unsettled = true)
    (hqueue : s.microtasks = flight.phase.tasks f ++ rest)
    (hloads : ∀ (l : ℕ) (load : Load), s.loads[l]? = some load → load.result ≠ none →
      loads[l]? = some load)
    (hrunning : ∀ (l : ℕ) (load : Load), loads[l]? = some load → load.result = none →
      load.flight = f ∧ (phase = .subscribing l ∨ phase = .loading l))
    (hbacked : Backed loads f flight.key phase) :
    Sound { s with
      flights := s.flights.set f { flight with phase := phase }
      loads := loads
      microtasks := rest ++ phase.tasks f } := by
  have hpending := h.single f flight hflight hbefore
  have hlast : (s.flights.set f { flight with phase := phase })[f]? =
      some { flight with phase := phase } := getElem?_set_self hflight _
  have hrest := h.filter_rest hflight hbefore hqueue
  have hmem : ∀ j, .resume j ∈ rest ++ phase.tasks f ↔ .resume j ∈ s.microtasks := by
    intro j
    rw [hqueue, List.mem_append, List.mem_append]
    constructor
    · rintro (hj | hj)
      · exact Or.inr hj
      · exact absurd hj (not_mem_tasks phase f j)
    · rintro (hj | hj)
      · exact absurd hj (not_mem_tasks flight.phase f j)
      · exact Or.inl hj
  refine ⟨fun j => ?_, fun g other hother j hj => ?_, fun j hj => ?_, ?_,
    fun g other hother hopen => ?_, h.led, fun j other g hother hstarts => ?_,
    fun j other g hother hjoins => ?_, fun g other hother hopen => ?_,
    fun g other hg hother hdone => ?_, fun l load hload hresult => ?_,
    fun g other hother => ?_, fun g other hother hskipped => ?_⟩
  · have hsum := sum_map_set (fun flight : Flight => flight.reactions.count j) hflight
      { flight with phase := phase }
    have hold := h.held j
    simp only [SingleFlight.held] at hold hsum ⊢
    rw [hqueue, List.count_append, count_tasks] at hold
    rw [List.count_append, count_tasks, ← hold]
    omega
  · rcases getElem?_set_cases hother with ⟨rfl, rfl⟩ | ⟨-, hold⟩
    · exact ⟨hafter, (h.reacts g flight hflight j hj).2⟩
    · exact h.reacts g other hold j hj
  · obtain ⟨g, other, hsome, hother, hdone⟩ := h.resumes j ((hmem j).mp hj)
    have hne : g ≠ f := by
      rintro rfl
      rw [hflight] at hother
      cases hother
      rw [hbefore] at hdone
      cases hdone
    exact ⟨g, other, hsome, (getElem?_set_of_ne hne _).trans hother, hdone⟩
  · unfold due
    simp only [hpending, hlast]
    rw [List.filter_append, hrest, filter_tasks]
    rfl
  · rcases getElem?_set_cases hother with ⟨rfl, rfl⟩ | ⟨-, hold⟩
    · exact hpending
    · exact h.single g other hold hopen
  · obtain ⟨hleads, lead, hlead, hstarter, hkey⟩ := h.leads j other g hother hstarts
    by_cases hg : g = f
    · rw [hg, hflight] at hlead
      cases hlead
      rw [hg] at hleads ⊢
      exact ⟨hleads, _, hlast, hstarter, hkey⟩
    · exact ⟨hleads, lead, (getElem?_set_of_ne hg _).trans hlead, hstarter, hkey⟩
  · obtain ⟨lead, hlead, hkey⟩ := h.joined j other g hother hjoins
    by_cases hg : g = f
    · rw [hg, hflight] at hlead
      cases hlead
      rw [hg]
      exact ⟨_, hlast, hkey⟩
    · exact ⟨lead, (getElem?_set_of_ne hg _).trans hlead, hkey⟩
  · rcases getElem?_set_cases hother with ⟨rfl, rfl⟩ | ⟨-, hold⟩
    · exact h.firstReaction g flight hflight hbefore
    · exact h.firstReaction g other hold hopen
  · rw [hpending, Option.some.injEq] at hg
    rw [← hg, hlast] at hother
    cases hother
    rw [show FlightPhase.unsettled _ = true from hafter] at hdone
    cases hdone
  · obtain ⟨hsame, hphase⟩ := hrunning l load hload hresult
    rw [hsame]
    exact ⟨_, hlast, hphase⟩
  · rcases getElem?_set_cases hother with ⟨rfl, rfl⟩ | ⟨hg, hold⟩
    · exact hbacked
    · exact backed_of_settled hloads (h.settled_of_ne hflight hbefore hold hg)
        (h.backed g other hold)
  · rcases getElem?_set_cases hother with ⟨rfl, rfl⟩ | ⟨-, hold⟩
    · have hdone : phase = .settled .skipped := hskipped
      rw [hdone] at hafter
      cases hafter
    · exact h.skipped g other hold hskipped

theorem count_resumes (reactions : List ℕ) (i : ℕ) :
    (reactions.map Microtask.resume).count (.resume i) = reactions.count i :=
  List.count_map_of_injective reactions Microtask.resume
    (fun _ _ hsame => Microtask.resume.inj hsame) i

theorem mem_resumes {reactions : List ℕ} {i : ℕ}
    (h : .resume i ∈ reactions.map Microtask.resume) : i ∈ reactions := by
  obtain ⟨j, hj, hsame⟩ := List.mem_map.mp h
  rwa [← Microtask.resume.inj hsame]

/-- The pending flight settles, and its reactions are queued, the starter first. -/
theorem Sound.flightSettled {f : ℕ} {flight : Flight} {outcome : FlightOutcome}
    {loads : List Load} {rest : List Microtask} (h : Sound s)
    (hflight : s.flights[f]? = some flight) (hbefore : flight.phase.unsettled = true)
    (hqueue : s.microtasks = flight.phase.tasks f ++ rest)
    (hloads : ∀ (l : ℕ) (load : Load), s.loads[l]? = some load → load.result ≠ none →
      loads[l]? = some load)
    (hresults : ∀ (l : ℕ) (load : Load), loads[l]? = some load → load.result ≠ none)
    (hbacked : Backed loads f flight.key (.settled outcome))
    (hskip : outcome = .skipped → ∃ starter, s.calls[flight.starter]? = some starter ∧
      starter.current = false) :
    Sound { s with
      flights := s.flights.set f { flight with phase := .settled outcome, reactions := [] }
      loads := loads
      microtasks := rest ++ flight.reactions.map .resume } := by
  have hpending := h.single f flight hflight hbefore
  have hlast : (s.flights.set f { flight with phase := .settled outcome, reactions := [] })[f]? =
      some { flight with phase := .settled outcome, reactions := [] } :=
    getElem?_set_self hflight _
  have hrest := h.filter_rest hflight hbefore hqueue
  have hmem : ∀ j, .resume j ∈ rest → .resume j ∈ s.microtasks := by
    intro j hj
    rw [hqueue]
    exact List.mem_append_right _ hj
  have helsewhere : ∀ j, .resume j ∈ rest → awaits s.calls j ≠ some f := by
    intro j hj hawaits
    obtain ⟨g, other, hsome, hother, hdone⟩ := h.resumes j (hmem j hj)
    rw [hawaits, Option.some.injEq] at hsome
    rw [← hsome, hflight] at hother
    cases hother
    rw [hbefore] at hdone
    cases hdone
  refine ⟨fun j => ?_, fun g other hother j hj => ?_, fun j hj => ?_, ?_,
    fun g other hother hopen => ?_, h.led, fun j other g hother hstarts => ?_,
    fun j other g hother hjoins => ?_, fun g other hother hopen => ?_,
    fun g other hg hother hdone => ?_, fun l load hload hresult => absurd hresult (hresults l load hload),
    fun g other hother => ?_, fun g other hother hskipped => ?_⟩
  · have hsum := sum_map_set (fun flight : Flight => flight.reactions.count j) hflight
      { flight with phase := .settled outcome, reactions := [] }
    have hold := h.held j
    simp only [SingleFlight.held, List.count_nil] at hold hsum ⊢
    rw [hqueue, List.count_append, count_tasks] at hold
    rw [List.count_append, count_resumes, ← hold]
    omega
  · rcases getElem?_set_cases hother with ⟨-, rfl⟩ | ⟨-, hold⟩
    · exact absurd hj List.not_mem_nil
    · exact h.reacts g other hold j hj
  · rcases List.mem_append.mp hj with hold | hnew
    · obtain ⟨g, other, hsome, hother, hdone⟩ := h.resumes j (hmem j hold)
      have hne : g ≠ f := by
        rintro rfl
        exact helsewhere j hold hsome
      exact ⟨g, other, hsome, (getElem?_set_of_ne hne _).trans hother, hdone⟩
    · exact ⟨f, _, (h.reacts f flight hflight j (mem_resumes hnew)).2, hlast, rfl⟩
  · have hnone : (flight.reactions.map Microtask.resume).filter Microtask.ofFlight = [] := by
      rw [List.filter_eq_nil_iff]
      intro task htask
      obtain ⟨j, -, rfl⟩ := List.mem_map.mp htask
      simp [Microtask.ofFlight]
    unfold due
    simp only [hpending, hlast]
    rw [List.filter_append, hrest, hnone]
    rfl
  · rcases getElem?_set_cases hother with ⟨-, rfl⟩ | ⟨-, hold⟩
    · cases hopen
    · exact h.single g other hold hopen
  · obtain ⟨hleads, lead, hlead, hstarter, hkey⟩ := h.leads j other g hother hstarts
    by_cases hg : g = f
    · rw [hg, hflight] at hlead
      cases hlead
      rw [hg] at hleads ⊢
      exact ⟨hleads, _, hlast, hstarter, hkey⟩
    · exact ⟨hleads, lead, (getElem?_set_of_ne hg _).trans hlead, hstarter, hkey⟩
  · obtain ⟨lead, hlead, hkey⟩ := h.joined j other g hother hjoins
    by_cases hg : g = f
    · rw [hg, hflight] at hlead
      cases hlead
      rw [hg]
      exact ⟨_, hlast, hkey⟩
    · exact ⟨lead, (getElem?_set_of_ne hg _).trans hlead, hkey⟩
  · rcases getElem?_set_cases hother with ⟨-, rfl⟩ | ⟨-, hold⟩
    · cases hopen
    · exact h.firstReaction g other hold hopen
  · rw [hpending, Option.some.injEq] at hg
    rw [← hg, hlast] at hother
    cases hother
    obtain ⟨others, hreactions⟩ := h.firstReaction f flight hflight hbefore
    refine ⟨rest, others.map .resume, ?_, fun j hj => hg ▸ helsewhere j hj⟩
    simp only [hreactions, List.map_cons]
  · rcases getElem?_set_cases hother with ⟨rfl, rfl⟩ | ⟨hg, hold⟩
    · exact hbacked
    · exact backed_of_settled hloads (h.settled_of_ne hflight hbefore hold hg)
        (h.backed g other hold)
  · rcases getElem?_set_cases hother with ⟨rfl, rfl⟩ | ⟨-, hold⟩
    · have hdone : FlightPhase.settled outcome = .settled .skipped := hskipped
      exact hskip (FlightPhase.settled.inj hdone)
    · exact h.skipped g other hold hskipped

/-- Every load has settled unless the pending flight waits for it. -/
theorem Sound.load_of_unsettled {f : ℕ} {flight : Flight} (h : Sound s)
    (hflight : s.flights[f]? = some flight) (hunsettled : flight.phase.unsettled = true) {l : ℕ}
    {load : Load} (hload : s.loads[l]? = some load) (hresult : load.result = none) :
    load.flight = f ∧ (flight.phase = .subscribing l ∨ flight.phase = .loading l) := by
  obtain ⟨other, hother, hphase⟩ := h.running l load hload hresult
  have hopen : other.phase.unsettled = true := by
    rcases hphase with hphase | hphase <;> rw [hphase] <;> rfl
  have hsame : load.flight = f := by
    by_contra hne
    have hsettled := h.settled_of_ne hflight hunsettled hother hne
    rw [hopen] at hsettled
    cases hsettled
  rw [hsame, hflight] at hother
  cases hother
  exact ⟨hsame, hphase⟩

theorem await_settled {f i : ℕ} {flight : Flight} (h : flight.phase.unsettled = false) :
    s.await f flight i = s.enqueue (.resume i) := by
  unfold await
  cases hphase : flight.phase with
  | settled outcome => rfl
  | _ =>
      rw [hphase] at h
      cases h

theorem await_unsettled {f i : ℕ} {flight : Flight} (h : flight.phase.unsettled = true) :
    s.await f flight i =
      { s with
        flights := s.flights.set f { flight with reactions := flight.reactions ++ [i] } } := by
  unfold await
  cases hphase : flight.phase with
  | settled outcome =>
      rw [hphase] at h
      cases h
  | _ => rfl

theorem await_calls (s : SingleFlight) (f i : ℕ) (flight : Flight) :
    (s.await f flight i).calls = s.calls := by
  cases hunsettled : flight.phase.unsettled with
  | true =>
      rw [await_unsettled hunsettled]
  | false =>
      rw [await_settled hunsettled]
      rfl

theorem await_set_calls (s : SingleFlight) (calls : List RunCall) (f i : ℕ) (flight : Flight) :
    await { s with calls := calls } f flight i = { s.await f flight i with calls := calls } := by
  cases hunsettled : flight.phase.unsettled with
  | true => rw [await_unsettled hunsettled, await_unsettled hunsettled]
  | false =>
      rw [await_settled hunsettled, await_settled hunsettled]
      rfl

theorem enter_calls (s : SingleFlight) (calls : List RunCall) (i : ℕ) (key : String) :
    enter { s with calls := calls } i key =
      (s.enter i key).map fun entered => (entered.1, { entered.2 with calls := calls }) := by
  unfold enter
  simp only [await_set_calls]
  split
  · rw [Option.map_map]
    rfl
  · rfl

/-- The body of `run` for a call that awaits nothing. -/
theorem Sound.entered {i : ℕ} {call : RunCall} {entered : RunPhase × SingleFlight} (h : Sound s)
    (hcall : s.calls[i]? = some call) (hphase : call.phase.awaited = none)
    (henter : s.enter i call.key = some entered) :
    Sound { entered.2 with calls := s.calls.set i { call with phase := entered.1 } } := by
  unfold enter at henter
  cases hpending : s.pending with
  | none =>
      simp only [hpending] at henter
      cases henter
      exact h.enteredNew hcall hphase hpending
  | some f =>
      simp only [hpending] at henter
      obtain ⟨flight, hflight, rfl⟩ := Option.map_eq_some_iff.mp henter
      have hawaited : RunPhase.awaited (if flight.key = call.key then .joined f else .waiting f) =
          some f := by
        split_ifs <;> rfl
      have hstarting : (if flight.key = call.key then RunPhase.joined f else .waiting f) ≠
          .starting f := by
        split_ifs <;> nofun
      have hjoined : (if flight.key = call.key then RunPhase.joined f else .waiting f) =
          .joined f → flight.key = call.key := by
        intro hjoins
        by_contra hkey
        rw [if_neg hkey] at hjoins
        cases hjoins
      cases hunsettled : flight.phase.unsettled with
      | true =>
          simp only [await_unsettled hunsettled]
          exact h.enteredUnsettled hcall hphase hflight hunsettled hawaited hstarting hjoined
      | false =>
          simp only [await_settled hunsettled]
          exact h.enteredSettled hcall hphase hflight hunsettled hawaited hstarting hjoined

theorem run_sound {key : String} {current : Bool} (h : Sound s)
    (hstep : s.run key current = some s') : Sound s' := by
  unfold run at hstep
  split_ifs at hstep with hcurrent
  · cases hstep
    exact h.appended _ rfl
  · obtain ⟨entered, henter, rfl⟩ := Option.map_eq_some_iff.mp hstep
    have happended := h.appended ⟨key, true, .finished .undefined true⟩ rfl
    have hcall : (s.calls ++ [⟨key, true, .finished .undefined true⟩])[s.calls.length]? =
        some ⟨key, true, .finished .undefined true⟩ := by
      rw [List.getElem?_append_right le_rfl, Nat.sub_self]
      rfl
    have hentered := happended.entered hcall rfl (by
      rw [enter_calls, henter]
      rfl)
    simp only [List.set_append_right _ _ le_rfl, Nat.sub_self, List.set_cons_zero] at hentered
    exact hentered

theorem settle_sound {l : ℕ} {result : LoadResult} (h : Sound s)
    (hstep : s.settle l result = some s') : Sound s' := by
  unfold settle at hstep
  split at hstep
  case h_2 => cases hstep
  rename_i key f hload
  have hkeeps : ∀ (l' : ℕ) (load : Load), s.loads[l']? = some load → load.result ≠ none →
      (s.loads.set l ⟨key, f, some result⟩)[l']? = some load := by
    intro l' load hload' hresult
    have hne : l' ≠ l := by
      rintro rfl
      rw [hload] at hload'
      cases hload'
      exact hresult rfl
    exact (getElem?_set_of_ne hne _).trans hload'
  obtain ⟨flight, hflight, hphase⟩ := h.running l _ hload rfl
  have hunsettled : flight.phase.unsettled = true := by
    rcases hphase with hphase | hphase <;> rw [hphase] <;> rfl
  have hstill : ∀ (l' : ℕ) (load : Load),
      (s.loads.set l ⟨key, f, some result⟩)[l']? = some load → load.result = none →
        l' ≠ l ∧ s.loads[l']? = some load := by
    intro l' load hload' hresult
    rcases getElem?_set_cases hload' with ⟨-, rfl⟩ | ⟨hne, hold⟩
    · cases hresult
    · exact ⟨hne, hold⟩
  simp only [hflight] at hstep
  have hbacked := h.backed f flight hflight
  split_ifs at hstep with hloading <;> cases hstep
  · rw [hloading] at hbacked
    have hkey : key = flight.key := by
      have hsame : s.loads[l]? = some ⟨flight.key, f, none⟩ := hbacked
      rw [hload] at hsame
      cases hsame
      rfl
    refine h.flightMoved hflight hunsettled rfl (by rw [hloading]; rfl) hkeeps
      (fun l' load hload' hresult => ?_) ?_
    · obtain ⟨hne, hold⟩ := hstill l' load hload' hresult
      obtain ⟨-, hsame⟩ := h.load_of_unsettled hflight hunsettled hold hresult
      rw [hloading] at hsame
      rcases hsame with hsame | hsame <;> cases hsame
      exact absurd rfl hne
    · rw [← hkey]
      exact getElem?_set_self hload _
  · have hsubscribing : flight.phase = .subscribing l := hphase.resolve_right hloading
    refine ⟨h.held, h.reacts, h.resumes, h.tasks, h.single, h.led, h.leads, h.joined,
      h.firstReaction, h.firstResume, fun l' load hload' hresult => ?_,
      fun g other hother => ?_, h.skipped⟩
    · exact h.running l' load (hstill l' load hload' hresult).2 hresult
    · by_cases hg : g = f
      · rw [hg, hflight] at hother
        cases hother
        rw [hsubscribing] at hbacked ⊢
        obtain ⟨old, hold⟩ := hbacked
        rw [hload] at hold
        cases hold
        exact ⟨some result, by rw [hg]; exact getElem?_set_self hload _⟩
      · exact backed_of_settled hkeeps (h.settled_of_ne hflight hunsettled hother hg)
          (h.backed g other hother)

theorem launch_sound {f : ℕ} {throws : Bool} {rest : List Microtask} (h : Sound s)
    (hqueue : s.microtasks = .launch f :: rest)
    (hstep : launch { s with microtasks := rest } f throws = some s') : Sound s' := by
  obtain ⟨flight, hflight, hstep⟩ := Option.bind_eq_some_iff.mp hstep
  obtain ⟨starter, hstarter, hstep⟩ := Option.bind_eq_some_iff.mp hstep
  by_cases hphase : flight.phase = .launching
  case neg =>
    rw [if_pos hphase] at hstep
    cases hstep
  rw [if_neg (not_not.mpr hphase)] at hstep
  have hunsettled : flight.phase.unsettled = true := by
    rw [hphase]
    rfl
  have htasks : s.microtasks = flight.phase.tasks f ++ rest := by
    rw [hphase]
    exact hqueue
  have hresults : ∀ (l : ℕ) (load : Load), s.loads[l]? = some load → load.result ≠ none := by
    intro l load hload hresult
    obtain ⟨-, hloading⟩ := h.load_of_unsettled hflight hunsettled hload hresult
    rw [hphase] at hloading
    rcases hloading with hloading | hloading <;> cases hloading
  have hlast : ∀ load : Load, (s.loads ++ [load])[s.loads.length]? = some load := by
    intro load
    rw [List.getElem?_append_right le_rfl, Nat.sub_self]
    rfl
  split_ifs at hstep with hstale hthrows <;> cases hstep
  · exact h.flightSettled hflight hunsettled htasks (fun _ _ hload _ => hload) hresults trivial
      fun _ => ⟨starter, hstarter, hstale⟩
  · refine h.flightSettled hflight hunsettled htasks
      (fun _ _ hload _ => getElem?_append_of_some hload _) (fun l load hload => ?_) (hlast _) nofun
    rcases getElem?_append_cases hload with ⟨-, rfl⟩ | hold
    · nofun
    · exact hresults l load hold
  · refine h.flightMoved hflight hunsettled rfl htasks
      (fun _ _ hload _ => getElem?_append_of_some hload _) (fun l load hload hresult => ?_)
      ⟨none, hlast _⟩
    rcases getElem?_append_cases hload with ⟨rfl, rfl⟩ | hold
    · exact ⟨rfl, Or.inl rfl⟩
    · exact absurd hresult (hresults l load hold)

theorem subscribe_sound {f : ℕ} {rest : List Microtask} (h : Sound s)
    (hqueue : s.microtasks = .subscribe f :: rest)
    (hstep : subscribe { s with microtasks := rest } f = some s') : Sound s' := by
  unfold subscribe at hstep
  split at hstep
  case h_2 => cases hstep
  rename_i flight hflight
  split at hstep
  case h_2 => cases hstep
  rename_i l hphase
  have hunsettled : flight.phase.unsettled = true := by
    rw [hphase]
    rfl
  have htasks : s.microtasks = flight.phase.tasks f ++ rest := by
    rw [hphase]
    exact hqueue
  have hbacked := h.backed f flight hflight
  rw [hphase] at hbacked
  obtain ⟨old, hold⟩ := hbacked
  have hsame : ∀ (l' : ℕ) (load : Load), s.loads[l']? = some load → load.result = none →
      load.flight = f ∧ l' = l := by
    intro l' load hload hresult
    obtain ⟨hof, hloading⟩ := h.load_of_unsettled hflight hunsettled hload hresult
    rw [hphase] at hloading
    rcases hloading with hloading | hloading <;> cases hloading
    exact ⟨hof, rfl⟩
  split at hstep
  · rename_i key of hload
    cases hstep
    have hmoved := @Sound.flightMoved s f flight (.loading l) s.loads rest h hflight hunsettled rfl
      htasks (fun _ _ hload _ => hload) (fun l' load hload' hresult => ?_) ?_
    · simp only [FlightPhase.tasks, List.append_nil] at hmoved
      exact hmoved
    · obtain ⟨hof, rfl⟩ := hsame l' load hload' hresult
      exact ⟨hof, Or.inr rfl⟩
    · rw [show s.loads[l]? = _ from hload] at hold
      cases hold
      exact hload
  · rename_i key of result hload
    cases hstep
    refine h.flightMoved hflight hunsettled rfl htasks (fun _ _ hload _ => hload)
      (fun l' load hload' hresult => ?_) ?_
    · obtain ⟨-, rfl⟩ := hsame l' load hload' hresult
      have hagain : s.loads[l']? = some load := hload'
      rw [show s.loads[l']? = _ from hload] at hagain
      cases hagain
      cases hresult
    · rw [show s.loads[l]? = _ from hload] at hold
      cases hold
      exact hload
  · cases hstep

theorem follow_sound {f : ℕ} {rest : List Microtask} (h : Sound s)
    (hqueue : s.microtasks = .follow f :: rest)
    (hstep : follow { s with microtasks := rest } f = some s') : Sound s' := by
  unfold follow at hstep
  split at hstep
  case h_2 => cases hstep
  rename_i flight hflight
  split at hstep
  case h_2 => cases hstep
  rename_i l result hphase
  cases hstep
  have hunsettled : flight.phase.unsettled = true := by
    rw [hphase]
    rfl
  have htasks : s.microtasks = flight.phase.tasks f ++ rest := by
    rw [hphase]
    exact hqueue
  have hbacked := h.backed f flight hflight
  rw [hphase] at hbacked
  refine h.flightSettled hflight hunsettled htasks (fun _ _ hload _ => hload)
    (fun l' load hload hresult => ?_) hbacked nofun
  obtain ⟨-, hloading⟩ := h.load_of_unsettled hflight hunsettled hload hresult
  rw [hphase] at hloading
  rcases hloading with hloading | hloading <;> cases hloading

theorem resume_sound {i : ℕ} {rest : List Microtask} (h : Sound s)
    (hqueue : s.microtasks = .resume i :: rest)
    (hstep : resume { s with microtasks := rest } i = some s') : Sound s' := by
  obtain ⟨call, hcall, hstep⟩ := Option.bind_eq_some_iff.mp hstep
  cases hphase : call.phase with
  | starting f =>
      rw [hphase] at hstep
      obtain ⟨outcome, -, rfl⟩ := Option.map_eq_some_iff.mp hstep
      refine h.finished hqueue hcall rfl rfl fun g => ?_
      have hpending := (h.leads i call f hcall hphase).1
      simp only [hpending, if_pos, hphase, reduceCtorEq, false_iff, not_and, not_not]
      intro hsame
      cases hsame
      rfl
  | joined f =>
      rw [hphase] at hstep
      obtain ⟨outcome, -, rfl⟩ := Option.map_eq_some_iff.mp hstep
      exact h.finished hqueue hcall rfl rfl fun g => by rw [hphase]; simp
  | waiting f =>
      rw [hphase] at hstep
      have hfinished : Sound { s with
          microtasks := rest
          calls := s.calls.set i { call with phase := .finished .undefined call.current } } :=
        h.finished hqueue hcall rfl rfl fun g => by rw [hphase]; simp
      simp only at hstep
      split_ifs at hstep with hcurrent
      · obtain ⟨entered, henter, rfl⟩ := Option.map_eq_some_iff.mp hstep
        have hentered := hfinished.entered (getElem?_set_self hcall _) rfl (by
          rw [enter_calls { s with microtasks := rest }, henter]
          rfl)
        simp only [List.set_set] at hentered
        have hcalls : entered.2.calls = s.calls := by
          unfold enter at henter
          cases hpending : s.pending with
          | none =>
              simp only [hpending] at henter
              cases henter
              rfl
          | some g =>
              simp only [hpending] at henter
              obtain ⟨flight, -, rfl⟩ := Option.map_eq_some_iff.mp henter
              exact await_calls _ g i flight
        unfold setCall
        rw [hcalls]
        exact hentered
      · cases hstep
        exact hfinished
  | finished result current =>
      rw [hphase] at hstep
      cases hstep

theorem Sound.stepped {event : FlightEvent} (h : Sound s) (hstep : s.step event = some s') :
    Sound s' := by
  cases event with
  | run key current => exact run_sound h hstep
  | stale call => exact stale_sound h hstep
  | settle load result => exact settle_sound h hstep
  | tick throws =>
      simp only [step, tick] at hstep
      cases hqueue : s.microtasks with
      | nil =>
          rw [hqueue] at hstep
          cases hstep
      | cons task rest =>
          rw [hqueue] at hstep
          cases task with
          | launch f => exact launch_sound h hqueue hstep
          | subscribe f => exact subscribe_sound h hqueue hstep
          | follow f => exact follow_sound h hqueue hstep
          | resume i => exact resume_sound h hqueue hstep

end Invariant

end SingleFlight
end Ticketing
