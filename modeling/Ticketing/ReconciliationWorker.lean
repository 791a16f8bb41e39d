import Ticketing.RoundEnds

/-!
# The worker of the payment reconciliation

The completion of a round asks for statistics, and their answer sets the timer of the next round.
As long as the callbacks of a round stay apart there is always one thing under way; a decrement
that is lost, or a completion that is taken twice, ends that.
-/

namespace Ticketing

open Threads

/-- `rounds` lists the rounds it has run; `reports` and `timers` count the statistics queries and
the timers that are under way. The callbacks do nothing once the worker is gone. -/
structure PaymentReconciliationWorker where
  batchSize : ℕ
  started : Bool := false
  alive : Bool := true
  rounds : List Round := []
  reports : ℕ := 0
  timers : ℕ := 0

inductive WorkerEvent where
  | start
  | round (index : ℕ) (event : RoundStep)
  | reported (succeeds : Bool)
  | timerFired
  | destroy

/-- An answer, a step of a callback, or a timer that fires. -/
def WorkerEvent.due : WorkerEvent → Bool
  | .start => false
  | .destroy => false
  | _ => true

namespace PaymentReconciliationWorker

section Steps

variable (w : PaymentReconciliationWorker)

def runCurrentRound : PaymentReconciliationWorker :=
  { w with rounds := w.rounds ++ [Round.start w.batchSize] }

/-- Whether the query succeeds or not. -/
def scheduleNextRound : PaymentReconciliationWorker := { w with timers := w.timers + 1 }

/-- Each call of the completion reports on the refunds first. -/
def advance (index : ℕ) (event : RoundStep) : Option PaymentReconciliationWorker := do
  let round ← w.rounds[index]?
  let next ← round.step event
  let calls := next.state.completions.length - round.state.completions.length
  return { w with
    rounds := w.rounds.set index next
    reports := w.reports + if w.alive then calls else 0 }

def step : WorkerEvent → Option PaymentReconciliationWorker
  | .start =>
      if w.alive = false then none
      else some (if w.started then w else { w with started := true }.runCurrentRound)
  | .round index event => w.advance index event
  | .reported _ =>
      if w.reports = 0 then none
      else
        let w := { w with reports := w.reports - 1 }
        some (if w.alive then w.scheduleNextRound else w)
  | .timerFired =>
      if w.timers = 0 then none
      else
        let w := { w with timers := w.timers - 1 }
        some (if w.alive then w.runCurrentRound else w)
  | .destroy => some { w with alive := false }

/-- No callback of a round begins while another one of it is in the middle of its accesses. -/
def Apart : WorkerEvent → Prop
  | .round index event => ∀ round ∈ w.rounds[index]?, round.Apart event
  | _ => True

end Steps

instance (w : PaymentReconciliationWorker) : DecidablePred w.Apart
  | .round index event => inferInstanceAs (Decidable (∀ round ∈ w.rounds[index]?, round.Apart event))
  | .start => inferInstanceAs (Decidable True)
  | .reported _ => inferInstanceAs (Decidable True)
  | .timerFired => inferInstanceAs (Decidable True)
  | .destroy => inferInstanceAs (Decidable True)

/-- The round has not called its completion. -/
def running (round : Round) : Bool := round.state.completions.isEmpty

/-- What will lead to the next round: rounds that run, statistics queries and timers. -/
def turns (w : PaymentReconciliationWorker) : ℕ :=
  w.rounds.countP running + w.reports + w.timers

structure Sound (w : PaymentReconciliationWorker) : Prop where
  rounds : ∀ round ∈ w.rounds, round.Sound
  single : w.alive = true → w.turns = if w.started then 1 else 0
  most : w.turns ≤ 1

section Invariant

variable {w w' : PaymentReconciliationWorker}

theorem running_eq (round : Round) :
    (if running round then 1 else 0) = 1 - round.state.completions.length := by
  unfold running
  cases round.state.completions with
  | nil => rfl
  | cons call calls => simp

/-- The calls of the completion in a step end the round as one that runs. -/
theorem running_step {round next : Round} {event : RoundStep} (h : round.Sound)
    (hapart : round.Apart event) (hstep : round.step event = some next) :
    (if running next then 1 else 0) +
        (next.state.completions.length - round.state.completions.length) =
      if running round then 1 else 0 := by
  have hnext := (h.stepped hapart hstep).endsOnce.once
  have hprefix := (Round.completions_step hstep).length_le
  rw [running_eq, running_eq]
  omega

theorem init_sound (batchSize : ℕ) :
    Sound ({ batchSize := batchSize } : PaymentReconciliationWorker) where
  rounds _ h := absurd h List.not_mem_nil
  single _ := rfl
  most := Nat.zero_le _

/-- A new round takes the place of what led to it. -/
theorem runCurrentRound_sound (hrounds : ∀ round ∈ w.rounds, round.Sound) (hstarted : w.started)
    (hturns : w.turns = 0) : Sound w.runCurrentRound := by
  have hnext : w.runCurrentRound.turns = 1 := by
    have hrunning : (w.rounds ++ [Round.start w.batchSize]).countP running =
        w.rounds.countP running + 1 := by
      rw [List.countP_append]
      rfl
    unfold turns at hturns
    simp only [turns, runCurrentRound, hrunning]
    omega
  refine ⟨fun round hmem => ?_, fun _ => ?_, hnext.le⟩
  · rcases List.mem_append.mp hmem with hold | hnew
    · exact hrounds round hold
    · rw [List.mem_singleton.mp hnew]
      exact Round.start_sound w.batchSize
  · rw [hnext, show w.runCurrentRound.started = true from hstarted, if_pos rfl]

/-- Something is under way, so the worker has been started if it still lives. -/
theorem Sound.started_of_turns (h : Sound w) (halive : w.alive = true) (hturns : 0 < w.turns) :
    w.started = true := by
  by_contra hstarted
  have hsingle := h.single halive
  rw [if_neg hstarted] at hsingle
  omega

theorem advance_sound {index : ℕ} {event : RoundStep} (h : Sound w)
    (hapart : w.Apart (.round index event)) (hstep : w.advance index event = some w') :
    Sound w' := by
  obtain ⟨round, hround, hstep⟩ := Option.bind_eq_some_iff.mp hstep
  obtain ⟨next, hnext, hstep⟩ := Option.bind_eq_some_iff.mp hstep
  cases hstep
  have hroundApart : round.Apart event := hapart round hround
  have hsound := h.rounds round (List.mem_of_getElem? hround)
  have hcount := countP_set running hround next
  have hrunning := running_step hsound hroundApart hnext
  have hsingle := h.single
  have hmost := h.most
  unfold turns at hsingle hmost
  refine ⟨fun other hmem => ?_, fun halive => ?_, ?_⟩
  · rcases List.mem_or_eq_of_mem_set hmem with hold | hnew
    · exact h.rounds other hold
    · rw [hnew]
      exact hsound.stepped hroundApart hnext
  · have hturns := hsingle halive
    simp only [turns]
    rw [if_pos halive]
    omega
  · simp only [turns]
    split_ifs <;> omega

theorem Sound.stepped (h : Sound w) {event : WorkerEvent} (hapart : w.Apart event)
    (hstep : w.step event = some w') : Sound w' := by
  have hsingle := h.single
  have hmost := h.most
  cases event with
  | start =>
      simp only [step] at hstep
      split_ifs at hstep with hgone hstarted <;> cases hstep
      · exact h
      · have hnone := hsingle (by simpa using hgone)
        rw [if_neg hstarted] at hnone
        exact runCurrentRound_sound h.rounds rfl hnone
  | round index event => exact advance_sound h hapart hstep
  | reported succeeds =>
      simp only [step] at hstep
      split_ifs at hstep with hreports halive <;> cases hstep
      · have hturns : ({ w with reports := w.reports - 1 }.scheduleNextRound).turns = w.turns := by
          simp only [turns, scheduleNextRound]
          omega
        exact ⟨h.rounds, fun _ => hturns.trans (hsingle halive), hturns.trans_le hmost⟩
      · refine ⟨h.rounds, fun hagain => absurd hagain halive, ?_⟩
        simp only [turns] at hmost ⊢
        omega
  | timerFired =>
      simp only [step] at hstep
      split_ifs at hstep with htimers halive <;> cases hstep
      · have hpos : 0 < w.turns := by
          unfold turns
          omega
        refine runCurrentRound_sound h.rounds (h.started_of_turns halive hpos) ?_
        simp only [turns] at hmost ⊢
        omega
      · refine ⟨h.rounds, fun hagain => absurd hagain halive, ?_⟩
        simp only [turns] at hmost ⊢
        omega
  | destroy =>
      cases hstep
      exact ⟨h.rounds, nofun, hmost⟩

theorem run_sound {batchSize : ℕ} {events : List WorkerEvent}
    (hrun : run step events { batchSize := batchSize } = some w)
    (hthrough : Through step Apart events { batchSize := batchSize }) : Sound w :=
  run_invariant
    (fun _ _ _ hs hstep => hs.stepped (guarded_eq_some.mp hstep).1 (guarded_eq_some.mp hstep).2)
    (init_sound batchSize) (run_guarded.mpr ⟨hrun, hthrough⟩)

/-- The steps of a round, taken by the worker. -/
theorem advance_run {index : ℕ} {events : List RoundStep} {round last : Round}
    (hround : w.rounds[index]? = some round)
    (hrun : run (guarded Round.step Round.Apart) events round = some last) :
    ∃ w', run (guarded step Apart) (events.map (WorkerEvent.round index)) w = some w' ∧
      w'.rounds = w.rounds.set index last ∧ w'.alive = w.alive ∧ w'.started = w.started ∧
      w'.timers = w.timers := by
  induction events generalizing w round with
  | nil =>
      cases hrun
      refine ⟨w, rfl, ?_, rfl, rfl, rfl⟩
      obtain ⟨hlength, hget⟩ := List.getElem?_eq_some_iff.mp hround
      rw [← hget, List.set_getElem_self]
  | cons event events ih =>
      rw [run_cons] at hrun
      obtain ⟨next, hguarded, hrest⟩ := Option.bind_eq_some_iff.mp hrun
      obtain ⟨hapart, hnext⟩ := guarded_eq_some.mp hguarded
      have hadvance : ∃ w₁, guarded step Apart w (.round index event) = some w₁ ∧
          w₁.rounds = w.rounds.set index next ∧ w₁.alive = w.alive ∧ w₁.started = w.started ∧
          w₁.timers = w.timers := by
        have hmeets : w.Apart (.round index event) := by
          intro other hother
          rw [hround, Option.mem_some_iff] at hother
          exact hother ▸ hapart
        have hstep : w.step (.round index event) = some { w with
            rounds := w.rounds.set index next
            reports := w.reports + if w.alive then
              next.state.completions.length - round.state.completions.length else 0 } := by
          show w.advance index event = _
          unfold advance
          rw [hround, Option.bind_eq_bind, Option.bind_some, hnext]
          rfl
        exact ⟨_, guarded_eq_some.mpr ⟨hmeets, hstep⟩, rfl, rfl, rfl, rfl⟩
      obtain ⟨w₁, hstep, hrounds, halive, hstarted, htimers⟩ := hadvance
      have hget : w₁.rounds[index]? = some next := by
        rw [hrounds]
        exact getElem?_set_self hround next
      obtain ⟨w', hlater, hrounds', halive', hstarted', htimers'⟩ := ih hget hrest
      refine ⟨w', ?_, ?_, halive'.trans halive, hstarted'.trans hstarted, htimers'.trans htimers⟩
      · rw [List.map_cons, run_cons, hstep]
        exact hlater
      · rw [hrounds', hrounds, List.set_set]

theorem timer_leads (hturns : 0 < w.timers) (halive : w.alive = true) :
    ∃ w', guarded step Apart w .timerFired = some w' ∧
      w'.rounds.length = w.rounds.length + 1 := by
  refine ⟨{ w with timers := w.timers - 1 }.runCurrentRound, ?_, ?_⟩
  · refine guarded_eq_some.mpr ⟨trivial, ?_⟩
    simp only [step]
    rw [if_neg hturns.ne', if_pos halive]
  · rw [runCurrentRound, List.length_append]
    rfl

theorem report_leads (hturns : 0 < w.reports) (halive : w.alive = true) :
    ∃ w', run (guarded step Apart) [.reported true, .timerFired] w = some w' ∧
      w'.rounds.length = w.rounds.length + 1 := by
  have hreported : guarded step Apart w (.reported true) =
      some { w with reports := w.reports - 1 }.scheduleNextRound := by
    refine guarded_eq_some.mpr ⟨trivial, ?_⟩
    simp only [step]
    rw [if_neg hturns.ne', if_pos halive]
  have hfires : 0 < ({ w with reports := w.reports - 1 }.scheduleNextRound).timers :=
    Nat.succ_pos _
  obtain ⟨w', hfired, hlength⟩ := timer_leads hfires halive
  refine ⟨w', ?_, hlength⟩
  rw [run_cons, hreported, Option.bind_some, run_cons, hfired]
  rfl

/-- A round that runs is brought to its end, which asks for the statistics. -/
theorem round_leads (h : Sound w) (halive : w.alive = true) {index : ℕ} {round : Round}
    (hround : w.rounds[index]? = some round) (hrunning : running round = true) :
    ∃ (events : List RoundStep) (w' : PaymentReconciliationWorker),
      run (guarded step Apart) (events.map (WorkerEvent.round index)) w = some w' ∧
      w'.rounds.length = w.rounds.length ∧ w'.alive = true ∧ 0 < w'.reports := by
  have hsound := h.rounds round (List.mem_of_getElem? hround)
  have hkeeps : ∀ (s : Round) (event : RoundStep) (t : Round), s.Sound →
      guarded Round.step Round.Apart s event = some t → t.Sound :=
    fun s event t hs hstep =>
      hs.stepped (guarded_eq_some.mp hstep).1 (guarded_eq_some.mp hstep).2
  obtain ⟨events, last, -, hrun, hquiet⟩ := @exists_quiet Round RoundStep
    (guarded Round.step Round.Apart) Round.Sound (fun _ => True) Round.remaining hkeeps
    (fun _ _ _ _ _ hstep => Round.remaining_lt (guarded_eq_some.mp hstep).2) round hsound
  have hlastSound : last.Sound := run_invariant hkeeps hsound hrun
  have hended : running last = false := by
    have hcalled := hlastSound.completes hquiet
    unfold running
    rw [Bool.eq_false_iff, ne_eq, List.isEmpty_iff]
    intro hnone
    rw [hnone] at hcalled
    cases hcalled
  obtain ⟨w', hlater, hrounds, halive', hstarted, htimers⟩ := advance_run hround hrun
  have hnext : Sound w' := run_invariant
    (fun _ _ _ hs hstep => hs.stepped (guarded_eq_some.mp hstep).1 (guarded_eq_some.mp hstep).2)
    h hlater
  refine ⟨events, w', hlater, ?_, halive'.trans halive, ?_⟩
  · rw [hrounds, List.length_set]
  · have hcount := countP_set running hround last
    rw [if_pos hrunning, hended] at hcount
    have hturns : w.turns = 1 := by
      have hpos : 0 < w.turns := by
        unfold turns
        have := List.countP_pos_iff.mpr ⟨round, List.mem_of_getElem? hround, hrunning⟩
        omega
      have hmost := h.most
      omega
    have hsingle := hnext.single (halive'.trans halive)
    rw [hstarted, if_pos (h.started_of_turns halive (by omega))] at hsingle
    unfold turns at hturns hsingle
    rw [hrounds, htimers] at hsingle
    simp only [Bool.false_eq_true, if_false] at hcount
    omega

end Invariant

/-- What is under way leads on to the next round. -/
theorem Sound.leads_on {w : PaymentReconciliationWorker} (h : Sound w) (halive : w.alive = true)
    (hstarted : w.started = true) : ∃ later w', (∀ event ∈ later, event.due) ∧
      run (guarded step Apart) later w = some w' ∧ w'.rounds.length = w.rounds.length + 1 := by
  have hsingle := h.single halive
  rw [if_pos hstarted] at hsingle
  unfold turns at hsingle
  by_cases htimers : 0 < w.timers
  · obtain ⟨w', hfired, hlength⟩ := timer_leads htimers halive
    refine ⟨[.timerFired], w', by simp [WorkerEvent.due], ?_, hlength⟩
    rw [run_cons, hfired]
    rfl
  by_cases hreports : 0 < w.reports
  · obtain ⟨w', hrun, hlength⟩ := report_leads hreports halive
    exact ⟨_, w', by simp [WorkerEvent.due], hrun, hlength⟩
  have hrounds : 0 < w.rounds.countP running := by omega
  obtain ⟨round, hmem, hrunning⟩ := List.countP_pos_iff.mp hrounds
  obtain ⟨index, hround⟩ := List.mem_iff_getElem?.mp hmem
  obtain ⟨events, w₁, hfirst, hsame, halive₁, hreports₁⟩ := round_leads h halive hround hrunning
  obtain ⟨w', hrun, hlength⟩ := report_leads hreports₁ halive₁
  refine ⟨events.map (WorkerEvent.round index) ++ [.reported true, .timerFired], w', ?_, ?_, ?_⟩
  · simp [WorkerEvent.due, or_imp, forall_and]
  · rw [run_append, hfirst]
    exact hrun
  · rw [hlength, hsame]

/-- While the callbacks of a round stay apart, each round calls its completion once at most, only
when all its claims are answered and all its items have ended, and it always comes to that. A
worker that lives and has been started has exactly one thing under way, a round that runs, a
statistics query or a timer, and it leads on to the next round. -/
theorem rounds_end_once (batchSize : ℕ) (events : List WorkerEvent)
    (w : PaymentReconciliationWorker)
    (hrun : run step events { batchSize := batchSize } = some w)
    (hthrough : Through step Apart events { batchSize := batchSize }) :
    (∀ round ∈ w.rounds, round.EndsOnce) ∧
      w.turns ≤ 1 ∧
      (w.alive = true → w.started = true → w.turns = 1 ∧
        ∃ later w', (∀ event ∈ later, event.due) ∧ run step later w = some w' ∧
          Through step Apart later w ∧ w'.rounds.length = w.rounds.length + 1) := by
  have hsound := run_sound hrun hthrough
  refine ⟨fun round hmem => (hsound.rounds round hmem).endsOnce, hsound.most,
    fun halive hstarted => ⟨?_, ?_⟩⟩
  · rw [hsound.single halive, if_pos hstarted]
  · obtain ⟨later, w', hdue, hlater, hlength⟩ := hsound.leads_on halive hstarted
    obtain ⟨hplain, hapart⟩ := run_guarded.mp hlater
    exact ⟨later, w', hdue, hplain, hapart, hlength⟩

/-- A callback of a round whose accesses come one after the other. -/
def undisturbed (index : ℕ) (event : RoundEvent) (accesses : ℕ) : List WorkerEvent :=
  .round index (.begin event) :: List.replicate accesses (.round index (.access 0))

/-- A payment that is answered before the loop over the payments is through, and a refund that
cannot be asked for: the skipped refund ends the round, and the next one is started. -/
def shortRound : List WorkerEvent :=
  [.start] ++ undisturbed 0 (.inboxProcessed true) 0 ++
    undisturbed 0 (.paymentsClaimed (some 1)) 4 ++ undisturbed 0 .startNext 0 ++
    undisturbed 0 (.providerAnswered 0 .processing) 0 ++
    undisturbed 0 (.updateAnswered 0 (some 1)) 6 ++ undisturbed 0 .startNext 0 ++
    undisturbed 0 (.refundsClaimed (some [false])) 5 ++ undisturbed 0 .startNext 11 ++
    undisturbed 0 .startNext 0 ++ undisturbed 0 .check 5 ++ [.reported true, .timerFired]

theorem shortRound_ends_once : ∃ w : PaymentReconciliationWorker,
    run step shortRound { batchSize := 2 } = some w ∧
      w.rounds.map (fun round => round.state.completions) = [[⟨2, 0, 2, 0⟩], []] ∧
      (∀ round ∈ w.rounds, round.EndsOnce) ∧ w.turns ≤ 1 ∧
      (w.alive = true → w.started = true → w.turns = 1 ∧
        ∃ later w', (∀ event ∈ later, event.due) ∧ run step later w = some w' ∧
          Through step Apart later w ∧ w'.rounds.length = w.rounds.length + 1) := by
  have hrun : ((run (guarded step Apart) shortRound { batchSize := 2 }).map fun w =>
      w.rounds.map fun round => round.state.completions) = some [[⟨2, 0, 2, 0⟩], []] := by
    decide +kernel
  obtain ⟨w, hguarded, hcompletions⟩ := Option.map_eq_some_iff.mp hrun
  obtain ⟨hplain, hthrough⟩ := run_guarded.mp hguarded
  exact ⟨w, hplain, hcompletions, rounds_end_once 2 shortRound w hplain hthrough⟩

theorem callback_of_ended {s : RunState} (hclaims : s.claims = .done)
    (hitems : ∀ item ∈ s.items, item.phase = .finished) (event : RoundEvent) :
    s.callback event = none := by
  have hitem : ∀ (i : ℕ) (item : ReconciliationItem), s.items[i]? = some item →
      item.phase = .finished := fun i item h => hitems item (List.mem_of_getElem? h)
  cases event with
  | inboxProcessed succeeds => simp [RunState.callback, RunState.inboxProcessed, hclaims]
  | paymentsClaimed rows => simp [RunState.callback, RunState.paymentsClaimed, hclaims]
  | refundsClaimed rows => simp [RunState.callback, RunState.refundsClaimed, hclaims]
  | startNext => simp [RunState.callback, RunState.startNext, hclaims]
  | check => simp [RunState.callback, RunState.check, hclaims]
  | providerAnswered i answer =>
      simp only [RunState.callback, RunState.providerAnswered]
      split
      · rename_i kind hfound
        cases hitem i _ hfound
      · rfl
  | updateAnswered i updated =>
      refine Option.eq_none_iff_forall_ne_some.mpr fun next hstep => ?_
      obtain ⟨item, counter, hfound, hopen, -⟩ := RunState.updateAnswered_ends hstep
      exact hopen (hitem i item hfound)
  | lifecycleAnswered i failed =>
      refine Option.eq_none_iff_forall_ne_some.mpr fun next hstep => ?_
      obtain ⟨item, counter, hfound, hopen, -⟩ := RunState.lifecycleAnswered_ends hstep
      exact hopen (hitem i item hfound)

/-- A worker whose rounds have ended without calling their completions waits for nothing. -/
theorem step_of_ended {w : PaymentReconciliationWorker} (hreports : w.reports = 0)
    (htimers : w.timers = 0) (hrounds : ∀ round ∈ w.rounds, round.opened = [] ∧
      round.state.claims = .done ∧ ∀ item ∈ round.state.items, item.phase = .finished)
    (event : WorkerEvent) (hdue : event.due = true) : w.step event = none := by
  cases event with
  | start => cases hdue
  | destroy => cases hdue
  | reported succeeds => simp [step, hreports]
  | timerFired => simp [step, htimers]
  | round index event =>
      simp only [step, advance, Option.bind_eq_bind, Option.bind_eq_none_iff]
      intro round hround next hnext
      obtain ⟨hopened, hclaims, hitems⟩ := hrounds round (List.mem_of_getElem? hround)
      cases event with
      | begin event =>
          simp [Round.step, hopened, callback_of_ended hclaims hitems event] at hnext
      | access access => simp [Round.step, hopened] at hnext

/-- Two payments are claimed, both answers are terminal, and both lifecycles end at once. -/
def twoPayments : List WorkerEvent :=
  [.start] ++ undisturbed 0 (.inboxProcessed true) 0 ++
    undisturbed 0 (.paymentsClaimed (some 2)) 4 ++ undisturbed 0 .startNext 0 ++
    undisturbed 0 .startNext 0 ++ undisturbed 0 .startNext 0 ++
    undisturbed 0 (.refundsClaimed (some [])) 5 ++ undisturbed 0 .startNext 0 ++
    undisturbed 0 .check 1 ++ undisturbed 0 (.providerAnswered 0 .terminal) 0 ++
    undisturbed 0 (.providerAnswered 1 .terminal) 0 ++
    [.round 0 (.begin (.lifecycleAnswered 0 false)), .round 0 (.begin (.lifecycleAnswered 1 false))]

def accesses (order : List ℕ) : List WorkerEvent :=
  order.map fun index => .round 0 (.access index)

/-- Both callbacks read the counter before either writes it back. -/
def lostDecrement : List WorkerEvent :=
  twoPayments ++ accesses [0, 0, 0, 0, 1, 1, 1, 1, 0, 0, 0, 0, 0, 0]

/-- Both callbacks lower the counter before either tests it, and both take the completion. -/
def takenTwice : List WorkerEvent :=
  twoPayments ++ accesses [0, 0, 0, 0, 0, 1, 1, 1, 1, 1, 0, 0, 0, 1, 1, 1, 0, 1, 0, 1, 0, 0]

/-- A worker that lives and waits for nothing although its round never called the completion, and
one that has two turns under way because the round called it twice. -/
theorem overlapping_rounds :
    (∃ w : PaymentReconciliationWorker, run step lostDecrement { batchSize := 2 } = some w ∧
      w.alive = true ∧ w.started = true ∧
      w.rounds.map (fun round => round.state.completions) = [[]] ∧
      ∀ event, event.due = true → w.step event = none) ∧
    ∃ w : PaymentReconciliationWorker, run step takenTwice { batchSize := 2 } = some w ∧
      w.rounds.map (fun round => round.state.completions.length) = [2] ∧ w.turns = 2 := by
  constructor
  · have hrun : ((run step lostDecrement { batchSize := 2 }).any fun w =>
        w.alive && w.started && decide (w.reports = 0) && decide (w.timers = 0) &&
          decide ((w.rounds.map fun round => (round.opened, round.state.claims,
            round.state.items, round.state.completions)) =
              [([], .done, [⟨.payment, .finished⟩, ⟨.payment, .finished⟩], [])])) = true := by
      decide +kernel
    simp only [Option.any_eq_true, Bool.and_eq_true, decide_eq_true_eq,
      List.map_eq_singleton_iff, Prod.mk.injEq] at hrun
    obtain ⟨w, hw, ⟨⟨⟨halive, hstarted⟩, hreports⟩, htimers⟩, round, hrounds, hopened, hclaims,
      hitems, hcompletions⟩ := hrun
    refine ⟨w, hw, halive, hstarted, by rw [hrounds, List.map_singleton, hcompletions], ?_⟩
    refine step_of_ended hreports htimers fun other hother => ?_
    rw [hrounds, List.mem_singleton] at hother
    subst hother
    exact ⟨hopened, hclaims, by simp [hitems]⟩
  · have hrun : ((run step takenTwice { batchSize := 2 }).map fun w =>
        (w.rounds.map fun round => round.state.completions.length, w.turns)) = some ([2], 2) := by
      decide +kernel
    obtain ⟨w, hw, hfields⟩ := Option.map_eq_some_iff.mp hrun
    obtain ⟨hlengths, hturns⟩ := Prod.mk.inj hfields
    exact ⟨w, hw, hlengths, hturns⟩

end PaymentReconciliationWorker
end Ticketing
