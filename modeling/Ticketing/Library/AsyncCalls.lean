import Mathlib.Data.List.Basic

/-!
# Calls that wait for answers

A call sends a request and goes on when the answer comes: its handler ends it
with a result, sends the next request, or throws. The rules carry what one
answer does to what any sequence of answers does.
-/

namespace AsyncCalls

/-- What a handler does with an answer. -/
inductive Reply (σ ρ ω : Type) where
  | complete (result : ω)
  | send (next : σ) (request : ρ)

/-- A call with the requests it has issued, the answers its handler was run on and what came
out of it. -/
structure Call (σ ρ α ω ε : Type) where
  waiting : Option σ
  issued : List ρ
  answered : List α := []
  completions : List ω := []
  escaped : List ε := []

variable {σ ρ α ω ε : Type}

def start (s : σ) (request : ρ) : Call σ ρ α ω ε where
  waiting := some s
  issued := [request]

/-- A call whose first reply needs no answer. -/
def begin : Reply σ ρ ω → Call σ ρ α ω ε
  | .complete result => { waiting := none, issued := [], completions := [result] }
  | .send s request => start s request

namespace Call

def escape (call : Call σ ρ α ω ε) (answer : α) (error : ε) : Call σ ρ α ω ε :=
  { call with
    waiting := none
    answered := call.answered ++ [answer]
    escaped := call.escaped ++ [error] }

def complete (call : Call σ ρ α ω ε) (answer : α) (result : ω) : Call σ ρ α ω ε :=
  { call with
    waiting := none
    answered := call.answered ++ [answer]
    completions := call.completions ++ [result] }

def send (call : Call σ ρ α ω ε) (answer : α) (next : σ) (request : ρ) : Call σ ρ α ω ε :=
  { call with
    waiting := some next
    answered := call.answered ++ [answer]
    issued := call.issued ++ [request] }

/-- An answer nobody waits for is dropped. -/
def receive (handler : σ → α → Except ε (Reply σ ρ ω)) (call : Call σ ρ α ω ε) (answer : α) :
    Call σ ρ α ω ε :=
  match call.waiting with
  | none => call
  | some s =>
      match handler s answer with
      | .error error => call.escape answer error
      | .ok (.complete result) => call.complete answer result
      | .ok (.send next request) => call.send answer next request

def run (handler : σ → α → Except ε (Reply σ ρ ω)) (call : Call σ ρ α ω ε) (answers : List α) :
    Call σ ρ α ω ε :=
  answers.foldl (receive handler) call

section Rules

variable {handler : σ → α → Except ε (Reply σ ρ ω)} {call : Call σ ρ α ω ε}

theorem receive_of_none (h : call.waiting = none) (answer : α) :
    call.receive handler answer = call := by
  unfold receive
  rw [h]

theorem receive_error {s : σ} {answer : α} {error : ε} (h : call.waiting = some s)
    (hhandler : handler s answer = .error error) :
    call.receive handler answer = call.escape answer error := by
  unfold receive
  rw [h]
  simp only [hhandler]

theorem receive_complete {s : σ} {answer : α} {result : ω} (h : call.waiting = some s)
    (hhandler : handler s answer = .ok (.complete result)) :
    call.receive handler answer = call.complete answer result := by
  unfold receive
  rw [h]
  simp only [hhandler]

theorem receive_send {s next : σ} {answer : α} {request : ρ} (h : call.waiting = some s)
    (hhandler : handler s answer = .ok (.send next request)) :
    call.receive handler answer = call.send answer next request := by
  unfold receive
  rw [h]
  simp only [hhandler]

theorem run_cons (answer : α) (answers : List α) :
    call.run handler (answer :: answers) = (call.receive handler answer).run handler answers := rfl

theorem run_of_none (h : call.waiting = none) (answers : List α) :
    call.run handler answers = call := by
  induction answers with
  | nil => rfl
  | cons answer answers ih =>
      rw [run_cons, receive_of_none h]
      exact ih

/-- What every answer that is waited for preserves, every sequence of answers does. -/
theorem run_invariant {I : Call σ ρ α ω ε → Prop}
    (hstep : ∀ call s answer, call.waiting = some s → I call → I (call.receive handler answer))
    (hI : I call) (answers : List α) : I (call.run handler answers) := by
  induction answers generalizing call with
  | nil => exact hI
  | cons answer answers ih =>
      rw [run_cons]
      cases hwaiting : call.waiting with
      | none =>
          rw [receive_of_none hwaiting]
          exact ih hI
      | some s => exact ih (hstep call s answer hwaiting hI)

/-- A call whose requests lower a rank ends with more answers than the rank of its state. -/
theorem run_ends {rank : σ → ℕ}
    (hrank : ∀ s answer next request, handler s answer = .ok (.send next request) →
      rank next < rank s) (answers : List α)
    (h : ∀ s, call.waiting = some s → rank s < answers.length) :
    (call.run handler answers).waiting = none := by
  induction answers generalizing call with
  | nil =>
      cases hwaiting : call.waiting with
      | none => exact hwaiting
      | some s => exact absurd (h s hwaiting) (by simp)
  | cons answer answers ih =>
      rw [run_cons]
      cases hwaiting : call.waiting with
      | none =>
          rw [receive_of_none hwaiting, run_of_none hwaiting]
          exact hwaiting
      | some s =>
          have hs := h s hwaiting
          rw [List.length_cons] at hs
          apply ih
          intro next hnext
          cases hhandler : handler s answer with
          | error error =>
              rw [receive_error hwaiting hhandler] at hnext
              cases hnext
          | ok reply =>
              cases reply with
              | complete result =>
                  rw [receive_complete hwaiting hhandler] at hnext
                  cases hnext
              | send later request =>
                  rw [receive_send hwaiting hhandler] at hnext
                  cases hnext
                  have := hrank s answer next request hhandler
                  omega

end Rules

end Call

end AsyncCalls
