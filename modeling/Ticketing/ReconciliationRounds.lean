import Ticketing.Library.Threads

/-!
# Rounds of the payment reconciliation

A round works off the inbox, claims payments and then refunds, and starts a call for each; the
calls end in any order, also while the claims still go on. A counter of what is pending decides
which end completes the round. The counter, the flag of the claims and the completion are plain
variables, and the callbacks run on several database threads: the accesses of one callback may
come between those of another.
-/

namespace Ticketing

open Threads

structure PaymentReconciliationSummary where
  scanned : ℕ := 0
  completed : ℕ := 0
  retried : ℕ := 0
  failed : ℕ := 0
  deriving DecidableEq, Repr

inductive ReconciliationKind where
  | payment | refund
  deriving DecidableEq, Repr

/-- What a claimed payment or refund waits for: the provider, the release of its lease, the
lifecycle that records a terminal answer, or the record of an answer that is not terminal. -/
inductive ItemPhase where
  | calling | releasing | completing | recording | finished
  deriving DecidableEq, Repr

structure ReconciliationItem where
  kind : ReconciliationKind
  phase : ItemPhase
  deriving DecidableEq, Repr

def ReconciliationItem.unfinished (item : ReconciliationItem) : Bool :=
  decide (item.phase ≠ .finished)

/-- How far the claims are. Refunds that are still to be started are given by whether they have a
provider payment. -/
inductive ClaimPhase where
  | inbox
  | payments
  | startingPayments (rows : ℕ)
  | refunds
  | startingRefunds (rows : List Bool)
  | checking
  | done
  deriving DecidableEq, Repr

/-- `completion` is moved out when it is called; `completions` records its calls. `claims` and
`items` say where the callbacks of the round are. -/
structure RunState where
  batchSize : ℕ
  pending : ℕ := 0
  summary : PaymentReconciliationSummary := {}
  completion : Bool := true
  claimsComplete : Bool := false
  claims : ClaimPhase := .inbox
  items : List ReconciliationItem := []
  completions : List PaymentReconciliationSummary := []
  deriving Repr

inductive ProviderAnswer where
  | failed | terminal | processing
  deriving DecidableEq, Repr

/-- An answer to a claim is `none` when the database fails, and so is one to an update. -/
inductive RoundEvent where
  | inboxProcessed (succeeds : Bool)
  | paymentsClaimed (rows : Option ℕ)
  | refundsClaimed (rows : Option (List Bool))
  | startNext
  | check
  | providerAnswered (item : ℕ) (answer : ProviderAnswer)
  | updateAnswered (item : ℕ) (updated : Option ℕ)
  | lifecycleAnswered (item : ℕ) (failed : Bool)
  deriving DecidableEq, Repr

/-- The claims go on in one chain of callbacks, and each item has its own. -/
def RoundEvent.owner : RoundEvent → Option ℕ
  | .providerAnswered item _ => some item
  | .updateAnswered item _ => some item
  | .lifecycleAnswered item _ => some item
  | _ => none

inductive Counter where
  | pending | scanned | completed | retried | failed
  deriving DecidableEq, Repr

/-- One access to the variables of a round. `add` and `lower` read the counter they change, which
`store` writes later; `whenPending` is the test before the decrement. `take` reads the completion
that `empty` clears in the round, and `call` calls what was taken. -/
inductive Access where
  | add (counter : Counter) (amount : ℕ)
  | whenPending
  | lower
  | store (counter : Counter) (value : ℕ)
  | tell
  | ifComplete
  | ifNone
  | ifHeld
  | take
  | empty
  | call (taken : Bool)
  deriving DecidableEq, Repr

namespace RunState

def start (batchSize : ℕ) : RunState := { batchSize := batchSize }

section Accesses

variable (s : RunState)

def get : Counter → ℕ
  | .pending => s.pending
  | .scanned => s.summary.scanned
  | .completed => s.summary.completed
  | .retried => s.summary.retried
  | .failed => s.summary.failed

def set (value : ℕ) : Counter → RunState
  | .pending => { s with pending := value }
  | .scanned => { s with summary := { s.summary with scanned := value } }
  | .completed => { s with summary := { s.summary with completed := value } }
  | .retried => { s with summary := { s.summary with retried := value } }
  | .failed => { s with summary := { s.summary with failed := value } }

/-- A completion that was empty when it was taken throws. -/
def call (taken : Bool) : RunState :=
  if taken then { s with completions := s.completions ++ [s.summary] } else s

/-- The first access of a callback, and what it still has to do. -/
def perform (rest : List Access) : Access → RunState × List Access
  | .add counter amount => (s, .store counter (s.get counter + amount) :: rest)
  | .whenPending => (s, if 0 < s.pending then .lower :: rest else rest)
  | .lower => (s, .store .pending (s.pending - 1) :: rest)
  | .store counter value => (s.set value counter, rest)
  | .tell => ({ s with claimsComplete := true }, rest)
  | .ifComplete => (s, if s.claimsComplete then rest else [])
  | .ifNone => (s, if s.pending = 0 then rest else [])
  | .ifHeld => (s, if s.completion then rest else [])
  | .take => (s, .empty :: .call s.completion :: rest)
  | .empty => ({ s with completion := false }, rest)
  | .call taken => (s.call taken, rest)

end Accesses

def finishOne : List Access := [.whenPending, .ifComplete, .ifNone, .ifHeld, .take]

/-- What the release of a lease or the record of an answer counts. A payment whose lease is
released was counted before, and a record of it must hit its row. -/
def updateCounter (item : ReconciliationItem) (updated : Option ℕ) : Option Counter :=
  match updated, item.kind, item.phase with
  | none, _, _ => some .failed
  | some _, .payment, .releasing => none
  | some rows, .payment, _ => if rows = 1 then some .retried else some .failed
  | some _, .refund, _ => some .retried

section Callbacks

variable (s : RunState)

/-- Without the inbox the round is over at once. -/
def inboxProcessed (succeeds : Bool) : Option (RunState × List Access) :=
  match s.claims with
  | .inbox =>
      if succeeds then some ({ s with claims := .payments }, [])
      else some ({ s with claims := .done }, [.add .failed 1, .take])
  | _ => none

def paymentsClaimed (rows : Option ℕ) : Option (RunState × List Access) :=
  match s.claims, rows with
  | .payments, some rows =>
      if s.batchSize < rows then none
      else some ({ s with claims := .startingPayments rows },
        [.add .pending rows, .add .scanned rows])
  | .payments, none => some ({ s with claims := .done }, .add .failed 1 :: .tell :: finishOne)
  | _, _ => none

def refundsClaimed (rows : Option (List Bool)) : Option (RunState × List Access) :=
  match s.claims, rows with
  | .refunds, some rows =>
      if s.batchSize < rows.length then none
      else some ({ s with claims := .startingRefunds rows },
        [.add .pending rows.length, .add .scanned rows.length, .tell])
  | .refunds, none => some ({ s with claims := .checking }, [.add .failed 1, .tell])
  | _, _ => none

/-- The loops over the claimed rows. A refund without a provider payment ends at once. -/
def startNext : Option (RunState × List Access) :=
  match s.claims with
  | .startingPayments 0 => some ({ s with claims := .refunds }, [])
  | .startingPayments (rows + 1) =>
      some ({ s with
        claims := .startingPayments rows
        items := s.items ++ [⟨.payment, .calling⟩] }, [])
  | .startingRefunds [] => some ({ s with claims := .checking }, [])
  | .startingRefunds (true :: rows) =>
      some ({ s with
        claims := .startingRefunds rows
        items := s.items ++ [⟨.refund, .calling⟩] }, [])
  | .startingRefunds (false :: rows) =>
      some ({ s with
        claims := .startingRefunds rows
        items := s.items ++ [⟨.refund, .finished⟩] }, .add .retried 1 :: finishOne)
  | _ => none

def check : Option (RunState × List Access) :=
  match s.claims with
  | .checking => some ({ s with claims := .done }, .ifNone :: finishOne)
  | _ => none

def setItem (i : ℕ) (item : ReconciliationItem) (phase : ItemPhase) : RunState :=
  { s with items := s.items.set i { item with phase := phase } }

/-- A payment the provider could not answer for is counted before its lease is released. -/
def providerAnswered (i : ℕ) (answer : ProviderAnswer) : Option (RunState × List Access) :=
  match s.items[i]? with
  | some ⟨kind, .calling⟩ =>
      match answer with
      | .failed =>
          some (s.setItem i ⟨kind, .calling⟩ .releasing,
            if kind = .payment then [.add .retried 1] else [])
      | .terminal => some (s.setItem i ⟨kind, .calling⟩ .completing, [])
      | .processing => some (s.setItem i ⟨kind, .calling⟩ .recording, [])
  | _ => none

def endItem (i : ℕ) (item : ReconciliationItem) (counter : Option Counter) :
    RunState × List Access :=
  (s.setItem i item .finished, counter.toList.map (Access.add · 1) ++ finishOne)

def updateAnswered (i : ℕ) (updated : Option ℕ) : Option (RunState × List Access) :=
  match s.items[i]? with
  | some item =>
      if item.phase = .releasing ∨ item.phase = .recording then
        some (s.endItem i item (updateCounter item updated))
      else none
  | none => none

def lifecycleAnswered (i : ℕ) (failed : Bool) : Option (RunState × List Access) :=
  match s.items[i]? with
  | some item =>
      if item.phase = .completing then
        some (s.endItem i item (some (if failed then .failed else .completed)))
      else none
  | none => none

/-- What a callback has to do with the variables of the round. -/
def callback : RoundEvent → Option (RunState × List Access)
  | .inboxProcessed succeeds => s.inboxProcessed succeeds
  | .paymentsClaimed rows => s.paymentsClaimed rows
  | .refundsClaimed rows => s.refundsClaimed rows
  | .startNext => s.startNext
  | .check => s.check
  | .providerAnswered item answer => s.providerAnswered item answer
  | .updateAnswered item updated => s.updateAnswered item updated
  | .lifecycleAnswered item failed => s.lifecycleAnswered item failed

end Callbacks

end RunState

/-- A callback that is in the middle of its accesses. -/
structure OpenCallback where
  owner : Option ℕ
  accesses : List Access
  deriving DecidableEq, Repr

/-- A round as its threads see it. -/
structure Round where
  state : RunState
  opened : List OpenCallback := []
  deriving Repr

inductive RoundStep where
  | begin (event : RoundEvent)
  | access (index : ℕ)
  deriving DecidableEq, Repr

namespace Round

def start (batchSize : ℕ) : Round := { state := RunState.start batchSize }

/-- A callback is over with its last access. -/
def remains (owner : Option ℕ) (accesses : List Access) : List OpenCallback :=
  if accesses.isEmpty then [] else [⟨owner, accesses⟩]

/-- Callbacks of one owner come one after the other, and others at any time. -/
def step (round : Round) : RoundStep → Option Round
  | .begin event =>
      if round.opened.any fun other => decide (other.owner = event.owner) then none
      else (round.state.callback event).map fun next =>
        { state := next.1
          opened := round.opened ++ remains event.owner next.2 }
  | .access index =>
      match round.opened[index]? with
      | some ⟨owner, access :: rest⟩ =>
          let next := round.state.perform rest access
          some
            { state := next.1
              opened := round.opened.take index ++ remains owner next.2 ++
                round.opened.drop (index + 1) }
      | _ => none

/-- A callback begins only while no other is in the middle of its accesses. -/
def Apart (round : Round) : RoundStep → Prop
  | .begin _ => round.opened = []
  | .access _ => True

instance (round : Round) : DecidablePred round.Apart
  | .begin _ => inferInstanceAs (Decidable (round.opened = []))
  | .access _ => inferInstanceAs (Decidable True)

end Round

namespace RunState

/-- What the accesses of a callback amount to when nothing comes between them. -/
def alone : List Access → RunState → RunState
  | [], s => s
  | .add counter amount :: rest, s => alone rest (s.set (s.get counter + amount) counter)
  | .whenPending :: rest, s =>
      alone rest (if 0 < s.pending then { s with pending := s.pending - 1 } else s)
  | .lower :: rest, s => alone rest { s with pending := s.pending - 1 }
  | .store counter value :: rest, s => alone rest (s.set value counter)
  | .tell :: rest, s => alone rest { s with claimsComplete := true }
  | .ifComplete :: rest, s => if s.claimsComplete then alone rest s else s
  | .ifNone :: rest, s => if s.pending = 0 then alone rest s else s
  | .ifHeld :: rest, s => if s.completion then alone rest s else s
  | .take :: rest, s => alone rest ({ s with completion := false }.call s.completion)
  | .empty :: rest, s => alone rest { s with completion := false }
  | .call taken :: rest, s => alone rest (s.call taken)

/-- One access more or less does not change what the callback amounts to. -/
theorem alone_perform (s : RunState) (access : Access) (rest : List Access) :
    alone (s.perform rest access).2 (s.perform rest access).1 = alone (access :: rest) s := by
  cases access with
  | whenPending =>
      simp only [perform, alone]
      split_ifs <;> rfl
  | ifComplete =>
      simp only [perform, alone]
      split_ifs <;> rfl
  | ifNone =>
      simp only [perform, alone]
      split_ifs <;> rfl
  | ifHeld =>
      simp only [perform, alone]
      split_ifs <;> rfl
  | _ => rfl

/-- The variables apart, the state stays as it is, and calls are only added. -/
structure Extends (s s' : RunState) : Prop where
  batchSize : s'.batchSize = s.batchSize
  claims : s'.claims = s.claims
  items : s'.items = s.items
  completions : s.completions <+: s'.completions

theorem Extends.refl (s : RunState) : s.Extends s := ⟨rfl, rfl, rfl, List.prefix_refl _⟩

theorem Extends.trans {s s' s'' : RunState} (h : s.Extends s') (h' : s'.Extends s'') :
    s.Extends s'' :=
  ⟨h'.batchSize.trans h.batchSize, h'.claims.trans h.claims, h'.items.trans h.items,
    h.completions.trans h'.completions⟩

theorem extends_set (s : RunState) (value : ℕ) (counter : Counter) :
    s.Extends (s.set value counter) := by
  cases counter <;> exact ⟨rfl, rfl, rfl, List.prefix_refl _⟩

theorem extends_emptied (s : RunState) : s.Extends { s with completion := false } :=
  ⟨rfl, rfl, rfl, List.prefix_refl _⟩

theorem extends_call (s : RunState) (taken : Bool) : s.Extends (s.call taken) := by
  unfold call
  split_ifs
  · exact ⟨rfl, rfl, rfl, List.prefix_append _ _⟩
  · exact Extends.refl s

theorem extends_perform (s : RunState) (rest : List Access) (access : Access) :
    s.Extends (s.perform rest access).1 := by
  cases access with
  | store counter value => exact extends_set s value counter
  | call taken => exact extends_call s taken
  | _ => exact ⟨rfl, rfl, rfl, List.prefix_refl _⟩

theorem extends_alone (accesses : List Access) (s : RunState) : s.Extends (alone accesses s) := by
  induction accesses generalizing s with
  | nil => exact Extends.refl s
  | cons access rest ih =>
      cases access with
      | add counter amount => exact (extends_set s _ counter).trans (ih _)
      | whenPending =>
          refine Extends.trans ?_ (ih _)
          split_ifs
          · exact extends_set s _ .pending
          · exact Extends.refl s
      | store counter value => exact (extends_set s value counter).trans (ih _)
      | ifComplete =>
          simp only [alone]
          split_ifs
          · exact ih s
          · exact Extends.refl s
      | ifNone =>
          simp only [alone]
          split_ifs
          · exact ih s
          · exact Extends.refl s
      | ifHeld =>
          simp only [alone]
          split_ifs
          · exact ih s
          · exact Extends.refl s
      | lower => exact (extends_set s _ .pending).trans (ih _)
      | tell =>
          have htold : s.Extends { s with claimsComplete := true } :=
            ⟨rfl, rfl, rfl, List.prefix_refl _⟩
          exact htold.trans (ih _)
      | take => exact ((extends_emptied s).trans (extends_call _ s.completion)).trans (ih _)
      | empty => exact (extends_emptied s).trans (ih _)
      | call taken => exact (extends_call s taken).trans (ih _)

end RunState

end Ticketing
