import Ticketing.HoldCalls
import Ticketing.SeatOrder
import Ticketing.Library.Trace

/-!
# Calls that Redis executes late

The create, the changes, the confirms and the resets of a checkout take turns under its row lock. A
turn sends its call to Redis and goes on with the answer or without one. Redis executes a call once,
at any time after it was sent, and the failure of a create or a change sends an abort, which may
reach Redis when others have had their turn already.
-/

namespace Ticketing.Availability

open Redis Script Transition MergeSets

inductive CheckoutStage where
  | absent | selecting | submitting | closed
  deriving DecidableEq

inductive TurnRequest where
  | create (seatIds : List String)
  | replace (seatIds : List String)
  | confirm
  | reset
  deriving DecidableEq

/-- A turn waits for the answer of Redis, goes on in the database, has been refused by Redis, or has
failed and is still to leave the row. -/
inductive TurnPhase where
  | waiting | writing | refused | failed
  deriving DecidableEq

/-- A turn with the call it has sent. -/
structure Turn where
  request : TurnRequest
  call : Option Call
  phase : TurnPhase
  deriving DecidableEq

/-- A hold that an abort or a release has deleted: the turn that had sent the call, and the turn
whose call had set the hold. -/
structure Deletion where
  issuer : ℕ
  setter : ℕ
  seat : String
  deriving DecidableEq

/-- A checkout, the holds of its session, and the calls that Redis has still to execute, each with
the number of its turn. `setter` has the turn that set the hold of a seat, `failed` the calls of the
creates and changes that failed, `lasting` those of the committed changes and of the confirms, and
`deleted` what aborts and releases have deleted. -/
structure LateCalls where
  store : Store Key
  now : ℕ
  stage : CheckoutStage
  revision : ℕ
  seatIds : List String
  number : ℕ
  turn : Option Turn
  outstanding : List (ℕ × Call)
  setter : String → Option ℕ
  failed : List (ℕ × Call)
  lasting : List (ℕ × Call)
  deleted : List Deletion

inductive LateAction where
  | create (seatIds : List String) (ttl : ℕ)
  | replace (seatIds : List String) (ttl : ℕ)
  | confirm (ttl : ℕ)
  | reset
  | close
  | execute (index : ℕ)
  | giveUp
  | commit
  | fail
  | leave
  | outside (call : Call)
  | expire (limit : ℕ)
  | derived (store : Store Key)

/-- An action at a time, with the stream bound of the scripts. -/
structure LateEvent where
  env : Env
  maxlen : ℕ
  action : LateAction

namespace Call

/-- What the answer means to the turn that waits for it. -/
def answer (call : Call) : Outcome Key Reply → TurnPhase
  | .done (.integer n) _ => if call.ttl.isSome ∧ n ≠ 1 then .refused else .writing
  | _ => .writing

/-- The seats whose hold the call sets; it refreshes the other ones. -/
def sets (store : Store Key) : Call → List String
  | prepare _ _ _ _ added retained =>
      added ++ retained.filter fun seat => (store (.hold seat)).isNone
  | ensure _ _ _ seats => seats.filter fun seat => (store (.hold seat)).isNone
  | _ => []

/-- The hold that the call sets on a seat. -/
def held (now : ℕ) (seat : String) : Call → Option Held
  | prepare owner base target ttl added _ =>
      some ⟨owner, if seat ∈ added then target else base, now + ttl⟩
  | ensure owner revision ttl _ => some ⟨owner, revision, now + ttl⟩
  | _ => none

/-- The call may write this revision to the hold of this seat. -/
def Writes (seat : String) (revision : ℕ) : Call → Prop
  | prepare _ base target _ added retained =>
      seat ∈ added ∧ revision = target ∨ seat ∈ retained ∧ revision = base
  | ensure _ current _ seats => seat ∈ seats ∧ revision = current
  | _ => False

/-- The seats and the revision that the abort of a failed call looks for. -/
def attempted : Call → List String × ℕ
  | prepare _ _ target _ added _ => (added, target)
  | _ => ([], 0)

/-- The abort of a prepare, where it has added seats. -/
def compensation : Call → Option Call
  | prepare owner _ target _ added _ =>
      if added = [] then none else some (abort owner target added)
  | _ => none

/-- The seats of a release. -/
def releases : Call → List String
  | release _ seats => seats
  | _ => []

/-- An abort or a release. -/
def undoes : Call → Bool
  | abort _ _ _ => true
  | release _ _ => true
  | _ => false

end Call

namespace LateCalls

/-- The keys that are still there when the script runs. -/
def visible (s : LateCalls) (env : Env) : Store Key := s.store.visible env.now

def send (s : LateCalls) (call : Option Call) : LateCalls :=
  { s with outstanding := s.outstanding ++ (call.map fun call => (s.number, call)).toList }

/-- The next turn gets the row. -/
def take (s : LateCalls) (request : TurnRequest) (call : Option Call) : LateCalls :=
  send { s with
    number := s.number + 1
    turn := some ⟨request, call, if call.isSome then .waiting else .writing⟩ } call

/-- The call of a change; there is none for an empty selection. -/
def prepareCall (collation : Collation) (owner : String) (s : LateCalls) (seatIds : List String)
    (ttl : ℕ) : Option Call :=
  let oldSeatIds := collation.orderBy s.seatIds
  let addedSeatIds := setDifference seatIds oldSeatIds
  let retainedSeatIds := setIntersection seatIds oldSeatIds
  if addedSeatIds = [] ∧ retainedSeatIds = [] then none
  else some (.prepare owner s.revision (s.revision + 1) ttl addedSeatIds retainedSeatIds)

/-- The finalize of a committed change, where it has removed seats. -/
def finalizeCall (collation : Collation) (owner : String) (s : LateCalls) (seatIds : List String) :
    Option Call :=
  let removedSeatIds := setDifference (collation.orderBy s.seatIds) seatIds
  if removedSeatIds = [] then none
  else some (.finalize owner (s.revision + 1) removedSeatIds)

def releaseCall (collation : Collation) (owner : String) (s : LateCalls) : Call :=
  .release owner (collation.orderBy s.seatIds)

/-- The turn leaves the row. -/
def commitTurn (collation : Collation) (owner : String) (s : LateCalls) (turn : Turn) : LateCalls :=
  match turn.request with
  | .create seatIds =>
      { s with turn := none, stage := .selecting, revision := 0, seatIds := seatIds }
  | .replace seatIds =>
      send { s with
        turn := none
        revision := s.revision + 1
        seatIds := seatIds
        lasting := s.lasting ++ (turn.call.map fun call => (s.number, call)).toList }
        (s.finalizeCall collation owner seatIds)
  | .confirm => { s with turn := none, stage := .submitting }
  | .reset => { s with turn := none, stage := .selecting }

/-- A create or a change that has called Redis sends an abort. -/
def failTurn (s : LateCalls) (turn : Turn) : LateCalls :=
  let s' := { s with turn := some { turn with phase := .failed } }
  match turn.request, turn.call with
  | .create _, some call | .replace _, some call =>
      send { s' with failed := s.failed ++ [(s.number, call)] } call.compensation
  | _, _ => s'

/-- Whose hold is deleted on which seat. -/
def deletions (s : LateCalls) (number : ℕ) (call : Call) (before after : Store Key) :
    List Deletion :=
  if call.undoes then
    call.seats.filterMap fun seat =>
      if (before (.hold seat)).isSome ∧ (after (.hold seat)).isNone then
        (s.setter seat).map fun setter => ⟨number, setter, seat⟩
      else none
  else []

/-- The setter of the hold of a seat after a call. -/
def setterAfter (s : LateCalls) (now number : ℕ) (call : Call) (before after : Store Key)
    (seat : String) : Option ℕ :=
  if seat ∈ call.sets before ∧
      (after (.hold seat)).text = some ((call.held now seat).map Held.text) then some number
  else s.setter seat

/-- The turn that waits for the call goes on. -/
def answered (s : LateCalls) (number : ℕ) (call : Call) (outcome : Outcome Key Reply) :
    Option Turn :=
  s.turn.map fun turn =>
    if number = s.number ∧ turn.call = some call ∧ turn.phase = .waiting then
      { turn with phase := call.answer outcome }
    else turn

/-- Redis executes a call that was sent. -/
def execute (s : LateCalls) (event : LateEvent) (index number : ℕ) (call : Call) : LateCalls :=
  let before := s.visible event.env
  let outcome := call.run event.maxlen event.env before
  { s with
    store := outcome.store
    now := event.env.now
    turn := s.answered number call outcome
    outstanding := s.outstanding.eraseIdx index
    setter := s.setterAfter event.env.now number call before outcome.store
    deleted := s.deleted ++ s.deletions number call before outcome.store }

def step (collation : Collation) (owner : String) (event : LateEvent) (s : LateCalls) :
    Option LateCalls :=
  if event.env.now < s.now then none
  else
    match event.action, s.turn with
    | .create seatIds ttl, none =>
        if s.stage = .absent ∧ seatIds ≠ [] ∧ ttl ≠ 0 then
          some (s.take (.create seatIds) (some (.prepare owner 0 0 ttl seatIds [])))
        else none
    | .replace seatIds ttl, none =>
        if s.stage = .selecting ∧ ttl ≠ 0 then
          some (s.take (.replace seatIds) (s.prepareCall collation owner seatIds ttl))
        else none
    | .confirm ttl, none =>
        if s.stage = .selecting ∧ s.seatIds ≠ [] ∧ ttl ≠ 0 then
          let call := .ensure owner s.revision ttl (collation.orderBy s.seatIds)
          some (take { s with lasting := s.lasting ++ [(s.number + 1, call)] } .confirm (some call))
        else none
    -- after a business failure of the formal reservation
    | .reset, none =>
        if s.stage = .submitting then some (s.take .reset (some (s.releaseCall collation owner)))
        else none
    -- RESERVED or ABANDONED; the release follows the commit
    | .close, none =>
        if s.stage = .selecting ∨ s.stage = .submitting then
          some (send { s with number := s.number + 1, stage := .closed }
            (some (s.releaseCall collation owner)))
        else none
    | .execute index, _ =>
        s.outstanding[index]?.map fun sent => s.execute event index sent.1 sent.2
    | .giveUp, some turn =>
        if turn.phase = .waiting then some { s with turn := some { turn with phase := .writing } }
        else none
    | .commit, some turn =>
        if turn.phase = .writing then some (s.commitTurn collation owner turn) else none
    | .fail, some turn => if turn.phase = .failed then none else some (s.failTurn turn)
    | .leave, some turn =>
        if turn.phase = .failed then
          some { s with
            turn := none
            stage := if s.stage = .absent then .closed else s.stage }
        else none
    | .outside call, _ =>
        some { s with
          store := (call.run event.maxlen event.env (s.visible event.env)).store
          now := event.env.now }
    | .expire limit, _ =>
        some { s with
          store := (expire limit event.maxlen event.env (s.visible event.env)).store
          now := event.env.now }
    | .derived store, _ => some { s with store := store, now := event.env.now }
    | _, _ => none

/-- Other owners call with their own valid names, and writes to the derived model leave the
holds. -/
def Allowed (owner : String) (event : LateEvent) (s : LateCalls) : Prop :=
  match event.action with
  | .outside call => call.Valid ∧ call.owner ≠ owner
  | .derived store => ∀ seat, store (.hold seat) = s.store (.hold seat)
  | _ => True

def Steps (collation : Collation) (owner : String) (event : LateEvent) (s t : LateCalls) : Prop :=
  Allowed owner event s ∧ s.step collation owner event = some t

/-- Before the create, on a store without holds of the checkout. -/
structure Fresh (owner : String) (s : LateCalls) : Prop where
  store : ∃ raw, Carries s.store raw ∧ ∀ seat held, raw seat = some held → held.owner ≠ owner
  stage : s.stage = .absent
  seatIds : s.seatIds = []
  turn : s.turn = none
  outstanding : s.outstanding = []
  failed : s.failed = []
  lasting : s.lasting = []
  deleted : s.deleted = []

/-! ## Fencing -/

/-- Two values are compared on one seat, or on all seats of the checkout. -/
inductive Scope where
  | seat | checkout
  deriving DecidableEq

/-- The seat is out of reach of a call that tried to add these seats. -/
def Scope.Free (scope : Scope) (added : List String) (seat : String) : Prop :=
  match scope with
  | .seat => seat ∉ added
  | .checkout => added = []

/-- No abort and no release has deleted a hold that was set by a later change that is committed or
by a later confirm, and what a failed call tried to write is told apart from all that they write. -/
structure Fenced (scope : Scope) (s : LateCalls) : Prop where
  deleted : ∀ deletion ∈ s.deleted, deletion.issuer < deletion.setter →
    ∀ call, (deletion.setter, call) ∉ s.lasting
  toldApart : ∀ failed ∈ s.failed, ∀ lasting ∈ s.lasting, failed.1 < lasting.1 →
    ∀ seat revision, lasting.2.Writes seat revision → revision = failed.2.attempted.2 →
      scope.Free failed.2.attempted.1 seat

/-- A change commits no seat that an earlier change tried to add at the same revision and failed,
and no hold is set on a seat while the release of an earlier reset is still to come. -/
def Calm (scope : Scope) (event : LateEvent) (s : LateCalls) : Prop :=
  match event.action, s.turn with
  | .commit, some ⟨.replace seatIds, _, _⟩ =>
      ∀ failed ∈ s.failed, failed.2.attempted.2 = s.revision + 1 →
        ∀ seat ∈ seatIds, scope.Free failed.2.attempted.1 seat
  | .execute index, _ =>
      match s.outstanding[index]? with
      | some sent =>
          ∀ seat ∈ sent.2.sets (s.visible event.env), ∀ other ∈ s.outstanding,
            other.1 < sent.1 → seat ∉ other.2.releases
      | none => True
  | _, _ => True

instance (scope : Scope) (added : List String) (seat : String) :
    Decidable (scope.Free added seat) :=
  match scope with
  | .seat => inferInstanceAs (Decidable (seat ∉ added))
  | .checkout => inferInstanceAs (Decidable (added = []))

instance (scope : Scope) (event : LateEvent) (s : LateCalls) : Decidable (Calm scope event s) := by
  unfold Calm
  split
  · infer_instance
  · split <;> infer_instance
  · infer_instance

end LateCalls

end Ticketing.Availability
