import Ticketing.FormalVersions

/-!
# Projecting the formal states of a session

The inventory of a session changes in the database, where every change of a status raises the version
of its seat and puts an event into the outbox. Workers lease events and apply them to the model,
requests initialise the model from a snapshot of the inventory under a lock, and everything that is
sent may be executed late.
-/

namespace Ticketing.Availability

open Redis Script

/-- An event of the outbox. -/
structure SeatChange where
  id : ℕ
  seat : String
  formal : FormalSeat
  deriving DecidableEq

structure OutboxRow where
  change : SeatChange
  lease : Option (String × ℕ)
  deriving DecidableEq

/-- The lease is free or over. -/
def OutboxRow.Free (row : OutboxRow) (time : ℕ) : Prop :=
  ∀ lease, row.lease = some lease → lease.2 ≤ time

/-- The events that a worker has leased and not applied yet, and the event whose statement is due:
it removes the event, or it gives the lease back. -/
structure Round where
  events : List SeatChange
  finishing : Option (SeatChange × Bool)
  deriving DecidableEq

/-- `DELETE … WHERE id AND lease_token`, or the update that gives the lease back. -/
structure Statement where
  change : SeatChange
  remove : Bool
  token : String

def Statement.applies (statement : Statement) (row : OutboxRow) : Bool :=
  decide (row.change.id = statement.change.id ∧ row.lease.map Prod.fst = some statement.token)

def Statement.execute (statement : Statement) (outbox : List OutboxRow) : List OutboxRow :=
  if statement.remove then outbox.filter fun row => !statement.applies row
  else outbox.map fun row => if statement.applies row then { row with lease := none } else row

/-- A read of the model: it asks for the lock, reads the inventory once it has it, and installs what
it has read. One that waits or that found a model may ask for the lock again. -/
inductive Request where
  | acquiring
  | initializing
  | installing (seats : String → FormalSeat)

/-- A script that has been sent, whose reply nobody waits for. -/
inductive Command where
  | acquire (token : String)
  | install (token generation : String) (seats : String → FormalSeat)
  | unlock (token : String)
  | apply (change : SeatChange)

structure AvailabilitySettings where
  streamMaxlen : ℕ
  initLockMs : ℕ
  streamMaxlen_ne : streamMaxlen ≠ 0
  initLockMs_ne : initLockMs ≠ 0

/-- The seats of a session with their zones; each seat is listed once, and there is one. -/
structure Layout where
  seats : List (String × String)
  nodup : (seats.map Prod.fst).Nodup
  nonempty : seats ≠ []

def Layout.ids (layout : Layout) : List String := layout.seats.map Prod.fst

/-- The model has the seats of the layout in their zones. -/
def Layout.Placed (layout : Layout) (model : Model) : Prop :=
  ∀ id zone, (id, zone) ∈ layout.seats ↔ id ∈ model.ids ∧ (model.seat id).zone = zone

/-- The rows of the snapshot that an initialisation sends. -/
def Layout.rows (layout : Layout) (seats : String → FormalSeat) : List SeatRow :=
  layout.seats.map fun entry => ⟨entry.1, statusName (seats entry.1).status,
    toString (seats entry.1).version, entry.2⟩

def applyCall (change : SeatChange) : SessionCall :=
  .apply change.seat (statusName change.formal.status) (toString change.formal.version)

def Command.call (layout : Layout) (settings : AvailabilitySettings) : Command → SessionCall
  | acquire token => .acquire token settings.initLockMs
  | install token generation seats => .init token generation (layout.rows seats)
  | unlock token => .unlock token
  | apply change => applyCall change

/-- What a request that goes away may leave behind, already sent. -/
def Request.sent (token generation : String) : Request → List Command
  | acquiring => [.acquire token]
  | initializing => [.unlock token]
  | installing seats => [.install token generation seats, .unlock token]

/-- The database, the processes and the keys of one session. -/
structure Projection where
  seats : String → FormalSeat
  outbox : List OutboxRow
  issued : Finset ℕ
  rounds : String → Option Round
  statements : List Statement
  requests : String → Option Request
  tokens : Finset String
  commands : List Command
  keys : Keyspace

namespace Projection

/-- The row triggers: a status that differs raises the version and enqueues an event. -/
def update (p : Projection) (seat : String) (status : SeatStatus) (id : ℕ) : Projection :=
  if (p.seats seat).status = status then p
  else
    let formal : FormalSeat := ⟨status, (p.seats seat).version + 1⟩
    { p with
      seats := Function.update p.seats seat formal
      outbox := p.outbox ++ [⟨⟨id, seat, formal⟩, none⟩]
      issued := insert id p.issued }

/-- The events become those of a round, under a lease with its token. -/
def lease (p : Projection) (token : String) (ids : Finset ℕ) (leaseUntil : ℕ) : Projection :=
  { p with
    outbox := p.outbox.map fun row =>
      if row.change.id ∈ ids then { row with lease := some (token, leaseUntil) } else row
    rounds := Function.update p.rounds token
      (some ⟨(p.outbox.filter fun row => decide (row.change.id ∈ ids)).map OutboxRow.change, none⟩)
    tokens := insert token p.tokens }

/-- What a worker does with the reply to an event. -/
def roundAfter (reply : Option Reply) (change : SeatChange) (rest : List SeatChange) : Round :=
  if reply = some (.strings ["APPLIED"]) ∨ reply = some (.strings ["STALE_OR_DUPLICATE"]) ∨
      reply = some (.strings ["NO_MODEL"]) then ⟨rest, some (change, true)⟩
  else if reply = some (.strings ["INITIALIZING"]) then ⟨rest, some (change, false)⟩
  else ⟨rest, none⟩

def call (p : Projection) (settings : AvailabilitySettings) (env : Env) (call : SessionCall) :
    Projection := { p with keys := p.keys.after settings.streamMaxlen env call }

def setRound (p : Projection) (token : String) (round : Option Round) : Projection :=
  { p with rounds := Function.update p.rounds token round }

def setRequest (p : Projection) (token : String) (request : Option Request) : Projection :=
  { p with requests := Function.update p.requests token request }

/-- A request goes on after it has installed a model or has lost its lock. Otherwise it gives the lock
back and ends. -/
def afterInstall (p : Projection) (token generation : String) (reply : Option Reply) : Projection :=
  if reply = some (.strings ["READY", generation]) ∨ reply = some (.strings ["STALE_INIT"]) then
    p.setRequest token (some .acquiring)
  else { p.setRequest token none with commands := .unlock token :: p.commands }

/-- The scripts that neither a worker nor an initialisation sends. -/
def Outside : SessionCall → Prop
  | .hold call => call.Valid
  | .expire limit => limit ≠ 0
  | .read _ _ _ _ => True
  | _ => False

inductive Step (layout : Layout) (settings : AvailabilitySettings) :
    Projection → Projection → Prop where
  | update {p : Projection} {seat : String} {status : SeatStatus} {id : ℕ}
      (listed : seat ∈ layout.ids) (fresh : id ∉ p.issued) :
      Step layout settings p (p.update seat status id)
  -- the clock of the statement may be anywhere, so leases may run out at any moment
  | lease {p : Projection} {token : String} {ids : Finset ℕ} {time leaseUntil : ℕ}
      (fresh : token ∉ p.tokens)
      (free : ∀ row ∈ p.outbox, row.change.id ∈ ids → row.Free time) :
      Step layout settings p (p.lease token ids leaseUntil)
  | project {p : Projection} {token : String} {change : SeatChange} {rest : List SeatChange}
      {env : Env} (leased : p.rounds token = some ⟨change :: rest, none⟩) :
      Step layout settings p ((p.call settings env (applyCall change)).setRound token
        (some (roundAfter (p.keys.run settings.streamMaxlen env (applyCall change)).value change
          rest)))
  | unanswered {p : Projection} {token : String} {change : SeatChange} {rest : List SeatChange}
      (leased : p.rounds token = some ⟨change :: rest, none⟩) :
      Step layout settings p { p.setRound token (some ⟨rest, none⟩) with
        commands := .apply change :: p.commands }
  | finish {p : Projection} {token : String} {change : SeatChange} {remove : Bool}
      {events : List SeatChange} (due : p.rounds token = some ⟨events, some (change, remove)⟩) :
      Step layout settings p { p.setRound token (some ⟨events, none⟩) with
        outbox := Statement.execute ⟨change, remove, token⟩ p.outbox }
  | unfinished {p : Projection} {token : String} {change : SeatChange} {remove : Bool}
      {events : List SeatChange} (due : p.rounds token = some ⟨events, some (change, remove)⟩) :
      Step layout settings p { p.setRound token (some ⟨events, none⟩) with
        statements := ⟨change, remove, token⟩ :: p.statements }
  | execute {p : Projection} {front back : List Statement} {statement : Statement}
      (sent : p.statements = front ++ statement :: back) :
      Step layout settings p { p with
        outbox := statement.execute p.outbox
        statements := front ++ back }
  | stop {p : Projection} {token : String} :
      Step layout settings p (p.setRound token none)
  | request {p : Projection} {token : String} (fresh : token ∉ p.tokens) :
      Step layout settings p { p.setRequest token (some .acquiring) with
        tokens := insert token p.tokens }
  | acquire {p : Projection} {token : String} {env : Env}
      (asking : p.requests token = some .acquiring) :
      Step layout settings p
        ((p.call settings env (.acquire token settings.initLockMs)).setRequest token
          (some (if (p.keys.run settings.streamMaxlen env
            (.acquire token settings.initLockMs)).value = some (.strings ["WINNER"]) then
              .initializing else .acquiring)))
  | read {p : Projection} {token : String} (won : p.requests token = some .initializing) :
      Step layout settings p (p.setRequest token (some (.installing p.seats)))
  | install {p : Projection} {token generation : String} {seats : String → FormalSeat} {env : Env}
      (loaded : p.requests token = some (.installing seats)) :
      Step layout settings p
        ((p.call settings env (.init token generation (layout.rows seats))).afterInstall token
          generation (p.keys.run settings.streamMaxlen env
            (.init token generation (layout.rows seats))).value)
  | leave {p : Projection} {token generation : String} {request : Request}
      {sent : List Command} (asking : p.requests token = some request)
      (left : sent.Sublist (request.sent token generation)) :
      Step layout settings p { p.setRequest token none with commands := sent ++ p.commands }
  | deliver {p : Projection} {front back : List Command} {command : Command} {env : Env}
      (sent : p.commands = front ++ command :: back) :
      Step layout settings p
        { p.call settings env (command.call layout settings) with commands := front ++ back }
  | outside {p : Projection} {env : Env} {call : SessionCall} (outside : Outside call) :
      Step layout settings p (p.call settings env call)
  | lose {p : Projection} :
      Step layout settings p { p with keys := ⟨fun _ => none, p.keys.now⟩ }

/-- Nothing is under way, and no model is ready. -/
structure Starts (p : Projection) : Prop where
  keys : Availability.Starts p.keys.store
  outbox : p.outbox = []
  rounds : ∀ token, p.rounds token = none
  statements : p.statements = []
  requests : ∀ token, p.requests token = none
  commands : p.commands = []

end Projection

end Ticketing.Availability
