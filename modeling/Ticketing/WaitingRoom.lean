import Ticketing.Library.Expiring

/-!
# The waiting room of one admission generation

Members of the prequeue are ordered by a fixed random score, later arrivals by a running
sequence. A tick of the scheduler moves members from the head of both lines to the active set, a
bounded batch at a time. The nine keys of a generation live in Redis and expire; every script
reads the clock once.
-/

namespace Ticketing.Admission

open Relational Expiring

inductive Mode where
  | off
  | observe
  | enforced
  | paused
  deriving DecidableEq

/-- What every call passes besides the operation and the member. -/
structure Policy where
  generation : String
  version : ℕ
  mode : Mode
  prestart : ℕ
  starts : ℕ
  ends : ℕ
  capacity : ℕ
  rate : ℕ
  lease : ℕ
  presence : ℕ
  heartbeat : ℕ
  batch : ℕ
  deriving DecidableEq

def Policy.valid (p : Policy) : Bool :=
  decide (1 ≤ p.batch ∧ p.batch ≤ 256 ∧ 1 ≤ p.capacity ∧ p.capacity ≤ 1000000 ∧
    1 ≤ p.rate ∧ p.rate ≤ 100000 ∧ 10000 ≤ p.lease ∧ p.lease ≤ 3600000 ∧
    10000 ≤ p.presence ∧ p.presence ≤ 120000 ∧ 1000 ≤ p.heartbeat ∧ p.heartbeat ≤ 10000 ∧
    p.prestart ≤ p.starts ∧ p.starts < p.ends)

def Policy.ttl (p : Policy) (now : ℕ) : ℕ := min (p.ends + p.lease + p.presence) (now + 604800000)

structure Runtime where
  generation : String
  version : ℕ
  mode : Mode
  deriving DecidableEq

/-- The token bucket of the release, in thousandths of a member. -/
structure Bucket where
  time : ℕ
  tokens : ℕ
  deriving DecidableEq

structure Room where
  runtime : Key Runtime
  prequeue : Key (SortedSet String)
  waiting : Key (SortedSet String)
  presence : Key (SortedSet String)
  active : Key (SortedSet String)
  heartbeat : Key (SortedSet String)
  sequence : Key ℕ
  release : Key Bucket
  pause : Key ℕ

def Room.empty : Room := ⟨none, none, none, none, none, none, none, none, none⟩

inductive Status where
  | prequeued
  | waiting
  | paused
  deriving DecidableEq

inductive Reason where
  | salesEnded
  | prequeue
  | adminPaused
  | runtimePaused
  deriving DecidableEq

inductive Reply where
  | invalid
  | stale (now : ℕ)
  | missing (now : ℕ)
  | ok (now : ℕ)
  | resetRequired (now : ℕ)
  | notRequired (now : ℕ)
  | salesEnded (now : ℕ)
  | admissionNotOpen (now : ℕ)
  | notJoined (now : ℕ)
  | admitted (now lease : ℕ)
  | queued (status : Status) (now position : ℕ)
  | sequenceExhausted (now : ℕ)
  | paused (now expired depth active : ℕ) (reason : Reason)
  | ticked (now expired released depth active : ℕ)
  | pauseWritten (written : Bool)
  | raised
  deriving DecidableEq

/-- The reply of a script, the members it released in order, and the keys it left. -/
structure Outcome where
  reply : Reply
  released : List String
  room : Room

namespace Room

def visible (room : Room) (now : ℕ) : Room where
  runtime := room.runtime.visible now
  prequeue := room.prequeue.visible now
  waiting := room.waiting.visible now
  presence := room.presence.visible now
  active := room.active.visible now
  heartbeat := room.heartbeat.visible now
  sequence := room.sequence.visible now
  release := room.release.visible now
  pause := room.pause.visible now

/-- Move the expiry of every existing key, the pause marker included. -/
def touch (room : Room) (p : Policy) (now : ℕ) : Room where
  runtime := room.runtime.expireAt now (p.ttl now)
  prequeue := room.prequeue.expireAt now (p.ttl now)
  waiting := room.waiting.expireAt now (p.ttl now)
  presence := room.presence.expireAt now (p.ttl now)
  active := room.active.expireAt now (p.ttl now)
  heartbeat := room.heartbeat.expireAt now (p.ttl now)
  sequence := room.sequence.expireAt now (p.ttl now)
  release := room.release.expireAt now (p.ttl now)
  pause := room.pause.expireAt now (p.ttl now)

def remove (room : Room) (id : String) : Room :=
  { room with
    prequeue := room.prequeue.zrem id
    waiting := room.waiting.zrem id
    presence := room.presence.zrem id
    active := room.active.zrem id
    heartbeat := room.heartbeat.zrem id }

/-- The place in the prequeue, or behind all of it. -/
def position (room : Room) (member : String) : Option ℕ :=
  match room.prequeue.zrank member with
  | some rank => some (rank + 1)
  | none => (room.waiting.zrank member).map fun rank => room.prequeue.zcard + rank + 1

def queueStatus (room : Room) (p : Policy) (now : ℕ) (member : String) : Status :=
  if p.mode = .paused then .paused
  else if (room.prequeue.zrank member).isSome ∧ now < p.starts then .prequeued
  else .waiting

def state (room : Room) (p : Policy) (now : ℕ) (member : String) : Reply :=
  if p.ends ≤ now then .salesEnded now
  else
    let active := (room.active.zscore member).getD 0
    if now < active then .admitted now active
    else if now < (room.presence.zscore member).getD 0 then
      match room.position member with
      | some position => .queued (room.queueStatus p now member) now position
      | none => .notJoined now
    else .notJoined now

def sync (room : Room) (p : Policy) (now : ℕ) (bootstrap : Bool) : Outcome :=
  let previous := (room.runtime.content.map Runtime.version).getD 0
  if p.version < previous then ⟨.stale now, [], room⟩
  else if previous = 0 ∧ bootstrap = false then ⟨.missing now, [], room⟩
  else if previous = p.version ∧ room.runtime.content.map Runtime.generation ≠ some p.generation then
    ⟨.stale now, [], room⟩
  else
    let room := { room with runtime := room.runtime.write ⟨p.generation, p.version, p.mode⟩ }
    ⟨.ok now, [], room.touch p now⟩

/-- Whether the runtime key is the one this policy was synchronised to. -/
def fenced (room : Room) (p : Policy) : Bool :=
  decide (room.runtime.content = some ⟨p.generation, p.version, p.mode⟩)

def leave (room : Room) (now : ℕ) (member : String) : Outcome :=
  ⟨.notJoined now, [], room.remove member⟩

/-- Presence and the next allowed heartbeat of a member that queues. -/
def enter (room : Room) (p : Policy) (now : ℕ) (member : String) : Room :=
  { room with
    presence := room.presence.zadd (now + p.presence) member
    heartbeat := room.heartbeat.zadd (now + p.heartbeat) member }

def join (room : Room) (p : Policy) (now : ℕ) (member : String) (score : ℕ) : Outcome :=
  if p.ends ≤ now then ⟨.salesEnded now, [], room⟩
  else if now < p.prestart then ⟨.admissionNotOpen now, [], room⟩
  else if room.state p now member ≠ .notJoined now then ⟨room.state p now member, [], room⟩
  else if 4503599627370495 < score then ⟨.invalid, [], room⟩
  else
    let room := room.remove member
    if now < p.starts then
      let room := { room with prequeue := room.prequeue.zadd score member }
      let room := (room.enter p now member).touch p now
      ⟨room.state p now member, [], room⟩
    else
      let sequence := room.sequence.content.getD 0 + 1
      if 9223372036854775807 < sequence then ⟨.raised, [], room⟩
      else
        let room := { room with sequence := room.sequence.write sequence }
        if 4503599627370495 < sequence then ⟨.sequenceExhausted now, [], room⟩
        else
          let room := { room with waiting := room.waiting.zadd sequence member }
          let room := (room.enter p now member).touch p now
          ⟨room.state p now member, [], room⟩

/-- Renew the lease of an admitted member, the presence of a queued one. -/
def renew (room : Room) (p : Policy) (now : ℕ) (member : String) (admitted : Bool) : Room :=
  { room with
    active := if admitted then room.active.zadd (now + p.lease) member else room.active
    presence := if admitted then room.presence else room.presence.zadd (now + p.presence) member
    heartbeat := room.heartbeat.zadd (now + p.heartbeat) member }

def beat (room : Room) (p : Policy) (now : ℕ) (member : String) : Outcome :=
  let current := room.state p now member
  if current = .notJoined now ∨ current = .salesEnded now then ⟨current, [], room⟩
  else if now < (room.heartbeat.zscore member).getD 0 then ⟨current, [], room⟩
  else
    let admitted := decide (now < (room.active.zscore member).getD 0)
    let room := (room.renew p now member admitted).touch p now
    ⟨room.state p now member, [], room⟩

def removeAll (room : Room) (ids : List String) : Room := ids.foldl remove room

/-- Drop a batch of members whose presence lapsed, then a batch of lapsed leases. -/
def cleanup (room : Room) (p : Policy) (now : ℕ) : Room × ℕ :=
  let absent := room.presence.zrangeByScore now p.batch
  let room := room.removeAll absent
  let lapsed := room.active.zrangeByScore now p.batch
  (room.removeAll lapsed, absent.length + lapsed.length)

def runtimePaused (room : Room) (now : ℕ) : Bool := decide (now < room.pause.content.getD 0)

def pauseReason (room : Room) (p : Policy) (now : ℕ) : Option Reason :=
  if p.ends ≤ now then some .salesEnded
  else if now < p.starts then some .prequeue
  else if p.mode = .paused then some .adminPaused
  else if room.runtimePaused now then some .runtimePaused
  else none

/-- The head of the prequeue, or of the waiting line when the prequeue is empty, taken out of its
line. -/
def candidate (room : Room) : Option (String × Room) :=
  match room.prequeue.zfirst with
  | some id => some (id, { room with prequeue := room.prequeue.zrem id })
  | none =>
      match room.waiting.zfirst with
      | some id => some (id, { room with waiting := room.waiting.zrem id })
      | none => none

def activate (room : Room) (p : Policy) (now : ℕ) (id : String) : Room :=
  { room with
    presence := room.presence.zrem id
    active := room.active.zadd (now + p.lease) id
    heartbeat := room.heartbeat.zadd (now + p.heartbeat) id }

/-- What is left of the tokens, the members released in order, and the keys. -/
structure Drawn where
  tokens : ℕ
  released : List String
  room : Room

def draw (p : Policy) (now : ℕ) : ℕ → ℕ → Room → Drawn
  | 0, tokens, room => ⟨tokens, [], room⟩
  | turns + 1, tokens, room =>
      if tokens < 1000 ∨ p.capacity ≤ room.active.zcard then ⟨tokens, [], room⟩
      else
        match room.candidate with
        | none => ⟨tokens, [], room⟩
        | some (id, rest) =>
            if now < (rest.presence.zscore id).getD 0 then
              let drawn := draw p now turns (tokens - 1000) (rest.activate p now id)
              { drawn with released := id :: drawn.released }
            else draw p now turns tokens (rest.remove id)

def depth (room : Room) : ℕ := room.prequeue.zcard + room.waiting.zcard

def previousRelease (room : Room) (now : ℕ) : ℕ := (room.release.content.map Bucket.time).getD now

/-- The bucket after the refill since the last release. -/
def refill (room : Room) (p : Policy) (now : ℕ) : ℕ :=
  min (p.rate * 1000) ((room.release.content.map Bucket.tokens).getD 0 +
    min 3600000 (now - room.previousRelease now) * p.rate)

def tick (room : Room) (p : Policy) (now : ℕ) : Outcome :=
  let (room, expired) := room.cleanup p now
  match room.pauseReason p now with
  | some reason =>
      let room := room.touch p now
      ⟨.paused now expired room.depth room.active.zcard reason, [], room⟩
  | none =>
      let drawn := draw p now p.batch (room.refill p now) room
      let bucket := ⟨max now (room.previousRelease now), drawn.tokens⟩
      let room := { drawn.room with release := drawn.room.release.write bucket }.touch p now
      ⟨.ticked now expired drawn.released.length room.depth room.active.zcard, drawn.released, room⟩

/-- The scheduler records a pause unless the marker is there. -/
def markPause (room : Room) (now : ℕ) : Outcome :=
  if room.pause.isSome then ⟨.pauseWritten false, [], room⟩
  else ⟨.pauseWritten true, [], { room with pause := some ⟨now + 5000, some (now + 5000)⟩ }⟩

end Room

inductive Op where
  | sync (bootstrap : Bool)
  | status (member : String)
  | leave (member : String)
  | join (member : String) (score : ℕ)
  | heartbeat (member : String)
  | tick

/-- Every operation but a synchronisation runs under the policy in force, and only if it admits. -/
def Room.guarded (room : Room) (p : Policy) (now : ℕ) (outcome : Outcome) : Outcome :=
  if room.fenced p = false then ⟨.resetRequired now, [], room⟩
  else if p.mode = .off then ⟨.notRequired now, [], room⟩
  else outcome

def Room.script (room : Room) (p : Policy) (now : ℕ) (op : Op) : Outcome :=
  if p.valid = false then ⟨.invalid, [], room⟩
  else
    match op with
    | .sync bootstrap => room.sync p now bootstrap
    | .status member => room.guarded p now ⟨room.state p now member, [], room⟩
    | .leave member => room.guarded p now (room.leave now member)
    | .join member score => room.guarded p now (room.join p now member score)
    | .heartbeat member => room.guarded p now (room.beat p now member)
    | .tick => room.guarded p now (room.tick p now)

inductive Request where
  | call (policy : Policy) (op : Op)
  | pause

structure Event where
  time : ℕ
  request : Request

def Room.handle (room : Room) (event : Event) : Outcome :=
  match event.request with
  | .call policy op => (room.visible event.time).script policy event.time op
  | .pause => (room.visible event.time).markPause event.time

def Room.after (room : Room) (event : Event) : Room := (room.handle event).room

def roomAfter (events : List Event) : Room := events.foldl Room.after Room.empty

theorem roomAfter_append_singleton (events : List Event) (event : Event) :
    roomAfter (events ++ [event]) = (roomAfter events).after event := by
  unfold roomAfter
  rw [List.foldl_append, List.foldl_cons, List.foldl_nil]

/-- The calls of one generation in the order Redis runs them, with a clock that never goes back. -/
structure Run (generation : String) (events : List Event) : Prop where
  within : ∀ event ∈ events, ∀ p op, event.request = .call p op → p.generation = generation
  chronological : events.Pairwise fun event later => event.time ≤ later.time

/-- The policy of a small sale, for runs on fixed inputs. -/
def openingSale : Policy := ⟨"g1", 1, .enforced, 0, 1000, 900000, 2, 2, 10000, 10000, 1000, 64⟩

end Ticketing.Admission
