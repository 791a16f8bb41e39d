import Ticketing.Library.Table

/-!
# A Redis keyspace and scripts on it

A store maps keys to typed values with an optional deadline. A script runs at
one frozen instant; a command that is refused raises, and what the script wrote
before it stays written. A missing key reads as the empty value of any type,
and a value that becomes empty is removed. Stream ids are numbered by
milliseconds and sequence, with 2 ^ 64 ids for each millisecond.
-/

namespace Redis

open Relational

inductive Error where
  | wrongType | notInteger | overflow | streamExhausted | invalidExpire | nilValue
  deriving DecidableEq, Repr

structure StreamEntry where
  id : ℕ
  fields : List (String × String)
  deriving DecidableEq, Repr

/-- A stream whose last id is the greatest one there is takes no further entry. -/
structure Stream where
  entries : List StreamEntry
  lastId : ℕ
  exhausted : Bool := false

inductive Value where
  | string (text : String)
  | list (items : List String)
  | hash (fields : Table String String)
  | set (members : Table String Unit)
  | zset (scores : Table String ℤ)
  | stream (stream : Stream)

inductive Kind where
  | string | list | hash | set | zset | stream
  deriving DecidableEq, Repr

def Value.kind : Value → Kind
  | string _ => .string
  | list _ => .list
  | hash _ => .hash
  | set _ => .set
  | zset _ => .zset
  | stream _ => .stream

structure Entry where
  value : Value
  deadline : Option ℕ := none

/-- What a key holds: nothing, or an entry. -/
abbrev Slot := Option Entry

abbrev Store (κ : Type) := κ → Slot

/-- The frozen clock in milliseconds, and the number of oldest entries that approximate trimming
would drop from a stream. -/
structure Env where
  now : ℕ
  trim : List StreamEntry → ℕ := fun _ => 0

/-- A key is gone once the clock is past its deadline. -/
def Slot.visible (now : ℕ) (slot : Slot) : Slot :=
  slot.filter fun entry => entry.deadline.all fun deadline => decide (now ≤ deadline)

def Store.visible {κ : Type} (now : ℕ) (store : Store κ) : Store κ :=
  fun key => Slot.visible now (store key)

namespace Slot

def deadline (slot : Slot) : Option ℕ := slot.bind Entry.deadline

def kind (slot : Slot) : Option Kind := slot.map fun entry => entry.value.kind

/-- The value keeps the deadline its key has. -/
def write (slot : Slot) (value : Value) : Slot := some ⟨value, slot.deadline⟩

def text : Slot → Option (Option String)
  | none => some none
  | some ⟨.string text, _⟩ => some (some text)
  | _ => none

def list : Slot → Option (List String)
  | none => some []
  | some ⟨.list items, _⟩ => some items
  | _ => none

def hash : Slot → Option (Table String String)
  | none => some Table.empty
  | some ⟨.hash fields, _⟩ => some fields
  | _ => none

def set : Slot → Option (Table String Unit)
  | none => some Table.empty
  | some ⟨.set members, _⟩ => some members
  | _ => none

def zset : Slot → Option (Table String ℤ)
  | none => some Table.empty
  | some ⟨.zset scores, _⟩ => some scores
  | _ => none

def stream : Slot → Option Stream
  | none => some ⟨[], 0, false⟩
  | some ⟨.stream stream, _⟩ => some stream
  | _ => none

def writeList (slot : Slot) (items : List String) : Slot :=
  if items = [] then none else slot.write (.list items)

def writeHash (slot : Slot) (fields : Table String String) : Slot :=
  if fields.rows = [] then none else slot.write (.hash fields)

def writeSet (slot : Slot) (members : Table String Unit) : Slot :=
  if members.rows = [] then none else slot.write (.set members)

def writeZset (slot : Slot) (scores : Table String ℤ) : Slot :=
  if scores.rows = [] then none else slot.write (.zset scores)

@[simp] theorem hash_writeHash (slot : Slot) (fields : Table String String) :
    (slot.writeHash fields).hash = some fields := by
  unfold writeHash
  split_ifs with h
  · rw [Table.eq_empty_of_rows h]
    rfl
  · rfl

@[simp] theorem list_writeList (slot : Slot) (items : List String) :
    (slot.writeList items).list = some items := by
  unfold writeList
  split_ifs with h
  · rw [h]
    rfl
  · rfl

@[simp] theorem set_writeSet (slot : Slot) (members : Table String Unit) :
    (slot.writeSet members).set = some members := by
  unfold writeSet
  split_ifs with h
  · rw [Table.eq_empty_of_rows h]
    rfl
  · rfl

@[simp] theorem zset_writeZset (slot : Slot) (scores : Table String ℤ) :
    (slot.writeZset scores).zset = some scores := by
  unfold writeZset
  split_ifs with h
  · rw [Table.eq_empty_of_rows h]
    rfl
  · rfl

@[simp] theorem stream_write (slot : Slot) (stream : Stream) :
    (slot.write (.stream stream)).stream = some stream := rfl

end Slot

/-- A script ends with a value or with the error of a refused command, and leaves a store. -/
inductive Outcome (κ α : Type) where
  | done (value : α) (store : Store κ)
  | raised (error : Error) (store : Store κ)

namespace Outcome

variable {κ α : Type}

def store : Outcome κ α → Store κ
  | done _ store => store
  | raised _ store => store

def value : Outcome κ α → Option α
  | done value _ => some value
  | raised _ _ => none

@[simp] theorem store_done (value : α) (store : Store κ) : (done value store).store = store := rfl

@[simp] theorem store_raised (error : Error) (store : Store κ) :
    (raised error store : Outcome κ α).store = store := rfl

/-- The same answer or error, and the same content of the keys `K`. -/
def SameOn (K : κ → Prop) : Outcome κ α → Outcome κ α → Prop
  | done value store, done value' store' => value = value' ∧ ∀ key, K key → store key = store' key
  | raised error store, raised error' store' =>
      error = error' ∧ ∀ key, K key → store key = store' key
  | _, _ => False

end Outcome

def Script (κ α : Type) := Env → Store κ → Outcome κ α

namespace Script

variable {κ α β : Type}

instance : Monad (Script κ) where
  pure value := fun _ store => .done value store
  bind first next := fun env store =>
    match first env store with
    | .done value store' => next value env store'
    | .raised error store' => .raised error store'

@[simp] theorem pure_apply (value : α) (env : Env) (store : Store κ) :
    (pure value : Script κ α) env store = .done value store := rfl

theorem bind_apply (first : Script κ α) (next : α → Script κ β) (env : Env) (store : Store κ) :
    (first >>= next) env store =
      match first env store with
      | .done value store' => next value env store'
      | .raised error store' => .raised error store' := rfl

theorem bind_of_done {first : Script κ α} {next : α → Script κ β} {env : Env}
    {store store' : Store κ} {value : α} (h : first env store = .done value store') :
    (first >>= next) env store = next value env store' := by
  rw [bind_apply, h]

theorem bind_eq_done {first : Script κ α} {next : α → Script κ β} {env : Env}
    {store last : Store κ} {result : β} :
    (first >>= next) env store = .done result last ↔ ∃ value store',
      first env store = .done value store' ∧ next value env store' = .done result last := by
  rw [bind_apply]
  cases h : first env store with
  | done value store' => simp
  | raised error store' => simp

/-- The clock of the script, in milliseconds. -/
def now : Script κ ℕ := fun env store => .done env.now store

def raise (error : Error) : Script κ α := fun _ store => .raised error store

/-- True when the test holds of every item; the first failure ends the walk. -/
def allM (test : α → Script κ Bool) : List α → Script κ Bool
  | [] => pure true
  | item :: items => do
      if ← test item then allM test items else pure false

def forEach (body : α → Script κ Unit) : List α → Script κ Unit
  | [] => pure ()
  | item :: items => do
      body item
      forEach body items

/-- A command that answers from a view of the key, refused where the key is of another type. -/
def readKey {τ : Type} (key : κ) (view : Slot → Option τ) (answer : Env → Slot → τ → α) :
    Script κ α :=
  fun env store =>
    match view (store key) with
    | some content => .done (answer env (store key) content) store
    | none => .raised .wrongType store

theorem readKey_some {τ : Type} {key : κ} {view : Slot → Option τ} {answer : Env → Slot → τ → α}
    {env : Env} {store : Store κ} {content : τ} (h : view (store key) = some content) :
    readKey key view answer env store = .done (answer env (store key) content) store := by
  unfold readKey
  rw [h]

theorem readKey_none {τ : Type} {key : κ} {view : Slot → Option τ} {answer : Env → Slot → τ → α}
    {env : Env} {store : Store κ} (h : view (store key) = none) :
    readKey key view answer env store = .raised .wrongType store := by
  unfold readKey
  rw [h]

variable [DecidableEq κ]

/-- A command on one key: refused, or an answer and what the key holds then. -/
def atKey (key : κ) (command : Env → Slot → Except Error (α × Slot)) : Script κ α :=
  fun env store =>
    match command env (store key) with
    | .ok (value, slot) => .done value (Function.update store key slot)
    | .error error => .raised error store

theorem atKey_ok {key : κ} {command : Env → Slot → Except Error (α × Slot)} {env : Env}
    {store : Store κ} {value : α} {slot : Slot} (h : command env (store key) = .ok (value, slot)) :
    atKey key command env store = .done value (Function.update store key slot) := by
  unfold atKey
  rw [h]

theorem atKey_error {key : κ} {command : Env → Slot → Except Error (α × Slot)} {env : Env}
    {store : Store κ} {error : Error} (h : command env (store key) = .error error) :
    atKey key command env store = .raised error store := by
  unfold atKey
  rw [h]

end Script

section Commands

open Script

variable {κ : Type} [DecidableEq κ]

def typeOf (key : κ) : Script κ (Option Kind) :=
  fun _ store => .done (store key).kind store

def exist (key : κ) : Script κ Bool := fun _ store => .done (store key).isSome store

def del (key : κ) : Script κ ℕ :=
  atKey key fun _ slot => .ok (if slot.isSome then 1 else 0, none)

def get (key : κ) : Script κ (Option String) := readKey key Slot.text fun _ _ text => text

/-- `SET key value PX ttl`. -/
def setPx (key : κ) (value : String) (ttl : ℕ) : Script κ Unit :=
  atKey key fun env _ =>
    if ttl = 0 then .error .invalidExpire
    else .ok ((), some ⟨.string value, some (env.now + ttl)⟩)

/-- `SET key value NX PX ttl`. -/
def setNxPx (key : κ) (value : String) (ttl : ℕ) : Script κ Bool :=
  atKey key fun env slot =>
    if ttl = 0 then .error .invalidExpire
    else if slot.isSome then .ok (false, slot)
    else .ok (true, some ⟨.string value, some (env.now + ttl)⟩)

/-- A deadline that is not in the future deletes the key. -/
def pexpire (key : κ) (ttl : ℕ) : Script κ ℕ :=
  atKey key fun env slot =>
    match slot with
    | none => .ok (0, none)
    | some entry =>
        if ttl = 0 then .ok (1, none) else .ok (1, some ⟨entry.value, some (env.now + ttl)⟩)

/-- -2 without the key, -1 without a deadline, and otherwise the remaining milliseconds. -/
def pttl (key : κ) : Script κ ℤ := fun env store =>
  .done (match store key with
    | none => -2
    | some entry =>
        match entry.deadline with
        | none => -1
        | some deadline => ((deadline - env.now : ℕ) : ℤ)) store

def lrange (key : κ) : Script κ (List String) := readKey key Slot.list fun _ _ items => items

def rpush (key : κ) (item : String) : Script κ Unit :=
  atKey key fun _ slot =>
    match slot.list with
    | none => .error .wrongType
    | some items => .ok ((), slot.writeList (items ++ [item]))

def hget (key : κ) (field : String) : Script κ (Option String) :=
  readKey key Slot.hash fun _ _ fields => fields.find field

def hset (key : κ) (values : List (String × String)) : Script κ Unit :=
  atKey key fun _ slot =>
    match slot.hash with
    | none => .error .wrongType
    | some fields =>
        .ok ((), slot.writeHash (values.foldl (fun t value => t.set value.1 value.2) fields))

def hdel (key : κ) (field : String) : Script κ Unit :=
  atKey key fun _ slot =>
    match slot.hash with
    | none => .error .wrongType
    | some fields => .ok ((), slot.writeHash (fields.erase field))

def minInt64 : ℤ := -2 ^ 63
def maxInt64 : ℤ := 2 ^ 63 - 1

def digits : List Char → Bool
  | [] => false
  | cs => cs.all Char.isDigit

/-- An integer in the form Redis prints it. -/
def natural (cs : List Char) : Option ℕ :=
  if digits cs ∧ (cs.head? ≠ some '0' ∨ cs = ['0']) then some (Nat.ofDigitChars 10 cs 0) else none

def integer (text : String) : Option ℤ :=
  let parsed : Option ℤ :=
    match text.toList with
    | '-' :: cs => if cs = ['0'] then none else (natural cs).map fun n => -(n : ℤ)
    | cs => (natural cs).map fun n => (n : ℤ)
  parsed.filter fun n => decide (minInt64 ≤ n ∧ n ≤ maxInt64)

/-- A field that is missing counts as 0. -/
def increment (fields : Table String String) (field : String) (amount : ℤ) :
    Except Error (Table String String) :=
  match fields.find field with
  | none => .ok (fields.set field (toString amount))
  | some text =>
      match integer text with
      | none => .error .notInteger
      | some n =>
          if n + amount < minInt64 ∨ maxInt64 < n + amount then .error .overflow
          else .ok (fields.set field (toString (n + amount)))

def hincrby (key : κ) (field : String) (amount : ℤ) : Script κ Unit :=
  atKey key fun _ slot =>
    match slot.hash with
    | none => .error .wrongType
    | some fields =>
        match increment fields field amount with
        | .error error => .error error
        | .ok fields' => .ok ((), slot.writeHash fields')

def sadd (key : κ) (member : String) : Script κ Unit :=
  atKey key fun _ slot =>
    match slot.set with
    | none => .error .wrongType
    | some members => .ok ((), slot.writeSet (members.set member ()))

def sismember (key : κ) (member : String) : Script κ Bool :=
  readKey key Slot.set fun _ _ members => (members.find member).isSome

def scard (key : κ) : Script κ ℕ := readKey key Slot.set fun _ _ members => members.rows.length

def smembers (key : κ) : Script κ (List String) :=
  readKey key Slot.set fun _ _ members => members.rows.map Prod.fst

def zadd (key : κ) (score : ℤ) (member : String) : Script κ Unit :=
  atKey key fun _ slot =>
    match slot.zset with
    | none => .error .wrongType
    | some scores => .ok ((), slot.writeZset (scores.set member score))

def zrem (key : κ) (member : String) : Script κ Unit :=
  atKey key fun _ slot =>
    match slot.zset with
    | none => .error .wrongType
    | some scores => .ok ((), slot.writeZset (scores.erase member))

/-- The members in the order of their scores, and of their names among equal scores. -/
def ranked (scores : Table String ℤ) : List (String × ℤ) :=
  scores.rows.insertionSort fun a b => a.2 < b.2 ∨ (a.2 = b.2 ∧ a.1 ≤ b.1)

/-- `ZRANGEBYSCORE key -inf max LIMIT 0 count`. -/
def zrangeByScore (key : κ) (max : ℤ) (count : ℕ) : Script κ (List String) :=
  readKey key Slot.zset fun _ _ scores =>
    (((ranked scores).filter fun row => decide (row.2 ≤ max)).map Prod.fst).take count

/-- `ZCOUNT key -inf max`. -/
def zcount (key : κ) (max : ℤ) : Script κ ℕ :=
  readKey key Slot.zset fun _ _ scores => scores.count fun _ score => decide (score ≤ max)

/-- The first id of a millisecond. -/
def firstId (ms : ℕ) : ℕ := ms * 2 ^ 64

def Stream.nextId (stream : Stream) (now : ℕ) : ℕ := max (firstId now) (stream.lastId + 1)

/-- The entry at the end; `MAXLEN ~` may then drop oldest entries beyond the bound. -/
def Stream.add (stream : Stream) (env : Env) (maxlen : Option ℕ)
    (fields : List (String × String)) : Stream :=
  let id := stream.nextId env.now
  let entries := stream.entries ++ [⟨id, fields⟩]
  { entries :=
      match maxlen with
      | none => entries
      | some bound => entries.drop (min (env.trim entries) (entries.length - bound))
    lastId := id
    exhausted := false }

def xadd (key : κ) (maxlen : Option ℕ) (fields : List (String × String)) : Script κ Unit :=
  atKey key fun env slot =>
    match slot.stream with
    | none => .error .wrongType
    | some stream =>
        if stream.exhausted then .error .streamExhausted
        else .ok ((), slot.write (.stream (stream.add env maxlen fields)))

/-- `XRANGE key - + COUNT count`. -/
def xrange (key : κ) (count : ℕ) : Script κ (List StreamEntry) :=
  readKey key Slot.stream fun _ _ stream => stream.entries.take count

/-- `XRANGE key (after + COUNT count`. -/
def xrangeAfter (key : κ) (after count : ℕ) : Script κ (List StreamEntry) :=
  readKey key Slot.stream fun _ _ stream =>
    (stream.entries.filter fun entry => decide (after < entry.id)).take count

/-- `XREVRANGE key + - COUNT 1`. -/
def xlast (key : κ) : Script κ (Option StreamEntry) :=
  readKey key Slot.stream fun _ _ stream => stream.entries.getLast?

end Commands
end Redis
