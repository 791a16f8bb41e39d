import Ticketing.Library.Expiring
import Ticketing.Library.Trace
import Mathlib.Data.List.DropRight

/-!
# The throttle on failed logins

An attempt asks Redis whether its username and its peer are below the limit, loads the user, has the
password hashed by a pool of workers, and only then counts its failure. Every attempt is at a stage
of its own, and the attempts take their steps in any order.
-/

namespace Ticketing.LoginThrottle

open Expiring Transition

inductive LoginOutcome where
  | succeeded | invalidArgument | invalidCredentials | tooManyAttempts | busy | unavailable
  deriving DecidableEq

structure UserRecord where
  id : String
  passwordHash : String
  status : String
  deriving DecidableEq

/-- The two limits; the configuration takes only positive ones. -/
structure RateConfig where
  loginRateMaxFailures : ℕ
  loginRateWindowSeconds : ℕ
  maxFailures_pos : 0 < loginRateMaxFailures
  windowSeconds_pos : 0 < loginRateWindowSeconds

/-- The keys of the two counters of an attempt. -/
inductive CounterKey where
  | username (username : String)
  | ip (peerIp : String)
  deriving DecidableEq

def blank (c : Char) : Bool := c = ' ' || c = '\t' || c = '\r' || c = '\n'

def canonicalUsername (value : String) : String :=
  String.ofList (((value.toList.dropWhile blank).rdropWhile blank).map Char.toLower)

def validUsername (username : String) : Bool :=
  decide (3 ≤ username.utf8ByteSize) && decide (username.utf8ByteSize ≤ 64) &&
    username.toList.all fun c => c.isLower || c.isDigit || c = '.' || c = '_' || c = '-'

def kDummyHash : String :=
  "$argon2id$v=19$m=65536,t=2,p=1$tUON0+a+tW+XPmzdPL+RoA$OCRPrfDL//acztJL8FF4AhlFnL7GN03xL4mAsYextRo"

def eligible (user : UserRecord) : Bool :=
  user.status = "ACTIVE" && user.passwordHash.toList.head? ≠ some '!'

/-- How far an attempt has come. -/
inductive Stage where
  | checking
  | looking
  | verifying (user : Option UserRecord)
  | recording
  | creating (user : UserRecord)
  | answered (outcome : LoginOutcome)
  deriving DecidableEq

structure Attempt where
  username : String
  password : String
  peerIp : String
  stage : Stage
  deriving DecidableEq

/-- The start of `login`. -/
def login (username password peerIp : String) : Attempt :=
  let canonical := canonicalUsername username
  ⟨canonical, password, peerIp,
    if !validUsername canonical || decide (password = "") ||
        decide (1024 < password.utf8ByteSize) then .answered .invalidArgument
    else .checking⟩

/-- After the password check: `verify` compares a password with a hash. -/
def verified (verify : String → String → Bool) (password : String) (user : Option UserRecord) :
    Stage :=
  let encoded := match user with
    | some user => if eligible user then user.passwordHash else kDummyHash
    | none => kDummyHash
  match user with
  | some user => if eligible user && verify password encoded then .creating user else .recording
  | none => .recording

/-- The counters in Redis, the attempts so far, and the counters that are still to be cleared. -/
structure State where
  now : ℕ
  counters : CounterKey → Key ℕ
  attempts : List Attempt
  clears : List String

namespace State

def initial (now : ℕ) : State := ⟨now, fun _ => none, [], []⟩

def counter (s : State) (k : CounterKey) : Key ℕ := (s.counters k).visible s.now

def failures (s : State) (k : CounterKey) : ℕ := (s.counter k).content.getD 0

/-- The check script. -/
def check (cfg : RateConfig) (s : State) (username peerIp : String) : Bool :=
  s.failures (.username username) < cfg.loginRateMaxFailures &&
    s.failures (.ip peerIp) < cfg.loginRateMaxFailures

/-- `INCR`, with the window set on a counter that is new. -/
def count (cfg : RateConfig) (s : State) (k : CounterKey) : Key ℕ :=
  let value := s.failures k + 1
  let key := (s.counter k).write value
  if value = 1 then key.expireAt s.now (s.now + cfg.loginRateWindowSeconds * 1000) else key

/-- The script that records a failure. -/
def recordFailure (cfg : RateConfig) (s : State) (username peerIp : String) :
    CounterKey → Key ℕ :=
  Function.update (Function.update s.counters (.username username) (s.count cfg (.username username)))
    (.ip peerIp) (s.count cfg (.ip peerIp))

end State

/-- What an attempt gets back: from Redis, from the database, from the pool. -/
inductive Reply where
  | checked
  | found (user : Option UserRecord)
  | unavailable
  | refused
  | hashed
  | recorded
  | created (stored : Bool)
  deriving DecidableEq

inductive Event where
  | arrive (username password peerIp : String)
  | reply (i : ℕ) (reply : Reply)
  | clear (username : String)
  | pass (milliseconds : ℕ)
  deriving DecidableEq

section Run

variable (cfg : RateConfig) (verify : String → String → Bool)

def advance (s : State) (a : Attempt) : Reply → Option Stage
  | .checked =>
      if a.stage = .checking then
        some (if s.check cfg a.username a.peerIp then .looking else .answered .tooManyAttempts)
      else none
  | .found user => if a.stage = .looking then some (.verifying user) else none
  | .unavailable => if a.stage = .looking then some (.answered .unavailable) else none
  | .refused =>
      match a.stage with
      | .verifying _ => some (.answered .busy)
      | _ => none
  | .hashed =>
      match a.stage with
      | .verifying user => some (verified verify a.password user)
      | _ => none
  | .recorded =>
      if a.stage = .recording then some (.answered .invalidCredentials) else none
  | .created stored =>
      match a.stage with
      | .creating _ => some (.answered (if stored then .succeeded else .unavailable))
      | _ => none

/-- With Redis available. The counter of a username is cleared some time after a success. -/
def step (s : State) : Event → Option State
  | .arrive username password peerIp =>
      some { s with attempts := s.attempts ++ [login username password peerIp] }
  | .reply i reply => do
      let a ← s.attempts[i]?
      let stage ← advance cfg verify s a reply
      some { s with
        attempts := s.attempts.set i { a with stage := stage }
        counters := if reply = .recorded then s.recordFailure cfg a.username a.peerIp else s.counters
        clears := if reply = .created true then a.username :: s.clears else s.clears }
  | .clear username =>
      if username ∈ s.clears then
        some { s with
          counters := Function.update s.counters (.username username) none
          clears := s.clears.erase username }
      else none
  | .pass milliseconds => some { s with now := s.now + milliseconds }

/-- One password check for the username. -/
def checksPassword (username : String) (s : State) : Event → Bool
  | .reply i .hashed => (s.attempts[i]?).any fun a => a.username = username
  | _ => false

/-- How many passwords the events check for the username. -/
def passwordChecks (username : String) (s : State) : List Event → ℕ
  | [] => 0
  | e :: es => (if checksPassword username s e then 1 else 0) +
      match step cfg verify s e with
      | some t => passwordChecks username t es
      | none => 0

/-- Past the check, and not yet counted. -/
def inFlight (username : String) (a : Attempt) : Bool :=
  a.username = username && match a.stage with
    | .looking | .verifying _ | .recording => true
    | _ => false

def isRecording (username : String) (a : Attempt) : Bool :=
  a.username = username && a.stage = .recording

/-- The event is no check of a right password for the username. -/
def Wrong (username : String) (s : State) : Event → Prop
  | .reply i .hashed => ∀ a ∈ s.attempts[i]?, ∀ user, a.username = username →
      a.stage = .verifying user → verified verify a.password user = .recording
  | _ => True

/-- A check script that finds the username below the limit would find it below the limit if the
attempts in flight had failed already. -/
def Room (username : String) (s : State) : Event → Prop
  | .reply i .checked => ∀ a ∈ s.attempts[i]?, a.username = username →
      s.failures (.username username) < cfg.loginRateMaxFailures →
        s.failures (.username username) + s.attempts.countP (inFlight username) <
          cfg.loginRateMaxFailures
  | _ => True

/-- The counter of the username is not lost between two states. -/
def SameWindow (username : String) (s t : State) : Prop :=
  (s.counter (.username username)).isSome → (t.counter (.username username)).isSome

/-- A step of a run with wrong passwords only, that checks with room. -/
structure Throttled (username : String) (e : Event) (s t : State) : Prop where
  step : step cfg verify s e = some t
  wrong : Wrong verify username s e
  room : Room cfg username s e

/-- The same within one counting window. -/
structure Counted (username : String) (e : Event) (s t : State) : Prop
    extends Throttled cfg verify username e s t where
  window : SameWindow username s t

end Run

/-! ## The counters -/

theorem visible_write (k : Key ℕ) (now value : ℕ) :
    ((k.visible now).write value).visible now = (k.visible now).write value := by
  cases hk : k.visible now with
  | none => rfl
  | some cell =>
      obtain ⟨-, hlives⟩ := Option.filter_eq_some_iff.mp hk
      simpa [Key.write, Key.visible, Option.filter] using hlives

namespace State

variable {cfg : RateConfig} {s : State}

theorem counter_of_visible {k : Key ℕ} {value : ℕ} (hlives : k.visible s.now = k)
    (hvalue : k.content = some value) : (k.visible s.now).content.getD 0 = value := by
  rw [hlives, hvalue]
  rfl

/-- A recorded failure is one more. -/
theorem count_content (cfg : RateConfig) (s : State) (k : CounterKey) :
    ((s.count cfg k).visible s.now).content.getD 0 = s.failures k + 1 := by
  have hwindow := cfg.windowSeconds_pos
  unfold count
  dsimp only
  split_ifs with hone
  · refine counter_of_visible ?_ ?_
    · exact Key.visible_of_due (Key.due_expireAt _ _ _) (Nat.le_add_right _ _)
    · rw [Key.content_expireAt_of_lt _ (by omega)]
      rfl
  · exact counter_of_visible (visible_write _ _ _) rfl

theorem failures_congr {t : State} {k : CounterKey} (hnow : t.now = s.now)
    (hcounter : t.counters k = s.counters k) : t.failures k = s.failures k := by
  unfold failures counter
  rw [hnow, hcounter]

theorem recordFailure_username (username peerIp : String) :
    s.recordFailure cfg username peerIp (.username username) =
      s.count cfg (.username username) := by
  unfold recordFailure
  rw [Function.update_of_ne CounterKey.noConfusion, Function.update_self]

theorem recordFailure_other {username other : String} (peerIp : String) (h : username ≠ other) :
    s.recordFailure cfg other peerIp (.username username) = s.counters (.username username) := by
  unfold recordFailure
  rw [Function.update_of_ne CounterKey.noConfusion,
    Function.update_of_ne fun heq => h (CounterKey.username.inj heq)]

/-- With time a counter stays as it is, or is lost. -/
theorem counter_pass {t : State} {k : CounterKey} (hnow : s.now ≤ t.now)
    (hcounter : t.counters k = s.counters k) : t.counter k = s.counter k ∨ t.counter k = none := by
  unfold counter
  rw [hcounter]
  cases hcell : s.counters k with
  | none => exact .inl rfl
  | some cell =>
      by_cases hlives : cell.deadline.all fun d => decide (t.now ≤ d)
      · have hlived : cell.deadline.all fun d => decide (s.now ≤ d) := by
          cases hdue : cell.deadline with
          | none => rfl
          | some d =>
              rw [hdue] at hlives
              have hle : t.now ≤ d := by simpa using hlives
              simpa using hnow.trans hle
        refine .inl ?_
        simp only [Key.visible, Option.filter, hlives, hlived, if_true]
      · exact .inr (by simp [Key.visible, Option.filter, hlives])

theorem failures_pass_le {t : State} {k : CounterKey} (hnow : s.now ≤ t.now)
    (hcounter : t.counters k = s.counters k) : t.failures k ≤ s.failures k := by
  unfold failures
  obtain h | h := counter_pass hnow hcounter
  · rw [h]
  · rw [h]
    exact Nat.zero_le _

theorem failures_pass {t : State} {username : String} (hnow : s.now ≤ t.now)
    (hcounter : t.counters (.username username) = s.counters (.username username))
    (hwindow : SameWindow username s t) :
    t.failures (.username username) = s.failures (.username username) := by
  unfold failures
  obtain h | h := counter_pass hnow hcounter
  · rw [h]
  · cases hs : s.counter (.username username) with
    | none => rw [h]
    | some cell =>
        have hsome := hwindow (by rw [hs]; rfl)
        rw [h] at hsome
        cases hsome

end State

/-! ## One step -/

section Step

variable {cfg : RateConfig} {verify : String → String → Bool} {username : String} {s t : State}

theorem countP_move {p : Attempt → Bool} {attempts : List Attempt} {i : ℕ} {a : Attempt}
    (h : attempts[i]? = some a) (b : Attempt) :
    (attempts.set i b).countP p + (if p a then 1 else 0) =
      attempts.countP p + (if p b then 1 else 0) := by
  obtain ⟨hi, hget⟩ := List.getElem?_eq_some_iff.mp h
  have hle := List.boole_getElem_le_countP (p := p) hi
  rw [List.countP_set hi]
  rw [hget] at hle ⊢
  omega

theorem step_reply {i : ℕ} {reply : Reply} (h : step cfg verify s (.reply i reply) = some t) :
    ∃ a stage, s.attempts[i]? = some a ∧ advance cfg verify s a reply = some stage ∧
      t = { s with
        attempts := s.attempts.set i { a with stage := stage }
        counters := if reply = .recorded then s.recordFailure cfg a.username a.peerIp else s.counters
        clears := if reply = .created true then a.username :: s.clears else s.clears } := by
  simp only [step, Option.bind_eq_bind, Option.bind_eq_some_iff] at h
  obtain ⟨a, ha, stage, hstage, ht⟩ := h
  exact ⟨a, stage, ha, hstage, (Option.some.inj ht).symm⟩

/-- No attempt on the username has succeeded. -/
structure Quiet (username : String) (s : State) : Prop where
  creating : ∀ a ∈ s.attempts, a.username = username → ∀ user, a.stage ≠ .creating user
  clears : username ∉ s.clears

/-- What a step does to the failures of a username, to its attempts in flight, and to those of them
whose password has been checked. -/
structure Effect (cfg : RateConfig) (username : String) (s t : State) (checks : ℕ) : Prop where
  quiet : Quiet username t
  bound : s.failures (.username username) + s.attempts.countP (inFlight username) ≤
      cfg.loginRateMaxFailures →
    t.failures (.username username) + t.attempts.countP (inFlight username) ≤
      cfg.loginRateMaxFailures
  progress : SameWindow username s t →
    checks + s.failures (.username username) + s.attempts.countP (isRecording username) ≤
      t.failures (.username username) + t.attempts.countP (isRecording username)

theorem login_idle (name password peerIp : String) :
    inFlight username (login name password peerIp) = false ∧
      isRecording username (login name password peerIp) = false ∧
      ∀ user, (login name password peerIp).stage ≠ .creating user := by
  unfold login inFlight isRecording
  dsimp only
  split_ifs <;> simp

theorem effect_arrive (hquiet : Quiet username s) (name password peerIp : String) :
    Effect cfg username s { s with attempts := s.attempts ++ [login name password peerIp] } 0 := by
  obtain ⟨hflight, hrecording, hcreating⟩ :=
    @login_idle username name password peerIp
  have hsame : State.failures { s with attempts := s.attempts ++ [login name password peerIp] }
      (.username username) = s.failures (.username username) := rfl
  refine ⟨⟨fun a ha => ?_, hquiet.clears⟩, ?_, ?_⟩
  · obtain ha | ha := List.mem_append.mp ha
    · exact hquiet.creating a ha
    · rw [List.mem_singleton.mp ha]
      exact fun _ => hcreating
  · rw [hsame, List.countP_append, List.countP_singleton, hflight]
    simp
  · intro _
    rw [hsame, List.countP_append, List.countP_singleton, hrecording]
    simp

theorem effect_pass (hquiet : Quiet username s) (milliseconds : ℕ) :
    Effect cfg username s { s with now := s.now + milliseconds } 0 := by
  refine ⟨⟨hquiet.creating, hquiet.clears⟩, ?_, ?_⟩
  · have hle := State.failures_pass_le (s := s) (t := { s with now := s.now + milliseconds })
      (k := .username username) (Nat.le_add_right _ _) rfl
    intro hbound
    dsimp only at hle ⊢
    omega
  · intro hwindow
    have hsame := State.failures_pass (s := s) (t := { s with now := s.now + milliseconds })
      (Nat.le_add_right _ _) rfl hwindow
    rw [hsame]
    dsimp only
    omega

theorem effect_clear (hquiet : Quiet username s) {name : String} (hname : name ∈ s.clears) :
    Effect cfg username s { s with
      counters := Function.update s.counters (.username name) none
      clears := s.clears.erase name } 0 := by
  have hne : username ≠ name := fun h => hquiet.clears (h ▸ hname)
  have hsame : State.failures { s with
      counters := Function.update s.counters (.username name) none
      clears := s.clears.erase name } (.username username) = s.failures (.username username) :=
    State.failures_congr rfl (Function.update_of_ne (fun h => hne (CounterKey.username.inj h)) _ _)
  refine ⟨⟨hquiet.creating, fun h => hquiet.clears (List.mem_of_mem_erase h)⟩, ?_, fun _ => ?_⟩
  · rw [hsame]
    exact id
  · rw [hsame]
    dsimp only
    omega

theorem creating_set (hquiet : Quiet username s) {i : ℕ} {b : Attempt}
    (hb : b.username = username → ∀ user, b.stage ≠ .creating user) :
    ∀ a ∈ s.attempts.set i b, a.username = username → ∀ user, a.stage ≠ .creating user := by
  intro a ha
  obtain ha | rfl := List.mem_or_eq_of_mem_set ha
  · exact hquiet.creating a ha
  · exact hb

/-- The step of an attempt on another username. -/
theorem effect_other (hquiet : Quiet username s) {i : ℕ} {a : Attempt} {stage : Stage}
    {reply : Reply} (ha : s.attempts[i]? = some a) (hother : username ≠ a.username) :
    Effect cfg username s { s with
      attempts := s.attempts.set i { a with stage := stage }
      counters := if reply = .recorded then s.recordFailure cfg a.username a.peerIp else s.counters
      clears := if reply = .created true then a.username :: s.clears else s.clears } 0 := by
  have hforeign : ∀ b : Attempt, b.username = a.username →
      inFlight username b = false ∧ isRecording username b = false := by
    intro b hb
    have hne : ¬b.username = username := fun h => hother (h.symm.trans hb)
    unfold inFlight isRecording
    rw [decide_eq_false hne]
    exact ⟨rfl, rfl⟩
  have hflight := countP_move (p := inFlight username) ha { a with stage := stage }
  have hrecording := countP_move (p := isRecording username) ha { a with stage := stage }
  rw [(hforeign a rfl).1, (hforeign { a with stage := stage } rfl).1] at hflight
  rw [(hforeign a rfl).2, (hforeign { a with stage := stage } rfl).2] at hrecording
  have hcounter : (if reply = .recorded then s.recordFailure cfg a.username a.peerIp
      else s.counters) (.username username) = s.counters (.username username) := by
    split_ifs
    · exact State.recordFailure_other _ hother
    · rfl
  have hsame : State.failures { s with
      attempts := s.attempts.set i { a with stage := stage }
      counters := if reply = .recorded then s.recordFailure cfg a.username a.peerIp else s.counters
      clears := if reply = .created true then a.username :: s.clears else s.clears }
        (.username username) = s.failures (.username username) :=
    State.failures_congr rfl hcounter
  refine ⟨⟨creating_set hquiet fun h => absurd h.symm hother, ?_⟩, ?_, fun _ => ?_⟩
  · dsimp only
    split_ifs
    · simp [hother, hquiet.clears]
    · exact hquiet.clears
  · rw [hsame]
    dsimp only
    omega
  · rw [hsame]
    dsimp only
    omega

/-- A step of an attempt on the username that counts no failure and starts no success. -/
theorem effect_own (hquiet : Quiet username s) {i : ℕ} {a : Attempt} {stage : Stage}
    (ha : s.attempts[i]? = some a) (hcreating : ∀ user, stage ≠ .creating user) {checks : ℕ}
    (hflight : inFlight username a = false → inFlight username { a with stage := stage } = true →
      s.failures (.username username) + s.attempts.countP (inFlight username) <
        cfg.loginRateMaxFailures)
    (hrecording : checks + (if isRecording username a then 1 else 0) =
      if isRecording username { a with stage := stage } then 1 else 0) :
    Effect cfg username s { s with attempts := s.attempts.set i { a with stage := stage } }
      checks := by
  have hmoved := countP_move (p := inFlight username) ha { a with stage := stage }
  have hmoved' := countP_move (p := isRecording username) ha { a with stage := stage }
  have hsame : State.failures { s with attempts := s.attempts.set i { a with stage := stage } }
      (.username username) = s.failures (.username username) := rfl
  refine ⟨⟨creating_set hquiet fun _ => hcreating, hquiet.clears⟩, ?_, fun _ => ?_⟩
  · rw [hsame]
    intro hbound
    dsimp only
    cases hbefore : inFlight username a with
    | true =>
        have hle : (if inFlight username { a with stage := stage } then 1 else 0) ≤ 1 := by
          split_ifs <;> omega
        rw [hbefore, if_pos rfl] at hmoved
        omega
    | false =>
        cases hafter : inFlight username { a with stage := stage } with
        | true =>
            have hroom := hflight hbefore hafter
            rw [hbefore, hafter] at hmoved
            simp only [if_true, Bool.false_eq_true, if_false] at hmoved
            omega
        | false =>
            rw [hbefore, hafter] at hmoved
            simp only [Bool.false_eq_true, if_false] at hmoved
            omega
  · rw [hsame]
    dsimp only
    omega

/-- The failure of an attempt on the username is counted. -/
theorem effect_record (hquiet : Quiet username s) {i : ℕ} {a : Attempt}
    (ha : s.attempts[i]? = some a) (hown : a.username = username) (hstage : a.stage = .recording) :
    Effect cfg username s { s with
      attempts := s.attempts.set i { a with stage := .answered .invalidCredentials }
      counters := s.recordFailure cfg a.username a.peerIp } 0 := by
  have hmoved := countP_move (p := inFlight username) ha
    { a with stage := .answered .invalidCredentials }
  have hmoved' := countP_move (p := isRecording username) ha
    { a with stage := .answered .invalidCredentials }
  have hflight : inFlight username a = true := by simp [inFlight, hown, hstage]
  have hrecording : isRecording username a = true := by simp [isRecording, hown, hstage]
  have hflight' : inFlight username { a with stage := .answered .invalidCredentials } = false := by
    simp [inFlight]
  have hrecording' :
      isRecording username { a with stage := .answered .invalidCredentials } = false := by
    simp [isRecording]
  rw [hflight, hflight'] at hmoved
  rw [hrecording, hrecording'] at hmoved'
  simp only [if_true, Bool.false_eq_true, if_false] at hmoved hmoved'
  have hone : State.failures { s with
      attempts := s.attempts.set i { a with stage := .answered .invalidCredentials }
      counters := s.recordFailure cfg a.username a.peerIp } (.username username) =
        s.failures (.username username) + 1 := by
    unfold State.failures State.counter
    dsimp only
    rw [hown, State.recordFailure_username]
    exact State.count_content cfg s (.username username)
  have hcreating : ∀ user, Stage.answered .invalidCredentials ≠ .creating user := by simp
  refine ⟨⟨creating_set hquiet fun _ => hcreating, hquiet.clears⟩, ?_, fun _ => ?_⟩
  · rw [hone]
    dsimp only
    omega
  · rw [hone]
    dsimp only
    omega

/-- The step of an attempt on the username. -/
theorem effect_reply (hquiet : Quiet username s) {i : ℕ} {a : Attempt} {stage : Stage}
    {reply : Reply} (ha : s.attempts[i]? = some a) (hown : a.username = username)
    (hstage : advance cfg verify s a reply = some stage)
    (hwrong : Wrong verify username s (.reply i reply))
    (hroom : Room cfg username s (.reply i reply)) :
    Effect cfg username s { s with
      attempts := s.attempts.set i { a with stage := stage }
      counters := if reply = .recorded then s.recordFailure cfg a.username a.peerIp else s.counters
      clears := if reply = .created true then a.username :: s.clears else s.clears }
      (if checksPassword username s (.reply i reply) then 1 else 0) := by
  cases reply with
  | checked =>
      have hchecking : a.stage = .checking := by
        by_contra hother
        simp [advance, hother] at hstage
      simp only [advance, if_pos hchecking] at hstage
      cases hstage
      refine effect_own hquiet ha ?_ (fun _ hlooking => ?_) ?_
      · intro user
        split_ifs <;> simp
      · have hpassed : s.check cfg a.username a.peerIp = true := by
          by_contra hrefused
          simp [inFlight, hrefused] at hlooking
        have hbelow : s.failures (.username username) < cfg.loginRateMaxFailures := by
          simp only [State.check, Bool.and_eq_true, decide_eq_true_eq, hown] at hpassed
          exact hpassed.1
        exact hroom a ha hown hbelow
      · split_ifs <;> simp_all [isRecording, checksPassword]
  | found user =>
      simp only [advance] at hstage
      split_ifs at hstage with hlooking
      cases hstage
      refine effect_own hquiet ha (by simp) ?_ ?_
      · simp [inFlight, hlooking, hown]
      · simp [isRecording, hlooking, checksPassword]
  | unavailable =>
      simp only [advance] at hstage
      split_ifs at hstage with hlooking
      cases hstage
      refine effect_own hquiet ha (by simp) ?_ ?_
      · simp [inFlight]
      · simp [isRecording, hlooking, checksPassword]
  | refused =>
      simp only [advance] at hstage
      split at hstage
      · rename_i user hverifying
        cases hstage
        refine effect_own hquiet ha (by simp) ?_ ?_
        · simp [inFlight]
        · simp [isRecording, hverifying, checksPassword]
      · cases hstage
  | hashed =>
      simp only [advance] at hstage
      split at hstage
      · rename_i user hverifying
        cases hstage
        rw [hwrong a ha user hown hverifying]
        refine effect_own hquiet ha (by simp) ?_ ?_
        · simp [inFlight, hverifying, hown]
        · simp [isRecording, hverifying, checksPassword, ha, hown]
      · cases hstage
  | recorded =>
      simp only [advance] at hstage
      split_ifs at hstage with hrecording
      cases hstage
      exact effect_record hquiet ha hown hrecording
  | created stored =>
      simp only [advance] at hstage
      split at hstage
      · rename_i user hcreating
        exact absurd hcreating
          (hquiet.creating a (List.mem_of_getElem? ha) hown user)
      · cases hstage

/-- What a step does, if it meets the conditions of a throttled run. -/
theorem effect_step (hquiet : Quiet username s) {e : Event}
    (h : Throttled cfg verify username e s t) :
    Effect cfg username s t (if checksPassword username s e then 1 else 0) := by
  obtain ⟨hstep, hwrong, hroom⟩ := h
  cases e with
  | arrive name password peerIp =>
      cases hstep
      exact effect_arrive hquiet name password peerIp
  | pass milliseconds =>
      cases hstep
      exact effect_pass hquiet milliseconds
  | clear name =>
      simp only [step] at hstep
      split_ifs at hstep with hname
      cases hstep
      exact effect_clear hquiet hname
  | reply i reply =>
      obtain ⟨a, stage, ha, hstage, rfl⟩ := step_reply hstep
      by_cases hown : a.username = username
      · exact effect_reply hquiet ha hown hstage hwrong hroom
      · have hnone : checksPassword username s (.reply i reply) = false := by
          cases reply <;> simp [checksPassword, ha, hown]
        rw [hnone]
        exact effect_other hquiet ha fun h => hown h.symm

/-- Attempts on a username that follow each other meet the condition on the checks. -/
theorem room_of_alone (h : s.attempts.countP (inFlight username) = 0) (e : Event) :
    Room cfg username s e := by
  cases e with
  | reply i reply =>
      cases reply with
      | checked =>
          intro a _ _ hbelow
          omega
      | _ => trivial
  | _ => trivial

end Step

/-! ## Runs -/

section Runs

variable {cfg : RateConfig} {verify : String → String → Bool} {username : String} {s t : State}

/-- The failures counted and the attempts in flight stay within the limit. -/
structure Bounded (cfg : RateConfig) (username : String) (s : State) : Prop where
  quiet : Quiet username s
  bound : s.failures (.username username) + s.attempts.countP (inFlight username) ≤
    cfg.loginRateMaxFailures

theorem bounded_initial (cfg : RateConfig) (username : String) (now : ℕ) :
    Bounded cfg username (State.initial now) where
  quiet := ⟨fun _ h => absurd h List.not_mem_nil, List.not_mem_nil⟩
  bound := Nat.zero_le _

theorem bounded_step {e : Event} (h : Bounded cfg username s)
    (hstep : Throttled cfg verify username e s t) : Bounded cfg username t := by
  have heffect := effect_step h.quiet hstep
  exact ⟨heffect.quiet, heffect.bound h.bound⟩

theorem bounded_run {es : List Event} (h : Trace (Throttled cfg verify username) s es t)
    (hs : Bounded cfg username s) : Bounded cfg username t :=
  h.invariant (fun _ _ _ hs hstep => bounded_step hs hstep) hs

theorem Counted.trace {es : List Event} (h : Trace (Counted cfg verify username) s es t) :
    Trace (Throttled cfg verify username) s es t := by
  induction h with
  | nil s => exact .nil s
  | cons head _ ih => exact .cons head.toThrottled ih

/-- Within a window every checked password is counted as a failure or about to be. -/
theorem checks_le {es : List Event} (h : Trace (Counted cfg verify username) s es t)
    (hquiet : Quiet username s) :
    passwordChecks cfg verify username s es + s.failures (.username username) +
        s.attempts.countP (isRecording username) ≤
      t.failures (.username username) + t.attempts.countP (isRecording username) := by
  induction h with
  | nil s =>
      simp only [passwordChecks]
      omega
  | @cons s m t e es head _ ih =>
      have heffect := effect_step hquiet head.toThrottled
      have hhead := heffect.progress head.window
      have htail := ih heffect.quiet
      simp only [passwordChecks, head.step]
      omega

theorem recording_le_inFlight (attempts : List Attempt) :
    attempts.countP (isRecording username) ≤ attempts.countP (inFlight username) := by
  refine List.countP_mono_left fun a _ h => ?_
  simp only [isRecording, Bool.and_eq_true, decide_eq_true_eq] at h
  simp [inFlight, h.1, h.2]

/-- A username at its limit is refused without a password check. -/
theorem refused_at_limit {a : Attempt} (hstage : a.stage = .checking)
    (hlimit : cfg.loginRateMaxFailures ≤ s.failures (.username a.username)) :
    advance cfg verify s a .checked = some (.answered .tooManyAttempts) := by
  have hrefused : s.check cfg a.username a.peerIp = false := by
    simp [State.check, hlimit]
  simp [advance, hstage, hrefused]

/-- With wrong passwords only, and as long as every check finds room for the attempts in flight, at
most the maximum of passwords is checked for a username in one counting window, and once they are,
an attempt is answered without. -/
theorem passwordChecks_le (cfg : RateConfig) (verify : String → String → Bool) (username : String)
    {now : ℕ} {before during : List Event} {s t : State}
    (hbefore : Trace (Throttled cfg verify username) (State.initial now) before s)
    (hduring : Trace (Counted cfg verify username) s during t) :
    passwordChecks cfg verify username s during ≤ cfg.loginRateMaxFailures ∧
      (passwordChecks cfg verify username s during = cfg.loginRateMaxFailures →
        ∀ i a, t.attempts[i]? = some a → a.username = username → a.stage = .checking →
          Room cfg username t (.reply i .checked) →
            advance cfg verify t a .checked = some (.answered .tooManyAttempts)) := by
  have hs := bounded_run hbefore (bounded_initial cfg username now)
  have ht := bounded_run (Counted.trace hduring) hs
  have hchecks := checks_le hduring hs.quiet
  have hrecording := @recording_le_inFlight username t.attempts
  have hbound := ht.bound
  refine ⟨by omega, fun hfull i a ha hown hstage hroom => ?_⟩
  refine refused_at_limit hstage ?_
  rw [hown]
  by_contra hbelow
  have hmore := hroom a ha hown (Nat.lt_of_not_le hbelow)
  omega

end Runs

/-- The limits of the default configuration. -/
def defaultRate : RateConfig := ⟨5, 60, by decide, by decide⟩

def runs (cfg : RateConfig) (verify : String → String → Bool) : State → List Event → Option State
  | s, [] => some s
  | s, e :: es => (step cfg verify s e).bind fun t => runs cfg verify t es

def alice : UserRecord := ⟨"USR-1", "$argon2id$", "ACTIVE"⟩

/-- Six attempts that are all checked before the first of them is counted. -/
def rush : List Event :=
  (List.range 6).map (fun _ => .arrive "alice" "guess" "10.0.0.1") ++
    (List.range 6).map (fun i => .reply i .checked) ++
    (List.range 6).map (fun i => .reply i (.found (some alice))) ++
    (List.range 6).map (fun i => .reply i .hashed)

/-- No time has passed and nothing is counted when the sixth password is checked. -/
theorem rush_checks_six :
    passwordChecks defaultRate (fun _ _ => false) "alice" (State.initial 0) rush =
        defaultRate.loginRateMaxFailures + 1 ∧
      (runs defaultRate (fun _ _ => false) (State.initial 0) rush).map
        (fun t => (t.now, t.failures (.username "alice"))) = some (0, 0) := by
  decide +kernel

instance (cfg : RateConfig) (username : String) (s : State) (e : Event) :
    Decidable (Room cfg username s e) := by
  unfold Room
  split <;> infer_instance

instance (username : String) (s t : State) : Decidable (SameWindow username s t) := by
  unfold SameWindow
  infer_instance

/-- Every check of the events has room, and no step loses the counter of the username. -/
def roomy (cfg : RateConfig) (verify : String → String → Bool) (username : String) :
    State → List Event → Bool
  | _, [] => true
  | s, e :: es =>
      match step cfg verify s e with
      | some t => decide (Room cfg username s e ∧ SameWindow username s t) &&
          roomy cfg verify username t es
      | none => false

/-- Where no password is right, such events make a throttled run. -/
theorem trace_of_roomy {cfg : RateConfig} {verify : String → String → Bool} {username : String}
    (hwrong : ∀ password encoded, verify password encoded = false) {s : State} {es : List Event}
    (h : roomy cfg verify username s es = true) :
    ∃ t, runs cfg verify s es = some t ∧ Trace (Counted cfg verify username) s es t := by
  induction es generalizing s with
  | nil => exact ⟨s, rfl, .nil s⟩
  | cons e es ih =>
      unfold roomy at h
      cases hstep : step cfg verify s e with
      | none =>
          rw [hstep] at h
          cases h
      | some middle =>
          rw [hstep] at h
          obtain ⟨hmeets, hrest⟩ := Bool.and_eq_true_iff.mp h
          obtain ⟨hroom, hwindow⟩ := of_decide_eq_true hmeets
          obtain ⟨t, hruns, htrace⟩ := ih hrest
          have hverified : Wrong verify username s e := by
            unfold Wrong
            split
            · intro a _ user _ _
              unfold verified
              cases user <;> simp [hwrong]
            · trivial
          refine ⟨t, ?_, .cons ⟨⟨hstep, hverified, hroom⟩, hwindow⟩ htrace⟩
          unfold runs
          rw [hstep]
          exact hruns

/-- Five attempts at once and a sixth one that is checked when the five have been counted. -/
def crowd : List Event :=
  (List.range 6).map (fun _ => .arrive "alice" "guess" "10.0.0.1") ++
    (List.range 5).map (fun i => .reply i .checked) ++
    (List.range 5).map (fun i => .reply i (.found (some alice))) ++
    (List.range 5).map (fun i => .reply i .hashed) ++
    (List.range 5).map (fun i => .reply i .recorded)

/-- The five passwords are checked, and the sixth attempt is answered without a check. -/
theorem passwordChecks_le_crowd : ∃ t,
    runs defaultRate (fun _ _ => false) (State.initial 0) crowd = some t ∧
      passwordChecks defaultRate (fun _ _ => false) "alice" (State.initial 0) crowd =
        defaultRate.loginRateMaxFailures ∧
      passwordChecks defaultRate (fun _ _ => false) "alice" (State.initial 0) crowd ≤
        defaultRate.loginRateMaxFailures ∧
      ∃ a, t.attempts[5]? = some a ∧ a.stage = .checking ∧
        advance defaultRate (fun _ _ => false) t a .checked =
          some (.answered .tooManyAttempts) := by
  obtain ⟨t, hruns, hcrowd⟩ := @trace_of_roomy defaultRate (fun _ _ => false) "alice"
    (fun _ _ => rfl) (State.initial 0) crowd (by decide +kernel)
  obtain ⟨hle, hrefused⟩ :=
    passwordChecks_le defaultRate _ "alice" (.nil (State.initial 0)) hcrowd
  have hfull : passwordChecks defaultRate (fun _ _ => false) "alice" (State.initial 0) crowd =
      defaultRate.loginRateMaxFailures := by decide +kernel
  have hwaiting : (runs defaultRate (fun _ _ => false) (State.initial 0) crowd).bind
      (fun t => t.attempts[5]?) = some ⟨"alice", "guess", "10.0.0.1", .checking⟩ := by
    decide +kernel
  have hcounted : (runs defaultRate (fun _ _ => false) (State.initial 0) crowd).map
      (fun t => t.failures (.username "alice")) = some 5 := by decide +kernel
  rw [hruns] at hwaiting hcounted
  have hroom : Room defaultRate "alice" t (.reply 5 .checked) := by
    intro a _ _ hbelow
    have hlimit : t.failures (.username "alice") = 5 := Option.some.inj hcounted
    rw [hlimit] at hbelow
    exact absurd hbelow (by decide)
  exact ⟨t, hruns, hfull, hle, _, hwaiting, rfl, hrefused hfull 5 _ hwaiting rfl rfl hroom⟩

end Ticketing.LoginThrottle
