import Ticketing.WaitingRoom
import Ticketing.Library.Allowance
import Ticketing.Library.JsonValue
import Mathlib.Data.List.TakeWhile

/-!
# The token buckets of an event

A call is allowed when the bucket of its account and the bucket of the event both cover its cost, in
thousandths of a token. Both keys expire when they have not been used for a while, and a bucket
without a key counts as full.
-/

namespace Ticketing.Admission

open Expiring Allowance JsonCpp

structure TrafficConfig where
  limits : List ℕ
  accountCapacity : ℕ
  accountRate : ℕ
  eventCapacity : ℕ
  eventRate : ℕ

namespace TrafficConfig

def resourceNames : List String :=
  ["PUBLIC_STATIC_READ", "ADMISSION", "AVAILABILITY", "INVENTORY_WRITE", "RECOVERY", "FINANCIAL",
    "ADMIN", "POSTGRES_FALLBACK"]

def number (v : Value) (high : ℕ) : Option ℕ :=
  match v with
  | .int n => if 1 ≤ n ∧ n ≤ high then some n.toNat else none
  | _ => none

def member (members : List (String × Value)) (key : String) : Value :=
  (members.lookup key).getD .null

/-- A missing setting has its defaults; one that is there has exactly these members. -/
def parse : Value → Option TrafficConfig
  | .null => some ⟨[16, 16, 16, 16, 16, 16, 16, 2], 20, 10, 200, 100⟩
  | .object members =>
      if (members.map Prod.fst).Perm
          ["bulkheads", "account_capacity", "account_rate", "event_capacity", "event_rate"] then
        match member members "bulkheads" with
        | .object heads =>
          if heads.length = resourceNames.length then do
            let limits ← resourceNames.mapM fun name => number (member heads name) 256
            let accountCapacity ← number (member members "account_capacity") 1000000
            let accountRate ← number (member members "account_rate") 1000000
            let eventCapacity ← number (member members "event_capacity") 1000000
            let eventRate ← number (member members "event_rate") 1000000
            some ⟨limits, accountCapacity, accountRate, eventCapacity, eventRate⟩
          else none
        | _ => none
      else none
  | _ => none

end TrafficConfig

inductive BucketKey where
  | account (user : String)
  | event
  deriving DecidableEq

namespace BucketKey

def capacity (c : TrafficConfig) : BucketKey → ℕ
  | account _ => c.accountCapacity
  | event => c.eventCapacity

def rate (c : TrafficConfig) : BucketKey → ℕ
  | account _ => c.accountRate
  | event => c.eventRate

end BucketKey

inductive RateScope where
  | account
  | event
  | both
  deriving DecidableEq

inductive RateReply where
  | invalid
  | allowed (now : ℕ)
  | rateLimited (scope : RateScope) (retry now : ℕ)
  deriving DecidableEq

structure RateCall where
  time : ℕ
  account : String
  cost : ℕ

abbrev Buckets := BucketKey → Key Bucket

namespace Buckets

def empty : Buckets := fun _ => none

def inRange (n : ℕ) : Bool := decide (1 ≤ n ∧ n ≤ 1000000)

def refill (key : Key Bucket) (now capacity rate : ℕ) : ℕ :=
  let last := (key.content.map Bucket.time).getD now
  let tokens := (key.content.map Bucket.tokens).getD (capacity * 1000)
  min (capacity * 1000) (tokens + min 3600000 (now - last) * rate)

/-- How long one has to wait for what is missing. -/
def retryAfter (missing rate : ℕ) : ℕ := (missing + rate - 1) / rate

def ttl (capacity rate : ℕ) : ℕ := min 86400000 ((capacity * 1000 + rate - 1) / rate + 60000)

def save (key : Key Bucket) (now tokens ttl : ℕ) : Key Bucket :=
  (key.write ⟨now, tokens⟩).expireAt now (now + ttl)

/-- What a bucket can be charged for at a time. -/
def level (c : TrafficConfig) (s : Buckets) (k : BucketKey) (now : ℕ) : ℕ :=
  refill ((s k).visible now) now (k.capacity c) (k.rate c)

/-- Keep what is left of a bucket, and the key for as long as a refill takes, a day at most. -/
def settle (c : TrafficConfig) (s : Buckets) (k : BucketKey) (now left : ℕ) : Key Bucket :=
  save ((s k).visible now) now left (ttl (k.capacity c) (k.rate c))

/-- A call refills both buckets and charges both or none. -/
def script (c : TrafficConfig) (s : Buckets) (now : ℕ) (user : String) (cost : ℕ) :
    RateReply × Buckets :=
  if !(inRange c.accountCapacity && inRange c.accountRate && inRange c.eventCapacity &&
      inRange c.eventRate && inRange cost) then (.invalid, s)
  else if c.accountCapacity < cost ∨ c.eventCapacity < cost then (.invalid, s)
  else
    let a := level c s (.account user) now
    let e := level c s .event now
    let need := cost * 1000
    let reply :=
      if a < need then
        if e < need then
          .rateLimited .both (max (retryAfter (need - a) c.accountRate)
            (retryAfter (need - e) c.eventRate)) now
        else .rateLimited .account (retryAfter (need - a) c.accountRate) now
      else if e < need then .rateLimited .event (retryAfter (need - e) c.eventRate) now
      else .allowed now
    let charge := if a < need ∨ e < need then 0 else need
    (reply, Function.update (Function.update s (.account user)
      (settle c s (.account user) now (a - charge))) .event (settle c s .event now (e - charge)))

def call (c : TrafficConfig) (s : Buckets) (call : RateCall) : RateReply × Buckets :=
  script c s call.time call.account call.cost

def after (c : TrafficConfig) (s : Buckets) (call : RateCall) : Buckets := (s.call c call).2

end Buckets

def RateReply.isAllowed : RateReply → Bool
  | .allowed _ => true
  | _ => false

def RateCall.uses (call : RateCall) (k : BucketKey) : Bool :=
  decide (k = .event ∨ k = .account call.account)

def bucketsAfter (c : TrafficConfig) (s : Buckets) (calls : List RateCall) : Buckets :=
  calls.foldl (Buckets.after c) s

/-- The total cost of the allowed calls among those selected. -/
def allowedCost (c : TrafficConfig) (p : RateCall → Bool) : Buckets → List RateCall → ℕ
  | _, [] => 0
  | s, call :: calls =>
      (if (s.call c call).1.isAllowed && p call then call.cost else 0) +
        allowedCost c p (s.after c call) calls

def RateCall.within (k : BucketKey) (start length : ℕ) (call : RateCall) : Bool :=
  call.uses k && decide (start ≤ call.time ∧ call.time ≤ start + length)

/-- The bound on a bucket, in every window of time. -/
def WithinRate (c : TrafficConfig) (calls : List RateCall) (k : BucketKey) : Prop :=
  ∀ start length, (allowedCost c (RateCall.within k start length) Buckets.empty calls : ℚ) ≤
    k.capacity c + k.rate c * length / 1000

def Chronological (calls : List RateCall) : Prop :=
  calls.Pairwise fun call later => call.time ≤ later.time

/-- At this time the key of the bucket is not found expired before the bucket is full again. -/
def FullWhenExpired (c : TrafficConfig) (s : Buckets) (k : BucketKey) (now : ℕ) : Prop :=
  ∀ cell, s k = some cell → (s k).visible now = none →
    k.capacity c * 1000 ≤ cell.content.tokens + (now - cell.content.time) * k.rate c

/-- No call finds the key of the bucket expired before the bucket could be full again. -/
def ExpiresFull (c : TrafficConfig) (s : Buckets) (calls : List RateCall) (k : BucketKey) : Prop :=
  ∀ before call after, calls = before ++ call :: after → call.uses k = true →
    FullWhenExpired c (bucketsAfter c s before) k call.time

/-- The bounds of the configuration. -/
structure TrafficConfig.Accepted (c : TrafficConfig) : Prop where
  capacity : ∀ k : BucketKey, 1 ≤ k.capacity c ∧ k.capacity c ≤ 1000000
  rate : ∀ k : BucketKey, 1 ≤ k.rate c ∧ k.rate c ≤ 1000000

theorem TrafficConfig.number_range {v : Value} {high n : ℕ} (h : number v high = some n) :
    1 ≤ n ∧ n ≤ high := by
  unfold number at h
  cases v with
  | int z =>
      dsimp only at h
      split_ifs at h with hrange
      cases h
      omega
  | _ => cases h

theorem TrafficConfig.parse_accepted {v : Value} {c : TrafficConfig} (h : parse v = some c) :
    c.Accepted := by
  unfold parse at h
  split at h
  · cases h
    refine ⟨fun k => ?_, fun k => ?_⟩
    · cases k <;> simp [BucketKey.capacity]
    · cases k <;> simp [BucketKey.rate]
  · split_ifs at h
    split at h
    · split_ifs at h
      simp only [Option.bind_eq_bind, Option.bind_eq_some_iff] at h
      obtain ⟨limits, -, ac, hac, ar, har, ec, hec, er, her, hc⟩ := h
      cases hc
      refine ⟨fun k => ?_, fun k => ?_⟩
      · cases k
        · exact number_range hac
        · exact number_range hec
      · cases k
        · exact number_range har
        · exact number_range her
    · cases h
  · cases h

namespace Buckets

variable {c : TrafficConfig} {s : Buckets} {k : BucketKey}

theorem ttl_pos (capacity rate : ℕ) : 0 < ttl capacity rate :=
  lt_min (by decide) (Nat.add_pos_right _ (by decide))

theorem ttl_le (capacity rate : ℕ) : ttl capacity rate ≤ 86400000 := min_le_left _ _

theorem save_eq (key : Key Bucket) (now tokens : ℕ) {ttl : ℕ} (h : 0 < ttl) :
    save key now tokens ttl = some ⟨⟨now, tokens⟩, some (now + ttl)⟩ := by
  unfold save Key.expireAt Key.write
  rw [if_neg (by omega), Option.map_some]

theorem refill_le_capacity (key : Key Bucket) (now capacity rate : ℕ) :
    refill key now capacity rate ≤ capacity * 1000 := min_le_left _ _

theorem refill_none (now capacity rate : ℕ) : refill none now capacity rate = capacity * 1000 :=
  min_eq_left (Nat.le_add_right _ _)

theorem refill_some_le (cell : Cell Bucket) (now capacity rate : ℕ) :
    refill (some cell) now capacity rate ≤
      cell.content.tokens + (now - cell.content.time) * rate := by
  refine (min_le_right _ _).trans ?_
  exact Nat.add_le_add_left (Nat.mul_le_mul_right _ (min_le_right _ _)) _

/-- Nothing accrues at the time of the last use. -/
theorem refill_same (now tokens : ℕ) (deadline : Option ℕ) (capacity rate : ℕ) :
    refill (some ⟨⟨now, tokens⟩, deadline⟩) now capacity rate = min (capacity * 1000) tokens := by
  simp [refill, Key.content]

/-- A call that runs charges its two buckets alike and leaves the others. -/
structure Charged (c : TrafficConfig) (s : Buckets) (call : RateCall) (charge : ℕ) : Prop where
  used : ∀ k, call.uses k = true → charge ≤ level c s k call.time ∧ s.after c call k =
    some ⟨⟨call.time, level c s k call.time - charge⟩,
      some (call.time + ttl (k.capacity c) (k.rate c))⟩
  others : ∀ k, call.uses k = false → s.after c call k = s k
  cost : charge = if (s.call c call).1.isAllowed then 1000 * call.cost else 0

theorem settle_eq (c : TrafficConfig) (s : Buckets) (k : BucketKey) (now left : ℕ) :
    settle c s k now left = some ⟨⟨now, left⟩, some (now + ttl (k.capacity c) (k.rate c))⟩ :=
  save_eq _ _ _ (ttl_pos _ _)

/-- Either the call is refused as invalid and changes nothing, or it runs. -/
theorem call_cases (c : TrafficConfig) (s : Buckets) (call : RateCall) :
    (s.after c call = s ∧ (s.call c call).1.isAllowed = false) ∨ ∃ charge, Charged c s call charge := by
  unfold after Buckets.call script
  split_ifs with hrange hcost
  · exact Or.inl ⟨rfl, rfl⟩
  · exact Or.inl ⟨rfl, rfl⟩
  · apply Or.inr
    refine ⟨if level c s (.account call.account) call.time < call.cost * 1000 ∨
      level c s .event call.time < call.cost * 1000 then 0 else call.cost * 1000, ?_, ?_, ?_⟩
    · intro k hk
      unfold after Buckets.call script
      rw [if_neg hrange, if_neg hcost]
      dsimp only
      obtain rfl | rfl := of_decide_eq_true hk
      · refine ⟨?_, ?_⟩
        · split_ifs <;> omega
        · rw [Function.update_self, settle_eq]
      · refine ⟨?_, ?_⟩
        · split_ifs <;> omega
        · rw [Function.update_of_ne BucketKey.noConfusion, Function.update_self, settle_eq]
    · intro k hk
      unfold after Buckets.call script
      rw [if_neg hrange, if_neg hcost]
      have hother := of_decide_eq_false hk
      push Not at hother
      dsimp only
      rw [Function.update_of_ne hother.1, Function.update_of_ne hother.2]
    · unfold Buckets.call script
      rw [if_neg hrange, if_neg hcost]
      dsimp only
      split_ifs <;> simp_all [RateReply.isAllowed, Nat.mul_comm]

/-- The reading that the key of a bucket holds. -/
def reading (cell : Cell Bucket) : Reading := ⟨cell.content.time, cell.content.tokens⟩

/-- What accrues between two calls is no more than the rate gives. -/
theorem level_le {cell : Cell Bucket} {now : ℕ} (hcell : s k = some cell)
    (hfull : FullWhenExpired c s k now) :
    level c s k now ≤ cell.content.tokens + k.rate c * (now - cell.content.time) := by
  rw [Nat.mul_comm]
  unfold level
  cases hseen : (s k).visible now with
  | none =>
      rw [refill_none]
      exact hfull cell hcell hseen
  | some seen =>
      have hraw : (s k).filter _ = some seen := hseen
      have hsame := (Option.filter_eq_some_iff.mp hraw).1
      rw [hcell] at hsame
      cases hsame
      exact refill_some_le cell now _ _

theorem level_le_capacity (c : TrafficConfig) (s : Buckets) (k : BucketKey) (now : ℕ) :
    level c s k now ≤ k.capacity c * 1000 := refill_le_capacity _ _ _ _

/-- The cost that one call takes from a bucket. -/
def taken (c : TrafficConfig) (s : Buckets) (k : BucketKey) (call : RateCall) : ℕ :=
  if (s.call c call).1.isAllowed && call.uses k then call.cost else 0

/-- One call, seen from the reading of a bucket before it. -/
theorem spends_call {call : RateCall} {cell : Cell Bucket} (hcell : s k = some cell)
    (hlater : cell.content.time ≤ call.time)
    (hfull : call.uses k = true → FullWhenExpired c s k call.time) :
    ∃ next, s.after c call k = some next ∧ next.content.time ≤ call.time ∧
      Spends (k.rate c) (reading cell) (1000 * taken c s k call) (reading next) := by
  unfold taken
  obtain ⟨hsame, hrefused⟩ | ⟨charge, hcharged⟩ := call_cases c s call
  · rw [hsame, hrefused]
    exact ⟨cell, hcell, hlater, .refl _ _⟩
  · cases huses : call.uses k with
    | false =>
        rw [hcharged.others k huses, Bool.and_false]
        exact ⟨cell, hcell, hlater, .refl _ _⟩
    | true =>
        obtain ⟨hle, hafter⟩ := hcharged.used k huses
        have hlevel := level_le hcell (hfull huses)
        refine ⟨_, hafter, le_rfl, hlater, ?_⟩
        have hcost := hcharged.cost
        rw [Bool.and_true]
        unfold reading
        dsimp only
        split_ifs at hcost ⊢ with hallowed
        · omega
        · omega

/-- A call either leaves a bucket alone or takes no more than its capacity. -/
theorem opens_call (c : TrafficConfig) (s : Buckets) (k : BucketKey) (call : RateCall) :
    (s.after c call k = s k ∧ taken c s k call = 0) ∨
      ∃ next, s.after c call k = some next ∧ next.content.time = call.time ∧
        next.content.tokens + 1000 * taken c s k call ≤ k.capacity c * 1000 := by
  unfold taken
  obtain ⟨hsame, hrefused⟩ | ⟨charge, hcharged⟩ := call_cases c s call
  · rw [hsame, hrefused]
    exact Or.inl ⟨rfl, rfl⟩
  · cases huses : call.uses k with
    | false =>
        rw [hcharged.others k huses, Bool.and_false]
        exact Or.inl ⟨rfl, rfl⟩
    | true =>
        obtain ⟨hle, hafter⟩ := hcharged.used k huses
        have hcap := level_le_capacity c s k call.time
        refine Or.inr ⟨_, hafter, rfl, ?_⟩
        have hcost := hcharged.cost
        rw [Bool.and_true]
        dsimp only
        split_ifs at hcost ⊢ with hallowed
        · omega
        · omega

end Buckets

section runs

variable {c : TrafficConfig} {s : Buckets} {k : BucketKey}

open Buckets

theorem ExpiresFull.head {call : RateCall} {calls : List RateCall}
    (h : ExpiresFull c s (call :: calls) k) (huses : call.uses k = true) :
    FullWhenExpired c s k call.time := h [] call calls rfl huses

theorem ExpiresFull.tail {call : RateCall} {calls : List RateCall}
    (h : ExpiresFull c s (call :: calls) k) : ExpiresFull c (s.after c call) calls k :=
  fun before next after hsplit => h (call :: before) next after (by rw [hsplit]; rfl)

theorem ExpiresFull.cons {call : RateCall} {calls : List RateCall}
    (h : call.uses k = true → FullWhenExpired c s k call.time)
    (h' : ExpiresFull c (s.after c call) calls k) : ExpiresFull c s (call :: calls) k := by
  intro before next after hsplit huses
  cases before with
  | nil =>
      obtain ⟨rfl, -⟩ := List.cons.inj hsplit
      exact h huses
  | cons first before =>
      obtain ⟨rfl, hrest⟩ := List.cons.inj hsplit
      exact h' before next after hrest huses

theorem ExpiresFull.drop {before after : List RateCall} (h : ExpiresFull c s (before ++ after) k) :
    ExpiresFull c (bucketsAfter c s before) after k := by
  induction before generalizing s with
  | nil => exact h
  | cons call before ih => exact ih h.tail

theorem ExpiresFull.take {before after : List RateCall} (h : ExpiresFull c s (before ++ after) k) :
    ExpiresFull c s before k :=
  fun earlier call later hsplit =>
    h earlier call (later ++ after) (by rw [hsplit, List.append_assoc]; rfl)

theorem allowedCost_uses_cons (call : RateCall) (calls : List RateCall) :
    allowedCost c (RateCall.uses · k) s (call :: calls) =
      taken c s k call + allowedCost c (RateCall.uses · k) (s.after c call) calls := rfl

/-- From a reading on, the calls take what was left and what has accrued. -/
theorem spends_calls {calls : List RateCall} {cell : Cell Bucket} (hcell : s k = some cell)
    (hlater : ∀ call ∈ calls, cell.content.time ≤ call.time) (hsorted : Chronological calls)
    (hfull : ExpiresFull c s calls k) {stop : ℕ} (hstart : cell.content.time ≤ stop)
    (hstop : ∀ call ∈ calls, call.time ≤ stop) :
    ∃ last, last.content.time ≤ stop ∧ Spends (k.rate c) (reading cell)
      (1000 * allowedCost c (RateCall.uses · k) s calls) (reading last) := by
  induction calls generalizing s cell with
  | nil => exact ⟨cell, hstart, .refl _ _⟩
  | cons call calls ih =>
      obtain ⟨next, hnext, htime, hspends⟩ := spends_call hcell (hlater call List.mem_cons_self)
        fun huses => hfull.head huses
      obtain ⟨hahead, htail⟩ := List.pairwise_cons.mp hsorted
      obtain ⟨last, hlast, hrest⟩ := ih hnext (fun later hin => htime.trans (hahead later hin))
        htail hfull.tail (htime.trans (hstop call List.mem_cons_self))
        fun later hin => hstop later (List.mem_cons_of_mem call hin)
      refine ⟨last, hlast, ?_⟩
      rw [allowedCost_uses_cons, Nat.mul_add]
      exact hspends.trans hrest

/-- Within a stretch of time the calls on a bucket take its capacity and what accrues meanwhile. -/
theorem allowed_segment_le {calls : List RateCall} {start stop : ℕ} (hsorted : Chronological calls)
    (hfull : ExpiresFull c s calls k)
    (hseen : ∀ call ∈ calls, start ≤ call.time ∧ call.time ≤ stop) :
    1000 * allowedCost c (RateCall.uses · k) s calls ≤
      1000 * k.capacity c + k.rate c * (stop - start) := by
  induction calls generalizing s with
  | nil => exact Nat.zero_le _
  | cons call calls ih =>
      obtain ⟨hahead, htail⟩ := List.pairwise_cons.mp hsorted
      obtain ⟨hfrom, hto⟩ := hseen call List.mem_cons_self
      have hrest := fun later hin => hseen later (List.mem_cons_of_mem call hin)
      rw [allowedCost_uses_cons, Nat.mul_add]
      obtain ⟨-, hnone⟩ | ⟨next, hnext, htime, hcap⟩ := opens_call c s k call
      · have hle := ih htail hfull.tail hrest
        omega
      · -- The bucket is first read here: from now on every token is accounted for.
        obtain ⟨last, hlast, hspends⟩ := spends_calls hnext (htime ▸ hahead) htail hfull.tail
          (htime ▸ hto) fun later hin => (hrest later hin).2
        have hcovered := hspends.spent_le (le_refl next.content.tokens)
        have haccrued : k.rate c * (last.content.time - next.content.time) ≤
            k.rate c * (stop - start) := Nat.mul_le_mul_left _ (by omega)
        dsimp only [reading] at hcovered
        omega

theorem allowedCost_append (p : RateCall → Bool) (before after : List RateCall) :
    allowedCost c p s (before ++ after) =
      allowedCost c p s before + allowedCost c p (bucketsAfter c s before) after := by
  induction before generalizing s with
  | nil => exact (Nat.zero_add _).symm
  | cons call before ih =>
      rw [List.cons_append, allowedCost, allowedCost, ih, Nat.add_assoc]
      rfl

theorem allowedCost_congr {p q : RateCall → Bool} {calls : List RateCall}
    (h : ∀ call ∈ calls, p call = q call) : allowedCost c p s calls = allowedCost c q s calls := by
  induction calls generalizing s with
  | nil => rfl
  | cons call calls ih =>
      rw [allowedCost, allowedCost, h call List.mem_cons_self,
        ih fun later hin => h later (List.mem_cons_of_mem call hin)]

theorem allowedCost_none (calls : List RateCall) : allowedCost c (fun _ => false) s calls = 0 := by
  induction calls generalizing s with
  | nil => rfl
  | cons call calls ih => rw [allowedCost, ih, Bool.and_false]; rfl

/-- The calls of a window stand together. -/
theorem Chronological.split {calls : List RateCall} (h : Chronological calls) (time : ℕ) :
    ∃ before after, calls = before ++ after ∧ (∀ call ∈ before, call.time < time) ∧
      ∀ call ∈ after, time ≤ call.time := by
  refine ⟨calls.takeWhile fun call => decide (call.time < time),
    calls.dropWhile fun call => decide (call.time < time), List.takeWhile_append_dropWhile.symm,
    fun call hin => ?_, ?_⟩
  · have hearly := List.mem_takeWhile_imp hin
    exact of_decide_eq_true hearly
  induction calls with
  | nil => exact fun call hin => absurd hin List.not_mem_nil
  | cons call calls ih =>
      obtain ⟨hahead, htail⟩ := List.pairwise_cons.mp h
      rw [List.dropWhile_cons]
      split_ifs with hearly
      · exact ih htail
      · have hle : time ≤ call.time := Nat.not_lt.mp fun hlt => hearly (decide_eq_true hlt)
        intro later hin
        obtain rfl | hmem := List.mem_cons.mp hin
        · exact hle
        · exact hle.trans (hahead later hmem)

theorem withinRate_of_expiresFull {calls : List RateCall} (hsorted : Chronological calls)
    (hfull : ExpiresFull c Buckets.empty calls k) : WithinRate c calls k := by
  intro start length
  obtain ⟨early, rest, hsplit, hearly, hrest⟩ := hsorted.split start
  rw [hsplit] at hsorted hfull
  obtain ⟨inside, late, hsplit', hinside, hlate⟩ :=
    Chronological.split (List.pairwise_append.mp hsorted).2.1 (start + length + 1)
  have hpair := (List.pairwise_append.mp hsorted).2.1
  rw [hsplit'] at hpair hrest
  have hwhere : ∀ call ∈ inside, start ≤ call.time ∧ call.time ≤ start + length := fun call hin =>
    ⟨hrest call (List.mem_append_left _ hin), Nat.lt_succ_iff.mp (hinside call hin)⟩
  have hbefore : allowedCost c (RateCall.within k start length) Buckets.empty early = 0 := by
    rw [← allowedCost_none (c := c) (s := Buckets.empty) early]
    refine allowedCost_congr fun call hin => ?_
    have := hearly call hin
    unfold RateCall.within
    rw [decide_eq_false (by omega), Bool.and_false]
  have hafter : ∀ t, allowedCost c (RateCall.within k start length) t late = 0 := fun t => by
    rw [← allowedCost_none (c := c) (s := t) late]
    refine allowedCost_congr fun call hin => ?_
    have := hlate call hin
    unfold RateCall.within
    rw [decide_eq_false (by omega), Bool.and_false]
  have hmiddle : ∀ t, allowedCost c (RateCall.within k start length) t inside =
      allowedCost c (RateCall.uses · k) t inside := fun t => allowedCost_congr fun call hin => by
    unfold RateCall.within
    rw [decide_eq_true (hwhere call hin), Bool.and_true]
  have hdrop := hfull.drop
  rw [hsplit'] at hdrop
  have hbound := allowed_segment_le (List.pairwise_append.mp hpair).1 hdrop.take hwhere
  rw [hsplit, hsplit', allowedCost_append, allowedCost_append, hbefore, hafter, hmiddle,
    Nat.zero_add, Nat.add_zero]
  have hunits := units_le (Nat.le_add_right start length) hbound
  rw [Nat.cast_add, add_sub_cancel_left] at hunits
  exact hunits

/-- Every key is due one lifetime after its last use. -/
def Stamped (c : TrafficConfig) (s : Buckets) : Prop :=
  ∀ k cell, s k = some cell →
    cell.deadline = some (cell.content.time + ttl (k.capacity c) (k.rate c))

theorem stamped_after (h : Stamped c s) (call : RateCall) : Stamped c (s.after c call) := by
  obtain ⟨hsame, -⟩ | ⟨charge, hcharged⟩ := call_cases c s call
  · rw [hsame]
    exact h
  · intro k cell hcell
    cases huses : call.uses k with
    | false => exact h k cell (hcharged.others k huses ▸ hcell)
    | true =>
        rw [(hcharged.used k huses).2] at hcell
        cases hcell
        rfl

theorem stamped_run (calls : List RateCall) (h : Stamped c s) :
    Stamped c (bucketsAfter c s calls) := by
  induction calls generalizing s with
  | nil => exact h
  | cons call calls ih => exact ih (stamped_after h call)

theorem stamped_empty (c : TrafficConfig) : Stamped c Buckets.empty := by
  intro k cell hcell
  cases hcell

theorem Stamped.visible_none {cell : Cell Bucket} {now : ℕ} (h : Stamped c s)
    (hcell : s k = some cell) :
    (s k).visible now = none ↔ cell.content.time + ttl (k.capacity c) (k.rate c) < now := by
  have hdue : (s k).Due (cell.content.time + ttl (k.capacity c) (k.rate c)) := fun other hother =>
    h k cell hcell ▸ congrArg Cell.deadline (Option.some.inj (hother.symm.trans hcell))
  refine ⟨fun hnone => Nat.lt_of_not_le fun hle => ?_, Key.visible_of_past hdue⟩
  rw [Key.visible_of_due hdue hle, hcell] at hnone
  cases hnone

/-- A bucket that is refilled within a day is full by the time its key expires. -/
theorem refilled_of_ttl {capacity rate elapsed : ℕ} (hrate : 1 ≤ rate)
    (hday : 1000 * capacity ≤ 86400001 * rate) (h : ttl capacity rate < elapsed) :
    capacity * 1000 ≤ elapsed * rate := by
  unfold ttl at h
  obtain hcut | hlong := min_lt_iff.mp h
  · have hmul : 86400001 * rate ≤ elapsed * rate := Nat.mul_le_mul_right rate hcut
    omega
  · have hceil : capacity * 1000 ≤ (capacity * 1000 + rate - 1) / rate * rate := by
      have hdiv := Nat.div_add_mod (capacity * 1000 + rate - 1) rate
      have hmod := Nat.mod_lt (capacity * 1000 + rate - 1) hrate
      rw [Nat.mul_comm rate] at hdiv
      omega
    exact hceil.trans (Nat.mul_le_mul_right rate (by omega))

theorem expiresFull_of_refilled_daily (haccepted : c.Accepted)
    (hday : 1000 * k.capacity c ≤ 86400001 * k.rate c) (hstamped : Stamped c s)
    (calls : List RateCall) : ExpiresFull c s calls k := by
  intro before call after _ _ cell hcell hnone
  have hpast := ((stamped_run before hstamped).visible_none hcell).mp hnone
  have helapsed : ttl (k.capacity c) (k.rate c) < call.time - cell.content.time := by omega
  exact (refilled_of_ttl (haccepted.rate k).1 hday helapsed).trans (Nat.le_add_left _ _)

end runs

section bursts

variable {c : TrafficConfig} {s : Buckets}

open Buckets

theorem inRange_of_accepted {n : ℕ} (h : 1 ≤ n ∧ n ≤ 1000000) : inRange n = true :=
  decide_eq_true h

/-- A call that both buckets cover is allowed. -/
theorem call_allowed {call : RateCall} (haccepted : c.Accepted) (hpos : 1 ≤ call.cost)
    (ha : 1000 * call.cost ≤ level c s (.account call.account) call.time)
    (he : 1000 * call.cost ≤ level c s .event call.time) :
    (s.call c call).1 = .allowed call.time := by
  have hacap := level_le_capacity c s (.account call.account) call.time
  have hecap := level_le_capacity c s .event call.time
  have hac := haccepted.capacity (.account call.account)
  have hec := haccepted.capacity .event
  have har := haccepted.rate (.account call.account)
  have her := haccepted.rate .event
  dsimp only [BucketKey.capacity, BucketKey.rate] at hacap hecap hac hec har her
  unfold Buckets.call script
  rw [inRange_of_accepted hac, inRange_of_accepted har, inRange_of_accepted hec,
    inRange_of_accepted her, inRange_of_accepted ⟨hpos, by omega⟩]
  have hcovered : ¬(c.accountCapacity < call.cost ∨ c.eventCapacity < call.cost) := by omega
  simp only [Bool.and_self, Bool.not_true, Bool.false_eq_true, if_false]
  rw [if_neg hcovered]
  dsimp only
  rw [if_neg (by omega), if_neg (by omega)]

/-- At the time of a call its buckets are down by its cost. -/
theorem level_after {call : RateCall} (hallowed : (s.call c call).1 = .allowed call.time)
    (k : BucketKey) :
    level c (s.after c call) k call.time =
      level c s k call.time - if call.uses k then 1000 * call.cost else 0 := by
  obtain ⟨-, hrefused⟩ | ⟨charge, hcharged⟩ := call_cases c s call
  · rw [hallowed] at hrefused
    cases hrefused
  · have hcost := hcharged.cost
    rw [hallowed] at hcost
    unfold level
    cases huses : call.uses k with
    | false =>
        rw [hcharged.others k huses]
        rfl
    | true =>
        have hcap := level_le_capacity c s k call.time
        obtain ⟨-, hafter⟩ := hcharged.used k huses
        have hvisible : (s.after c call k).visible call.time = s.after c call k := by
          rw [hafter]
          exact Key.visible_of_due (d := call.time + ttl (k.capacity c) (k.rate c))
            (fun cell hcell => by cases hcell; rfl) (Nat.le_add_right _ _)
        have hcharge : charge = 1000 * call.cost := hcost
        rw [hvisible, hafter, hcharge, refill_same]
        exact min_eq_right ((Nat.sub_le _ _).trans hcap)

def user (i : ℕ) : String := String.ofList (List.replicate i 'u')

theorem user_injective : Function.Injective user := by
  intro i j h
  have hlist := congrArg String.toList h
  unfold user at hlist
  rw [String.toList_ofList, String.toList_ofList] at hlist
  simpa using congrArg List.length hlist

/-- One call from each of so many accounts, all at one time. -/
def burst (time : ℕ) (n : ℕ) : List RateCall :=
  match n with
  | 0 => []
  | n + 1 => ⟨time, user n, 1⟩ :: burst time n

theorem burst_time {time n : ℕ} {call : RateCall} (h : call ∈ burst time n) : call.time = time := by
  induction n with
  | zero => cases h
  | succ n ih =>
      obtain rfl | hmem := List.mem_cons.mp h
      · rfl
      · exact ih hmem

theorem burst_allowed {p : RateCall → Bool} {time n : ℕ} (haccepted : c.Accepted)
    (hp : ∀ call ∈ burst time n, p call = true)
    (ha : ∀ i < n, 1000 ≤ level c s (.account (user i)) time)
    (he : 1000 * n ≤ level c s .event time) : allowedCost c p s (burst time n) = n := by
  induction n generalizing s with
  | zero => rfl
  | succ n ih =>
      have hallowed : (s.call c ⟨time, user n, 1⟩).1 = .allowed time :=
        call_allowed haccepted le_rfl (ha n (Nat.lt_succ_self n)) (by dsimp only; omega)
      rw [burst, allowedCost, hallowed, hp _ List.mem_cons_self, ih]
      · exact Nat.add_comm 1 n
      · exact fun call hin => hp call (List.mem_cons_of_mem _ hin)
      · intro i hi
        have hother : RateCall.uses ⟨time, user n, 1⟩ (.account (user i)) = false := by
          refine decide_eq_false fun hor => ?_
          obtain h | h := hor
          · cases h
          · exact hi.ne (user_injective (BucketKey.account.inj h))
        have hlevel := level_after hallowed (.account (user i))
        rw [hother] at hlevel
        exact (ha i (hi.trans (Nat.lt_succ_self n))).trans_eq hlevel.symm
      · have huses : RateCall.uses ⟨time, user n, 1⟩ .event = true := decide_eq_true (Or.inl rfl)
        have hlevel := level_after hallowed .event
        rw [huses] at hlevel
        dsimp only at hlevel
        rw [hlevel, if_pos rfl]
        omega

theorem level_of_expired {k : BucketKey} {now : ℕ} (h : (s k).visible now = none) :
    level c s k now = k.capacity c * 1000 := by
  unfold level
  rw [h, refill_none]

/-- The keys that calls have left by a time are used no later than it. -/
theorem time_le_run {calls : List RateCall} {stop : ℕ} (hstop : ∀ call ∈ calls, call.time ≤ stop)
    (h : ∀ k cell, s k = some cell → cell.content.time ≤ stop) (k : BucketKey) (cell : Cell Bucket)
    (hcell : bucketsAfter c s calls k = some cell) : cell.content.time ≤ stop := by
  induction calls generalizing s with
  | nil => exact h k cell hcell
  | cons call calls ih =>
      refine ih (fun later hin => hstop later (List.mem_cons_of_mem call hin)) ?_ hcell
      intro j seen hseen
      obtain ⟨hsame, -⟩ | ⟨next, hnext, htime, -⟩ := opens_call c s j call
      · exact h j seen (hsame ▸ hseen)
      · rw [hnext] at hseen
        cases hseen
        rw [htime]
        exact hstop call List.mem_cons_self

/-- The whole capacity at once, and again as soon as every key has expired. -/
def burstTwice (c : TrafficConfig) : List RateCall :=
  burst 0 c.eventCapacity ++ burst 86400001 c.eventCapacity

theorem burstTwice_chronological (c : TrafficConfig) : Chronological (burstTwice c) := by
  have hsame : ∀ time n, Chronological (burst time n) := fun time n =>
    List.pairwise_of_forall_mem_list fun call hin later hin' =>
      ((burst_time hin).trans (burst_time hin').symm).le
  refine List.pairwise_append.mpr ⟨hsame _ _, hsame _ _, fun call hin later hin' => ?_⟩
  rw [burst_time hin]
  exact Nat.zero_le _

theorem allowedCost_burstTwice (haccepted : c.Accepted) :
    allowedCost c (RateCall.within .event 0 86400001) Buckets.empty (burstTwice c) =
      2 * c.eventCapacity := by
  have hwithin : ∀ time n, time ≤ 86400001 →
      ∀ call ∈ burst time n, RateCall.within .event 0 86400001 call = true := by
    intro time n hle call hin
    have := burst_time hin
    unfold RateCall.within RateCall.uses
    rw [decide_eq_true (Or.inl rfl), decide_eq_true (by omega), Bool.and_self]
  have hfull : ∀ {t : Buckets} {time : ℕ}, (∀ k, (t k).visible time = none) →
      time ≤ 86400001 → allowedCost c (RateCall.within .event 0 86400001) t
        (burst time c.eventCapacity) = c.eventCapacity := by
    intro t time hexpired hle
    refine burst_allowed haccepted (hwithin _ _ hle) (fun i _ => ?_) ?_
    · have hcap := haccepted.capacity (.account (user i))
      rw [level_of_expired (hexpired _)]
      omega
    · rw [level_of_expired (hexpired _), Nat.mul_comm]
      rfl
  unfold burstTwice
  rw [allowedCost_append, hfull (fun k => rfl) (Nat.zero_le _), hfull ?_ le_rfl, Nat.two_mul]
  intro k
  cases hcell : bucketsAfter c Buckets.empty (burst 0 c.eventCapacity) k with
  | none => rfl
  | some cell =>
      have htime := time_le_run (s := Buckets.empty) (fun call hin => (burst_time hin).le)
        (fun j seen hseen => by cases hseen) k cell hcell
      have hlife := ttl_le (k.capacity c) (k.rate c)
      rw [← hcell]
      exact ((stamped_run _ (stamped_empty c)).visible_none hcell).mpr (by omega)

/-- Unless a day refills the bucket of the event, its bound can be exceeded. -/
theorem withinRate_burstTwice (haccepted : c.Accepted) (h : WithinRate c (burstTwice c) .event) :
    1000 * c.eventCapacity ≤ 86400001 * c.eventRate := by
  have hwindow := h 0 86400001
  rw [allowedCost_burstTwice haccepted] at hwindow
  dsimp only [BucketKey.capacity, BucketKey.rate] at hwindow
  push_cast at hwindow
  have hcast : (1000 * c.eventCapacity : ℚ) ≤ 86400001 * c.eventRate := by linarith
  exact_mod_cast hcast

end bursts

/-- In every window the calls on a bucket are allowed no more than its capacity and what its rate
gives, as long as no call finds its key expired before it could be full again. A bucket that a day
refills is never found so, and one of an event that a day does not refill can be. -/
theorem bucket_rate_bounded {v : Value} {c : TrafficConfig} (hparse : TrafficConfig.parse v = some c) :
    (∀ calls k, Chronological calls → ExpiresFull c Buckets.empty calls k →
      WithinRate c calls k) ∧
    (∀ k, 1000 * k.capacity c ≤ 86400001 * k.rate c →
      ∀ calls, Chronological calls → WithinRate c calls k) ∧
    ((∀ calls, Chronological calls → WithinRate c calls .event) ↔
      1000 * c.eventCapacity ≤ 86400001 * c.eventRate) := by
  have haccepted := TrafficConfig.parse_accepted hparse
  have hdaily : ∀ k, 1000 * k.capacity c ≤ 86400001 * k.rate c →
      ∀ calls, Chronological calls → WithinRate c calls k := fun k hday calls hsorted =>
    withinRate_of_expiresFull hsorted
      (expiresFull_of_refilled_daily haccepted hday (stamped_empty c) calls)
  refine ⟨fun calls k => withinRate_of_expiresFull, hdaily, fun h => ?_, hdaily .event⟩
  exact withinRate_burstTwice haccepted (h _ (burstTwice_chronological c))

/-- Settings under which a day does not refill the bucket of the event. -/
def slowSettings : Value :=
  .object [("bulkheads", .object (TrafficConfig.resourceNames.map fun name => (name, .int 16))),
    ("account_capacity", .int 20), ("account_rate", .int 10), ("event_capacity", .int 100000),
    ("event_rate", .int 1)]

def slowConfig : TrafficConfig := ⟨List.replicate 8 16, 20, 10, 100000, 1⟩

theorem parse_slowSettings : TrafficConfig.parse slowSettings = some slowConfig := by
  unfold TrafficConfig.parse slowSettings
  dsimp only
  rw [if_pos (by decide)]
  rfl

def dayApart : List RateCall := [⟨0, "a", 1⟩, ⟨86400001, "a", 1⟩]

theorem opened_dayApart : (Buckets.empty.after slowConfig ⟨0, "a", 1⟩ .event).map
    (fun cell => (cell.content.time, cell.content.tokens)) = some (0, 99999000) := by
  decide +kernel

theorem bucket_rate_bounded_dayApart : WithinRate slowConfig dayApart .event := by
  refine (bucket_rate_bounded parse_slowSettings).1 dayApart .event
    (by simp [Chronological, dayApart]) ?_
  refine .cons (fun _ cell hcell => by cases hcell) (.cons ?_ ?_)
  · -- The key has expired, but it had only one token to gain in that day.
    intro _ cell hcell _
    have hopened := opened_dayApart
    rw [hcell] at hopened
    obtain ⟨htime, htokens⟩ := Prod.mk.inj (Option.some.inj hopened)
    rw [htime, htokens]
    decide
  · intro before call after hsplit
    cases before <;> cases hsplit

theorem expired_bucket_refills_early :
    ¬∀ v c, TrafficConfig.parse v = some c → ∀ calls, Chronological calls →
      ∀ k, WithinRate c calls k := by
  intro h
  have hburst := withinRate_burstTwice (TrafficConfig.parse_accepted parse_slowSettings)
    (h _ _ parse_slowSettings _ (burstTwice_chronological slowConfig) .event)
  exact absurd hburst (by decide)

end Ticketing.Admission
