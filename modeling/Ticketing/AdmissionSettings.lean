import Ticketing.Library.Settings
import Ticketing.PolicyGenerations

/-!
# The two validators in front of the waiting room

The server reads its admission settings from the configuration, an administrator sends the policy
of an event. Together they give the parameters that every call of the waiting room passes.
-/

namespace Ticketing.Admission

open JsonCpp (Value Setting bind_eq_ok)

structure Config where
  policyRefreshMs : ℕ := 2000
  policyLimit : ℕ := 10000
  schedulerBatch : ℕ := 64
  schedulerMs : ℕ := 250
  pollMs : ℕ := 2000
  heartbeatMs : ℕ := 5000
  presenceSeconds : ℕ := 30

namespace Config

def fields : List (Setting Config) :=
  [⟨"policy_refresh_ms", policyRefreshMs, fun c n => { c with policyRefreshMs := n }, 100, 10000⟩,
    ⟨"policy_limit", policyLimit, fun c n => { c with policyLimit := n }, 1, 100000⟩,
    ⟨"scheduler_batch", schedulerBatch, fun c n => { c with schedulerBatch := n }, 1, 256⟩,
    ⟨"scheduler_ms", schedulerMs, fun c n => { c with schedulerMs := n }, 50, 1000⟩,
    ⟨"poll_ms", pollMs, fun c n => { c with pollMs := n }, 500, 30000⟩,
    ⟨"heartbeat_ms", heartbeatMs, fun c n => { c with heartbeatMs := n }, 1000, 10000⟩,
    ⟨"presence_seconds", presenceSeconds, fun c n => { c with presenceSeconds := n }, 10, 120⟩]

def parse : Value → Except String Config
  | .null => .ok {}
  | .object members =>
      if members.any fun member => !Setting.known fields member.1 then
        .error "Unknown admission setting"
      else
        match fields.foldlM (Setting.read "Invalid admission setting" members) {} with
        | .error e => .error e
        | .ok c =>
            if c.presenceSeconds * 1000 ≤ c.heartbeatMs * 2 then
              .error "Admission presence must allow two heartbeats"
            else .ok c
  | _ => .error "admission must be an object"

/-- Every setting lies within the bounds of its field. -/
def Bounded (c : Config) : Prop := Setting.Bounded fields c

theorem separate_fields : Setting.Separate fields where
  nonneg := by
    intro field h
    simp only [fields, List.mem_cons, List.not_mem_nil, or_false] at h
    rcases h with rfl | rfl | rfl | rfl | rfl | rfl | rfl <;> decide
  stored := by
    intro field h other hother c n
    simp only [fields, List.mem_cons, List.not_mem_nil, or_false] at h hother
    rcases h with rfl | rfl | rfl | rfl | rfl | rfl | rfl <;>
      rcases hother with rfl | rfl | rfl | rfl | rfl | rfl | rfl <;>
        first
          | exact Or.inl ⟨rfl, rfl⟩
          | exact Or.inr rfl

theorem bounded_default : Bounded {} := by
  intro field h
  simp only [fields, List.mem_cons, List.not_mem_nil, or_false] at h
  rcases h with rfl | rfl | rfl | rfl | rfl | rfl | rfl <;> decide

/-- What the configuration promises: bounded settings, and a presence of more than two heartbeats. -/
theorem parse_spec {v : Value} {c : Config} (h : parse v = .ok c) :
    c.Bounded ∧ c.heartbeatMs * 2 < c.presenceSeconds * 1000 := by
  unfold parse at h
  split at h
  · cases h
    exact ⟨bounded_default, by decide⟩
  · split_ifs at h with hunknown
    split at h
    · cases h
    · rename_i settings hread
      split_ifs at h with hpresence
      cases h
      exact ⟨Setting.bounded_settings separate_fields bounded_default hread, Nat.lt_of_not_le hpresence⟩
  · cases h

theorem Bounded.heartbeat {c : Config} (h : c.Bounded) :
    1000 ≤ c.heartbeatMs ∧ c.heartbeatMs ≤ 10000 := by
  have hfield := h ⟨"heartbeat_ms", heartbeatMs, _, 1000, 10000⟩ (by simp [fields]; rfl)
  dsimp only at hfield
  omega

theorem Bounded.presence {c : Config} (h : c.Bounded) :
    10 ≤ c.presenceSeconds ∧ c.presenceSeconds ≤ 120 := by
  have hfield := h ⟨"presence_seconds", presenceSeconds, _, 10, 120⟩ (by simp [fields]; rfl)
  dsimp only at hfield
  omega

theorem Bounded.batch {c : Config} (h : c.Bounded) :
    1 ≤ c.schedulerBatch ∧ c.schedulerBatch ≤ 256 := by
  have hfield := h ⟨"scheduler_batch", schedulerBatch, _, 1, 256⟩ (by simp [fields]; rfl)
  dsimp only at hfield
  omega

end Config

/-- The request of a policy: every number is an integer within its bounds. -/
def integer (v : Value) (low high : ℤ) : Except PolicyError ℕ :=
  match v with
  | .int n => if low ≤ n ∧ n ≤ high then .ok n.toNat else .error .invalidArgument
  | _ => .error .invalidArgument

def policyMode : Value → Except PolicyError Mode
  | .string "OFF" => .ok .off
  | .string "OBSERVE" => .ok .observe
  | .string "ENFORCED" => .ok .enforced
  | .string "PAUSED" => .ok .paused
  | _ => .error .invalidArgument

def policyFields : List String :=
  ["mode", "prequeueSeconds", "maxActiveUsers", "admissionRatePerSecond", "leaseSeconds",
    "expectedPolicyVersion"]

def parsePolicyInput (v : Value) : Except PolicyError PolicyInput :=
  match v with
  | .object members =>
      if members.any fun member => !policyFields.contains member.1 then .error .invalidArgument
      else do
        let mode ← policyMode (v.field "mode")
        let prequeueSeconds ← integer (v.field "prequeueSeconds") 0 86400
        let maxActiveUsers ← integer (v.field "maxActiveUsers") 1 1000000
        let admissionRatePerSecond ← integer (v.field "admissionRatePerSecond") 1 100000
        let leaseSeconds ← integer (v.field "leaseSeconds") 10 3600
        let expectedVersion ← integer (v.field "expectedPolicyVersion") 0 9007199254740990
        return ⟨mode, prequeueSeconds, maxActiveUsers, admissionRatePerSecond, leaseSeconds,
          expectedVersion⟩
  | _ => .error .invalidArgument

theorem integer_spec {v : Value} {low high : ℤ} {n : ℕ} (hlow : 0 ≤ low)
    (h : integer v low high = .ok n) : low ≤ n ∧ (n : ℤ) ≤ high := by
  unfold integer at h
  split at h
  · split_ifs at h with hrange
    cases h
    omega
  · cases h

/-- What the request promises. -/
theorem parsePolicyInput_accepted {v : Value} {input : PolicyInput}
    (h : parsePolicyInput v = .ok input) : input.accepted = true := by
  unfold parsePolicyInput at h
  split at h
  · split_ifs at h with hunknown
    obtain ⟨mode, -, h⟩ := bind_eq_ok.mp h
    obtain ⟨prequeueSeconds, hprequeue, h⟩ := bind_eq_ok.mp h
    obtain ⟨maxActiveUsers, hactive, h⟩ := bind_eq_ok.mp h
    obtain ⟨admissionRatePerSecond, hrate, h⟩ := bind_eq_ok.mp h
    obtain ⟨leaseSeconds, hlease, h⟩ := bind_eq_ok.mp h
    obtain ⟨expectedVersion, hversion, h⟩ := bind_eq_ok.mp h
    cases h
    have := integer_spec (by decide) hprequeue
    have := integer_spec (by decide) hactive
    have := integer_spec (by decide) hrate
    have := integer_spec (by decide) hlease
    have := integer_spec (by decide) hversion
    unfold PolicyInput.accepted
    rw [decide_eq_true_eq]
    dsimp only
    omega
  · cases h

/-- The parameters that a call of the waiting room passes, from the settings of the server, the
policy of the event and its sale. -/
def scriptPolicy (c : Config) (row : PolicyRow) (startsMs endsMs : ℕ) : Policy where
  generation := row.queueGeneration
  version := row.policyVersion
  mode := row.mode
  prestart := startsMs - row.prequeueSeconds * 1000
  starts := startsMs
  ends := endsMs
  capacity := row.maxActiveUsers
  rate := row.admissionRatePerSecond
  lease := row.leaseSeconds * 1000
  presence := c.presenceSeconds * 1000
  heartbeat := c.heartbeatMs
  batch := c.schedulerBatch

@[simp] theorem scriptPolicy_heartbeat (c : Config) (row : PolicyRow) (startsMs endsMs : ℕ) :
    (scriptPolicy c row startsMs endsMs).heartbeat = c.heartbeatMs := rfl

@[simp] theorem scriptPolicy_presence (c : Config) (row : PolicyRow) (startsMs endsMs : ℕ) :
    (scriptPolicy c row startsMs endsMs).presence = c.presenceSeconds * 1000 := rfl

/-- The script refuses none of the parameters that the two validators let through. -/
theorem scriptPolicy_valid {c : Config} {input : PolicyInput} (hc : c.Bounded)
    (hinput : input.accepted = true) (version : ℕ) (generation : String) {startsMs endsMs : ℕ}
    (hsale : startsMs < endsMs) :
    (scriptPolicy c (input.row version generation) startsMs endsMs).valid = true := by
  have hheartbeat := hc.heartbeat
  have hpresence := hc.presence
  have hbatch := hc.batch
  unfold PolicyInput.accepted at hinput
  rw [decide_eq_true_eq] at hinput
  unfold Policy.valid scriptPolicy PolicyInput.row
  rw [decide_eq_true_eq]
  dsimp only
  omega

end Ticketing.Admission
