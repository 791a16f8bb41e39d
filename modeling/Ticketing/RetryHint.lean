import Ticketing.TokenBucket

/-!
# The retry hint of a rejected call

A rejected call is told how long to wait. The hint is computed from what is missing and the rate;
the call that comes back recomputes the refill, but counts at most an hour of it.
-/

namespace Ticketing.Admission.Buckets

open Expiring

/-- So many milliseconds of refill bring both buckets to the cost of the call. -/
def CoveredIn (c : TrafficConfig) (s : Buckets) (call : RateCall) (n : ℕ) : Prop :=
  ∀ k, call.uses k = true → call.cost * 1000 ≤ level c s k call.time + n * k.rate c

/-- A rejected call debits nothing, and the hint is the first moment at which it is allowed. -/
structure HintExact (c : TrafficConfig) (s : Buckets) (call : RateCall) (retry : ℕ) : Prop where
  undebited : ∀ k, call.uses k = true →
    (s.after c call k).content = some ⟨call.time, level c s k call.time⟩
  allowed : ((s.after c call).call c { call with time := call.time + retry }).1 =
    .allowed (call.time + retry)
  rejected : 1 < retry → ∃ scope later,
    ((s.after c call).call c { call with time := call.time + retry - 1 }).1 =
      .rateLimited scope later (call.time + retry - 1)

section hint

variable {c : TrafficConfig} {s : Buckets} {call : RateCall}

theorem retryAfter_le {missing rate n : ℕ} (h : 0 < rate) :
    retryAfter missing rate ≤ n ↔ missing ≤ n * rate := by
  unfold retryAfter
  rw [Nat.div_le_iff_le_mul_add_pred h, Nat.mul_comm n]
  omega

theorem uses_iff {k : BucketKey} : call.uses k = true ↔ k = .event ∨ k = .account call.account :=
  decide_eq_true_iff

/-- What holds of the two buckets of a call. -/
theorem forall_used {p : BucketKey → Prop} :
    (∀ k, call.uses k = true → p k) ↔ p (.account call.account) ∧ p .event := by
  simp only [uses_iff]
  constructor
  · exact fun h => ⟨h _ (.inr rfl), h _ (.inl rfl)⟩
  · rintro ⟨ha, he⟩ k (rfl | rfl)
    · exact he
    · exact ha

/-- The parameters the script accepts. -/
structure Runs (c : TrafficConfig) (call : RateCall) : Prop where
  accepted : c.Accepted
  positive : 1 ≤ call.cost
  covered : ∀ k : BucketKey, call.cost ≤ k.capacity c

theorem runs_of_checks
    (hrange : ¬(!(inRange c.accountCapacity && inRange c.accountRate && inRange c.eventCapacity &&
      inRange c.eventRate && inRange call.cost)) = true)
    (hcost : ¬(c.accountCapacity < call.cost ∨ c.eventCapacity < call.cost)) : Runs c call := by
  simp only [Bool.not_eq_true, Bool.not_eq_false', Bool.and_eq_true, inRange,
    decide_eq_true_eq] at hrange
  obtain ⟨⟨⟨⟨hac, har⟩, hec⟩, her⟩, hpos⟩ := hrange
  refine ⟨⟨fun k => ?_, fun k => ?_⟩, hpos.1, fun k => ?_⟩
  · cases k
    · exact hac
    · exact hec
  · cases k
    · exact har
    · exact her
  · cases k <;> simp only [BucketKey.capacity] <;> omega

theorem checks_of_runs (h : Runs c call) :
    (inRange c.accountCapacity && inRange c.accountRate && inRange c.eventCapacity &&
      inRange c.eventRate && inRange call.cost) = true := by
  have hcap := h.accepted.capacity .event
  have hcost := h.covered .event
  have hpos := h.positive
  have hac := inRange_of_accepted (h.accepted.capacity (.account call.account))
  have har := inRange_of_accepted (h.accepted.rate (.account call.account))
  have hec := inRange_of_accepted hcap
  have her := inRange_of_accepted (h.accepted.rate .event)
  have hrange : inRange call.cost = true := inRange_of_accepted ⟨hpos, by omega⟩
  dsimp only [BucketKey.capacity, BucketKey.rate] at hac har hec her
  rw [hac, har, hec, her, hrange]
  rfl

theorem coveredIn_iff {n : ℕ} : CoveredIn c s call n ↔
    call.cost * 1000 ≤ level c s (.account call.account) call.time + n * c.accountRate ∧
      call.cost * 1000 ≤ level c s .event call.time + n * c.eventRate :=
  forall_used (p := fun k => call.cost * 1000 ≤ level c s k call.time + n * k.rate c)

/-- What a call is told: the least number of milliseconds that covers it, if it is not covered. -/
theorem call_reply (c : TrafficConfig) (s : Buckets) (call : RateCall) :
    (¬Runs c call ∧ (s.call c call).1 = .invalid) ∨
      (Runs c call ∧ CoveredIn c s call 0 ∧ (s.call c call).1 = .allowed call.time) ∨
      (Runs c call ∧ ∃ scope retry, (s.call c call).1 = .rateLimited scope retry call.time ∧
        0 < retry ∧ ∀ n, retry ≤ n ↔ CoveredIn c s call n) := by
  unfold Buckets.call script
  split_ifs with hrange hcost
  · exact .inl ⟨fun hruns => absurd hrange (by simp [checks_of_runs hruns]), rfl⟩
  · refine .inl ⟨fun hruns => ?_, rfl⟩
    have hac := hruns.covered (.account call.account)
    have hec := hruns.covered .event
    dsimp only [BucketKey.capacity] at hac hec
    omega
  · have hruns := runs_of_checks hrange hcost
    have har := (hruns.accepted.rate (.account call.account)).1
    have her := (hruns.accepted.rate .event).1
    dsimp only [BucketKey.rate] at har her
    right
    simp only [coveredIn_iff, zero_mul, add_zero]
    by_cases ha : level c s (.account call.account) call.time < call.cost * 1000
    · refine .inr ⟨hruns, ?_⟩
      rw [if_pos ha]
      have hwait : ∀ n, retryAfter (call.cost * 1000 - level c s (.account call.account) call.time)
          c.accountRate ≤ n ↔ call.cost * 1000 ≤
            level c s (.account call.account) call.time + n * c.accountRate := by
        intro n
        rw [retryAfter_le har]
        omega
      by_cases he : level c s .event call.time < call.cost * 1000
      · rw [if_pos he]
        refine ⟨_, _, rfl, ?_, fun n => ?_⟩
        · have := hwait 0
          omega
        · rw [max_le_iff, hwait, retryAfter_le her]
          omega
      · rw [if_neg he]
        refine ⟨_, _, rfl, ?_, fun n => ?_⟩
        · have := hwait 0
          omega
        · rw [hwait]
          omega
    · by_cases he : level c s .event call.time < call.cost * 1000
      · refine .inr ⟨hruns, ?_⟩
        rw [if_neg ha, if_pos he]
        have hwait : ∀ n, retryAfter (call.cost * 1000 - level c s .event call.time)
            c.eventRate ≤ n ↔ call.cost * 1000 ≤ level c s .event call.time + n * c.eventRate := by
          intro n
          rw [retryAfter_le her]
          omega
        refine ⟨_, _, rfl, ?_, fun n => ?_⟩
        · have := hwait 0
          omega
        · rw [hwait]
          omega
      · exact .inl ⟨hruns, ⟨by omega, by omega⟩, by rw [if_neg ha, if_neg he]⟩

/-- A rejected call keeps what the refill has brought. -/
theorem rejected_keeps {scope : RateScope} {retry now : ℕ}
    (h : (s.call c call).1 = .rateLimited scope retry now) (k : BucketKey)
    (hk : call.uses k = true) : s.after c call k = some ⟨⟨call.time, level c s k call.time⟩,
      some (call.time + ttl (k.capacity c) (k.rate c))⟩ := by
  have hcharge : level c s (.account call.account) call.time < call.cost * 1000 ∨
      level c s .event call.time < call.cost * 1000 := by
    by_contra hcovered
    rw [not_or] at hcovered
    unfold Buckets.call script at h
    split_ifs at h
    simp only [if_neg hcovered.1, if_neg hcovered.2] at h
    cases h
  unfold after Buckets.call script
  unfold Buckets.call script at h
  split_ifs at h ⊢ with hrange hcost
  dsimp only
  rw [if_pos hcharge, Nat.sub_zero, Nat.sub_zero]
  obtain rfl | rfl := uses_iff.mp hk
  · rw [Function.update_self, settle_eq]
  · rw [Function.update_of_ne BucketKey.noConfusion, Function.update_self, settle_eq]

/-- A bucket later, if nothing has called in between: full once its key has expired, and at most an
hour of refill before. -/
theorem level_later {scope : RateScope} {retry now : ℕ}
    (h : (s.call c call).1 = .rateLimited scope retry now) {k : BucketKey}
    (hk : call.uses k = true) (delay : ℕ) :
    level c (s.after c call) k (call.time + delay) =
      if ttl (k.capacity c) (k.rate c) < delay then k.capacity c * 1000
      else min (k.capacity c * 1000) (level c s k call.time + min 3600000 delay * k.rate c) := by
  have hkept := rejected_keeps h k hk
  have hdue : (s.after c call k).Due (call.time + ttl (k.capacity c) (k.rate c)) := by
    intro cell hcell
    rw [hkept] at hcell
    cases hcell
    rfl
  unfold level
  split_ifs with hexpired
  · rw [Key.visible_of_past hdue (by omega), refill_none]
  · rw [Key.visible_of_due hdue (by omega), hkept]
    simp only [refill, Key.content, Option.map_some, Option.getD_some, Nat.add_sub_cancel_left]
    rfl

theorem covers_later {scope : RateScope} {retry now : ℕ}
    (h : (s.call c call).1 = .rateLimited scope retry now) (hruns : Runs c call) {k : BucketKey}
    (hk : call.uses k = true) (delay : ℕ) :
    call.cost * 1000 ≤ level c (s.after c call) k (call.time + delay) ↔
      ttl (k.capacity c) (k.rate c) < delay ∨
        call.cost * 1000 ≤ level c s k call.time + min 3600000 delay * k.rate c := by
  have hcap := hruns.covered k
  rw [level_later h hk]
  split_ifs with hexpired
  · exact iff_of_true (by omega) (.inl hexpired)
  · rw [le_min_iff, or_iff_right hexpired, and_iff_right (by omega)]

/-- As long as a bucket could still be short of the cost, and a minute longer, its key lives, but for
a day at most. -/
theorem le_ttl_of_short {k : BucketKey} {n delay : ℕ} (hruns : Runs c call)
    (hday : delay ≤ 86400000) (hminute : delay ≤ n + 60000)
    (hshort : level c s k call.time + n * k.rate c < call.cost * 1000) :
    delay ≤ ttl (k.capacity c) (k.rate c) := by
  have hrate := (hruns.accepted.rate k).1
  have hcap := hruns.covered k
  have hceil : n ≤ (k.capacity c * 1000 + k.rate c - 1) / k.rate c := by
    rw [Nat.le_div_iff_mul_le hrate]
    omega
  exact le_min hday (by omega)

theorem not_coveredIn {n : ℕ} (h : ¬CoveredIn c s call n) :
    ∃ k, call.uses k = true ∧ level c s k call.time + n * k.rate c < call.cost * 1000 := by
  by_contra hnone
  refine h fun k hk => ?_
  by_contra hshort
  exact hnone ⟨k, hk, Nat.lt_of_not_le hshort⟩

/-- The same call later: allowed if both buckets cover it by then, rejected otherwise. -/
theorem later_reply {scope : RateScope} {retry now : ℕ}
    (h : (s.call c call).1 = .rateLimited scope retry now) (hruns : Runs c call) (delay : ℕ) :
    ((∀ k, call.uses k = true → ttl (k.capacity c) (k.rate c) < delay ∨
        call.cost * 1000 ≤ level c s k call.time + min 3600000 delay * k.rate c) ∧
      ((s.after c call).call c { call with time := call.time + delay }).1 =
        .allowed (call.time + delay)) ∨
    ((∃ k, call.uses k = true ∧ delay ≤ ttl (k.capacity c) (k.rate c) ∧
        level c s k call.time + min 3600000 delay * k.rate c < call.cost * 1000) ∧
      ∃ scope' retry', ((s.after c call).call c { call with time := call.time + delay }).1 =
        .rateLimited scope' retry' (call.time + delay)) := by
  have hlater : Runs c { call with time := call.time + delay } :=
    ⟨hruns.accepted, hruns.positive, hruns.covered⟩
  have hcovers : ∀ {k}, call.uses k = true → _ := fun {k} hk => covers_later h hruns hk delay
  obtain ⟨hnot, -⟩ | ⟨-, hcovered, hreply⟩ | ⟨-, scope', retry', hreply, hpos, hiff⟩ :=
    call_reply c (s.after c call) { call with time := call.time + delay }
  · exact absurd hlater hnot
  · refine .inl ⟨fun k hk => (hcovers hk).mp ?_, hreply⟩
    have hlevel := hcovered k hk
    simpa using hlevel
  · refine .inr ⟨?_, scope', retry', hreply⟩
    have hnot : ¬CoveredIn c (s.after c call) { call with time := call.time + delay } 0 := by
      rw [← hiff]
      omega
    obtain ⟨k, hk, hshort⟩ := not_coveredIn hnot
    have hnot' := (hcovers hk).not.mp (by simpa using hshort)
    rw [not_or] at hnot'
    exact ⟨k, hk, Nat.le_of_not_lt hnot'.1, Nat.lt_of_not_le hnot'.2⟩

theorem later_allowed_iff {scope : RateScope} {retry now : ℕ}
    (h : (s.call c call).1 = .rateLimited scope retry now) (hruns : Runs c call) (delay : ℕ) :
    ((s.after c call).call c { call with time := call.time + delay }).1 =
        .allowed (call.time + delay) ↔
      ∀ k, call.uses k = true → ttl (k.capacity c) (k.rate c) < delay ∨
        call.cost * 1000 ≤ level c s k call.time + min 3600000 delay * k.rate c := by
  obtain ⟨hall, hreply⟩ | ⟨⟨k, hk, hlives, hshort⟩, _, _, hreply⟩ := later_reply h hruns delay
  · exact iff_of_true hreply hall
  · rw [hreply]
    refine iff_of_false (by simp) fun hall => ?_
    obtain hexpired | hcovers := hall k hk
    · omega
    · omega

theorem later_rejected_iff {scope : RateScope} {retry now : ℕ}
    (h : (s.call c call).1 = .rateLimited scope retry now) (hruns : Runs c call) (delay : ℕ) :
    (∃ scope' retry', ((s.after c call).call c { call with time := call.time + delay }).1 =
        .rateLimited scope' retry' (call.time + delay)) ↔
      ∃ k, call.uses k = true ∧ delay ≤ ttl (k.capacity c) (k.rate c) ∧
        level c s k call.time + min 3600000 delay * k.rate c < call.cost * 1000 := by
  obtain ⟨hall, hreply⟩ | ⟨hsome, hreply⟩ := later_reply h hruns delay
  · rw [hreply]
    refine iff_of_false (by simp) ?_
    rintro ⟨k, hk, hlives, hshort⟩
    obtain hexpired | hcovers := hall k hk
    · omega
    · omega
  · exact iff_of_true hreply hsome

end hint

/-- The hint of a rejected call is exact exactly if an hour of refill covers the call, or if just
one millisecond more than a day does: then the keys expire at the moment the hint names. -/
theorem hint_exact {c : TrafficConfig} {s : Buckets} {call : RateCall} {scope : RateScope}
    {retry now : ℕ} (h : (s.call c call).1 = .rateLimited scope retry now) :
    HintExact c s call retry ↔ CoveredIn c s call 3600000 ∨
      (CoveredIn c s call 86400001 ∧ ¬CoveredIn c s call 86400000) := by
  obtain ⟨-, hreply⟩ | ⟨-, -, hreply⟩ | ⟨hruns, _, _, hreply, hpos, hiff⟩ := call_reply c s call
  · rw [hreply] at h
    cases h
  · rw [hreply] at h
    cases h
  rw [hreply] at h
  cases h
  have hundebited : ∀ k, call.uses k = true →
      (s.after c call k).content = some ⟨call.time, level c s k call.time⟩ := by
    intro k hk
    rw [rejected_keeps hreply k hk]
    rfl
  have hbefore : call.time + retry - 1 = call.time + (retry - 1) := Nat.add_sub_assoc hpos _
  have hexact : HintExact c s call retry ↔
      (∀ k, call.uses k = true → ttl (k.capacity c) (k.rate c) < retry ∨
        call.cost * 1000 ≤ level c s k call.time + min 3600000 retry * k.rate c) ∧
      (1 < retry → ∃ k, call.uses k = true ∧ retry - 1 ≤ ttl (k.capacity c) (k.rate c) ∧
        level c s k call.time + min 3600000 (retry - 1) * k.rate c < call.cost * 1000) := by
    rw [← later_allowed_iff hreply hruns, ← later_rejected_iff hreply hruns, ← hbefore]
    exact ⟨fun h => ⟨h.allowed, h.rejected⟩, fun h => ⟨hundebited, h.1, h.2⟩⟩
  -- One millisecond before the hint some bucket is short of the cost.
  have hnot : ¬CoveredIn c s call (retry - 1) := by
    rw [← hiff]
    omega
  obtain ⟨k, hk, hshort⟩ := not_coveredIn hnot
  have hcovered := (hiff retry).mp le_rfl
  rw [hexact, ← hiff, ← hiff, ← hiff]
  by_cases hhour : retry ≤ 3600000
  · refine iff_of_true ⟨fun j hj => .inr ?_, fun _ => ⟨k, hk, ?_, ?_⟩⟩ (.inl hhour)
    · rw [min_eq_right hhour]
      exact hcovered j hj
    · exact le_ttl_of_short hruns (by omega) (by omega) hshort
    · rwa [min_eq_right (by omega)]
  · have hcut : level c s k call.time + 3600000 * k.rate c < call.cost * 1000 := by
      have hle : 3600000 * k.rate c ≤ (retry - 1) * k.rate c := Nat.mul_le_mul_right _ (by omega)
      omega
    rw [min_eq_left (by omega), min_eq_left (by omega)]
    constructor
    · rintro ⟨hall, hlast⟩
      refine .inr ⟨?_, ?_⟩
      · obtain ⟨j, -, hlives, -⟩ := hlast (by omega)
        have hday := ttl_le (j.capacity c) (j.rate c)
        omega
      · intro hday
        obtain hexpired | hcovers := hall k hk
        · have hlives := le_ttl_of_short (n := retry - 1) hruns hday (by omega) hshort
          omega
        · omega
    · rintro (hle | ⟨hle, hmore⟩)
      · omega
      · refine ⟨fun j _ => .inl ?_, fun _ => ⟨k, hk, ?_, hcut⟩⟩
        · have hday := ttl_le (j.capacity c) (j.rate c)
          omega
        · exact le_ttl_of_short hruns (by omega) (by omega) hshort

/-- Both buckets hold a call of their whole capacity, and give one token a second. -/
def coarseConfig : TrafficConfig := ⟨List.replicate 8 16, 4000, 1, 4000, 1⟩

def coarseCall (time : ℕ) : RateCall := ⟨time, "a", 4000⟩

def drained : Buckets := bucketsAfter coarseConfig empty [coarseCall 0]

/-- A drained bucket of 4000 tokens promises them after 4000 seconds, and counts 3600 seconds of
refill when the call comes back. -/
theorem hint_not_exact :
    (drained.call coarseConfig (coarseCall 0)).1 = .rateLimited .both 4000000 0 ∧
      ((drained.after coarseConfig (coarseCall 0)).call coarseConfig (coarseCall 4000000)).1 =
        .rateLimited .both 400000 4000000 := by
  decide +kernel

/-- Half a second after the buckets are drained, a single token takes half a second more. -/
theorem hint_exact_half : HintExact coarseConfig drained ⟨500, "a", 1⟩ 500 :=
  (@hint_exact _ _ _ .both _ 500 (by decide +kernel)).mpr
    (.inl (coveredIn_iff.mpr (by decide +kernel)))

end Ticketing.Admission.Buckets
