import Ticketing.AdmissionStore
import Ticketing.Library.Trace

/-!
# Admission policies and their generations

An administrator writes the policy of an event against the version read before; a reset of the
system rotates its generation. Each decision to rotate looks at the previous row only. Over any
history the versions that share a generation form one stretch of one qualification namespace, and
the keys of the waiting room are named by the generation, so no place outlives its stretch.
-/

namespace Ticketing.Admission

open Relational Expiring Transition

inductive QualificationNamespace where
  | none
  | shadow
  | formal
  deriving DecidableEq

def qualificationNamespace : Mode → QualificationNamespace
  | .off => .none
  | .observe => .shadow
  | .paused => .formal
  | .enforced => .formal

def rotatesGeneration (oldMode newMode : Mode) : Bool :=
  decide (qualificationNamespace newMode ≠ .none ∧
    qualificationNamespace newMode ≠ qualificationNamespace oldMode)

structure PolicyInput where
  mode : Mode
  prequeueSeconds : ℕ
  maxActiveUsers : ℕ
  admissionRatePerSecond : ℕ
  leaseSeconds : ℕ
  expectedVersion : ℕ

/-- The bounds of the fields of a request. -/
def PolicyInput.accepted (input : PolicyInput) : Bool :=
  decide (input.prequeueSeconds ≤ 86400 ∧ 1 ≤ input.maxActiveUsers ∧
    input.maxActiveUsers ≤ 1000000 ∧ 1 ≤ input.admissionRatePerSecond ∧
    input.admissionRatePerSecond ≤ 100000 ∧ 10 ≤ input.leaseSeconds ∧ input.leaseSeconds ≤ 3600 ∧
    input.expectedVersion ≤ 9007199254740990)

structure PolicyRow where
  mode : Mode
  prequeueSeconds : ℕ
  maxActiveUsers : ℕ
  admissionRatePerSecond : ℕ
  leaseSeconds : ℕ
  policyVersion : ℕ
  queueGeneration : String
  deriving DecidableEq

def PolicyRow.stamp (r : PolicyRow) : Runtime := ⟨r.queueGeneration, r.policyVersion, r.mode⟩

def PolicyInput.row (input : PolicyInput) (version : ℕ) (generation : String) : PolicyRow :=
  ⟨input.mode, input.prequeueSeconds, input.maxActiveUsers, input.admissionRatePerSecond,
    input.leaseSeconds, version, generation⟩

/-- The statement that a transaction is about to execute. -/
inductive PolicyWrite where
  | write (input : PolicyInput) (generation : String)
  | reset (version : ℕ) (generation : String)

/-- The row that the statement writes, if it changes one: an insert only where there is none, an
update only of the expected version. -/
def PolicyWrite.execute : PolicyWrite → Option PolicyRow → Option PolicyRow
  | .write input generation, row =>
      if input.expectedVersion = 0 then
        match row with
        | none => some (input.row 1 generation)
        | some _ => none
      else
        match row with
        | none => none
        | some r =>
            if r.policyVersion = input.expectedVersion then
              some (input.row (r.policyVersion + 1) generation)
            else none
  | .reset version generation, row =>
      match row with
      | none => none
      | some r =>
          if r.policyVersion = version then
            some { r with policyVersion := r.policyVersion + 1, queueGeneration := generation }
          else none

inductive PolicyError where
  | invalidArgument
  | secretUnavailable
  | versionConflict
  deriving DecidableEq

/-- The part of a policy write before its statement: a missing row reads as OFF at version 0, and
the number drawn becomes the generation if one is needed. -/
def writePolicy (row : Option PolicyRow) (input : PolicyInput) (secretAvailable : Bool)
    (randomHex : String) : Except PolicyError PolicyWrite :=
  if input.accepted = false then .error .invalidArgument
  else if input.mode ≠ .off ∧ secretAvailable = false then .error .secretUnavailable
  else
    match row with
    | none =>
        if input.expectedVersion = 0 then .ok (.write input randomHex) else .error .versionConflict
    | some before =>
        if before.policyVersion ≠ input.expectedVersion then .error .versionConflict
        else if input.expectedVersion = 0 ∨ rotatesGeneration before.mode input.mode then
          .ok (.write input randomHex)
        else .ok (.write input before.queueGeneration)

/-- The policy row with every version committed so far, latest first, the random numbers drawn, the
transactions under way by the number each drew, and the calls that reached Redis. -/
structure Policies where
  row : Option PolicyRow
  history : List PolicyRow
  drawn : List String
  pending : Table String PolicyWrite
  deliveries : List Delivery

def Policies.initial : Policies := ⟨none, [], [], Table.empty, []⟩

inductive PolicyAction where
  | write (input : PolicyInput) (secretAvailable : Bool) (randomHex : String)
  | reset (version : ℕ) (randomHex : String)
  | execute (randomHex : String)
  | abandon (randomHex : String)
  | deliver (d : Delivery)

namespace Policies

/-- An instance calls under a committed version other than OFF. -/
def Snapshot (s : Policies) : Message → Prop
  | .call p _ => ∃ r ∈ s.history, r.mode ≠ .off ∧ p.stamp = r.stamp
  | .pause generation => ∃ r ∈ s.history, r.mode ≠ .off ∧ generation = r.queueGeneration

instance (s : Policies) : DecidablePred s.Snapshot
  | .call p _ => inferInstanceAs (Decidable (∃ r ∈ s.history, r.mode ≠ .off ∧ p.stamp = r.stamp))
  | .pause generation =>
      inferInstanceAs (Decidable (∃ r ∈ s.history, r.mode ≠ .off ∧ generation = r.queueGeneration))

def step (action : PolicyAction) (s : Policies) : Option Policies :=
  match action with
  | .write input secretAvailable randomHex =>
      if randomHex ∈ s.drawn then none
      else
        match writePolicy s.row input secretAvailable randomHex with
        | .error _ => some s
        | .ok write =>
            (s.pending.insert randomHex write).map fun pending =>
              { s with drawn := randomHex :: s.drawn, pending := pending }
  | .reset version randomHex =>
      if randomHex ∈ s.drawn then none
      else
        (s.pending.insert randomHex (.reset version randomHex)).map fun pending =>
          { s with drawn := randomHex :: s.drawn, pending := pending }
  | .execute randomHex =>
      (s.pending.find randomHex).map fun write =>
        match write.execute s.row with
        | none => { s with pending := s.pending.erase randomHex }
        | some r =>
            { s with
              row := some r
              history := r :: s.history
              pending := s.pending.erase randomHex }
  | .abandon randomHex => some { s with pending := s.pending.erase randomHex }
  | .deliver d =>
      if s.Snapshot d.message then some { s with deliveries := s.deliveries ++ [d] } else none

end Policies

def PolicySteps (action : PolicyAction) (s t : Policies) : Prop := s.step action = some t

/-- From the one version to the other the namespace stays the same and is not OFF. -/
def Unbroken (history : List PolicyRow) (a c : PolicyRow) : Prop :=
  ∀ b ∈ history, min a.policyVersion c.policyVersion ≤ b.policyVersion →
    b.policyVersion ≤ max a.policyVersion c.policyVersion →
      b.mode ≠ .off ∧ qualificationNamespace b.mode = qualificationNamespace a.mode

/-- Versions count up by one; versions that share a generation share a namespace with all between
them; and a place is given under a version only where the member joined under such a version. -/
structure GenerationsIsolated (s : Policies) : Prop where
  versions : s.history.map PolicyRow.policyVersion = (List.range' 1 s.history.length).reverse
  isolated : ∀ a ∈ s.history, ∀ c ∈ s.history, a.mode ≠ .off → c.mode ≠ .off →
    a.queueGeneration = c.queueGeneration → Unbroken s.history a c
  places : ∀ before d after p op m, s.deliveries = before ++ d :: after → d.message = .call p op →
    op.member = some m → ((storeAfter before).handle d).reply.position.isSome →
      ∃ c ∈ s.history, p.stamp = c.stamp ∧ ∃ e ∈ before ++ [d], ∃ q score,
        e.message = .call q (.join m score) ∧ ∃ a ∈ s.history, q.stamp = a.stamp ∧
          Unbroken s.history a c

theorem executed {write : PolicyWrite} {row : Option PolicyRow} {r : PolicyRow}
    (h : write.execute row = some r) :
    (row = none ∧ r.policyVersion = 1 ∧ ∃ input, write = .write input r.queueGeneration ∧
        input.expectedVersion = 0) ∨
      ∃ before, row = some before ∧ r.policyVersion = before.policyVersion + 1 ∧
        ((∃ input, write = .write input r.queueGeneration ∧
            input.expectedVersion = before.policyVersion ∧ r.mode = input.mode) ∨
          ∃ version, write = .reset version r.queueGeneration) := by
  cases write with
  | write input generation =>
      unfold PolicyWrite.execute at h
      cases row with
      | none =>
          dsimp only at h
          split_ifs at h with hzero
          cases h
          exact Or.inl ⟨rfl, rfl, input, rfl, hzero⟩
      | some before =>
          dsimp only at h
          split_ifs at h with hzero hversion
          cases h
          exact Or.inr ⟨before, rfl, rfl, Or.inl ⟨input, rfl, hversion.symm, rfl⟩⟩
  | reset version generation =>
      unfold PolicyWrite.execute at h
      cases row with
      | none => cases h
      | some before =>
          dsimp only at h
          split_ifs at h with hversion
          cases h
          exact Or.inr ⟨before, rfl, rfl, Or.inr ⟨version, rfl⟩⟩

/-- A pending write takes the number it drew as the generation, or keeps the generation of the version
it expects where the decision was not to rotate. -/
def PolicyWrite.Justified (history : List PolicyRow) (randomHex : String) : PolicyWrite → Prop
  | .write input generation => generation = randomHex ∨ ∃ r ∈ history,
      r.policyVersion = input.expectedVersion ∧ generation = r.queueGeneration ∧
        rotatesGeneration r.mode input.mode = false
  | .reset _ generation => generation = randomHex

theorem PolicyWrite.Justified.cons {history : List PolicyRow} {randomHex : String}
    {write : PolicyWrite} (h : write.Justified history randomHex) (r : PolicyRow) :
    write.Justified (r :: history) randomHex := by
  cases write with
  | write input generation =>
      obtain hfresh | ⟨before, hbefore, hrest⟩ := h
      · exact Or.inl hfresh
      · exact Or.inr ⟨before, List.mem_cons_of_mem r hbefore, hrest⟩
  | reset version generation => exact h

theorem writePolicy_justified {row : Option PolicyRow} {history : List PolicyRow}
    {input : PolicyInput} {secretAvailable : Bool} {randomHex : String} {write : PolicyWrite}
    (hrow : row = history.head?)
    (h : writePolicy row input secretAvailable randomHex = .ok write) :
    write.Justified history randomHex := by
  unfold writePolicy at h
  cases row with
  | none =>
      dsimp only at h
      split_ifs at h
      cases h
      exact Or.inl rfl
  | some before =>
      dsimp only at h
      split_ifs at h with haccepted hsecret hversion hrotates
      · cases h
        exact Or.inl rfl
      · cases h
        push Not at hversion hrotates
        exact Or.inr ⟨before, List.mem_of_mem_head? hrow.symm, hversion, rfl,
          Bool.eq_false_iff.mpr hrotates.2⟩

section histories

variable {history : List PolicyRow}

/-- Versions that count up by one are at most the length, and name their row. -/
structure Counted (history : List PolicyRow) : Prop where
  versions : history.map PolicyRow.policyVersion = (List.range' 1 history.length).reverse

theorem Counted.cons (h : Counted history) {r : PolicyRow}
    (hr : r.policyVersion = history.length + 1) : Counted (r :: history) where
  versions := by
    rw [List.map_cons, h.versions, hr, List.length_cons, List.range'_1_concat, List.reverse_append,
      List.reverse_singleton, Nat.add_comm 1]
    rfl

theorem Counted.version_le (h : Counted history) {r : PolicyRow} (hr : r ∈ history) :
    r.policyVersion ≤ history.length := by
  have hmem : r.policyVersion ∈ history.map PolicyRow.policyVersion := List.mem_map_of_mem hr
  rw [h.versions, List.mem_reverse, List.mem_range'_1] at hmem
  omega

theorem Counted.eq_of_version (h : Counted history) {a b : PolicyRow} (ha : a ∈ history)
    (hb : b ∈ history) (hversion : a.policyVersion = b.policyVersion) : a = b := by
  apply List.inj_on_of_nodup_map _ ha hb hversion
  rw [h.versions]
  exact (List.nodup_reverse.mpr (List.nodup_range' ..))

theorem Counted.head_version (h : Counted history) {r : PolicyRow} (hr : history.head? = some r) :
    r.policyVersion = history.length := by
  obtain ⟨older, rfl⟩ := List.head?_eq_some_iff.mp hr
  have hversions := h.versions
  rw [List.map_cons, List.length_cons, List.range'_1_concat, List.reverse_append,
    List.reverse_singleton] at hversions
  have hfirst := (List.cons.inj hversions).1
  rw [List.length_cons]
  omega

theorem Unbroken.symm {a c : PolicyRow} (h : Unbroken history a c) (hc : c ∈ history) :
    Unbroken history c a := by
  have hsame := (h c hc (min_le_right _ _) (le_max_right _ _)).2
  intro b hb hlow hhigh
  rw [min_comm] at hlow
  rw [max_comm] at hhigh
  obtain ⟨hmode, hnamespace⟩ := h b hb hlow hhigh
  exact ⟨hmode, hnamespace.trans hsame.symm⟩

theorem Unbroken.cons_of_lt {a c r : PolicyRow} (h : Unbroken history a c)
    (hr : max a.policyVersion c.policyVersion < r.policyVersion) : Unbroken (r :: history) a c := by
  intro b hb hlow hhigh
  obtain rfl | hb := List.mem_cons.mp hb
  · omega
  · exact h b hb hlow hhigh

/-- Without a rotation a version other than OFF continues the namespace of the one before it. -/
theorem continues_of_not_rotates {before after : Mode}
    (h : rotatesGeneration before after = false) (hafter : after ≠ .off) :
    before ≠ .off ∧ qualificationNamespace after = qualificationNamespace before := by
  revert h hafter
  cases before <;> cases after <;> decide

/-- The history property. -/
def Isolated (history : List PolicyRow) : Prop :=
  ∀ a ∈ history, ∀ c ∈ history, a.mode ≠ .off → c.mode ≠ .off →
    a.queueGeneration = c.queueGeneration → Unbroken history a c

/-- Committing one more version keeps the generations apart. -/
theorem Isolated.cons (h : Isolated history) (hcounted : Counted history) {r : PolicyRow}
    (hversion : r.policyVersion = history.length + 1)
    (hgeneration : (∀ a ∈ history, a.queueGeneration ≠ r.queueGeneration) ∨
      ∃ before, history.head? = some before ∧ before.queueGeneration = r.queueGeneration ∧
        rotatesGeneration before.mode r.mode = false) : Isolated (r :: history) := by
  have hself : r.mode ≠ .off → Unbroken (r :: history) r r := by
    intro hmode b hb hlow hhigh
    rw [min_self] at hlow
    rw [max_self] at hhigh
    have hb := (hcounted.cons hversion).eq_of_version hb List.mem_cons_self (le_antisymm hhigh hlow)
    rw [hb]
    exact ⟨hmode, rfl⟩
  have hpair : ∀ a ∈ history, a.mode ≠ .off → r.mode ≠ .off →
      a.queueGeneration = r.queueGeneration → Unbroken (r :: history) a r := by
    intro a ha hamode hrmode hsame
    obtain hfresh | ⟨before, hhead, hkept, hrotates⟩ := hgeneration
    · exact absurd hsame (hfresh a ha)
    · obtain ⟨hbefore, hcontinues⟩ := continues_of_not_rotates hrotates hrmode
      have hmem := List.mem_of_mem_head? hhead
      have hunbroken := h a ha before hmem hamode hbefore (hsame.trans hkept.symm)
      have hlast := hcounted.head_version hhead
      intro b hb hlow hhigh
      obtain rfl | hb := List.mem_cons.mp hb
      · refine ⟨hrmode, hcontinues.trans ?_⟩
        exact (hunbroken before hmem (min_le_right _ _) (le_max_right _ _)).2
      · have hble := hcounted.version_le hb
        have hale := hcounted.version_le ha
        exact hunbroken b hb (by omega) (by omega)
  intro a ha c hc hamode hcmode hsame
  obtain hnew | hold := List.mem_cons.mp ha
  · obtain hnew' | hold' := List.mem_cons.mp hc
    · rw [hnew, hnew']
      exact hself (hnew ▸ hamode)
    · rw [hnew] at hamode hsame ⊢
      exact (hpair c hold' hcmode hamode hsame.symm).symm List.mem_cons_self
  · obtain hnew' | hold' := List.mem_cons.mp hc
    · rw [hnew'] at hcmode hsame ⊢
      exact hpair a hold hamode hcmode hsame
    · have hale := hcounted.version_le hold
      have hcle := hcounted.version_le hold'
      exact (h a hold c hold' hamode hcmode hsame).cons_of_lt (by omega)

end histories

/-- What every step keeps: a number drawn by a pending transaction is in no version yet. -/
structure Policies.Sound (s : Policies) : Prop where
  current : s.row = s.history.head?
  counted : Counted s.history
  isolated : Isolated s.history
  used : ∀ r ∈ s.history, r.queueGeneration ∈ s.drawn
  fresh : ∀ randomHex write, s.pending.find randomHex = some write →
    randomHex ∈ s.drawn ∧ ∀ r ∈ s.history, r.queueGeneration ≠ randomHex
  justified : ∀ randomHex write, s.pending.find randomHex = some write →
    write.Justified s.history randomHex
  snapshots : ∀ d ∈ s.deliveries, s.Snapshot d.message

namespace Policies.Sound

variable {s : Policies}

theorem initial : Policies.initial.Sound where
  current := rfl
  counted := ⟨rfl⟩
  isolated := fun _ ha => absurd ha List.not_mem_nil
  used := fun _ hr => absurd hr List.not_mem_nil
  fresh := fun _ _ h => by cases h
  justified := fun _ _ h => by cases h
  snapshots := fun _ hd => absurd hd List.not_mem_nil

/-- A transaction begins with a number that nobody drew before. -/
theorem prepare (h : s.Sound) {randomHex : String} {write : PolicyWrite}
    {pending : Table String PolicyWrite} (hdrawn : randomHex ∉ s.drawn)
    (hwrite : write.Justified s.history randomHex)
    (hinsert : s.pending.insert randomHex write = some pending) :
    Sound { s with drawn := randomHex :: s.drawn, pending := pending } where
  current := h.current
  counted := h.counted
  isolated := h.isolated
  used := fun r hr => List.mem_cons_of_mem _ (h.used r hr)
  fresh := by
    intro other found hfound
    rw [Table.find_insert hinsert] at hfound
    split_ifs at hfound with hother
    · subst hother
      exact ⟨List.mem_cons_self, fun r hr heq => hdrawn (heq ▸ h.used r hr)⟩
    · obtain ⟨hin, hnot⟩ := h.fresh other found hfound
      exact ⟨List.mem_cons_of_mem _ hin, hnot⟩
  justified := by
    intro other found hfound
    rw [Table.find_insert hinsert] at hfound
    split_ifs at hfound with hother
    · subst hother
      cases hfound
      exact hwrite
    · exact h.justified other found hfound
  snapshots := h.snapshots

theorem abandon (h : s.Sound) (randomHex : String) :
    Sound { s with pending := s.pending.erase randomHex } where
  current := h.current
  counted := h.counted
  isolated := h.isolated
  used := h.used
  fresh := by
    intro other found hfound
    rw [Table.find_erase] at hfound
    split_ifs at hfound
    exact h.fresh other found hfound
  justified := by
    intro other found hfound
    rw [Table.find_erase] at hfound
    split_ifs at hfound
    exact h.justified other found hfound
  snapshots := h.snapshots

/-- The version a transaction commits counts on from the last one, and has its generation only if it
did not rotate; else the generation is the number the transaction drew. -/
theorem committed (h : s.Sound) {randomHex : String} {write : PolicyWrite} {r : PolicyRow}
    (hpending : s.pending.find randomHex = some write) (hr : write.execute s.row = some r) :
    r.policyVersion = s.history.length + 1 ∧ (r.queueGeneration = randomHex ∨
      ∃ before, s.history.head? = some before ∧ before.queueGeneration = r.queueGeneration ∧
        rotatesGeneration before.mode r.mode = false) := by
  have hjustified := h.justified randomHex write hpending
  obtain ⟨hnone, hone, input, rfl, hzero⟩ | ⟨before, hbefore, hversion, hcase⟩ := executed hr
  · have hempty : s.history = [] := List.head?_eq_none_iff.mp (h.current.symm.trans hnone)
    refine ⟨by rw [hone, hempty]; rfl, ?_⟩
    obtain hfresh | ⟨old, hold, -⟩ := hjustified
    · exact Or.inl hfresh
    · rw [hempty] at hold
      exact absurd hold List.not_mem_nil
  · have hhead : s.history.head? = some before := h.current.symm.trans hbefore
    have hlast := h.counted.head_version hhead
    refine ⟨by omega, ?_⟩
    obtain ⟨input, rfl, hexpected, hmode⟩ | ⟨version, rfl⟩ := hcase
    · obtain hfresh | ⟨old, hold, holdVersion, hkept, hrotates⟩ := hjustified
      · exact Or.inl hfresh
      · have hsame : old = before := h.counted.eq_of_version hold
          (List.mem_of_mem_head? hhead) (holdVersion.trans hexpected)
        subst hsame
        exact Or.inr ⟨old, hhead, hkept.symm, hmode ▸ hrotates⟩
    · exact Or.inl hjustified

theorem execute (h : s.Sound) {randomHex : String} {write : PolicyWrite} {r : PolicyRow}
    (hpending : s.pending.find randomHex = some write) (hr : write.execute s.row = some r) :
    Sound { s with
      row := some r
      history := r :: s.history
      pending := s.pending.erase randomHex } := by
  obtain ⟨hversion, hgeneration⟩ := h.committed hpending hr
  obtain ⟨hdrawn, hunused⟩ := h.fresh randomHex write hpending
  refine ⟨rfl, h.counted.cons hversion, h.isolated.cons h.counted hversion ?_, ?_, ?_, ?_, ?_⟩
  · obtain hown | hkept := hgeneration
    · exact Or.inl fun a ha heq => hunused a ha (heq.trans hown)
    · exact Or.inr hkept
  · intro row hrow
    obtain rfl | hrow := List.mem_cons.mp hrow
    · obtain hown | ⟨before, hhead, hsame, -⟩ := hgeneration
      · exact hown ▸ hdrawn
      · exact hsame ▸ h.used before (List.mem_of_mem_head? hhead)
    · exact h.used row hrow
  · intro other found hfound
    rw [Table.find_erase] at hfound
    split_ifs at hfound with hother
    obtain ⟨hin, hnot⟩ := h.fresh other found hfound
    refine ⟨hin, fun row hrow => ?_⟩
    obtain rfl | hrow := List.mem_cons.mp hrow
    · obtain hown | ⟨before, hhead, hsame, -⟩ := hgeneration
      · exact fun heq => hother (heq.symm.trans hown)
      · exact hsame ▸ hnot before (List.mem_of_mem_head? hhead)
    · exact hnot row hrow
  · intro other found hfound
    rw [Table.find_erase] at hfound
    split_ifs at hfound
    exact (h.justified other found hfound).cons r
  · intro d hd
    have hsnapshot := h.snapshots d hd
    cases hmessage : d.message with
    | call p op =>
        rw [hmessage] at hsnapshot
        obtain ⟨row, hrow, hrest⟩ := hsnapshot
        exact ⟨row, List.mem_cons_of_mem r hrow, hrest⟩
    | pause generation =>
        rw [hmessage] at hsnapshot
        obtain ⟨row, hrow, hrest⟩ := hsnapshot
        exact ⟨row, List.mem_cons_of_mem r hrow, hrest⟩

theorem deliver (h : s.Sound) {d : Delivery} (hd : s.Snapshot d.message) :
    Sound { s with deliveries := s.deliveries ++ [d] } where
  current := h.current
  counted := h.counted
  isolated := h.isolated
  used := h.used
  fresh := h.fresh
  justified := h.justified
  snapshots := by
    intro e he
    obtain hold | hnew := List.mem_append.mp he
    · exact h.snapshots e hold
    · rw [List.mem_singleton.mp hnew]
      exact hd

theorem step {action : PolicyAction} {t : Policies} (h : s.Sound) (hstep : PolicySteps action s t) :
    t.Sound := by
  unfold PolicySteps Policies.step at hstep
  cases action with
  | write input secretAvailable randomHex =>
      dsimp only at hstep
      split_ifs at hstep with hdrawn
      cases hwrite : writePolicy s.row input secretAvailable randomHex with
      | error e =>
          rw [hwrite] at hstep
          cases hstep
          exact h
      | ok write =>
          rw [hwrite] at hstep
          obtain ⟨pending, hinsert, rfl⟩ := Option.map_eq_some_iff.mp hstep
          exact h.prepare hdrawn (writePolicy_justified h.current hwrite) hinsert
  | reset version randomHex =>
      dsimp only at hstep
      split_ifs at hstep with hdrawn
      obtain ⟨pending, hinsert, rfl⟩ := Option.map_eq_some_iff.mp hstep
      exact h.prepare hdrawn (show PolicyWrite.Justified s.history randomHex
        (.reset version randomHex) from rfl) hinsert
  | execute randomHex =>
      obtain ⟨write, hpending, hnext⟩ := Option.map_eq_some_iff.mp hstep
      cases hr : write.execute s.row with
      | none =>
          rw [hr] at hnext
          rw [← hnext]
          exact h.abandon randomHex
      | some r =>
          rw [hr] at hnext
          rw [← hnext]
          exact h.execute hpending hr
  | abandon randomHex =>
      cases hstep
      exact h.abandon randomHex
  | deliver d =>
      dsimp only at hstep
      split_ifs at hstep with hsnapshot
      cases hstep
      exact h.deliver hsnapshot

end Policies.Sound

/-- Over every history of policy writes and resets, and every use of its versions by instances. -/
theorem policy_generations_isolated {actions : List PolicyAction} {s : Policies}
    (h : Trace PolicySteps Policies.initial actions s) : GenerationsIsolated s := by
  have hsound : s.Sound := h.invariant (fun _ _ _ hs hstep => hs.step hstep) Policies.Sound.initial
  refine ⟨hsound.counted.versions, hsound.isolated, ?_⟩
  intro before d after p op m hsplit hcall hop hplace
  obtain ⟨n, hn⟩ := Option.isSome_iff_exists.mp hplace
  obtain ⟨e, he, q, score, hjoin, hgeneration⟩ := joined_of_position before hcall hop hn
  have hsnapshot := hsound.snapshots d (by rw [hsplit]; simp)
  rw [hcall] at hsnapshot
  obtain ⟨c, hc, hcmode, hcstamp⟩ := hsnapshot
  have hejoined := hsound.snapshots e (by
    rw [hsplit]
    simp only [List.mem_append, List.mem_cons, List.not_mem_nil, or_false] at he ⊢
    tauto)
  rw [hjoin] at hejoined
  obtain ⟨a, ha, hamode, hastamp⟩ := hejoined
  refine ⟨c, hc, hcstamp, e, he, q, score, hjoin, a, ha, hastamp, ?_⟩
  apply hsound.isolated a ha c hc hamode hcmode
  have hq : q.generation = a.queueGeneration := congrArg Runtime.generation hastamp
  have hp : p.generation = c.queueGeneration := congrArg Runtime.generation hcstamp
  rw [← hq, ← hp, hgeneration]

/-- A policy that is enforced, switched off and enforced again, with a member that joins at first. -/
def offAndBack : List PolicyAction :=
  [.write ⟨.enforced, 0, 2, 2, 10, 0⟩ true "g1", .execute "g1",
    .deliver ⟨10, .call openingSale (.sync true)⟩,
    .deliver ⟨1050, .call openingSale (.join "a" 3)⟩,
    .write ⟨.off, 0, 2, 2, 10, 1⟩ true "g2", .execute "g2",
    .write ⟨.enforced, 0, 2, 2, 10, 2⟩ true "g3", .execute "g3"]

theorem policy_generations_isolated_offAndBack :
    ∃ s, GenerationsIsolated s ∧ s.history.map PolicyRow.queueGeneration = ["g3", "g1", "g1"] ∧
      s.deliveries.length = 2 := by
  have hrun : Trace PolicySteps Policies.initial offAndBack _ :=
    .cons rfl (.cons rfl (.cons rfl (.cons rfl (.cons rfl (.cons rfl (.cons rfl (.single rfl)))))))
  exact ⟨_, policy_generations_isolated hrun, rfl, rfl⟩

end Ticketing.Admission
