import Ticketing.Library.JsonValue

/-!
# Settings from a JSON object

A record of numbers is read member by member. A member that is missing leaves the default, and one
that is no integer within its bounds is refused.
-/

namespace JsonCpp

/-- A setting by its name, with the place of its value and its bounds. -/
structure Setting (C : Type) where
  name : String
  value : C → ℕ
  store : C → ℕ → C
  min : ℤ
  max : ℤ

namespace Setting

variable {C : Type}

def read (refusal : String) (members : List (String × Value)) (c : C) (setting : Setting C) :
    Except String C :=
  match members.lookup setting.name with
  | none => .ok c
  | some (.int n) =>
      if setting.min ≤ n ∧ n ≤ setting.max then .ok (setting.store c n.toNat) else .error refusal
  | some _ => .error refusal

def known (settings : List (Setting C)) (name : String) : Bool :=
  settings.any fun setting => decide (name = setting.name)

/-- Every setting lies within its bounds. -/
def Bounded (settings : List (Setting C)) (c : C) : Prop :=
  ∀ setting ∈ settings, setting.min ≤ setting.value c ∧ (setting.value c : ℤ) ≤ setting.max

/-- Every setting has a place of its own, which keeps what is stored there. -/
structure Separate (settings : List (Setting C)) : Prop where
  nonneg : ∀ setting ∈ settings, 0 ≤ setting.min
  stored : ∀ setting ∈ settings, ∀ other ∈ settings, ∀ c n,
    (setting = other ∧ setting.value (other.store c n) = n) ∨
      setting.value (other.store c n) = setting.value c

variable {settings : List (Setting C)} {refusal : String} {members : List (String × Value)}
  {c c' : C}

theorem bounded_read (hplaces : Separate settings) {setting : Setting C}
    (hsetting : setting ∈ settings) (hc : Bounded settings c)
    (h : setting.read refusal members c = .ok c') : Bounded settings c' := by
  unfold read at h
  split at h
  · cases h
    exact hc
  · rename_i n hfound
    split_ifs at h with hrange
    cases h
    intro other hother
    rcases hplaces.stored other hother setting hsetting c n.toNat with ⟨rfl, hvalue⟩ | hsame
    · rw [hvalue]
      have hpositive := hplaces.nonneg other hother
      omega
    · rw [hsame]
      exact hc other hother
  · cases h

theorem bounded_foldlM (hplaces : Separate settings) {chosen : List (Setting C)}
    (hchosen : ∀ setting ∈ chosen, setting ∈ settings) (hc : Bounded settings c)
    (h : chosen.foldlM (read refusal members) c = .ok c') : Bounded settings c' := by
  induction chosen generalizing c with
  | nil =>
      cases h
      exact hc
  | cons setting rest ih =>
      rw [List.foldlM_cons] at h
      cases hread : setting.read refusal members c with
      | error e =>
          rw [hread] at h
          cases h
      | ok middle =>
          rw [hread] at h
          have hmiddle := bounded_read hplaces (hchosen setting List.mem_cons_self) hc hread
          exact ih (fun other hother => hchosen other (List.mem_cons_of_mem setting hother)) hmiddle h

/-- Settings that are read over defaults within their bounds are within them. -/
theorem bounded_settings (hplaces : Separate settings) (hc : Bounded settings c)
    (h : settings.foldlM (read refusal members) c = .ok c') : Bounded settings c' :=
  bounded_foldlM hplaces (fun _ hsetting => hsetting) hc h

end Setting

end JsonCpp
