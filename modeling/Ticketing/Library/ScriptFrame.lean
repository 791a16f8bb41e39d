import Ticketing.Library.Redis

/-!
# What a script writes and what it depends on

A script that writes only the keys `W` leaves every other key, also when it
raises. A script determined by the keys `K` answers alike, and leaves them
alike, on stores that agree on `K`. Both follow the structure of the script.
-/

namespace Redis
namespace Script

variable {κ α β : Type}

def Writes (W : κ → Prop) (script : Script κ α) : Prop :=
  ∀ env store key, ¬ W key → (script env store).store key = store key

def DeterminedBy (K : κ → Prop) (script : Script κ α) : Prop :=
  ∀ env store store', (∀ key, K key → store key = store' key) →
    (script env store).SameOn K (script env store')

/-- A script that answers and leaves the store as it is. -/
def ReadOnly (script : Script κ α) : Prop := Writes (fun _ => False) script

section Writes

variable {W : κ → Prop}

theorem writes_mono {W' : κ → Prop} {script : Script κ α} (h : Writes W script)
    (hsub : ∀ key, W key → W' key) : Writes W' script :=
  fun env store key hkey => h env store key fun hw => hkey (hsub key hw)

theorem ReadOnly.writes {script : Script κ α} (h : ReadOnly script) : Writes W script :=
  writes_mono h fun _ hfalse => hfalse.elim

theorem ReadOnly.store_eq {script : Script κ α} (h : ReadOnly script) (env : Env)
    (store : Store κ) : (script env store).store = store :=
  funext fun key => h env store key id

theorem writes_pure (value : α) : Writes W (pure value) := fun _ _ _ _ => rfl

theorem writes_raise (error : Error) : Writes W (raise error : Script κ α) := fun _ _ _ _ => rfl

theorem writes_now : Writes W (now : Script κ ℕ) := fun _ _ _ _ => rfl

theorem writes_typeOf {key : κ} : Writes W (typeOf key) := fun _ _ _ _ => rfl

theorem writes_exist {key : κ} : Writes W (exist key) := fun _ _ _ _ => rfl

theorem writes_pttl {key : κ} : Writes W (pttl key) := fun _ _ _ _ => rfl

theorem writes_bind {first : Script κ α} {next : α → Script κ β} (hfirst : Writes W first)
    (hnext : ∀ value, Writes W (next value)) : Writes W (first >>= next) := by
  intro env store key hkey
  have hkept := hfirst env store key hkey
  rw [bind_apply]
  cases h : first env store with
  | done value store' =>
      rw [h, Outcome.store_done] at hkept
      exact (hnext value env store' key hkey).trans hkept
  | raised error store' =>
      rw [h] at hkept
      exact hkept

theorem writes_readKey {τ : Type} {key : κ} {view : Slot → Option τ}
    {answer : Env → Slot → τ → α} : Writes W (readKey key view answer) := by
  intro env store other hother
  unfold readKey
  cases view (store key) <;> rfl

theorem writes_allM {test : α → Script κ Bool} {items : List α}
    (h : ∀ item ∈ items, Writes W (test item)) : Writes W (allM test items) := by
  induction items with
  | nil => exact writes_pure true
  | cons item items ih =>
      refine writes_bind (h item List.mem_cons_self) fun passed => ?_
      cases passed
      · exact writes_pure false
      · exact ih fun other hother => h other (List.mem_cons_of_mem _ hother)

theorem writes_forEach {body : α → Script κ Unit} {items : List α}
    (h : ∀ item ∈ items, Writes W (body item)) : Writes W (forEach body items) := by
  induction items with
  | nil => exact writes_pure ()
  | cons item items ih =>
      refine writes_bind (h item List.mem_cons_self) fun _ => ?_
      exact ih fun other hother => h other (List.mem_cons_of_mem _ hother)

theorem writes_ite {p : Prop} [Decidable p] {first second : Script κ α} (hfirst : Writes W first)
    (hsecond : Writes W second) : Writes W (if p then first else second) := by
  split
  · exact hfirst
  · exact hsecond

variable [DecidableEq κ]

theorem writes_atKey {key : κ} {command : Env → Slot → Except Error (α × Slot)} (h : W key) :
    Writes W (atKey key command) := by
  intro env store other hother
  unfold atKey
  cases command env (store key) with
  | error error => rfl
  | ok result =>
      refine Function.update_of_ne ?_ _ _
      rintro rfl
      exact hother h

variable {key : κ}

theorem writes_del (h : W key) : Writes W (del key) := writes_atKey h

theorem writes_setPx {value : String} {ttl : ℕ} (h : W key) : Writes W (setPx key value ttl) :=
  writes_atKey h

theorem writes_pexpire {ttl : ℕ} (h : W key) : Writes W (pexpire key ttl) := writes_atKey h

theorem writes_hset {values : List (String × String)} (h : W key) : Writes W (hset key values) :=
  writes_atKey h

theorem writes_hdel {field : String} (h : W key) : Writes W (hdel key field) := writes_atKey h

theorem writes_hincrby {field : String} {amount : ℤ} (h : W key) :
    Writes W (hincrby key field amount) := writes_atKey h

theorem writes_zadd {score : ℤ} {member : String} (h : W key) :
    Writes W (zadd key score member) := writes_atKey h

theorem writes_zrem {member : String} (h : W key) : Writes W (zrem key member) := writes_atKey h

theorem writes_xadd {maxlen : Option ℕ} {fields : List (String × String)} (h : W key) :
    Writes W (xadd key maxlen fields) := writes_atKey h

end Writes

section DeterminedBy

variable {K : κ → Prop}

theorem determinedBy_pure (value : α) : DeterminedBy K (pure value) :=
  fun _ _ _ h => ⟨rfl, h⟩

theorem determinedBy_bind {first : Script κ α} {next : α → Script κ β}
    (hfirst : DeterminedBy K first) (hnext : ∀ value, DeterminedBy K (next value)) :
    DeterminedBy K (first >>= next) := by
  intro env store store' hsame
  have hstep := hfirst env store store' hsame
  rw [bind_apply, bind_apply]
  cases h : first env store with
  | done value after =>
      cases h' : first env store' with
      | done value' after' =>
          rw [h, h'] at hstep
          obtain ⟨rfl, hafter⟩ := hstep
          exact hnext value env after after' hafter
      | raised error' after' =>
          rw [h, h'] at hstep
          exact hstep.elim
  | raised error after =>
      cases h' : first env store' with
      | done value' after' =>
          rw [h, h'] at hstep
          exact hstep.elim
      | raised error' after' =>
          rw [h, h'] at hstep
          exact hstep

theorem determinedBy_typeOf {key : κ} (h : K key) : DeterminedBy K (typeOf key) := by
  intro env store store' hsame
  refine ⟨?_, hsame⟩
  rw [hsame key h]

theorem determinedBy_readKey {τ : Type} {key : κ} {view : Slot → Option τ}
    {answer : Env → Slot → τ → α} (h : K key) : DeterminedBy K (readKey key view answer) := by
  intro env store store' hsame
  unfold readKey
  rw [hsame key h]
  cases view (store' key) with
  | none => exact ⟨rfl, hsame⟩
  | some content => exact ⟨rfl, hsame⟩

theorem determinedBy_ite {p : Prop} [Decidable p] {first second : Script κ α}
    (hfirst : DeterminedBy K first) (hsecond : DeterminedBy K second) :
    DeterminedBy K (if p then first else second) := by
  split
  · exact hfirst
  · exact hsecond

/-- A script that only reads answers alike on stores that agree on the keys it depends on. -/
theorem DeterminedBy.answer {script : Script κ α} (h : DeterminedBy K script)
    (hread : ReadOnly script) {env : Env} {store store' : Store κ} {value : α}
    (hsame : ∀ key, K key → store key = store' key) (hrun : script env store = .done value store) :
    script env store' = .done value store' := by
  have hstep := h env store store' hsame
  have hkept := hread.store_eq env store'
  rw [hrun] at hstep
  cases hrun' : script env store' with
  | done value' after' =>
      rw [hrun'] at hstep hkept
      obtain ⟨rfl, -⟩ := hstep
      rw [Outcome.store_done] at hkept
      rw [hkept]
  | raised error' after' =>
      rw [hrun'] at hstep
      exact hstep.elim

variable [DecidableEq κ]

theorem determinedBy_atKey {key : κ} {command : Env → Slot → Except Error (α × Slot)}
    (h : K key) : DeterminedBy K (atKey key command) := by
  intro env store store' hsame
  unfold atKey
  rw [hsame key h]
  cases command env (store' key) with
  | error error => exact ⟨rfl, hsame⟩
  | ok result =>
      refine ⟨rfl, fun other hother => ?_⟩
      by_cases hkey : other = key
      · subst hkey
        rw [Function.update_self, Function.update_self]
      · rw [Function.update_of_ne hkey, Function.update_of_ne hkey]
        exact hsame other hother

end DeterminedBy

end Script
end Redis
