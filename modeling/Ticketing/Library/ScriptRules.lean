import Ticketing.Library.ScriptFrame

/-!
# Rules for what a script ends with

`Wp script env store Q E` says that the script ends in `Q` when it ends with an answer and in `E`
when a command is refused. The rules follow the structure of the script; a command has one rule,
stated over what the key shows: the fields of a hash, the members of a set, the scores of a sorted
set.
-/

namespace Redis

open Relational

namespace Slot

def fields (slot : Slot) : Option (String → Option String) := slot.hash.map Table.find

def members (slot : Slot) : Option (Finset String) :=
  slot.set.map fun members => (members.rows.map Prod.fst).toFinset

def scores (slot : Slot) : Option (String → Option ℤ) := slot.zset.map Table.find

end Slot

namespace Script

variable {κ α β : Type}

def Wp (script : Script κ α) (env : Env) (store : Store κ) (Q : α → Store κ → Prop)
    (E : Store κ → Prop) : Prop :=
  match script env store with
  | .done value after => Q value after
  | .raised _ after => E after

section Structure

variable {env : Env} {store : Store κ} {Q : α → Store κ → Prop} {E : Store κ → Prop}

theorem wp_of_done {script : Script κ α} {value : α} {after : Store κ}
    (h : script env store = .done value after) (hq : Q value after) : Wp script env store Q E := by
  unfold Wp
  rw [h]
  exact hq

theorem wp_done {script : Script κ α} {value : α} {after : Store κ}
    (h : Wp script env store Q E) (hrun : script env store = .done value after) :
    Q value after := by
  unfold Wp at h
  rwa [hrun] at h

theorem wp_raised {script : Script κ α} {error : Error} {after : Store κ}
    (h : Wp script env store Q E) (hrun : script env store = .raised error after) : E after := by
  unfold Wp at h
  rwa [hrun] at h

/-- What holds of every end holds of the store that is left. -/
theorem wp_store {script : Script κ α} (h : Wp script env store (fun _ => E) E) :
    E (script env store).store := by
  unfold Wp at h
  cases hrun : script env store with
  | done value after =>
      rw [hrun] at h
      exact h
  | raised error after =>
      rw [hrun] at h
      exact h

/-- A script that cannot raise ends with an answer. -/
theorem wp_total {script : Script κ α} (h : Wp script env store Q fun _ => False) :
    ∃ value after, script env store = .done value after ∧ Q value after := by
  unfold Wp at h
  cases hrun : script env store with
  | done value after =>
      rw [hrun] at h
      exact ⟨value, after, rfl, h⟩
  | raised error after =>
      rw [hrun] at h
      exact h.elim

theorem wp_mono {script : Script κ α} {Q' : α → Store κ → Prop} {E' : Store κ → Prop}
    (h : Wp script env store Q E) (hq : ∀ value after, Q value after → Q' value after)
    (he : ∀ after, E after → E' after) : Wp script env store Q' E' := by
  unfold Wp at h ⊢
  cases hrun : script env store with
  | done value after =>
      rw [hrun] at h
      exact hq value after h
  | raised error after =>
      rw [hrun] at h
      exact he after h

theorem wp_and {script : Script κ α} {Q' : α → Store κ → Prop} {E' : Store κ → Prop}
    (h : Wp script env store Q E) (h' : Wp script env store Q' E') :
    Wp script env store (fun value after => Q value after ∧ Q' value after)
      (fun after => E after ∧ E' after) := by
  unfold Wp at h h' ⊢
  cases hrun : script env store with
  | done value after =>
      rw [hrun] at h h'
      exact ⟨h, h'⟩
  | raised error after =>
      rw [hrun] at h h'
      exact ⟨h, h'⟩

theorem wp_eq_done {script : Script κ α} {value : α} {after : Store κ}
    (h : Wp script env store (fun found left => found = value ∧ left = after) fun _ => False) :
    script env store = .done value after := by
  obtain ⟨found, left, hrun, rfl, rfl⟩ := wp_total h
  exact hrun

theorem wp_frame {W : κ → Prop} {script : Script κ α} (h : Writes W script) :
    Wp script env store (fun _ after => ∀ key, ¬ W key → after key = store key)
      (fun after => ∀ key, ¬ W key → after key = store key) := by
  have hkept := h env store
  unfold Wp
  cases hrun : script env store with
  | done value after =>
      rw [hrun] at hkept
      exact hkept
  | raised error after =>
      rw [hrun] at hkept
      exact hkept

theorem wp_pure {value : α} (h : Q value store) : Wp (pure value) env store Q E := h

theorem wp_raise {error : Error} (h : E store) : Wp (raise error) env store Q E := h

theorem wp_now {Q : ℕ → Store κ → Prop} (h : Q env.now store) : Wp now env store Q E := h

theorem wp_bind {first : Script κ β} {next : β → Script κ α}
    (h : Wp first env store (fun value after => Wp (next value) env after Q E) E) :
    Wp (first >>= next) env store Q E := by
  unfold Wp at h ⊢
  rw [bind_apply]
  cases hrun : first env store with
  | done value after =>
      rw [hrun] at h
      exact h
  | raised error after =>
      rw [hrun] at h
      exact h

end Structure

section ReadOnlyTests

variable {env : Env} {store : Store κ}

/-- A test that only reads ends on the store it began with. -/
theorem ReadOnly.done {script : Script κ α} (h : ReadOnly script) {value : α} {after : Store κ}
    (hrun : script env store = .done value after) : after = store := by
  have hkept := h.store_eq env store
  rw [hrun] at hkept
  exact hkept

/-- An answer of a read-only script followed by the rest. -/
theorem wp_read {script : Script κ β} {next : β → Script κ α} {Q : α → Store κ → Prop}
    {E : Store κ → Prop} (h : ReadOnly script) (he : E store)
    (hnext : ∀ value, script env store = .done value store → Wp (next value) env store Q E) :
    Wp (script >>= next) env store Q E := by
  refine wp_bind ?_
  unfold Wp
  cases hrun : script env store with
  | done value after =>
      obtain rfl := h.done hrun
      exact hnext value hrun
  | raised error after =>
      have hkept := h.store_eq env store
      rw [hrun] at hkept
      rw [Outcome.store_raised] at hkept
      rw [hkept]
      exact he

/-- Tests that only read answer together what they answer each. -/
theorem allM_done {test : α → Script κ Bool} {f : α → Bool} {items : List α}
    (h : ∀ item ∈ items, test item env store = .done (f item) store) :
    allM test items env store = .done (items.all f) store := by
  induction items with
  | nil => rfl
  | cons first rest ih =>
      have hrest := ih fun item hitem => h item (List.mem_cons_of_mem first hitem)
      unfold allM
      rw [bind_of_done (h first List.mem_cons_self), List.all_cons]
      cases f first
      · rfl
      · exact hrest

end ReadOnlyTests

section Commands

variable {env : Env} {store : Store κ} {key : κ} {E : Store κ → Prop}

theorem wp_typeOf {Q : Option Kind → Store κ → Prop} (h : Q (store key).kind store) :
    Wp (typeOf key) env store Q E := h

theorem wp_exist {Q : Bool → Store κ → Prop} (h : Q (store key).isSome store) :
    Wp (exist key) env store Q E := h

theorem wp_get {Q : Option String → Store κ → Prop} {text : Option String}
    (htext : (store key).text = some text) (h : Q text store) : Wp (get key) env store Q E :=
  wp_of_done (readKey_some htext) h

theorem wp_hget {Q : Option String → Store κ → Prop} {fields : String → Option String}
    {field : String} (hfields : (store key).fields = some fields) (h : Q (fields field) store) :
    Wp (hget key field) env store Q E := by
  obtain ⟨table, htable, rfl⟩ := Option.map_eq_some_iff.mp hfields
  exact wp_of_done (readKey_some htable) h

theorem wp_lrange {Q : List String → Store κ → Prop} {items : List String}
    (hitems : (store key).list = some items) (h : Q items store) : Wp (lrange key) env store Q E :=
  wp_of_done (readKey_some hitems) h

variable [DecidableEq κ]

theorem wp_del {Q : ℕ → Store κ → Prop}
    (h : Q (if (store key).isSome then 1 else 0) (Function.update store key none)) :
    Wp (del key) env store Q E := h

/-- A written string lasts until the clock passes its time to live. -/
theorem wp_setPx {Q : Unit → Store κ → Prop} {value : String} {ttl : ℕ} (httl : ttl ≠ 0)
    (h : Q () (Function.update store key (some ⟨.string value, some (env.now + ttl)⟩))) :
    Wp (setPx key value ttl) env store Q E := by
  refine wp_of_done (atKey_ok ?_) h
  exact if_neg httl

theorem wp_pexpire {Q : ℕ → Store κ → Prop} {ttl : ℕ} {entry : Entry} (httl : ttl ≠ 0)
    (hentry : store key = some entry)
    (h : Q 1 (Function.update store key (some ⟨entry.value, some (env.now + ttl)⟩))) :
    Wp (pexpire key ttl) env store Q E := by
  refine wp_of_done (atKey_ok ?_) h
  rw [hentry]
  exact if_neg httl

end Commands

end Script
end Redis
