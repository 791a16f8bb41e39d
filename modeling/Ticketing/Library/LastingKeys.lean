import Ticketing.Library.ScriptRules
import Ticketing.Library.Decimals

/-!
# Keys without a deadline

A key that shows some content through a view and has no deadline outlasts the clock, and the writing
commands have rules over such views: what they leave has no deadline either.
-/

namespace Redis

open Relational

/-- What a view shows of a slot without a deadline. -/
structure Slot.Shows {τ : Type} (view : Slot → Option τ) (slot : Slot) (content : τ) : Prop where
  view : view slot = some content
  lasting : slot.deadline = none

namespace Slot

theorem Shows.visible {τ : Type} {view : Slot → Option τ} {slot : Slot} {content : τ}
    (h : Shows view slot content) (now : ℕ) : slot.visible now = slot := by
  cases slot with
  | none => rfl
  | some entry =>
      have hlasting : entry.deadline = none := h.lasting
      refine Option.filter_eq_some_iff.mpr ⟨rfl, ?_⟩
      rw [hlasting]
      rfl

theorem deadline_writeHash {slot : Slot} (h : slot.deadline = none) (fields : Table String String) :
    (slot.writeHash fields).deadline = none := by
  unfold writeHash
  split_ifs
  · rfl
  · exact h

theorem deadline_writeList {slot : Slot} (h : slot.deadline = none) (items : List String) :
    (slot.writeList items).deadline = none := by
  unfold writeList
  split_ifs
  · rfl
  · exact h

theorem deadline_writeSet {slot : Slot} (h : slot.deadline = none) (members : Table String Unit) :
    (slot.writeSet members).deadline = none := by
  unfold writeSet
  split_ifs
  · rfl
  · exact h

theorem deadline_writeZset {slot : Slot} (h : slot.deadline = none) (scores : Table String ℤ) :
    (slot.writeZset scores).deadline = none := by
  unfold writeZset
  split_ifs
  · rfl
  · exact h

/-- A key that shows a content is missing or of the kind of that content. -/
theorem kind_of_hash {slot : Slot} {fields : Table String String}
    (h : slot.hash = some fields) : slot = none ∨ slot.kind = some .hash := by
  rcases slot with _ | ⟨value, deadline⟩
  · exact Or.inl rfl
  · cases value <;> first | exact Or.inr rfl | cases h

theorem kind_of_list {slot : Slot} {items : List String} (h : slot.list = some items) :
    slot = none ∨ slot.kind = some .list := by
  rcases slot with _ | ⟨value, deadline⟩
  · exact Or.inl rfl
  · cases value <;> first | exact Or.inr rfl | cases h

theorem kind_of_set {slot : Slot} {members : Table String Unit} (h : slot.set = some members) :
    slot = none ∨ slot.kind = some .set := by
  rcases slot with _ | ⟨value, deadline⟩
  · exact Or.inl rfl
  · cases value <;> first | exact Or.inr rfl | cases h

theorem kind_of_zset {slot : Slot} {scores : Table String ℤ} (h : slot.zset = some scores) :
    slot = none ∨ slot.kind = some .zset := by
  rcases slot with _ | ⟨value, deadline⟩
  · exact Or.inl rfl
  · cases value <;> first | exact Or.inr rfl | cases h

theorem kind_of_stream {slot : Slot} {stream : Stream} (h : slot.stream = some stream) :
    slot = none ∨ slot.kind = some .stream := by
  rcases slot with _ | ⟨value, deadline⟩
  · exact Or.inl rfl
  · cases value <;> first | exact Or.inr rfl | cases h

theorem kind_of_fields {slot : Slot} {fields : String → Option String}
    (h : slot.fields = some fields) : slot = none ∨ slot.kind = some .hash := by
  obtain ⟨table, htable, -⟩ := Option.map_eq_some_iff.mp h
  exact kind_of_hash htable

/-- A hash with a field is there. -/
theorem kind_of_field {slot : Slot} {fields : String → Option String} {field : String}
    (h : slot.fields = some fields) (hfield : (fields field).isSome = true) :
    slot.kind = some .hash := by
  rcases kind_of_fields h with rfl | hkind
  · obtain rfl := Option.some.inj h
    cases hfield
  · exact hkind

theorem kind_of_scores {slot : Slot} {scores : String → Option ℤ}
    (h : slot.scores = some scores) : slot = none ∨ slot.kind = some .zset := by
  obtain ⟨table, htable, -⟩ := Option.map_eq_some_iff.mp h
  exact kind_of_zset htable

/-- A set with a member is there. -/
theorem kind_of_members {slot : Slot} {members : Finset String} (h : slot.members = some members)
    (hmembers : members.Nonempty) : slot.kind = some .set := by
  obtain ⟨table, htable, rfl⟩ := Option.map_eq_some_iff.mp h
  rcases kind_of_set htable with rfl | hkind
  · obtain rfl := Option.some.inj htable
    exact absurd hmembers Finset.not_nonempty_empty
  · exact hkind

theorem fields_writeHash (slot : Slot) (table : Table String String) :
    (slot.writeHash table).fields = some table.find := by
  unfold fields
  rw [hash_writeHash]
  rfl

theorem members_writeSet (slot : Slot) (table : Table String Unit) :
    (slot.writeSet table).members = some (table.rows.map Prod.fst).toFinset := by
  unfold members
  rw [set_writeSet]
  rfl

theorem scores_writeZset (slot : Slot) (table : Table String ℤ) :
    (slot.writeZset table).scores = some table.find := by
  unfold scores
  rw [zset_writeZset]
  rfl

/-- The fields after a list of writes. -/
def written (fields : String → Option String) (values : List (String × String)) :
    String → Option String :=
  values.foldl (fun fields value => Function.update fields value.1 (some value.2)) fields

theorem find_setAll (table : Table String String) (values : List (String × String)) :
    (values.foldl (fun t value => t.set value.1 value.2) table).find = written table.find values := by
  induction values generalizing table with
  | nil => rfl
  | cons value values ih =>
      have hone : (table.set value.1 value.2).find =
          Function.update table.find value.1 (some value.2) := by
        funext field
        rw [Table.find_set, Function.update_apply]
      show (values.foldl (fun t value => t.set value.1 value.2) (table.set value.1 value.2)).find = _
      rw [ih, hone]
      rfl

end Slot

section Increment

variable {fields : Table String String} {field : String} {n m : ℕ} {amount : ℤ}

theorem increment_fits (hfield : fields.find field = some (toString n))
    (hsum : (n : ℤ) + amount = m) (hn : (n : ℤ) ≤ maxInt64) (hm : (m : ℤ) ≤ maxInt64) :
    increment fields field amount = .ok (fields.set field (toString m)) := by
  have hfits : ¬ ((n : ℤ) + amount < minInt64 ∨ maxInt64 < (n : ℤ) + amount) := by
    unfold minInt64
    omega
  unfold increment
  rw [hfield]
  dsimp only
  rw [integer_toString hn]
  dsimp only
  rw [if_neg hfits, hsum]
  rfl

theorem increment_large (hfield : fields.find field = some (toString n))
    (hsum : (n : ℤ) + amount = m) (h : maxInt64 < n ∨ maxInt64 < m) :
    ∃ error, increment fields field amount = .error error := by
  unfold increment
  rw [hfield]
  dsimp only
  by_cases hn : (n : ℤ) ≤ maxInt64
  · rw [integer_toString hn]
    dsimp only
    rw [if_pos (Or.inr (by omega))]
    exact ⟨_, rfl⟩
  · rw [integer_of_large (by omega)]
    exact ⟨_, rfl⟩

end Increment

/-- Writing another key leaves what a key shows. -/
theorem shows_of_ne {κ τ : Type} [DecidableEq κ] {store : Store κ} {key other : κ} {slot : Slot}
    {view : Slot → Option τ} {content : τ} (hkey : key ≠ other)
    (h : (store key).Shows view content) :
    (Function.update store other slot key).Shows view content := by
  rw [Function.update_of_ne hkey]
  exact h

namespace Script

variable {κ α : Type} {env : Env} {store : Store κ} {key : κ} {E : Store κ → Prop}

theorem wp_sismember {Q : Bool → Store κ → Prop} {members : Finset String} {member : String}
    (hmembers : (store key).members = some members) (h : Q (decide (member ∈ members)) store) :
    Wp (sismember key member) env store Q E := by
  obtain ⟨table, htable, rfl⟩ := Option.map_eq_some_iff.mp hmembers
  refine wp_of_done (readKey_some htable) ?_
  rw [show (table.find member).isSome = decide (member ∈ (table.rows.map Prod.fst).toFinset) from ?_]
  · exact h
  · apply Bool.eq_iff_iff.mpr
    rw [decide_eq_true_eq, List.mem_toFinset]
    exact (table.mem_keys_iff member).symm

theorem wp_scard {Q : ℕ → Store κ → Prop} {members : Finset String}
    (hmembers : (store key).members = some members) (h : Q members.card store) :
    Wp (scard key) env store Q E := by
  obtain ⟨table, htable, rfl⟩ := Option.map_eq_some_iff.mp hmembers
  refine wp_of_done (readKey_some htable) ?_
  rwa [List.toFinset_card_of_nodup table.nodup, List.length_map] at h

theorem ranked_perm (scores : Table String ℤ) : (ranked scores).Perm scores.rows :=
  List.perm_insertionSort _ _

/-- The members that are found have scores up to the bound. -/
theorem wp_zrangeByScore {Q : List String → Store κ → Prop} {scores : String → Option ℤ} {max : ℤ}
    {count : ℕ} (hscores : (store key).scores = some scores)
    (h : ∀ members : List String, (∀ member ∈ members, ∃ score, scores member = some score ∧
      score ≤ max) → Q members store) : Wp (zrangeByScore key max count) env store Q E := by
  obtain ⟨table, htable, rfl⟩ := Option.map_eq_some_iff.mp hscores
  refine wp_of_done (readKey_some htable) (h _ fun member hmember => ?_)
  obtain ⟨row, hrow, rfl⟩ := List.mem_map.mp (List.mem_of_mem_take hmember)
  obtain ⟨hrow, hmax⟩ := List.mem_filter.mp hrow
  refine ⟨row.2, ?_, of_decide_eq_true hmax⟩
  exact (table.find_eq_some row.1 row.2).mpr ((ranked_perm table).mem_iff.mp hrow)

/-- When no member is counted, every score is beyond the bound. -/
theorem wp_zcount {Q : ℕ → Store κ → Prop} {scores : String → Option ℤ} {max : ℤ}
    (hscores : (store key).scores = some scores)
    (h : ∀ n, (n = 0 → ∀ member score, scores member = some score → max < score) → Q n store) :
    Wp (zcount key max) env store Q E := by
  obtain ⟨table, htable, rfl⟩ := Option.map_eq_some_iff.mp hscores
  refine wp_of_done (readKey_some htable) (h _ fun hzero member score hscore => ?_)
  have hcounted := (table.count_eq_zero _).mp hzero member score hscore
  exact Int.not_le.mp (of_decide_eq_false hcounted)

variable [DecidableEq κ]

theorem wp_hset_fields {Q : Unit → Store κ → Prop} {fields : String → Option String}
    {values : List (String × String)} (hfields : (store key).fields = some fields)
    (h : ∀ slot : Slot, slot.fields = some (Slot.written fields values) →
      ((store key).deadline = none → slot.deadline = none) →
        Q () (Function.update store key slot)) : Wp (hset key values) env store Q E := by
  obtain ⟨table, htable, rfl⟩ := Option.map_eq_some_iff.mp hfields
  refine wp_of_done (atKey_ok (by rw [htable])) (h _ ?_ fun hlasting => ?_)
  · rw [Slot.fields_writeHash, Slot.find_setAll]
  · exact Slot.deadline_writeHash hlasting _

theorem wp_hset {Q : Unit → Store κ → Prop} {fields : String → Option String}
    {values : List (String × String)} (hfields : (store key).Shows Slot.fields fields)
    (h : ∀ slot : Slot, slot.Shows Slot.fields (Slot.written fields values) →
      Q () (Function.update store key slot)) : Wp (hset key values) env store Q E :=
  wp_hset_fields hfields.view fun slot hslot hlasting => h slot ⟨hslot, hlasting hfields.lasting⟩

theorem wp_hdel_fields {Q : Unit → Store κ → Prop} {fields : String → Option String}
    {field : String} (hfields : (store key).fields = some fields)
    (h : ∀ slot : Slot, slot.fields = some (Function.update fields field none) →
      ((store key).deadline = none → slot.deadline = none) →
        Q () (Function.update store key slot)) : Wp (hdel key field) env store Q E := by
  obtain ⟨table, htable, rfl⟩ := Option.map_eq_some_iff.mp hfields
  refine wp_of_done (atKey_ok (by rw [htable])) (h _ ?_ fun hlasting => ?_)
  · rw [Slot.fields_writeHash]
    congr 1
    funext other
    rw [Table.find_erase, Function.update_apply]
  · exact Slot.deadline_writeHash hlasting _

theorem wp_sadd {Q : Unit → Store κ → Prop} {members : Finset String} {member : String}
    (hmembers : (store key).Shows Slot.members members)
    (h : ∀ slot : Slot, slot.Shows Slot.members (insert member members) →
      Q () (Function.update store key slot)) : Wp (sadd key member) env store Q E := by
  obtain ⟨table, htable, rfl⟩ := Option.map_eq_some_iff.mp hmembers.view
  refine wp_of_done (atKey_ok (by rw [htable])) (h _ ⟨?_, ?_⟩)
  · rw [Slot.members_writeSet]
    congr 1
    ext other
    rw [Finset.mem_insert, List.mem_toFinset, List.mem_toFinset, Table.mem_keys_iff,
      Table.mem_keys_iff, Table.find_set]
    by_cases hother : other = member
    · simp [hother]
    · simp [hother]
  · exact Slot.deadline_writeSet hmembers.lasting _

theorem wp_zadd_scores {Q : Unit → Store κ → Prop} {scores : String → Option ℤ} {score : ℤ}
    {member : String} (hscores : (store key).scores = some scores)
    (h : ∀ slot : Slot, slot.scores = some (Function.update scores member (some score)) →
      ((store key).deadline = none → slot.deadline = none) →
        Q () (Function.update store key slot)) : Wp (zadd key score member) env store Q E := by
  obtain ⟨table, htable, rfl⟩ := Option.map_eq_some_iff.mp hscores
  refine wp_of_done (atKey_ok (by rw [htable])) (h _ ?_ fun hlasting => ?_)
  · rw [Slot.scores_writeZset]
    congr 1
    funext other
    rw [Table.find_set, Function.update_apply]
  · exact Slot.deadline_writeZset hlasting _

theorem wp_zadd {Q : Unit → Store κ → Prop} {scores : String → Option ℤ} {score : ℤ}
    {member : String} (hscores : (store key).Shows Slot.scores scores)
    (h : ∀ slot : Slot, slot.Shows Slot.scores (Function.update scores member (some score)) →
      Q () (Function.update store key slot)) : Wp (zadd key score member) env store Q E :=
  wp_zadd_scores hscores.view fun slot hslot hlasting => h slot ⟨hslot, hlasting hscores.lasting⟩

theorem wp_zrem_scores {Q : Unit → Store κ → Prop} {scores : String → Option ℤ} {member : String}
    (hscores : (store key).scores = some scores)
    (h : ∀ slot : Slot, slot.scores = some (Function.update scores member none) →
      ((store key).deadline = none → slot.deadline = none) →
        Q () (Function.update store key slot)) : Wp (zrem key member) env store Q E := by
  obtain ⟨table, htable, rfl⟩ := Option.map_eq_some_iff.mp hscores
  refine wp_of_done (atKey_ok (by rw [htable])) (h _ ?_ fun hlasting => ?_)
  · rw [Slot.scores_writeZset]
    congr 1
    funext other
    rw [Table.find_erase, Function.update_apply]
  · exact Slot.deadline_writeZset hlasting _

theorem wp_zrem {Q : Unit → Store κ → Prop} {scores : String → Option ℤ} {member : String}
    (hscores : (store key).Shows Slot.scores scores)
    (h : ∀ slot : Slot, slot.Shows Slot.scores (Function.update scores member none) →
      Q () (Function.update store key slot)) : Wp (zrem key member) env store Q E :=
  wp_zrem_scores hscores.view fun slot hslot hlasting => h slot ⟨hslot, hlasting hscores.lasting⟩

theorem wp_rpush {Q : Unit → Store κ → Prop} {items : List String} {item : String}
    (hitems : (store key).Shows Slot.list items)
    (h : ∀ slot : Slot, slot.Shows Slot.list (items ++ [item]) →
      Q () (Function.update store key slot)) : Wp (rpush key item) env store Q E := by
  refine wp_of_done (atKey_ok (by rw [hitems.view])) (h _ ⟨?_, ?_⟩)
  · rw [Slot.list_writeList]
  · exact Slot.deadline_writeList hitems.lasting _

theorem wp_xadd {Q : Unit → Store κ → Prop} {stream : Stream} {maxlen : Option ℕ}
    {fields : List (String × String)} (hstream : (store key).Shows Slot.stream stream)
    (hroom : stream.exhausted = false)
    (h : ∀ slot : Slot, slot.Shows Slot.stream (stream.add env maxlen fields) →
      Q () (Function.update store key slot)) : Wp (xadd key maxlen fields) env store Q E := by
  have hslot : (Slot.write (store key) (.stream (stream.add env maxlen fields))).Shows Slot.stream
      (stream.add env maxlen fields) := ⟨Slot.stream_write _ _, hstream.lasting⟩
  refine wp_of_done (atKey_ok ?_) (h _ hslot)
  rw [hstream.view]
  dsimp only
  rw [hroom]
  rfl

/-- A natural number in a field moves by the amount, or the sum does not fit. -/
theorem wp_hincrby {Q : Unit → Store κ → Prop} {fields : String → Option String} {field : String}
    {n m : ℕ} {amount : ℤ} (hfields : (store key).Shows Slot.fields fields)
    (hfield : fields field = some (toString n)) (hsum : (n : ℤ) + amount = m)
    (hlarge : maxInt64 < n ∨ maxInt64 < m → E store)
    (h : ∀ slot : Slot, slot.Shows Slot.fields (Function.update fields field (some (toString m))) →
      Q () (Function.update store key slot)) : Wp (hincrby key field amount) env store Q E := by
  obtain ⟨table, htable, rfl⟩ := Option.map_eq_some_iff.mp hfields.view
  by_cases hfits : (n : ℤ) ≤ maxInt64 ∧ (m : ℤ) ≤ maxInt64
  · have hdone := increment_fits hfield hsum hfits.1 hfits.2
    refine wp_of_done (atKey_ok (by rw [htable]; dsimp only; rw [hdone])) (h _ ⟨?_, ?_⟩)
    · rw [Slot.fields_writeHash]
      congr 1
      funext other
      rw [Table.find_set, Function.update_apply]
    · exact Slot.deadline_writeHash hfields.lasting _
  · have hover : maxInt64 < (n : ℤ) ∨ maxInt64 < (m : ℤ) := by omega
    obtain ⟨error, herror⟩ := increment_large hfield hsum hover
    have hrun : hincrby key field amount env store = .raised error store :=
      atKey_error (by rw [htable]; dsimp only; rw [herror])
    unfold Wp
    rw [hrun]
    exact hlarge hover

end Script
end Redis
