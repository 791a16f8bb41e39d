import Ticketing.Library.Redis

/-!
# The order of a stream

The ids of a stream grow and the last entry has the last id. An entry that is added comes after all
others, and trimming drops entries at the start but never the one that was added last.
-/

namespace Redis

/-- A stream that has been written to and takes further entries. -/
structure Stream.Sound (stream : Stream) : Prop where
  room : stream.exhausted = false
  sorted : (stream.entries.map StreamEntry.id).Pairwise (· < ·)
  last : (stream.entries.map StreamEntry.id).getLast? = some stream.lastId

namespace Stream

variable {stream : Stream}

theorem lastId_lt_nextId (stream : Stream) (now : ℕ) : stream.lastId < stream.nextId now :=
  lt_of_lt_of_le (Nat.lt_succ_self _) (le_max_right _ _)

theorem lastId_add (stream : Stream) (env : Env) (maxlen : Option ℕ)
    (fields : List (String × String)) :
    (stream.add env maxlen fields).lastId = stream.nextId env.now := rfl

/-- The entries after an addition end the list that has the new entry last. -/
theorem entries_add (stream : Stream) (env : Env) (maxlen : Option ℕ)
    (fields : List (String × String)) : (stream.add env maxlen fields).entries <:+
      stream.entries ++ [⟨stream.nextId env.now, fields⟩] := by
  cases maxlen with
  | none => exact List.suffix_refl _
  | some bound => exact List.drop_suffix _ _

theorem entries_add_ne_nil (stream : Stream) (env : Env) {maxlen : Option ℕ}
    (h : maxlen ≠ some 0) (fields : List (String × String)) :
    (stream.add env maxlen fields).entries ≠ [] := by
  cases maxlen with
  | none => exact List.append_ne_nil_of_right_ne_nil _ (List.cons_ne_nil _ _)
  | some bound =>
      intro hempty
      have hlength := List.drop_eq_nil_iff.mp hempty
      have hbound : bound ≠ 0 := fun hzero => h (congrArg some hzero)
      rw [List.length_append, List.length_singleton] at hlength
      have hmin := hlength.trans (min_le_right _ _)
      omega

namespace Sound

theorem id_le (h : stream.Sound) {entry : StreamEntry} (hentry : entry ∈ stream.entries) :
    entry.id ≤ stream.lastId := by
  have hsorted := h.sorted
  obtain ⟨front, hfront⟩ := List.getLast?_eq_some_iff.mp h.last
  have hmem := List.mem_map_of_mem (f := StreamEntry.id) hentry
  rw [hfront] at hsorted hmem
  rcases List.mem_append.mp hmem with hold | hlast
  · exact (List.pairwise_append.mp hsorted).2.2 _ hold _ (List.mem_singleton_self _) |>.le
  · exact (List.mem_singleton.mp hlast).le

theorem entries_ne_nil (h : stream.Sound) : stream.entries ≠ [] := by
  intro hempty
  have hlast := h.last
  rw [hempty] at hlast
  cases hlast

theorem add (h : stream.Sound) (env : Env) {maxlen : Option ℕ} (hmaxlen : maxlen ≠ some 0)
    (fields : List (String × String)) : (stream.add env maxlen fields).Sound := by
  have hsorted : ((stream.entries ++ [(⟨stream.nextId env.now, fields⟩ : StreamEntry)]).map
      StreamEntry.id).Pairwise (· < ·) := by
    rw [List.map_append, List.pairwise_append]
    refine ⟨h.sorted, List.pairwise_singleton _ _, fun id hid id' hid' => ?_⟩
    obtain ⟨entry, hentry, rfl⟩ := List.mem_map.mp hid
    obtain rfl := List.mem_singleton.mp hid'
    exact lt_of_le_of_lt (h.id_le hentry) (stream.lastId_lt_nextId env.now)
  have hsuffix := (stream.entries_add env maxlen fields).map StreamEntry.id
  have hne := stream.entries_add_ne_nil env hmaxlen fields
  refine ⟨rfl, hsorted.sublist hsuffix.sublist, ?_⟩
  obtain ⟨dropped, hdropped⟩ := hsuffix
  have hlast := congrArg List.getLast? hdropped
  rw [List.getLast?_append_of_ne_nil _ (fun hnil => hne (List.map_eq_nil_iff.mp hnil)),
    List.map_append, List.map_singleton, List.getLast?_append_of_ne_nil _ (List.cons_ne_nil _ _)]
    at hlast
  exact hlast

end Sound

/-- A stream with a first entry and nothing else. -/
theorem sound_first (env : Env) (fields : List (String × String)) :
    (add ⟨[], 0, false⟩ env none fields).Sound where
  room := rfl
  sorted := List.pairwise_singleton _ _
  last := rfl

end Stream
end Redis
