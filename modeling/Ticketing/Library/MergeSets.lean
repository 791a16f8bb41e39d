import Mathlib.Data.List.Sort
import Mathlib.Order.Basic

/-!
# Set operations by merging

The difference and the intersection of two ranges as one walk over both computes them, which is
right for two ranges in the order of the walk. Here one of the two may be in any order: what the
walk finds is exactly what is not behind a greater entry there.
-/

namespace MergeSets

variable {α : Type*} [LinearOrder α] {x : α} {xs ys : List α}

def setDifference : List α → List α → List α
  | [], _ => []
  | x :: xs, [] => x :: xs
  | x :: xs, y :: ys =>
      if x < y then x :: setDifference xs (y :: ys)
      else if y < x then setDifference (x :: xs) ys
      else setDifference xs ys
termination_by xs ys => xs.length + ys.length

def setIntersection : List α → List α → List α
  | [], _ => []
  | _ :: _, [] => []
  | x :: xs, y :: ys =>
      if x < y then setIntersection xs (y :: ys)
      else if y < x then setIntersection (x :: xs) ys
      else x :: setIntersection xs ys
termination_by xs ys => xs.length + ys.length

/-- The entry stands in the list and no greater one stands before it. -/
def Reached (x : α) : List α → Prop
  | [] => False
  | y :: ys => y = x ∨ y < x ∧ Reached x ys

theorem Reached.mem (h : Reached x ys) : x ∈ ys := by
  induction ys with
  | nil => exact h.elim
  | cons y ys ih =>
      obtain rfl | ⟨-, htail⟩ := h
      · exact List.mem_cons_self
      · exact List.mem_cons_of_mem _ (ih htail)

theorem not_reached_of_lt {y : α} (h : x < y) : ¬Reached x (y :: ys) := by
  rintro (rfl | ⟨hlt, -⟩)
  · exact lt_irrefl _ h
  · exact lt_asymm h hlt

theorem reached_cons_of_lt {y : α} (h : y < x) : Reached x (y :: ys) ↔ Reached x ys := by
  refine ⟨?_, fun htail => Or.inr ⟨h, htail⟩⟩
  rintro (rfl | ⟨-, htail⟩)
  · exact absurd h (lt_irrefl _)
  · exact htail

/-- In a list that follows another order, the reached entries have no greater one before them. -/
theorem reached_iff {r : α → α → Prop} (hasymm : ∀ a b, r a b → ¬r b a) (hys : ys.Pairwise r) :
    Reached x ys ↔ x ∈ ys ∧ ∀ y ∈ ys, r y x → y < x := by
  induction ys with
  | nil => simp [Reached]
  | cons y ys ih =>
      obtain ⟨hahead, htail⟩ := List.pairwise_cons.mp hys
      constructor
      · rintro (rfl | ⟨hlt, hreached⟩)
        · refine ⟨List.mem_cons_self, fun z hz hrel => ?_⟩
          obtain rfl | hmem := List.mem_cons.mp hz
          · exact absurd hrel (hasymm _ _ hrel)
          · exact absurd hrel (hasymm _ _ (hahead z hmem))
        · obtain ⟨hmem, hbefore⟩ := (ih htail).mp hreached
          refine ⟨List.mem_cons_of_mem _ hmem, fun z hz hrel => ?_⟩
          obtain rfl | hin := List.mem_cons.mp hz
          · exact hlt
          · exact hbefore z hin hrel
      · rintro ⟨hmem, hbefore⟩
        obtain rfl | hin := List.mem_cons.mp hmem
        · exact Or.inl rfl
        · refine Or.inr ⟨hbefore y List.mem_cons_self (hahead x hin), (ih htail).mpr ⟨hin, ?_⟩⟩
          exact fun z hz => hbefore z (List.mem_cons_of_mem _ hz)

/-- The heads of an ascending list are below its other entries. -/
theorem lt_of_ascending {y : α} (hxs : (y :: xs).Pairwise (· < ·)) (h : x ∈ xs) : y < x :=
  (List.pairwise_cons.mp hxs).1 x h

theorem le_of_ascending {y : α} (hxs : (y :: xs).Pairwise (· < ·)) (h : x ∈ y :: xs) : y ≤ x := by
  obtain rfl | hmem := List.mem_cons.mp h
  · exact le_rfl
  · exact (lt_of_ascending hxs hmem).le

theorem mem_setIntersection (hxs : xs.Pairwise (· < ·)) :
    x ∈ setIntersection xs ys ↔ x ∈ xs ∧ Reached x ys := by
  fun_induction setIntersection xs ys with
  | case1 ys => simp
  | case2 y xs => simp [Reached]
  | case3 a xs b ys hlt ih =>
      rw [ih hxs.of_cons, List.mem_cons]
      refine and_congr_left fun hreached => ⟨Or.inr, ?_⟩
      rintro (rfl | hmem)
      · exact absurd hreached (not_reached_of_lt hlt)
      · exact hmem
  | case4 a xs b ys _ hlt ih =>
      rw [ih hxs]
      exact and_congr_right fun hmem =>
        (reached_cons_of_lt (hlt.trans_le (le_of_ascending hxs hmem))).symm
  | case5 a xs b ys hnot hnot' ih =>
      obtain rfl := le_antisymm (not_lt.mp hnot') (not_lt.mp hnot)
      rw [List.mem_cons, ih hxs.of_cons, List.mem_cons]
      constructor
      · rintro (rfl | ⟨hmem, hreached⟩)
        · exact ⟨Or.inl rfl, Or.inl rfl⟩
        · exact ⟨Or.inr hmem, Or.inr ⟨lt_of_ascending hxs hmem, hreached⟩⟩
      · rintro ⟨rfl | hmem, hreached⟩
        · exact Or.inl rfl
        · exact Or.inr ⟨hmem, (reached_cons_of_lt (lt_of_ascending hxs hmem)).mp hreached⟩

/-- Taking any list from an ascending one leaves what the walk does not reach. -/
theorem mem_setDifference (hxs : xs.Pairwise (· < ·)) :
    x ∈ setDifference xs ys ↔ x ∈ xs ∧ ¬Reached x ys := by
  fun_induction setDifference xs ys with
  | case1 ys => simp
  | case2 y xs => simp [Reached]
  | case3 a xs b ys hlt ih =>
      rw [List.mem_cons, ih hxs.of_cons, List.mem_cons]
      constructor
      · rintro (rfl | ⟨hmem, hreached⟩)
        · exact ⟨Or.inl rfl, not_reached_of_lt hlt⟩
        · exact ⟨Or.inr hmem, hreached⟩
      · rintro ⟨rfl | hmem, hreached⟩
        · exact Or.inl rfl
        · exact Or.inr ⟨hmem, hreached⟩
  | case4 a xs b ys _ hlt ih =>
      rw [ih hxs]
      exact and_congr_right fun hmem =>
        not_congr (reached_cons_of_lt (hlt.trans_le (le_of_ascending hxs hmem))).symm
  | case5 a xs b ys hnot hnot' ih =>
      obtain rfl := le_antisymm (not_lt.mp hnot') (not_lt.mp hnot)
      rw [ih hxs.of_cons, List.mem_cons]
      constructor
      · rintro ⟨hmem, hreached⟩
        exact ⟨Or.inr hmem, fun h =>
          hreached ((reached_cons_of_lt (lt_of_ascending hxs hmem)).mp h)⟩
      · rintro ⟨rfl | hmem, hreached⟩
        · exact absurd (Or.inl rfl) hreached
        · exact ⟨hmem, fun h => hreached (Or.inr ⟨lt_of_ascending hxs hmem, h⟩)⟩

/-- Taking an ascending list from any other one leaves the same entries unreached. -/
theorem mem_setDifference_ascending (hxs : xs.Pairwise (· < ·)) (hys : ys.Nodup) :
    x ∈ setDifference ys xs ↔ x ∈ ys ∧ ¬(x ∈ xs ∧ Reached x ys) := by
  fun_induction setDifference ys xs with
  | case1 xs => simp
  | case2 b ys => simp
  | case3 b ys a xs hlt ih =>
      have hsame : x ∈ a :: xs → (Reached x (b :: ys) ↔ Reached x ys) := fun hmem =>
        reached_cons_of_lt (hlt.trans_le (le_of_ascending hxs hmem))
      have hfirst : b ∉ a :: xs := fun hmem =>
        absurd (le_of_ascending hxs hmem) (not_le.mpr hlt)
      rw [List.mem_cons, ih hxs hys.of_cons, and_congr_right hsame, List.mem_cons (a := x) (b := b)]
      constructor
      · rintro (rfl | ⟨hmem, hleft⟩)
        · exact ⟨Or.inl rfl, fun h => hfirst h.1⟩
        · exact ⟨Or.inr hmem, hleft⟩
      · rintro ⟨rfl | hmem, hleft⟩
        · exact Or.inl rfl
        · exact Or.inr ⟨hmem, hleft⟩
  | case4 b ys a xs _ hlt ih =>
      rw [ih hxs.of_cons hys]
      refine and_congr_right fun _ => not_congr (and_congr_left fun hreached => ?_)
      rw [List.mem_cons]
      refine ⟨Or.inr, ?_⟩
      rintro (rfl | hmem)
      · exact absurd hreached (not_reached_of_lt hlt)
      · exact hmem
  | case5 b ys a xs hnot hnot' ih =>
      obtain rfl := le_antisymm (not_lt.mp hnot') (not_lt.mp hnot)
      obtain ⟨hnew, hrest⟩ := List.nodup_cons.mp hys
      rw [ih hxs.of_cons hrest, List.mem_cons]
      constructor
      · rintro ⟨hmem, hleft⟩
        refine ⟨Or.inr hmem, ?_⟩
        rintro ⟨hin, rfl | ⟨hlt, hreached⟩⟩
        · exact hnew hmem
        · exact hleft ⟨(List.mem_cons.mp hin).resolve_left hlt.ne', hreached⟩
      · rintro ⟨rfl | hmem, hleft⟩
        · exact absurd ⟨List.mem_cons_self, Or.inl rfl⟩ hleft
        · refine ⟨hmem, fun h => hleft ⟨List.mem_cons_of_mem _ h.1, Or.inr ⟨?_, h.2⟩⟩⟩
          exact lt_of_ascending hxs h.1

theorem setDifference_subset : setDifference xs ys ⊆ xs := by
  fun_induction setDifference xs ys with
  | case1 ys => exact List.Subset.refl _
  | case2 x xs => exact List.Subset.refl _
  | case3 x xs y ys _ ih => exact List.cons_subset_cons x ih
  | case4 x xs y ys _ _ ih => exact ih
  | case5 x xs y ys _ _ ih => exact List.subset_cons_of_subset x ih

theorem setIntersection_subset_right : setIntersection xs ys ⊆ ys := by
  fun_induction setIntersection xs ys with
  | case1 ys => exact List.nil_subset _
  | case2 x xs => exact List.nil_subset _
  | case3 x xs y ys _ ih => exact ih
  | case4 x xs y ys _ _ ih => exact List.subset_cons_of_subset y ih
  | case5 x xs y ys hnot hnot' ih =>
      obtain rfl := le_antisymm (not_lt.mp hnot') (not_lt.mp hnot)
      exact List.cons_subset_cons x ih

end MergeSets
