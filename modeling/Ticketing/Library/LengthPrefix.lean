import Mathlib.Data.Int.Basic
import Mathlib.Data.List.Basic

/-!
# Texts of length-prefixed fields

A field is the decimal number of its bytes, a colon and its bytes. A text that joins such fields
after one another is read back in one way only.
-/

namespace LengthPrefix

def field (value : String) : String := toString value.utf8ByteSize ++ ":" ++ value

def fields (values : List String) : List Char := values.flatMap fun value => (field value).toList

variable {value value' : String} {rest rest' : List Char}

theorem digits_injective {m n : ℕ} (h : Nat.toDigits 10 m = Nat.toDigits 10 n) : m = n := by
  have hread := congrArg (fun digits => Nat.ofDigitChars 10 digits 0) h
  simpa only [Nat.ofDigitChars_ten_toDigits] using hread

theorem colon_notMem_digits (n : ℕ) : ':' ∉ Nat.toDigits 10 n := fun h => by
  have hdigit := Nat.isDigit_of_mem_toDigits (by decide) (by decide) h
  exact absurd hdigit (by decide)

theorem dash_notMem_digits (n : ℕ) : '-' ∉ Nat.toDigits 10 n := fun h => by
  have hdigit := Nat.isDigit_of_mem_toDigits (by decide) (by decide) h
  exact absurd hdigit (by decide)

theorem field_toList (value : String) :
    (field value).toList = Nat.toDigits 10 value.utf8ByteSize ++ ':' :: value.toList := by
  simp [field, String.toList_append, Nat.toString_eq_repr, Nat.toList_repr]

/-- Lists before the first occurrence of a separator are equal. -/
theorem split_at {c : Char} {xs ys as bs : List Char} (hxs : c ∉ xs) (hys : c ∉ ys)
    (h : xs ++ c :: as = ys ++ c :: bs) : xs = ys ∧ as = bs := by
  induction xs generalizing ys with
  | nil =>
      cases ys with
      | nil => exact ⟨rfl, by simpa using h⟩
      | cons y ys => exact absurd (List.cons.inj h).1 (List.ne_of_not_mem_cons hys)
  | cons x xs ih =>
      cases ys with
      | nil => exact absurd (List.cons.inj h).1.symm (List.ne_of_not_mem_cons hxs)
      | cons y ys =>
          obtain ⟨rfl, htail⟩ := List.cons.inj h
          obtain ⟨rfl, hrest⟩ := ih (List.not_mem_of_not_mem_cons hxs)
            (List.not_mem_of_not_mem_cons hys) htail
          exact ⟨rfl, hrest⟩

theorem eq_of_prefix {tail : List Char} (hsize : value.utf8ByteSize = value'.utf8ByteSize)
    (h : value'.toList = value.toList ++ tail) : tail = [] := by
  have hjoin : value' = value ++ String.ofList tail := by
    rw [← String.toList_inj, String.toList_append, String.toList_ofList, h]
  have hzero : (String.ofList tail).utf8ByteSize = 0 := by
    rw [hjoin, String.utf8ByteSize_append] at hsize
    omega
  have hempty := String.utf8ByteSize_eq_zero_iff.mp hzero
  simpa using congrArg String.toList hempty

/-- Values of one size at the head of one text are equal. -/
theorem eq_of_size (hsize : value.utf8ByteSize = value'.utf8ByteSize)
    (h : value.toList ++ rest = value'.toList ++ rest') : value = value' ∧ rest = rest' := by
  obtain ⟨tail, hvalue, hrest⟩ | ⟨tail, hvalue, hrest⟩ := List.append_eq_append_iff.mp h
  · obtain rfl := eq_of_prefix hsize hvalue
    rw [List.append_nil] at hvalue
    exact ⟨(String.toList_inj.mp hvalue).symm, hrest⟩
  · obtain rfl := eq_of_prefix hsize.symm hvalue
    rw [List.append_nil] at hvalue
    exact ⟨String.toList_inj.mp hvalue, hrest.symm⟩

theorem field_append_inj (h : (field value).toList ++ rest = (field value').toList ++ rest') :
    value = value' ∧ rest = rest' := by
  rw [field_toList, field_toList, List.append_assoc, List.append_assoc, List.cons_append,
    List.cons_append] at h
  obtain ⟨hdigits, hvalues⟩ := split_at (colon_notMem_digits _) (colon_notMem_digits _) h
  exact eq_of_size (digits_injective hdigits) hvalues

theorem field_ne_nil (value : String) : (field value).toList ≠ [] := by
  rw [field_toList]
  simp

theorem fields_injective {xs ys : List String} (h : fields xs = fields ys) : xs = ys := by
  induction xs generalizing ys with
  | nil =>
      cases ys with
      | nil => rfl
      | cons y ys =>
          rw [fields, fields, List.flatMap_nil, List.flatMap_cons, eq_comm,
            List.append_eq_nil_iff] at h
          exact absurd h.1 (field_ne_nil y)
  | cons x xs ih =>
      cases ys with
      | nil =>
          rw [fields, fields, List.flatMap_nil, List.flatMap_cons, List.append_eq_nil_iff] at h
          exact absurd h.1 (field_ne_nil x)
      | cons y ys =>
          obtain ⟨rfl, htail⟩ := field_append_inj h
          rw [ih htail]

/-- Appending the fields one by one to a text that all texts start with. -/
theorem foldl_toList (start : String) (values : List String) :
    (values.foldl (fun text value => text ++ field value) start).toList =
      start.toList ++ fields values := by
  induction values generalizing start with
  | nil => simp [fields]
  | cons value values ih => simp [ih, fields, String.toList_append]

theorem foldl_injective {start : String} {xs ys : List String}
    (h : xs.foldl (fun text value => text ++ field value) start =
      ys.foldl (fun text value => text ++ field value) start) : xs = ys := by
  have hchars := congrArg String.toList h
  rw [foldl_toList, foldl_toList] at hchars
  exact fields_injective (List.append_cancel_left hchars)

/-! ## Decimal numbers -/

theorem nat_toString_injective {m n : ℕ} (h : toString m = toString n) : m = n := by
  have hdigits := congrArg String.toList h
  rw [Nat.toString_eq_repr, Nat.toString_eq_repr, Nat.toList_repr, Nat.toList_repr] at hdigits
  exact digits_injective hdigits

end LengthPrefix
