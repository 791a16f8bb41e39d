import Ticketing.Library.Redis

/-!
# Canonical decimals

The text of a natural number is its digits without a leading zero. Reading and printing are inverse
to each other, and of two such texts the longer one, or the later one among texts of one length, is
the greater number.
-/

namespace Redis

theorem head_toDigits (n : ℕ) (h : n ≠ 0) : (Nat.toDigits 10 n).head? ≠ some '0' := by
  induction n using Nat.strong_induction_on with
  | _ n ih =>
      by_cases hn : n < 10
      · rw [Nat.toDigits_of_lt_base hn]
        simpa using h
      · rw [Nat.toDigits_of_base_le (by decide) (Nat.le_of_not_lt hn)]
        have hquotient := ih (n / 10) (by omega) (by omega)
        rwa [List.head?_append_of_ne_nil _ Nat.toDigits_ne_nil]

theorem digits_toDigits (n : ℕ) : digits (Nat.toDigits 10 n) = true := by
  have hall : ∀ c ∈ Nat.toDigits 10 n, c.isDigit = true := fun c hc =>
    Nat.isDigit_of_mem_toDigits (by decide) (by decide) hc
  cases hcs : Nat.toDigits 10 n with
  | nil => exact absurd hcs Nat.toDigits_ne_nil
  | cons c cs =>
      rw [hcs] at hall
      exact List.all_eq_true.mpr hall

theorem natural_toDigits (n : ℕ) : natural (Nat.toDigits 10 n) = some n := by
  unfold natural
  rw [if_pos, Nat.ofDigitChars_ten_toDigits]
  refine ⟨digits_toDigits n, ?_⟩
  by_cases h : n = 0
  · subst h
    exact Or.inr rfl
  · exact Or.inl (head_toDigits n h)

theorem toList_toString (n : ℕ) : (toString n).toList = Nat.toDigits 10 n := by
  simp

theorem natural_toString (n : ℕ) : natural (toString n).toList = some n := by
  rw [toList_toString, natural_toDigits]

theorem all_of_digits {cs : List Char} (h : digits cs = true) : ∀ c ∈ cs, c.isDigit = true := by
  cases cs with
  | nil => cases h
  | cons c cs => exact List.all_eq_true.mp h

theorem digit_bounds {c : Char} (h : c.isDigit = true) : 48 ≤ c.toNat ∧ c.toNat ≤ 57 := by
  simp only [Char.isDigit, Bool.and_eq_true, decide_eq_true_eq] at h
  exact ⟨UInt32.le_iff_toNat_le.mp h.1, UInt32.le_iff_toNat_le.mp h.2⟩

theorem toDigits_digit {c : Char} (h : c.isDigit = true) : Nat.toDigits 10 (c.toNat - 48) = [c] := by
  have hbounds := digit_bounds h
  have hcode : (Nat.digitChar (c.toNat - 48)).toNat = c.toNat := by
    have hread := Nat.toNat_digitChar_sub_48_of_lt_ten (n := c.toNat - 48) (by omega)
    have hdigit : (Nat.digitChar (c.toNat - 48)).isDigit = true :=
      Nat.isDigit_of_mem_toDigits (b := 10) (n := c.toNat - 48) (by decide) (by decide)
        (by rw [Nat.toDigits_of_lt_base (by omega)]; exact List.mem_singleton_self _)
    have hrange := digit_bounds hdigit
    omega
  rw [Nat.toDigits_of_lt_base (by omega), Char.toNat_inj.mp hcode]

/-- A canonical decimal is the text of the number it is read as. -/
theorem eq_toDigits_of_natural {cs : List Char} {n : ℕ} (h : natural cs = some n) :
    cs = Nat.toDigits 10 n := by
  unfold natural at h
  split_ifs at h with hcanonical
  obtain rfl := Option.some.inj h
  obtain ⟨hdigits, hhead⟩ := hcanonical
  have hall := all_of_digits hdigits
  clear h
  induction cs using List.reverseRecOn with
  | nil => cases hdigits
  | append_singleton cs c ih =>
      have hdigit : c.isDigit = true := hall c (by simp)
      have hbounds := digit_bounds hdigit
      have hlast : Nat.ofDigitChars 10 (cs ++ [c]) 0 =
          10 * Nat.ofDigitChars 10 cs 0 + (c.toNat - 48) := by
        rw [Nat.ofDigitChars_append]
        rfl
      cases cs with
      | nil =>
          rw [hlast, Nat.ofDigitChars_nil, Nat.mul_zero, Nat.zero_add, toDigits_digit hdigit]
          rfl
      | cons first rest =>
          have hfirst : first ≠ '0' := by
            rcases hhead with hhead | hhead
            · exact fun hzero => hhead (by rw [hzero]; rfl)
            · have hlength := congrArg List.length hhead
              simp at hlength
          have hprefix := ih (List.all_eq_true.mpr fun d hd => hall d (List.mem_append_left _ hd))
            (Or.inl fun hzero => hfirst (Option.some.inj hzero))
            (fun d hd => hall d (List.mem_append_left _ hd))
          have hpositive : 0 < Nat.ofDigitChars 10 (first :: rest) 0 := by
            apply Nat.pos_of_ne_zero
            intro hzero
            rw [hzero] at hprefix
            exact hfirst (List.cons.inj hprefix).1
          rw [hlast, ← Nat.toDigits_append_toDigits (by decide) hpositive (by omega), ← hprefix,
            toDigits_digit hdigit]

theorem eq_toString_of_natural {text : String} {n : ℕ} (h : natural text.toList = some n) :
    text = toString n := by
  apply String.toList_injective
  rw [toList_toString]
  exact eq_toDigits_of_natural h

/-- Among digits of one length the order of the texts is that of the numbers. -/
theorem lt_iff_ofDigitChars {as bs : List Char} (ha : ∀ c ∈ as, c.isDigit = true)
    (hb : ∀ c ∈ bs, c.isDigit = true) (hlength : as.length = bs.length) :
    as < bs ↔ Nat.ofDigitChars 10 as 0 < Nat.ofDigitChars 10 bs 0 := by
  have hvalue (c : Char) (cs : List Char) : Nat.ofDigitChars 10 (c :: cs) 0 =
      10 ^ cs.length * (c.toNat - 48) + Nat.ofDigitChars 10 cs 0 := by
    rw [Nat.ofDigitChars_cons, Nat.ofDigitChars_eq_ofDigitChars_zero, Nat.mul_zero, Nat.zero_add]
    rfl
  have hsmall (cs : List Char) (hcs : ∀ c ∈ cs, c.isDigit = true) :
      Nat.ofDigitChars 10 cs 0 < 10 ^ cs.length := by
    induction cs with
    | nil => decide
    | cons c cs ih =>
        have hrest := ih fun d hd => hcs d (List.mem_cons_of_mem c hd)
        have hbounds := digit_bounds (hcs c List.mem_cons_self)
        have hdigit : 10 ^ cs.length * (c.toNat - 48) ≤ 10 ^ cs.length * 9 :=
          Nat.mul_le_mul_left _ (by omega)
        rw [hvalue, List.length_cons, Nat.pow_succ]
        omega
  induction as generalizing bs with
  | nil =>
      obtain rfl : bs = [] := List.eq_nil_of_length_eq_zero hlength.symm
      simp
  | cons a as ih =>
      cases bs with
      | nil => cases hlength
      | cons b bs =>
          have hlengths : as.length = bs.length := Nat.succ.inj hlength
          have htail : as < bs ↔ Nat.ofDigitChars 10 as 0 < Nat.ofDigitChars 10 bs 0 := ih (fun c hc => ha c (List.mem_cons_of_mem a hc))
            (fun c hc => hb c (List.mem_cons_of_mem b hc)) hlengths
          have hsmalla := hsmall as fun c hc => ha c (List.mem_cons_of_mem a hc)
          have hsmallb := hsmall bs fun c hc => hb c (List.mem_cons_of_mem b hc)
          have ha' := digit_bounds (ha a List.mem_cons_self)
          have hb' := digit_bounds (hb b List.mem_cons_self)
          rw [List.cons_lt_cons_iff, hvalue, hvalue, hlengths, htail]
          rw [hlengths] at hsmalla
          rcases lt_trichotomy a.toNat b.toNat with hlt | heq | hgt
          · have hscaled : 10 ^ bs.length * (a.toNat - 48 + 1) ≤ 10 ^ bs.length * (b.toNat - 48) :=
              Nat.mul_le_mul_left _ (by omega)
            rw [Nat.mul_add] at hscaled
            exact iff_of_true (Or.inl hlt) (by omega)
          · obtain rfl := Char.toNat_inj.mp heq
            simp
          · have hscaled : 10 ^ bs.length * (b.toNat - 48 + 1) ≤ 10 ^ bs.length * (a.toNat - 48) :=
              Nat.mul_le_mul_left _ (by omega)
            rw [Nat.mul_add] at hscaled
            refine iff_of_false ?_ (by omega)
            rintro (hless | ⟨rfl, -⟩)
            · exact absurd hless (Nat.lt_asymm hgt)
            · exact absurd hgt (Nat.lt_irrefl _)

/-- Without leading zeros the longer text is the greater number. -/
theorem lt_of_length_lt {m n : ℕ}
    (h : (Nat.toDigits 10 m).length < (Nat.toDigits 10 n).length) : m < n := by
  have hm : m < 10 ^ (Nat.toDigits 10 m).length :=
    (Nat.length_toDigits_le_iff (by decide) Nat.length_toDigits_pos).mp le_rfl
  have hn : ¬ n < 10 ^ (Nat.toDigits 10 m).length := fun hless =>
    Nat.not_lt.mpr ((Nat.length_toDigits_le_iff (by decide) Nat.length_toDigits_pos).mpr hless) h
  omega

/-- A natural number is read back from its text. -/
theorem integer_toString {n : ℕ} (h : (n : ℤ) ≤ maxInt64) : integer (toString n) = some (n : ℤ) := by
  have hfits : minInt64 ≤ (n : ℤ) ∧ (n : ℤ) ≤ maxInt64 := by
    refine ⟨?_, h⟩
    unfold minInt64
    omega
  have hdigits := all_of_digits (digits_toDigits n)
  unfold integer
  rw [toList_toString]
  split
  · rename_i cs hcs
    rw [hcs] at hdigits
    exact absurd (hdigits '-' List.mem_cons_self) (by decide)
  · rw [natural_toDigits]
    exact Option.filter_eq_some_iff.mpr ⟨rfl, decide_eq_true hfits⟩

theorem integer_of_large {n : ℕ} (h : maxInt64 < (n : ℤ)) : integer (toString n) = none := by
  have hdigits := all_of_digits (digits_toDigits n)
  unfold integer
  rw [toList_toString]
  split
  · rename_i cs hcs
    rw [hcs] at hdigits
    exact absurd (hdigits '-' List.mem_cons_self) (by decide)
  · rw [natural_toDigits]
    exact Option.filter_eq_none_iff.mpr fun m hm => by
      obtain rfl := Option.some.inj hm
      simp [h]

end Redis
