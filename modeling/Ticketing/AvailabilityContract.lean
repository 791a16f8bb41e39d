import Ticketing.Library.Settings
import Ticketing.SeatModelReads

/-!
# What a browser accepts

The server sends an answer as JSON, and a browser checks all of it before it uses any of it. A cursor
is printed by Redis, checked by a browser, sent back, checked by the server and read by Redis again.
-/

namespace Ticketing.Availability

open Redis
open JsonCpp (Setting)

namespace SeatReadConfig

def fields : List (Setting SeatReadConfig) :=
  [⟨"layout_max_age_seconds", maxAge, fun c n => { c with maxAge := n }, 0, 600⟩,
    ⟨"layout_stale_seconds", staleWhileRevalidate,
      fun c n => { c with staleWhileRevalidate := n }, 0, 60⟩,
    ⟨"snapshot_poll_ms", snapshotMs, fun c n => { c with snapshotMs := n }, 500, 30000⟩,
    ⟨"changed_poll_ms", changedMs, fun c n => { c with changedMs := n }, 500, 30000⟩,
    ⟨"empty_poll_ms", emptyMs, fun c n => { c with emptyMs := n }, 500, 30000⟩,
    ⟨"degraded_poll_ms", degradedMs, fun c n => { c with degradedMs := n }, 500, 30000⟩]

def parse : JsonCpp.Value → Except String SeatReadConfig
  | .null => .ok {}
  | .object members =>
      if members.any fun member => !Setting.known fields member.1 then
        .error "Unknown seat_read setting"
      else
        match fields.foldlM (Setting.read "Invalid seat_read integer" members) {} with
        | .error e => .error e
        | .ok c =>
            if c.emptyMs < c.changedMs ∨ c.degradedMs < c.emptyMs then
              .error "Invalid seat_read polling order"
            else .ok c
  | _ => .error "seat_read must be an object"

def Bounded (c : SeatReadConfig) : Prop := Setting.Bounded fields c

theorem separate_fields : Setting.Separate fields where
  nonneg := by
    intro field h
    simp only [fields, List.mem_cons, List.not_mem_nil, or_false] at h
    rcases h with rfl | rfl | rfl | rfl | rfl | rfl <;> decide
  stored := by
    intro field h other hother c n
    simp only [fields, List.mem_cons, List.not_mem_nil, or_false] at h hother
    rcases h with rfl | rfl | rfl | rfl | rfl | rfl <;>
      rcases hother with rfl | rfl | rfl | rfl | rfl | rfl <;>
        first
          | exact Or.inl ⟨rfl, rfl⟩
          | exact Or.inr rfl

theorem bounded_default : Bounded {} := by
  intro field h
  simp only [fields, List.mem_cons, List.not_mem_nil, or_false] at h
  rcases h with rfl | rfl | rfl | rfl | rfl | rfl <;> decide

theorem parse_bounded {v : JsonCpp.Value} {c : SeatReadConfig} (h : parse v = .ok c) : c.Bounded := by
  unfold parse at h
  split at h
  · cases h
    exact bounded_default
  · split_ifs at h with hunknown
    split at h
    · cases h
    · rename_i settings hread
      split_ifs at h with horder
      cases h
      exact Setting.bounded_settings separate_fields bounded_default hread
  · cases h

/-- A browser is never told to come back at once or much later, unless there is more to read. -/
theorem Bounded.pollAfter {c : SeatReadConfig} (h : c.Bounded) (mode : String) (count : ℕ) :
    500 ≤ Availability.pollAfter c false mode count ∧
      Availability.pollAfter c false mode count ≤ 30000 := by
  have hsnapshot := h ⟨"snapshot_poll_ms", snapshotMs, _, 500, 30000⟩ (by simp [fields]; rfl)
  have hchanged := h ⟨"changed_poll_ms", changedMs, _, 500, 30000⟩ (by simp [fields]; rfl)
  have hempty := h ⟨"empty_poll_ms", emptyMs, _, 500, 30000⟩ (by simp [fields]; rfl)
  dsimp only at hsnapshot hchanged hempty
  unfold Availability.pollAfter
  rw [if_neg Bool.false_ne_true]
  split_ifs <;> omega

theorem Bounded.degraded {c : SeatReadConfig} (h : c.Bounded) :
    500 ≤ c.degradedMs ∧ c.degradedMs ≤ 30000 := by
  have hfield := h ⟨"degraded_poll_ms", degradedMs, _, 500, 30000⟩ (by simp [fields]; rfl)
  dsimp only at hfield
  omega

end SeatReadConfig

section Cursors

/-- What is before and after the first hyphen. -/
def splitAtHyphen (value : String) : Option (List Char × List Char) :=
  match value.toList.dropWhile fun c => decide (c ≠ '-') with
  | [] => none
  | _ :: back => some (value.toList.takeWhile fun c => decide (c ≠ '-'), back)

/-- A part without a leading zero that `std::from_chars` reads to its end. -/
def validPart (part : List Char) : Bool :=
  decide (¬ (1 < part.length ∧ part.head? = some '0')) && digits part &&
    decide (tonumber part < 2 ^ 64)

/-- What the server accepts as `since`. -/
def validCursor (value : String) : Bool :=
  match splitAtHyphen value with
  | some (front, back) =>
      decide (front ≠ [] ∧ back ≠ []) && validPart front && validPart back
  | none => false

/-- A zero, or a digit that is not zero and then any digits. -/
def numeral : List Char → Bool
  | [] => false
  | c :: cs => decide (c = '0' ∧ cs = []) || decide (c ≠ '0') && c.isDigit && cs.all Char.isDigit

/-- What a browser accepts as a cursor. -/
def cursorPattern (value : String) : Bool :=
  match splitAtHyphen value with
  | some (front, back) => numeral front && numeral back
  | none => false

theorem splitAtHyphen_append {front : List Char} (h : ∀ c ∈ front, c.isDigit = true)
    (back : List Char) : splitAtHyphen (String.ofList (front ++ '-' :: back)) =
      some (front, back) := by
  have hfront : ∀ c ∈ front, decide (c ≠ '-') = true := by
    intro c hc
    refine decide_eq_true fun hsame => ?_
    have hdigit := h c hc
    rw [hsame] at hdigit
    exact absurd hdigit (by decide)
  unfold splitAtHyphen
  rw [String.toList_ofList, List.dropWhile_append_of_pos hfront, List.takeWhile_append_of_pos hfront]
  simp

theorem splitAtHyphen_eq {value : String} {front back : List Char}
    (h : splitAtHyphen value = some (front, back)) : value.toList = front ++ '-' :: back := by
  unfold splitAtHyphen at h
  split at h
  · cases h
  · rename_i c rest hdrop
    obtain ⟨rfl, rfl⟩ := Prod.mk.inj (Option.some.inj h)
    have hhead : c = '-' := by
      have hnot := List.head_dropWhile_not (fun c => decide (c ≠ '-')) (l := value.toList)
        (by rw [hdrop]; exact List.cons_ne_nil _ _)
      simp only [hdrop, List.head_cons] at hnot
      simpa using hnot
    have hsplit := List.takeWhile_append_dropWhile (p := fun c => decide (c ≠ '-')) (l := value.toList)
    rw [hdrop, hhead] at hsplit
    exact hsplit.symm

theorem natural_iff {part : List Char} {n : ℕ} :
    natural part = some n ↔ part = Nat.toDigits 10 n := by
  constructor
  · exact eq_toDigits_of_natural
  · rintro rfl
    exact natural_toDigits n

/-- A canonical decimal has no leading zero, unless it is zero. -/
theorem canonical_iff {c : Char} {cs : List Char} :
    (¬ (1 < (c :: cs).length ∧ (c :: cs).head? = some '0')) ↔
      (c :: cs).head? ≠ some '0' ∨ c :: cs = ['0'] := by
  by_cases hzero : c = '0'
  · subst hzero
    cases cs <;> simp
  · simp [hzero]

theorem validPart_iff {part : List Char} :
    validPart part = true ↔ ∃ n < 2 ^ 64, part = Nat.toDigits 10 n := by
  cases part with
  | nil => exact iff_of_false (by decide) fun ⟨n, _, h⟩ => Nat.toDigits_ne_nil h.symm
  | cons c cs =>
      unfold validPart
      rw [Bool.and_eq_true_iff, Bool.and_eq_true_iff, decide_eq_true_iff, decide_eq_true_iff,
        canonical_iff]
      constructor
      · rintro ⟨⟨hcanonical, hdigits⟩, hsmall⟩
        exact ⟨tonumber (c :: cs), hsmall, natural_iff.mp (if_pos ⟨hdigits, hcanonical⟩)⟩
      · rintro ⟨n, hsmall, hpart⟩
        have hread := natural_iff.mpr hpart
        unfold natural at hread
        split_ifs at hread with hcanonical
        refine ⟨⟨hcanonical.2, hcanonical.1⟩, ?_⟩
        rw [show tonumber (c :: cs) = n from Option.some.inj hread]
        exact hsmall

theorem numeral_iff {part : List Char} :
    numeral part = true ↔ ∃ n, part = Nat.toDigits 10 n := by
  have hnatural : numeral part = true ↔
      digits part = true ∧ (part.head? ≠ some '0' ∨ part = ['0']) := by
    cases part with
    | nil => simp [numeral, digits]
    | cons c cs =>
        by_cases hzero : c = '0'
        · subst hzero
          cases cs <;> simp [numeral, digits]
        · simp [numeral, digits, hzero]
  rw [hnatural]
  constructor
  · intro hcanonical
    exact ⟨tonumber part, natural_iff.mp (if_pos hcanonical)⟩
  · rintro ⟨n, hpart⟩
    have hread := natural_iff.mpr hpart
    unfold natural at hread
    split_ifs at hread with hcanonical
    exact hcanonical

theorem splitAtHyphen_streamText (id : ℕ) : splitAtHyphen (streamText id) =
    some (Nat.toDigits 10 (id / 2 ^ 64), Nat.toDigits 10 (id % 2 ^ 64)) := by
  rw [← splitAtHyphen_append (all_of_digits (digits_toDigits _)), ← toList_streamText,
    String.ofList_toList]

theorem cursorPattern_streamText (id : ℕ) : cursorPattern (streamText id) = true := by
  unfold cursorPattern
  rw [splitAtHyphen_streamText]
  exact Bool.and_eq_true_iff.mpr ⟨numeral_iff.mpr ⟨_, rfl⟩, numeral_iff.mpr ⟨_, rfl⟩⟩

theorem streamId_of_lt {id : ℕ} (h : id < 2 ^ 128) : streamId (streamText id) = some id := by
  have hhigh : id / 2 ^ 64 < 2 ^ 64 := Nat.div_lt_of_lt_mul (by omega)
  have hlow : id % 2 ^ 64 < 2 ^ 64 := Nat.mod_lt _ (by decide)
  have hread (n : ℕ) : tonumber (Nat.toDigits 10 n) = n := Nat.ofDigitChars_ten_toDigits
  unfold streamId
  rw [cursorParts_streamText]
  dsimp only
  rw [hread, hread, if_pos ⟨hhigh, hlow⟩]
  unfold firstId
  rw [Nat.mul_comm, Nat.div_add_mod]

/-- A text of two canonical decimals is the text of an id. -/
theorem eq_streamText {value : String} {ms seq : ℕ} (hseq : seq < 2 ^ 64)
    (h : value.toList = Nat.toDigits 10 ms ++ '-' :: Nat.toDigits 10 seq) :
    value = streamText (ms * 2 ^ 64 + seq) := by
  apply String.toList_injective
  rw [h, toList_streamText]
  congr 2
  · omega
  · congr 2
    omega

theorem validCursor_iff {value : String} :
    validCursor value = true ↔ ∃ id < 2 ^ 128, value = streamText id := by
  constructor
  · intro hvalid
    unfold validCursor at hvalid
    cases hsplit : splitAtHyphen value with
    | none =>
        rw [hsplit] at hvalid
        cases hvalid
    | some parts =>
        obtain ⟨front, back⟩ := parts
        rw [hsplit] at hvalid
        dsimp only at hvalid
        rw [Bool.and_eq_true_iff, Bool.and_eq_true_iff] at hvalid
        obtain ⟨ms, hms, rfl⟩ := validPart_iff.mp hvalid.1.2
        obtain ⟨seq, hseq, rfl⟩ := validPart_iff.mp hvalid.2
        exact ⟨ms * 2 ^ 64 + seq, by omega, eq_streamText hseq (splitAtHyphen_eq hsplit)⟩
  · rintro ⟨id, hid, rfl⟩
    unfold validCursor
    rw [splitAtHyphen_streamText]
    dsimp only
    rw [Bool.and_eq_true_iff, Bool.and_eq_true_iff]
    have hhigh : id / 2 ^ 64 < 2 ^ 64 := Nat.div_lt_of_lt_mul (by omega)
    have hlow : id % 2 ^ 64 < 2 ^ 64 := Nat.mod_lt _ (by decide)
    exact ⟨⟨decide_eq_true ⟨Nat.toDigits_ne_nil, Nat.toDigits_ne_nil⟩,
      validPart_iff.mpr ⟨_, hhigh, rfl⟩⟩, validPart_iff.mpr ⟨_, hlow, rfl⟩⟩

/-- The server accepts exactly the texts of the ids that a stream can have: those that a browser
accepts and Redis can read. Redis reads back the id that it has printed. -/
theorem cursors_agree (value : String) :
    (validCursor value = true ↔ cursorPattern value = true ∧ (streamId value).isSome = true) ∧
      (validCursor value = true ↔
        ∃ id < 2 ^ 128, value = streamText id ∧ streamId value = some id) := by
  have hprinted : validCursor value = true ↔
      ∃ id < 2 ^ 128, value = streamText id ∧ streamId value = some id := by
    rw [validCursor_iff]
    constructor
    · rintro ⟨id, hid, rfl⟩
      exact ⟨id, hid, rfl, streamId_of_lt hid⟩
    · rintro ⟨id, hid, hvalue, -⟩
      exact ⟨id, hid, hvalue⟩
  refine ⟨⟨fun hvalid => ?_, fun ⟨hpattern, hread⟩ => ?_⟩, hprinted⟩
  · obtain ⟨id, -, rfl, hread⟩ := hprinted.mp hvalid
    exact ⟨cursorPattern_streamText id, by rw [hread]; rfl⟩
  · unfold cursorPattern at hpattern
    cases hsplit : splitAtHyphen value with
    | none =>
        rw [hsplit] at hpattern
        cases hpattern
    | some parts =>
        obtain ⟨front, back⟩ := parts
        rw [hsplit] at hpattern
        obtain ⟨hfront, hback⟩ := Bool.and_eq_true_iff.mp hpattern
        obtain ⟨ms, rfl⟩ := numeral_iff.mp hfront
        obtain ⟨seq, rfl⟩ := numeral_iff.mp hback
        have hvalue := splitAtHyphen_eq hsplit
        have hdigits (n : ℕ) : tonumber (Nat.toDigits 10 n) = n := Nat.ofDigitChars_ten_toDigits
        unfold streamId at hread
        rw [cursorParts_digits hvalue] at hread
        dsimp only at hread
        rw [hdigits, hdigits] at hread
        split_ifs at hread with hsmall
        · exact validCursor_iff.mpr ⟨ms * 2 ^ 64 + seq, by omega, eq_streamText hsmall.2 hvalue⟩
        · cases hread

end Cursors

end Ticketing.Availability
