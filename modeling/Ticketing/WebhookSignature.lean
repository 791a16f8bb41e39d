import Mathlib.Algebra.Order.Group.Unbundled.Int
import Mathlib.Data.List.Basic
import Mathlib.Data.List.Induction
import Mathlib.Data.List.TakeWhile

/-!
# The signature of a payment webhook

`verify` scans the Stripe-Signature header for timestamps and signatures, judges the age of the
last timestamp in 64-bit arithmetic, and compares the signatures with the HMAC of the body.
The HMAC is a parameter. A 64-bit operation reports whether its exact result fits.
-/

namespace Ticketing.WebhookSignature

abbrev Bytes := List UInt8

def comma : UInt8 := 0x2c

def equals : UInt8 := 0x3d

def minus : UInt8 := 0x2d

def dot : UInt8 := 0x2e

/-- The item name `t`. -/
def timestampName : Bytes := [0x74]

/-- The item name `v1`. -/
def signatureName : Bytes := [0x76, 0x31]

/-! ## Numbers -/

def digit (c : UInt8) : Bool := 0x30 ≤ c && c ≤ 0x39

def digitsValue (digits : Bytes) : ℕ :=
  digits.foldl (fun value c => 10 * value + (c.toNat - 0x30)) 0

/-- `std::from_chars` for a 64-bit integer: the value read and what follows its digits. -/
def fromChars (value : Bytes) : Option (Int64 × Bytes) :=
  let unsigned := if value.head? = some minus then value.tail else value
  let digits := unsigned.takeWhile digit
  let magnitude : ℤ := digitsValue digits
  let parsed := if value.head? = some minus then -magnitude else magnitude
  if digits = [] then none
  else if -2 ^ 63 ≤ parsed ∧ parsed < 2 ^ 63 then
    some (Int64.ofInt parsed, unsigned.dropWhile digit)
  else none

/-- `std::to_string`. -/
def decimal (t : Int64) : Bytes :=
  (if t.toInt < 0 then [minus] else []) ++
    (Nat.toDigits 10 t.toInt.natAbs).map fun c => c.toNat.toUInt8

/-- The result of machine operations, and whether the exact result of one of them did not fit. -/
structure Checked (α : Type) where
  value : α
  overflowed : Bool
  deriving DecidableEq

def subtract (a b : Int64) : Checked Int64 :=
  ⟨a - b, decide ¬(-2 ^ 63 ≤ a.toInt - b.toInt ∧ a.toInt - b.toInt < 2 ^ 63)⟩

def llabs (a : Int64) : Checked Int64 :=
  ⟨if a.toInt < 0 then -a else a, decide ¬-a.toInt < 2 ^ 63⟩

/-- `std::llabs(nowSeconds - *timestamp)` -/
def age (now t : Int64) : Checked Int64 :=
  let difference := subtract now t
  let distance := llabs difference.value
  ⟨distance.value, difference.overflowed || distance.overflowed⟩

/-! ## The scan -/

structure Found where
  timestamp : Option Int64 := none
  signatures : List Bytes := []

def readItem (found : Found) (item : Bytes) : Found :=
  match item.dropWhile (· ≠ equals) with
  | [] => found
  | _ :: value =>
      let name := item.takeWhile (· ≠ equals)
      if name = timestampName then
        match fromChars value with
        | some (parsed, []) => { found with timestamp := some parsed }
        | _ => found
      else if name = signatureName then
        { found with signatures := found.signatures ++ [value] }
      else found

/-- The loop over the items between commas. -/
def scan (found : Found) (header : Bytes) : Found :=
  let item := header.takeWhile (· ≠ comma)
  match _h : header.dropWhile (· ≠ comma) with
  | [] => readItem found item
  | _ :: rest => scan (readItem found item) rest
termination_by header.length
decreasing_by
  have hle := (List.dropWhile_sublist (· ≠ comma) (l := header)).length_le
  simp only [_h, List.length_cons] at hle
  omega

def kToleranceSeconds : Int64 := 300

def constantTimeEqual (left right : Bytes) : Bool :=
  if left.length ≠ right.length then false else left == right

def verify (hmac : Bytes → Bytes → Bytes) (rawBody signatureHeader secret : Bytes)
    (nowSeconds toleranceSeconds : Int64) : Checked Bool :=
  if secret = [] ∨ toleranceSeconds.toInt ≤ 0 then ⟨false, false⟩
  else
    let found := scan {} signatureHeader
    match found.timestamp with
    | none => ⟨false, false⟩
    | some timestamp =>
        if found.signatures = [] then ⟨false, false⟩
        else
          let distance := age nowSeconds timestamp
          if toleranceSeconds.toInt < distance.value.toInt then ⟨false, distance.overflowed⟩
          else
            let expected := hmac secret (decimal timestamp ++ dot :: rawBody)
            ⟨found.signatures.any (constantTimeEqual expected), distance.overflowed⟩

/-! ## The law -/

/-- A whole text that is a decimal integer. -/
def Numeral (text : Bytes) (n : ℤ) : Prop :=
  ∃ digits : Bytes, digits ≠ [] ∧ (∀ c ∈ digits, digit c = true) ∧
    (text = digits ∧ n = digitsValue digits ∨ text = minus :: digits ∧ n = -digitsValue digits)

/-- An item named `t` whose value is a 64-bit integer. -/
def Stamp (item : Bytes) (t : Int64) : Prop :=
  ∃ value, item = timestampName ++ equals :: value ∧ Numeral value t.toInt

/-- An item named `v1`. -/
def Signed (item value : Bytes) : Prop := item = signatureName ++ equals :: value

def LastStamp (items : List Bytes) (t : Int64) : Prop :=
  ∃ before item after, items = before ++ item :: after ∧ Stamp item t ∧
    ∀ later ∈ after, ∀ t', ¬Stamp later t'

/-- What an authentic delivery is, over the integers. -/
def Authentic (hmac : Bytes → Bytes → Bytes) (rawBody signatureHeader secret : Bytes)
    (nowSeconds toleranceSeconds : Int64) : Prop :=
  0 < toleranceSeconds.toInt ∧ secret ≠ [] ∧
    ∃ t, LastStamp (signatureHeader.splitOn comma) t ∧
      |nowSeconds.toInt - t.toInt| ≤ toleranceSeconds.toInt ∧
      ∃ item ∈ signatureHeader.splitOn comma,
        Signed item (hmac secret (decimal t ++ dot :: rawBody))

/-- No timestamp the age check looks at lies `2 ^ 63` seconds or more from now. -/
def InRange (signatureHeader secret : Bytes) (nowSeconds toleranceSeconds : Int64) : Prop :=
  0 < toleranceSeconds.toInt → secret ≠ [] →
    ∀ t, LastStamp (signatureHeader.splitOn comma) t →
      (∃ item ∈ signatureHeader.splitOn comma, ∃ value, Signed item value) →
        |nowSeconds.toInt - t.toInt| < 2 ^ 63

/-! ## Reading a number -/

theorem minus_not_digit : digit minus = false := by decide

/-- A digit string read to its end is a numeral, if its value is in range. -/
theorem fromChars_digits {digits : Bytes} {n : ℤ} {t : Int64}
    (h : (if digits.takeWhile digit = [] then none
      else if -2 ^ 63 ≤ n ∧ n < 2 ^ 63 then some (Int64.ofInt n, digits.dropWhile digit)
      else none) = some (t, [])) :
    digits ≠ [] ∧ (∀ c ∈ digits, digit c = true) ∧ t.toInt = n := by
  split at h
  · cases h
  · rename_i hne
    split at h
    · rename_i hrange
      obtain ⟨ht, hrest⟩ := Prod.mk.inj (Option.some.inj h)
      refine ⟨fun hnil => hne (by rw [hnil]; rfl), List.dropWhile_eq_nil_iff.mp hrest, ?_⟩
      rw [← ht]
      exact Int64.toInt_ofInt_of_le hrange.1 hrange.2
    · cases h

theorem fromChars_sound {value : Bytes} {t : Int64} (h : fromChars value = some (t, [])) :
    Numeral value t.toInt := by
  unfold fromChars at h
  by_cases hminus : value.head? = some minus
  · simp only [if_pos hminus] at h
    obtain ⟨hne, hall, hn⟩ := fromChars_digits h
    rw [List.takeWhile_eq_self_iff.mpr hall] at hn
    exact ⟨_, hne, hall, .inr ⟨(List.cons_head?_tail hminus).symm, hn⟩⟩
  · simp only [if_neg hminus] at h
    obtain ⟨hne, hall, hn⟩ := fromChars_digits h
    rw [List.takeWhile_eq_self_iff.mpr hall] at hn
    exact ⟨_, hne, hall, .inl ⟨rfl, hn⟩⟩

theorem fromChars_complete {value : Bytes} {t : Int64} (h : Numeral value t.toInt) :
    fromChars value = some (t, []) := by
  obtain ⟨digits, hne, hall, hsign⟩ := h
  have hrest := List.dropWhile_eq_nil_iff.mpr hall
  have hwhole := List.takeWhile_eq_self_iff.mpr hall
  have hlow := t.le_toInt
  have hhigh := t.toInt_lt
  have hback := t.ofInt_toInt
  unfold fromChars
  rcases hsign with ⟨rfl, hn⟩ | ⟨rfl, hn⟩
  · have hplain : ¬value.head? = some minus := by
      intro hhead
      have hdigit := hall minus (List.mem_of_mem_head? hhead)
      rw [minus_not_digit] at hdigit
      cases hdigit
    simp only [if_neg hplain, hwhole, hrest, if_neg hne]
    rw [← hn, if_pos ⟨hlow, hhigh⟩, hback]
  · simp only [List.head?_cons, if_true, List.tail_cons, hwhole, hrest, if_neg hne]
    rw [← hn, if_pos ⟨hlow, hhigh⟩, hback]

theorem fromChars_iff {value : Bytes} {t : Int64} :
    fromChars value = some (t, []) ↔ Numeral value t.toInt :=
  ⟨fromChars_sound, fromChars_complete⟩

/-! ## Reading the items -/

theorem takeWhile_mark {mark : UInt8} {front : Bytes} (h : mark ∉ front) (back : Bytes) :
    (front ++ mark :: back).takeWhile (· ≠ mark) = front := by
  rw [List.takeWhile_append_of_pos fun c hc => by simpa using ne_of_mem_of_not_mem hc h]
  simp

theorem dropWhile_mark {mark : UInt8} {front : Bytes} (h : mark ∉ front) (back : Bytes) :
    (front ++ mark :: back).dropWhile (· ≠ mark) = mark :: back := by
  rw [List.dropWhile_append_of_pos fun c hc => by simpa using ne_of_mem_of_not_mem hc h]
  simp

theorem whole_mark {mark : UInt8} {text : Bytes} (h : mark ∉ text) :
    text.takeWhile (· ≠ mark) = text ∧ text.dropWhile (· ≠ mark) = [] := by
  have hall : ∀ c ∈ text, decide (c ≠ mark) = true :=
    fun c hc => by simpa using ne_of_mem_of_not_mem hc h
  exact ⟨List.takeWhile_eq_self_iff.mpr hall, List.dropWhile_eq_nil_iff.mpr hall⟩

/-- A text lacks a mark, or is cut at the first one. -/
theorem cut_mark (mark : UInt8) (text : Bytes) :
    mark ∉ text ∨ ∃ front back, mark ∉ front ∧ text = front ++ mark :: back := by
  by_cases h : mark ∈ text
  · obtain ⟨front, back, htext, hfront⟩ := List.eq_append_cons_of_mem h
    exact .inr ⟨front, back, hfront, htext⟩
  · exact .inl h

theorem scan_eq (found : Found) (header : Bytes) :
    scan found header = (header.splitOn comma).foldl readItem found := by
  induction hn : header.length using Nat.strong_induction_on generalizing found header with
  | _ n ih =>
      rcases cut_mark comma header with hnone | ⟨item, rest, hitem, rfl⟩
      · obtain ⟨htake, hdrop⟩ := whole_mark hnone
        rw [scan, List.splitOn_eq_singleton hnone, List.foldl_cons, List.foldl_nil]
        split
        · rw [htake]
        · rename_i heq
          rw [hdrop] at heq
          cases heq
      · rw [scan, List.splitOn_append_cons_self_of_not_mem hitem, List.foldl_cons]
        split
        · rename_i heq
          rw [dropWhile_mark hitem] at heq
          cases heq
        · rename_i heq
          rw [dropWhile_mark hitem] at heq
          cases heq
          rw [takeWhile_mark hitem]
          refine ih rest.length ?_ _ rest rfl
          simp only [List.length_append, List.length_cons] at hn
          omega

theorem readItem_plain {item : Bytes} (h : equals ∉ item) (found : Found) :
    readItem found item = found := by
  unfold readItem
  rw [(whole_mark h).2]

theorem readItem_named {name : Bytes} (h : equals ∉ name) (value : Bytes) (found : Found) :
    readItem found (name ++ equals :: value) =
      if name = timestampName then
        match fromChars value with
        | some (parsed, []) => { found with timestamp := some parsed }
        | _ => found
      else if name = signatureName then
        { found with signatures := found.signatures ++ [value] }
      else found := by
  unfold readItem
  rw [dropWhile_mark h]
  simp only [takeWhile_mark h]

/-- A name without a mark is what stands before the first mark. -/
theorem name_eq {name name' value value' : Bytes} (h : equals ∉ name) (h' : equals ∉ name')
    (heq : name ++ equals :: value = name' ++ equals :: value') : name = name' ∧ value = value' := by
  have htake := takeWhile_mark h value
  have hdrop := dropWhile_mark h value
  rw [heq, takeWhile_mark h'] at htake
  rw [heq, dropWhile_mark h'] at hdrop
  exact ⟨htake.symm, (List.cons.inj hdrop).2.symm⟩

theorem equals_timestampName : equals ∉ timestampName := by decide

theorem equals_signatureName : equals ∉ signatureName := by decide

/-- The timestamp after an item. -/
theorem readItem_timestamp (found : Found) (item : Bytes) (t : Int64) :
    (readItem found item).timestamp = some t ↔
      Stamp item t ∨ (found.timestamp = some t ∧ ∀ t', ¬Stamp item t') := by
  rcases cut_mark equals item with hnone | ⟨name, value, hname, rfl⟩
  · have hno : ∀ t', ¬Stamp item t' := by
      rintro t' ⟨value, rfl, _⟩
      simp at hnone
    rw [readItem_plain hnone]
    exact ⟨fun h => .inr ⟨h, hno⟩, fun h => (h.resolve_left (hno t)).1⟩
  · rw [readItem_named hname]
    by_cases ht : name = timestampName
    · rw [if_pos ht, ht]
      have hstamp : ∀ t', Stamp (timestampName ++ equals :: value) t' ↔
          fromChars value = some (t', []) := by
        intro t'
        rw [fromChars_iff]
        constructor
        · rintro ⟨value', heq, hvalue⟩
          rwa [(name_eq equals_timestampName equals_timestampName heq).2]
        · exact fun hvalue => ⟨value, rfl, hvalue⟩
      simp only [hstamp]
      split
      · rename_i parsed hread
        simp [hread]
      · rename_i hread
        have hno : ∀ t', fromChars value ≠ some (t', []) := fun t' heq => hread t' heq
        exact ⟨fun h => .inr ⟨h, hno⟩, fun h => (h.resolve_left (hno t)).1⟩
    · have hno : ∀ t', ¬Stamp (name ++ equals :: value) t' := by
        rintro t' ⟨value', heq, _⟩
        exact ht (name_eq hname equals_timestampName heq).1
      have hkeep : (readItem found (name ++ equals :: value)).timestamp = found.timestamp := by
        rw [readItem_named hname, if_neg ht]
        split <;> rfl
      rw [← readItem_named hname, hkeep]
      exact ⟨fun h => .inr ⟨h, hno⟩, fun h => (h.resolve_left (hno t)).1⟩

theorem timestamp_ne_signature : timestampName ≠ signatureName := by decide

theorem readItem_signatures (found : Found) (item value : Bytes) :
    value ∈ (readItem found item).signatures ↔
      value ∈ found.signatures ∨ Signed item value := by
  rcases cut_mark equals item with hnone | ⟨name, back, hname, rfl⟩
  · have hno : ¬Signed item value := by
      rintro rfl
      simp at hnone
    rw [readItem_plain hnone, or_iff_left hno]
  · by_cases hv : name = signatureName
    · rw [readItem_named hname, if_neg (hv ▸ timestamp_ne_signature.symm), if_pos hv, hv]
      have hsigned : Signed (signatureName ++ equals :: back) value ↔ value = back :=
        ⟨fun heq => (name_eq equals_signatureName equals_signatureName heq).2.symm,
          fun heq => by rw [heq]; rfl⟩
      rw [hsigned, List.mem_append, List.mem_singleton]
    · have hno : ¬Signed (name ++ equals :: back) value :=
        fun heq => hv (name_eq hname equals_signatureName heq).1
      have hkeep : (readItem found (name ++ equals :: back)).signatures = found.signatures := by
        rw [readItem_named hname, if_neg hv]
        split
        · split <;> rfl
        · rfl
      rw [hkeep, or_iff_left hno]

theorem lastStamp_concat (items : List Bytes) (item : Bytes) (t : Int64) :
    LastStamp (items ++ [item]) t ↔
      Stamp item t ∨ (LastStamp items t ∧ ∀ t', ¬Stamp item t') := by
  constructor
  · rintro ⟨before, stamped, after, heq, ht, hlater⟩
    rcases List.eq_nil_or_concat after with rfl | ⟨after, last, rfl⟩
    · obtain ⟨_, rfl⟩ := List.append_singleton_inj.mp heq
      exact .inl ht
    · rw [List.concat_eq_append, ← List.cons_append, ← List.append_assoc] at heq
      obtain ⟨rfl, rfl⟩ := List.append_singleton_inj.mp heq
      exact .inr ⟨⟨before, stamped, after, rfl, ht,
        fun later hmem => hlater later (by simp [hmem])⟩, hlater item (by simp)⟩
  · rintro (ht | ⟨⟨before, stamped, after, rfl, ht, hlater⟩, hno⟩)
    · exact ⟨items, item, [], rfl, ht, fun _ hmem => by cases hmem⟩
    · refine ⟨before, stamped, after ++ [item], by simp, ht, fun later hmem => ?_⟩
      rcases List.mem_append.mp hmem with hmem | hmem
      · exact hlater later hmem
      · rw [List.mem_singleton.mp hmem]
        exact hno

/-- The timestamp the loop ends with is the last valid one. -/
theorem scan_timestamp (items : List Bytes) (t : Int64) :
    (items.foldl readItem {}).timestamp = some t ↔ LastStamp items t := by
  induction items using List.reverseRecOn generalizing t with
  | nil =>
      have hno : ¬LastStamp [] t := by
        rintro ⟨before, _, _, heq, _, _⟩
        simp at heq
      simp [hno]
  | append_singleton items item ih =>
      rw [List.foldl_append, List.foldl_cons, List.foldl_nil, readItem_timestamp, ih,
        lastStamp_concat]

theorem scan_signatures (items : List Bytes) (value : Bytes) :
    value ∈ (items.foldl readItem {}).signatures ↔ ∃ item ∈ items, Signed item value := by
  induction items using List.reverseRecOn with
  | nil => simp
  | append_singleton items item ih =>
      rw [List.foldl_append, List.foldl_cons, List.foldl_nil, readItem_signatures, ih]
      constructor
      · rintro (⟨found, hmem, hsigned⟩ | hsigned)
        · exact ⟨found, List.mem_append_left _ hmem, hsigned⟩
        · exact ⟨item, by simp, hsigned⟩
      · rintro ⟨found, hmem, hsigned⟩
        rcases List.mem_append.mp hmem with hmem | hmem
        · exact .inl ⟨found, hmem, hsigned⟩
        · exact .inr (List.mem_singleton.mp hmem ▸ hsigned)

/-! ## The age -/

theorem subtract_exact {a b : Int64} (h : (subtract a b).overflowed = false) :
    (subtract a b).value.toInt = a.toInt - b.toInt := by
  have hfits : -2 ^ 63 ≤ a.toInt - b.toInt ∧ a.toInt - b.toInt < 2 ^ 63 := by
    simpa [subtract] using h
  unfold subtract
  rw [Int64.toInt_sub]
  exact Int.bmod_eq_of_le hfits.1 hfits.2

theorem llabs_exact {a : Int64} (h : (llabs a).overflowed = false) :
    (llabs a).value.toInt = |a.toInt| := by
  have hfits : -a.toInt < 2 ^ 63 := by simpa [llabs] using h
  have hhigh := a.toInt_lt
  unfold llabs
  by_cases hneg : a.toInt < 0
  · rw [if_pos hneg, abs_of_neg hneg, Int64.toInt_neg]
    exact Int.bmod_eq_of_le (by omega) hfits
  · rw [if_neg hneg, abs_of_nonneg (by omega)]

/-- The age is computed without overflow exactly if it is below `2 ^ 63`, and it is then exact. -/
theorem age_overflowed (now t : Int64) :
    (age now t).overflowed = false ↔ |now.toInt - t.toInt| < 2 ^ 63 := by
  have hor : (age now t).overflowed = false ↔
      (subtract now t).overflowed = false ∧ (llabs (subtract now t).value).overflowed = false := by
    unfold age
    exact Bool.or_eq_false_iff
  rw [hor, abs_lt]
  constructor
  · rintro ⟨hsub, habs⟩
    have hexact := subtract_exact hsub
    have hfits : -2 ^ 63 ≤ now.toInt - t.toInt ∧ now.toInt - t.toInt < 2 ^ 63 := by
      simpa [subtract] using hsub
    have hneg : -(subtract now t).value.toInt < 2 ^ 63 := by simpa [llabs] using habs
    omega
  · rintro ⟨hlow, hhigh⟩
    have hsub : (subtract now t).overflowed = false := by
      simp only [subtract, decide_eq_false_iff_not, not_not]
      omega
    have hexact := subtract_exact hsub
    refine ⟨hsub, ?_⟩
    simp only [llabs, decide_eq_false_iff_not, not_not]
    omega

theorem age_exact {now t : Int64} (h : (age now t).overflowed = false) :
    (age now t).value.toInt = |now.toInt - t.toInt| := by
  have hboth : (subtract now t).overflowed = false ∧
      (llabs (subtract now t).value).overflowed = false := by
    unfold age at h
    exact Bool.or_eq_false_iff.mp h
  rw [← subtract_exact hboth.1]
  exact llabs_exact hboth.2

/-! ## Verification -/

theorem constantTimeEqual_iff {left right : Bytes} :
    constantTimeEqual left right = true ↔ left = right := by
  unfold constantTimeEqual
  split
  · rename_i hlength
    exact iff_of_false (by simp) fun h => hlength (congrArg List.length h)
  · exact beq_iff_eq

section Header

variable {signatureHeader : Bytes}

theorem found_timestamp {t : Int64} : (scan {} signatureHeader).timestamp = some t ↔
    LastStamp (signatureHeader.splitOn comma) t := by
  rw [scan_eq, scan_timestamp]

theorem found_signatures {value : Bytes} : value ∈ (scan {} signatureHeader).signatures ↔
    ∃ item ∈ signatureHeader.splitOn comma, Signed item value := by
  rw [scan_eq, scan_signatures]

theorem lastStamp_unique {t t' : Int64} (h : LastStamp (signatureHeader.splitOn comma) t)
    (h' : LastStamp (signatureHeader.splitOn comma) t') : t = t' := by
  have ht := found_timestamp.mpr h
  rw [found_timestamp.mpr h'] at ht
  cases ht
  rfl

end Header

section Delivery

variable {hmac : Bytes → Bytes → Bytes} {rawBody signatureHeader secret : Bytes}
  {nowSeconds toleranceSeconds : Int64}

/-- A header with a timestamp and a signature is judged by its age and its signatures. -/
theorem verify_judges {t : Int64} (hsecret : secret ≠ []) (htolerance : 0 < toleranceSeconds.toInt)
    (ht : (scan {} signatureHeader).timestamp = some t)
    (hsigned : (scan {} signatureHeader).signatures ≠ []) :
    verify hmac rawBody signatureHeader secret nowSeconds toleranceSeconds =
      ⟨decide ((age nowSeconds t).value.toInt ≤ toleranceSeconds.toInt) &&
        (scan {} signatureHeader).signatures.any
          (constantTimeEqual (hmac secret (decimal t ++ dot :: rawBody))),
        (age nowSeconds t).overflowed⟩ := by
  have hopen : ¬(secret = [] ∨ toleranceSeconds.toInt ≤ 0) := by
    rintro (h | h)
    · exact hsecret h
    · omega
  unfold verify
  simp only [if_neg hopen, ht, if_neg hsigned]
  by_cases hage : (age nowSeconds t).value.toInt ≤ toleranceSeconds.toInt
  · rw [if_neg (by omega), decide_eq_true hage, Bool.true_and]
  · rw [if_pos (by omega), decide_eq_false hage, Bool.false_and]

/-- A header without a timestamp or without a signature is refused before any arithmetic. -/
theorem verify_refuses
    (h : secret = [] ∨ toleranceSeconds.toInt ≤ 0 ∨ (scan {} signatureHeader).timestamp = none ∨
      (scan {} signatureHeader).signatures = []) :
    verify hmac rawBody signatureHeader secret nowSeconds toleranceSeconds = ⟨false, false⟩ := by
  unfold verify
  split
  · rfl
  · rename_i hopen
    have hscan := (h.resolve_left fun h => hopen (.inl h)).resolve_left fun h => hopen (.inr h)
    cases ht : (scan {} signatureHeader).timestamp with
    | none => simp only [ht]
    | some t =>
        rw [ht] at hscan
        have hsigned := hscan.resolve_left (by simp)
        simp only [ht, if_pos hsigned]

theorem not_refused {t : Int64} (hsecret : secret ≠ []) (htolerance : 0 < toleranceSeconds.toInt)
    (ht : LastStamp (signatureHeader.splitOn comma) t)
    (hsigned : ∃ item ∈ signatureHeader.splitOn comma, ∃ value, Signed item value) :
    ¬(secret = [] ∨ toleranceSeconds.toInt ≤ 0 ∨ (scan {} signatureHeader).timestamp = none ∨
      (scan {} signatureHeader).signatures = []) := by
  obtain ⟨item, hitem, value, hvalue⟩ := hsigned
  have hstamp := found_timestamp.mpr ht
  have hmem := found_signatures.mpr ⟨item, hitem, hvalue⟩
  rintro (h | h | h | h)
  · exact hsecret h
  · omega
  · rw [h] at hstamp
    cases hstamp
  · rw [h] at hmem
    cases hmem

theorem authentic_iff {t : Int64} (hsecret : secret ≠ []) (htolerance : 0 < toleranceSeconds.toInt)
    (ht : (scan {} signatureHeader).timestamp = some t) :
    Authentic hmac rawBody signatureHeader secret nowSeconds toleranceSeconds ↔
      |nowSeconds.toInt - t.toInt| ≤ toleranceSeconds.toInt ∧
        hmac secret (decimal t ++ dot :: rawBody) ∈ (scan {} signatureHeader).signatures := by
  constructor
  · rintro ⟨_, _, t', ht', hage, hsigned⟩
    obtain rfl := lastStamp_unique (found_timestamp.mp ht) ht'
    exact ⟨hage, found_signatures.mpr hsigned⟩
  · rintro ⟨hage, hmem⟩
    exact ⟨htolerance, hsecret, t, found_timestamp.mp ht, hage, found_signatures.mp hmem⟩

end Delivery

/-- Verification accepts exactly the authentic deliveries without an overflow on the way, exactly
if the timestamp it judges is in range. -/
theorem verify_exact (hmac : Bytes → Bytes → Bytes) (rawBody signatureHeader secret : Bytes)
    (nowSeconds toleranceSeconds : Int64) :
    (((verify hmac rawBody signatureHeader secret nowSeconds toleranceSeconds).value = true ↔
        Authentic hmac rawBody signatureHeader secret nowSeconds toleranceSeconds) ∧
      (verify hmac rawBody signatureHeader secret nowSeconds toleranceSeconds).overflowed = false) ↔
    InRange signatureHeader secret nowSeconds toleranceSeconds := by
  by_cases hrefused : secret = [] ∨ toleranceSeconds.toInt ≤ 0 ∨
      (scan {} signatureHeader).timestamp = none ∨ (scan {} signatureHeader).signatures = []
  · rw [verify_refuses hrefused]
    have hno : ¬Authentic hmac rawBody signatureHeader secret nowSeconds toleranceSeconds := by
      rintro ⟨htolerance, hsecret, t, ht, _, item, hitem, hvalue⟩
      exact not_refused hsecret htolerance ht ⟨item, hitem, _, hvalue⟩ hrefused
    refine iff_of_true ⟨iff_of_false (by simp) hno, rfl⟩ ?_
    exact fun htolerance hsecret t ht hsigned =>
      absurd hrefused (not_refused hsecret htolerance ht hsigned)
  · simp only [not_or] at hrefused
    obtain ⟨hsecret, htolerance, hstamp, hsigned⟩ := hrefused
    have hpositive : 0 < toleranceSeconds.toInt := by omega
    obtain ⟨t, ht⟩ := Option.ne_none_iff_exists'.mp hstamp
    obtain ⟨value, hvalue⟩ := List.exists_mem_of_ne_nil _ hsigned
    obtain ⟨item, hitem, hitemValue⟩ := found_signatures.mp hvalue
    rw [verify_judges hsecret hpositive ht hsigned]
    have hrange : InRange signatureHeader secret nowSeconds toleranceSeconds ↔
        (age nowSeconds t).overflowed = false := by
      rw [age_overflowed]
      constructor
      · exact fun h => h hpositive hsecret t (found_timestamp.mp ht) ⟨item, hitem, value, hitemValue⟩
      · intro h _ _ t' ht' _
        rwa [← lastStamp_unique (found_timestamp.mp ht) ht']
    rw [hrange]
    refine ⟨fun h => h.2, fun hcalm => ⟨?_, hcalm⟩⟩
    rw [authentic_iff hsecret hpositive ht, ← age_exact hcalm, Bool.and_eq_true, decide_eq_true_iff,
      List.any_eq_true]
    simp only [constantTimeEqual_iff, exists_eq_right']

/-- `t=-9223372035154775808,v1=00`, with a timestamp `2 ^ 63` seconds before 1700000000. -/
def ancientHeader : Bytes :=
  [0x74, 0x3d, 0x2d, 0x39, 0x32, 0x32, 0x33, 0x33, 0x37, 0x32, 0x30, 0x33, 0x35, 0x31, 0x35,
    0x34, 0x37, 0x37, 0x35, 0x38, 0x30, 0x38, 0x2c, 0x76, 0x31, 0x3d, 0x30, 0x30]

/-- The age of the ancient timestamp wraps to a negative number, and its delivery is accepted. -/
theorem verify_ancient :
    verify (fun _ _ => [0x30, 0x30]) [0x7b, 0x7d] ancientHeader [0x77] 1700000000
        kToleranceSeconds = ⟨true, true⟩ ∧
      ¬Authentic (fun _ _ => [0x30, 0x30]) [0x7b, 0x7d] ancientHeader [0x77] 1700000000
        kToleranceSeconds := by
  have ht : (scan {} ancientHeader).timestamp = some (-9223372035154775808) := by
    rw [scan_eq]
    decide +kernel
  have hsigned : (scan {} ancientHeader).signatures = [[0x30, 0x30]] := by
    rw [scan_eq]
    decide +kernel
  have hpositive : 0 < kToleranceSeconds.toInt := by decide
  constructor
  · rw [verify_judges (by simp) hpositive ht (by simp [hsigned]), hsigned]
    decide +kernel
  · rw [authentic_iff (by simp) hpositive ht]
    rintro ⟨hage, _⟩
    exact absurd hage (by decide +kernel)

end Ticketing.WebhookSignature
