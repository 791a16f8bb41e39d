import Ticketing.Schema
import Ticketing.Library.Decimals

/-!
# The texts of holds and formal states

A raw hold is `owner|revision`, a derived hold adds the expiry at the end, and a formal state is
`STATUS|version`. Owners contain no bar, so the first bar of a raw hold ends its owner and the last
bar of a derived hold starts its expiry.
-/

namespace Ticketing.Availability

open Redis

/-- What stands before and after the first bar. -/
def cut (cs : List Char) : Option (List Char × List Char) :=
  match cs.dropWhile (· ≠ '|') with
  | [] => none
  | _ :: after => some (cs.takeWhile (· ≠ '|'), after)

def tonumber (cs : List Char) : ℕ := Nat.ofDigitChars 10 cs 0

def decimal (text : String) : Bool := (natural text.toList).isSome

/-- The numeric order on canonical decimals. -/
def greater (a b : String) : Bool :=
  if a.length ≠ b.length then decide (b.length < a.length) else decide (b < a)

structure RawHold where
  owner : String
  revision : String
  deriving DecidableEq

def rawhold (text : String) : Option RawHold :=
  match cut text.toList with
  | some (owner, revision) =>
      if owner ≠ [] ∧ (natural revision).isSome then
        some ⟨String.ofList owner, String.ofList revision⟩
      else none
  | none => none

structure Hold where
  owner : String
  revision : String
  expiry : ℕ
  deriving DecidableEq

def hold (text : String) : Option Hold :=
  match cut text.toList.reverse with
  | some (expiry, raw) =>
      if digits expiry.reverse then
        (rawhold (String.ofList raw.reverse)).map fun parsed =>
          ⟨parsed.owner, parsed.revision, tonumber expiry.reverse⟩
      else none
  | none => none

def statusName : SeatStatus → String
  | .available => "AVAILABLE"
  | .held => "HELD"
  | .sold => "SOLD"

def statusOfName (name : String) : Option SeatStatus :=
  if name = "AVAILABLE" then some .available
  else if name = "HELD" then some .held
  else if name = "SOLD" then some .sold
  else none

structure Formal where
  status : SeatStatus
  version : String
  deriving DecidableEq

def formal (text : String) : Option Formal :=
  match cut text.toList with
  | some (name, version) =>
      if (natural version).isSome then
        (statusOfName (String.ofList name)).map fun status => ⟨status, String.ofList version⟩
      else none
  | none => none

def formatHold (owner revision : String) : String := owner ++ "|" ++ revision

def formatDerived (raw : String) (expiry : ℕ) : String := raw ++ "|" ++ toString expiry

/-- An owner that a hold value can carry. -/
def OwnerName (owner : String) : Prop := owner ≠ "" ∧ '|' ∉ owner.toList

theorem cut_append {as bs : List Char} (h : '|' ∉ as) : cut (as ++ '|' :: bs) = some (as, bs) := by
  have hall : ∀ c ∈ as, decide (c ≠ '|') = true := by
    intro c hc
    apply decide_eq_true
    rintro rfl
    exact h hc
  unfold cut
  rw [List.dropWhile_append_of_pos hall, List.takeWhile_append_of_pos hall]
  simp

theorem bar_not_mem_toDigits (n : ℕ) : '|' ∉ Nat.toDigits 10 n := by
  intro h
  have hdigit := Nat.isDigit_of_mem_toDigits (b := 10) (by decide) (by decide) h
  exact absurd hdigit (by decide)

/-- The owner and the revision of a hold value are read back. -/
theorem rawhold_formatHold {owner : String} (h : OwnerName owner) (revision : ℕ) :
    rawhold (formatHold owner (toString revision)) = some ⟨owner, toString revision⟩ := by
  have htext : (formatHold owner (toString revision)).toList =
      owner.toList ++ '|' :: (toString revision).toList := by
    simp [formatHold]
  have howner : owner.toList ≠ [] := by
    intro hnil
    exact h.1 (String.toList_eq_nil_iff.mp hnil)
  unfold rawhold
  rw [htext, cut_append h.2]
  dsimp only
  rw [if_pos ⟨howner, by rw [natural_toString]; rfl⟩, String.ofList_toList, String.ofList_toList]

/-- A derived hold is its raw hold with an expiry. -/
theorem hold_formatDerived (raw : String) (expiry : ℕ) : hold (formatDerived raw expiry) =
    (rawhold raw).map fun parsed => ⟨parsed.owner, parsed.revision, expiry⟩ := by
  have htext : (formatDerived raw expiry).toList.reverse =
      (Nat.toDigits 10 expiry).reverse ++ '|' :: raw.toList.reverse := by
    simp [formatDerived]
  have hbar : '|' ∉ (Nat.toDigits 10 expiry).reverse := by
    rw [List.mem_reverse]
    exact bar_not_mem_toDigits expiry
  unfold hold
  rw [htext, cut_append hbar]
  dsimp only
  rw [List.reverse_reverse, List.reverse_reverse, digits_toDigits, String.ofList_toList, if_pos rfl]
  unfold tonumber
  rw [Nat.ofDigitChars_ten_toDigits]

end Ticketing.Availability
