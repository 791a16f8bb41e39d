import Mathlib.Data.Rat.Floor

/-!
# JSON values with throwing accessors

The accessors follow jsoncpp: a member lookup is defined on objects and on
null, conversions are total on some types and throw on the others. A real
number carries the text its conversion to a string prints.
-/

namespace JsonCpp

inductive Value where
  | null
  | bool (b : Bool)
  | int (n : ℤ)
  | real (value : ℚ) (text : String)
  | string (s : String)
  | array (items : List Value)
  | object (members : List (String × Value))

/-- The two exceptions the accessors throw. -/
inductive Error where
  | logic
  | range
  deriving DecidableEq

def minInt64 : ℤ := -2 ^ 63
def maxInt64 : ℤ := 2 ^ 63 - 1

namespace Value

def isObject : Value → Bool
  | object _ => true
  | _ => false

def isArray : Value → Bool
  | array _ => true
  | _ => false

def isString : Value → Bool
  | string _ => true
  | _ => false

def isBool : Value → Bool
  | bool _ => true
  | _ => false

/-- Truncation toward zero, as a cast from a floating-point number. -/
def truncate (q : ℚ) : ℤ := if 0 ≤ q then ⌊q⌋ else ⌈q⌉

def isInt64 : Value → Bool
  | int n => decide (minInt64 ≤ n ∧ n ≤ maxInt64)
  | real q _ => decide ((minInt64 : ℚ) ≤ q ∧ q < (maxInt64 : ℚ) + 1 ∧ (truncate q : ℚ) = q)
  | _ => false

/-- `operator[]` with a member name on a constant value. -/
def get (v : Value) (key : String) : Except Error Value :=
  match v with
  | null => .ok null
  | object members => .ok ((members.lookup key).getD null)
  | _ => .error .logic

def isMember (v : Value) (key : String) : Except Error Bool :=
  match v with
  | null => .ok false
  | object members => .ok (members.lookup key).isSome
  | _ => .error .logic

def asString : Value → Except Error String
  | null => .ok ""
  | string s => .ok s
  | bool b => .ok (if b then "true" else "false")
  | int n => .ok (toString n)
  | real _ text => .ok text
  | _ => .error .logic

/-- A real of exactly `2 ^ 63` passes the range test of jsoncpp, whose bound is rounded to a double,
and its conversion is then undefined; here it is out of range. -/
def asInt64 : Value → Except Error ℤ
  | null => .ok 0
  | bool b => .ok (if b then 1 else 0)
  | int n => if minInt64 ≤ n ∧ n ≤ maxInt64 then .ok n else .error .range
  | real q _ =>
      if (minInt64 : ℚ) ≤ q ∧ q ≤ (maxInt64 : ℚ) then .ok (truncate q) else .error .range
  | _ => .error .logic

def asBool : Value → Except Error Bool
  | null => .ok false
  | bool b => .ok b
  | int n => .ok (decide (n ≠ 0))
  | real q _ => .ok (decide (q ≠ 0))
  | _ => .error .logic

/-- The elements of an array; every other value has none. -/
def elements : Value → List Value
  | array items => items
  | _ => []

/-- The member of an object under a name; every other value has null there. -/
def field (v : Value) (key : String) : Value :=
  match v with
  | object members => (members.lookup key).getD null
  | _ => null

/-- The value is the string. -/
def isText (v : Value) (expected : String) : Bool :=
  match v with
  | string s => decide (s = expected)
  | _ => false

/-- The value is the number, written as an integer or not. -/
def IsNumber (v : Value) (n : ℤ) : Prop :=
  match v with
  | int m => m = n
  | real q _ => q = n
  | _ => False

theorem get_eq_field {v : Value} (h : v.isObject = true) (key : String) :
    v.get key = .ok (v.field key) := by
  cases v with
  | object members => rfl
  | _ => cases h

theorem isText_iff {v : Value} {expected : String} :
    v.isText expected = true ↔ v = .string expected := by
  cases v <;> simp [isText]

theorem asString_of_isString {v : Value} (h : v.isString = true) : ∃ s, v = .string s ∧
    v.asString = .ok s := by
  cases v with
  | string s => exact ⟨s, rfl, rfl⟩
  | _ => cases h

/-- A number that the type test admits converts to itself. -/
theorem asInt64_of_isInt64 {v : Value} (h : v.isInt64 = true) :
    ∃ n, v.asInt64 = .ok n ∧ v.IsNumber n := by
  cases v with
  | int n =>
      simp only [isInt64, decide_eq_true_eq] at h
      refine ⟨n, ?_, rfl⟩
      simp only [asInt64, if_pos h]
  | real q text =>
      simp only [isInt64, decide_eq_true_eq] at h
      obtain ⟨hmin, hmax, hwhole⟩ := h
      have hle : q ≤ (maxInt64 : ℚ) := by
        rw [← hwhole] at hmax ⊢
        have hlt : truncate q < maxInt64 + 1 := by exact_mod_cast hmax
        exact_mod_cast Int.lt_add_one_iff.mp hlt
      refine ⟨truncate q, ?_, hwhole.symm⟩
      simp only [asInt64, if_pos (And.intro hmin hle)]
  | _ => cases h

theorem elements_of_isArray {v : Value} (h : v.isArray = true) : v = .array v.elements := by
  cases v with
  | array items => rfl
  | _ => cases h

theorem asBool_of_isBool {v : Value} (h : v.isBool = true) : ∃ b, v = .bool b ∧ v.asBool = .ok b := by
  cases v with
  | bool b => exact ⟨b, rfl, rfl⟩
  | _ => cases h

/-- Member lookups on an object never throw. -/
theorem get_ok {v : Value} (h : v.isObject = true) (key : String) : ∃ found, v.get key = .ok found := by
  cases v with
  | object members => exact ⟨_, rfl⟩
  | _ => cases h

end Value

variable {α β : Type}

/-- A sequence that does not throw has a first part that does not. -/
theorem bind_eq_ok {ε : Type} {first : Except ε α} {next : α → Except ε β} {result : β} :
    first >>= next = .ok result ↔ ∃ value, first = .ok value ∧ next value = .ok result := by
  cases first with
  | error e => simp [bind, Except.bind]
  | ok value => simp [bind, Except.bind]

@[simp] theorem ok_bind (value : α) (next : α → Except Error β) :
    (.ok value : Except Error α) >>= next = next value := rfl

end JsonCpp
