import Ticketing.AdmissionStore
import Ticketing.Library.Allowance

/-!
# How fast a generation releases its members

The bucket of a generation keeps thousandths of a member and the latest time it has seen. Ticks come
at any times, the clock may go back, and pauses skip the bucket altogether. Only the loss of the
bucket breaks its record: the keys of a sale that is over expire, and one that begins anew at an
earlier time counts that time twice.
-/

namespace Ticketing.Admission

open Relational Expiring Allowance

def Store.bucket (s : Store) (generation : String) : Option Bucket :=
  (s.keys generation).release.content

def Store.recorded (s : Store) (generation : String) : Option ℕ :=
  (s.bucket generation).map Bucket.time

/-- How many members of the generation the calls release. -/
def releasedIn (generation : String) : Store → List Delivery → ℕ
  | _, [] => 0
  | s, d :: ds =>
      (if d.message.generation = generation then (s.handle d).released.length else 0) +
        releasedIn generation (s.after d) ds

/-- The recorded time after each of the calls that leaves one. -/
def recordedTimes (generation : String) : Store → List Delivery → List ℕ
  | _, [] => []
  | s, d :: ds =>
      ((s.after d).recorded generation).toList ++ recordedTimes generation (s.after d) ds

/-- Consecutive calls of a run, with those before and after them. -/
structure Interval (deliveries : List Delivery) where
  before : List Delivery
  first : Delivery
  between : List Delivery
  last : Delivery
  after : List Delivery
  splits : deliveries = before ++ first :: (between ++ last :: after)

namespace Interval

variable {deliveries : List Delivery}

def calls (i : Interval deliveries) : List Delivery := i.first :: (i.between ++ [i.last])

def start (i : Interval deliveries) (generation : String) : Option ℕ :=
  (storeAfter (i.before ++ [i.first])).recorded generation

def stop (i : Interval deliveries) (generation : String) : Option ℕ :=
  (storeAfter (i.before ++ i.calls)).recorded generation

def released (i : Interval deliveries) (generation : String) : ℕ :=
  releasedIn generation (storeAfter i.before) i.calls

/-- The recorded time never goes back, also where the bucket was lost and begun anew. -/
def Forward (i : Interval deliveries) (generation : String) : Prop :=
  (recordedTimes generation (storeAfter i.before) i.calls).Pairwise (· ≤ ·)

/-- The members released over the interval, against the time the bucket recorded. -/
def Bounded (i : Interval deliveries) (generation : String) (rate : ℕ) : Prop :=
  ∀ start stop, i.start generation = some start → i.stop generation = some stop →
    (i.released generation : ℚ) ≤ rate + rate * ((stop : ℚ) - start) / 1000

end Interval

namespace Room

theorem refill_none {room : Room} (p : Policy) (now : ℕ) (h : room.release.content = none) :
    room.refill p now = 0 := by
  have hprevious : room.previousRelease now = now := by
    unfold previousRelease
    rw [h]
    rfl
  unfold refill
  rw [h, hprevious]
  simp

end Room

namespace Room

variable {room : Room} {p : Policy} {now : ℕ}

end Room

section runs

variable {generation : String} {rate : ℕ}

end runs

end Ticketing.Admission
