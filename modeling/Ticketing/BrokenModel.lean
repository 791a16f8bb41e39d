import Ticketing.HoldRuns

/-!
# Hold scripts over a broken model

The wrapper of the hold scripts checks the derived model before an operation writes holds, and drops a
model that fails the check. The check does not cover a zone that is missing from the list of zones, so
a seat that is mapped to such a zone may still stop the script, before the operation or after it.
-/

namespace Ticketing.Availability

open Redis Script Relational

section Counters

/-- The number in a counter of a zone; a counter that is missing counts as 0. -/
def counterOf (slot : Slot) (field : String) : Option ℤ :=
  slot.fields.bind fun fields =>
    match fields field with
    | none => some 0
    | some text => integer text

/-- A counter can be moved by the amount. -/
def Countable (slot : Slot) (field : String) (amount : ℤ) : Prop :=
  ∃ n, counterOf slot field = some n ∧ minInt64 ≤ n + amount ∧ n + amount ≤ maxInt64

variable {store : Store Key} {env : Env} {key : Key}

/-- A stream, or a missing key, that takes another entry. -/
def Takes (slot : Slot) : Prop := ∃ stream, slot.stream = some stream ∧ stream.exhausted = false

end Counters

section Check

variable {store : Store Key} {env : Env}

end Check

section Seats

def zoneOf (store : Store Key) (seat : String) : Option String := fieldOf (store .seatZone) seat

def formalOf (store : Store Key) (seat : String) : Option SeatStatus :=
  ((fieldOf (store .formal) seat).bind formal).map Formal.status

def copyOf (store : Store Key) (seat : String) : Option Hold :=
  (fieldOf (store .holds) seat).bind hold

/-- The model maps the seat to this zone, and what it has of the seat can be read. -/
structure MappedTo (store : Store Key) (seat zone : String) : Prop where
  zone : zoneOf store seat = some zone
  formal : (formalOf store seat).isSome
  copy : (fieldOf (store .holds) seat).isSome → (copyOf store seat).isSome

/-- The seats of the zone to which the seat is mapped are a set. -/
def Readable (store : Store Key) (seat : String) : Prop :=
  ∀ zone, MappedTo store seat zone → (store (.zoneSeats zone)).members.isSome

/-- The seat passes the check. -/
def Listed (store : Store Key) (seat : String) : Prop :=
  ∃ zone, MappedTo store seat zone ∧ seat ∈ membersOf (store (.zoneSeats zone))

variable {store : Store Key} {env : Env}

theorem Listed.readable {seat : String} (h : Listed store seat) : Readable store seat := by
  obtain ⟨zone, hmapped, hmember⟩ := h
  intro other hother
  obtain rfl := Option.some.inj (hmapped.zone.symm.trans hother.zone)
  unfold membersOf at hmember
  cases hmembers : (store (.zoneSeats zone)).members with
  | none =>
      rw [hmembers] at hmember
      cases hmember
  | some members => rfl

theorem fieldOf_some {slot : Slot} {fields : String → Option String} (h : slot.fields = some fields)
    (field : String) : fieldOf slot field = fields field := by
  unfold fieldOf
  rw [h]
  rfl

/-- The model passes the check of the wrapper. -/
structure Checked (env : Env) (store : Store Key) (seats : List String) : Prop where
  healthy : healthy env store = .done true store
  listed : ∀ seat ∈ seats, Listed store seat

end Seats

section Told

def ownerBefore (store : Store Key) (seat : String) : Option String :=
  (copyOf store seat).map Hold.owner

/-- The owner of the hold that the operation leaves, while it has time to live. -/
def ownerAfter (now : ℕ) (raw : Holds) (seat : String) : Option String :=
  (liveHold now (raw seat)).map Held.owner

/-- How far the counter of held seats moves when a seat changes its owner. -/
def gained (status : SeatStatus) (old new : Option String) : ℤ :=
  if status = .available then (if new.isSome then 1 else 0) - (if old.isSome then 1 else 0) else 0

/-- The counters and the stream of a zone take the change of a seat. -/
def Told (status : SeatStatus) (old new : Option String) (summary changes : Slot) : Prop :=
  status = .available → (old ≠ new → Takes changes) ∧ (old.isSome ≠ new.isSome →
    Countable summary "held" (gained status old new) ∧
      Countable summary "available" (-gained status old new))

/-- The change of a seat is in the counters and in the stream. -/
structure Tells (status : SeatStatus) (old new : Option String) (zone : String)
    (store after : Store Key) : Prop where
  told : Told status old new (store (.zoneSummary zone)) (store (.zoneChanges zone))
  kept : ∀ key, key ≠ .zoneSummary zone → key ≠ .zoneChanges zone → after key = store key
  held : counterOf (after (.zoneSummary zone)) "held" =
    (counterOf (store (.zoneSummary zone)) "held").map (· + gained status old new)
  available : counterOf (after (.zoneSummary zone)) "available" =
    (counterOf (store (.zoneSummary zone)) "available").map (· + -gained status old new)
  takes : Takes (after (.zoneChanges zone)) ↔ Takes (store (.zoneChanges zone))

variable {store middle : Store Key} {env : Env} {zone seat : String} {maxlen : ℕ}
  {status : SeatStatus} {old new : Option String}

end Told

section Synced

/-- How far the seats of a zone move its counter of held seats. -/
def drift (now : ℕ) (store : Store Key) (raw : Holds) (zone : String) (seats : List String) : ℤ :=
  (seats.toFinset.filter fun seat => zoneOf store seat = some zone).sum fun seat =>
    gained ((formalOf store seat).getD .sold) (ownerBefore store seat) (ownerAfter now raw seat)

/-- The zone of the seat takes the change of its hold, after the seats in front. -/
def Fits (now : ℕ) (store : Store Key) (raw : Holds) (front : List String) (seat : String) : Prop :=
  ∀ zone, zoneOf store seat = some zone → formalOf store seat = some .available →
    (ownerBefore store seat ≠ ownerAfter now raw seat → Takes (store (.zoneChanges zone))) ∧
    ((ownerBefore store seat).isSome ≠ (ownerAfter now raw seat).isSome →
      Countable (store (.zoneSummary zone)) "held" (drift now store raw zone (front ++ [seat])) ∧
      Countable (store (.zoneSummary zone)) "available"
        (-drift now store raw zone (front ++ [seat])))

/-- The copies and the counters after the seats in front. -/
structure Brought (now : ℕ) (store : Store Key) (raw : Holds) (front : List String)
    (s : Store Key) : Prop where
  carries : Carries s raw
  zones : s .seatZone = store .seatZone
  formal : s .formal = store .formal
  copies : ∃ fields, (s .holds).fields = some fields
  expiry : ∃ scores, (s .holdExpiry).scores = some scores
  owners : ∀ seat, ownerBefore s seat =
    if seat ∈ front then ownerAfter now raw seat else ownerBefore store seat
  held : ∀ zone, counterOf (s (.zoneSummary zone)) "held" =
    (counterOf (store (.zoneSummary zone)) "held").map (· + drift now store raw zone front)
  available : ∀ zone, counterOf (s (.zoneSummary zone)) "available" =
    (counterOf (store (.zoneSummary zone)) "available").map (· + -drift now store raw zone front)
  takes : ∀ zone, Takes (s (.zoneChanges zone)) ↔ Takes (store (.zoneChanges zone))

variable {now : ℕ} {store s : Store Key} {raw : Holds} {front : List String} {seat zone : String}
  {env : Env} {maxlen : ℕ}

theorem drift_of_other (h : zoneOf store seat ≠ some zone) :
    drift now store raw zone (front ++ [seat]) = drift now store raw zone front := by
  unfold drift
  rw [List.toFinset_append, List.toFinset_cons, List.toFinset_nil, insert_empty_eq,
    Finset.filter_union, Finset.filter_singleton, if_neg h, Finset.union_empty]

theorem map_add_add (n : Option ℤ) (a b : ℤ) : (n.map (· + a)).map (· + b) = n.map (· + (a + b)) := by
  cases n with
  | none => rfl
  | some n => exact congrArg some (add_assoc n a b)

/-- One more copy is renewed, and its change told. -/
theorem Brought.tell (h : Brought now store raw front s) {middle after : Store Key}
    {copies : String → Option String} (hcopies : (s .holds).fields = some copies)
    (hrenewed : (middle .holds).fields = some
      (Function.update copies seat ((liveHold now (raw seat)).map Held.derivedText)))
    (hscores : ∃ scores, (middle .holdExpiry).scores = some scores)
    (hkept : ∀ key, key ≠ .holds → key ≠ .holdExpiry → middle key = s key)
    (hzone : zoneOf store seat = some zone) {status : SeatStatus} {old : Option String}
    (hdrift : drift now store raw zone (front ++ [seat]) = drift now store raw zone front +
      gained status old (ownerAfter now raw seat))
    (htells : Tells status old (ownerAfter now raw seat) zone middle after) :
    Brought now store raw (front ++ [seat]) after := by
  have hsame {key : Key} (hsummary : key ≠ .zoneSummary zone) (hchanges : key ≠ .zoneChanges zone)
      (hholds : key ≠ .holds) (hexpiry : key ≠ .holdExpiry) : after key = s key :=
    (htells.kept key hsummary hchanges).trans (hkept key hholds hexpiry)
  have hholds : (after .holds).fields = some
      (Function.update copies seat ((liveHold now (raw seat)).map Held.derivedText)) := by
    rw [htells.kept .holds (by simp) (by simp)]
    exact hrenewed
  refine ⟨h.carries.of_eq fun other => hsame (by simp) (by simp) (by simp) (by simp),
    (hsame (by simp) (by simp) (by simp) (by simp)).trans h.zones,
    (hsame (by simp) (by simp) (by simp) (by simp)).trans h.formal, ⟨_, hholds⟩, ?_, fun other => ?_,
    fun other => ?_, fun other => ?_, fun other => ?_⟩
  · rw [htells.kept .holdExpiry (by simp) (by simp)]
    exact hscores
  · unfold ownerBefore copyOf
    rw [fieldOf_some hholds]
    by_cases hother : other = seat
    · subst hother
      rw [Function.update_self, if_pos (List.mem_append_right _ (List.mem_singleton_self _))]
      refine copyOwner_eq fun found hfound => ?_
      exact h.carries.owner _ _ (Option.filter_eq_some_iff.mp hfound).1
    · have hbefore := h.owners other
      unfold ownerBefore copyOf at hbefore
      rw [fieldOf_some hcopies] at hbefore
      rw [Function.update_of_ne hother, hbefore]
      have hmem : other ∈ front ++ [seat] ↔ other ∈ front := by simp [hother]
      simp only [hmem]
  · by_cases hother : other = zone
    · subst hother
      rw [htells.held, hkept _ (by simp) (by simp), h.held, map_add_add, hdrift]
    · rw [hsame (by simpa using hother) (by simp) (by simp) (by simp), h.held,
        drift_of_other fun heq => hother (Option.some.inj (heq.symm.trans hzone))]
  · by_cases hother : other = zone
    · subst hother
      rw [htells.available, hkept _ (by simp) (by simp), h.available, map_add_add, hdrift, neg_add]
    · rw [hsame (by simpa using hother) (by simp) (by simp) (by simp), h.available,
        drift_of_other fun heq => hother (Option.some.inj (heq.symm.trans hzone))]
  · by_cases hother : other = zone
    · subst hother
      rw [htells.takes, hkept _ (by simp) (by simp)]
      exact h.takes other
    · rw [hsame (by simp) (by simpa using hother) (by simp) (by simp)]
      exact h.takes other

end Synced

section Transparency

variable {store : Store Key} {env : Env} {raw : Holds} {maxlen : ℕ} {call : Call}

end Transparency

end Ticketing.Availability
