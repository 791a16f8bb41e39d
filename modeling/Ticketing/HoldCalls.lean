import Ticketing.AvailabilityScripts
import Ticketing.Library.ScriptRules

/-!
# What the hold scripts do to the holds

The raw keys of a session carry a map from seats to holds. Each of the five operations has an
effect on that map, and its script carries the effect out; inside the wrapper it either does so or
leaves the holds as they are, whatever the derived model contains.
-/

namespace Ticketing.Availability

open Redis Script

/-- A hold: what its value says, and when its time runs out. -/
structure Held where
  owner : String
  revision : ℕ
  deadline : ℕ
  deriving DecidableEq

def Held.text (held : Held) : String := formatHold held.owner (toString held.revision)

def Held.entry (held : Held) : Entry := ⟨.string held.text, some held.deadline⟩

abbrev Holds := String → Option Held

namespace Holds

def visible (now : ℕ) (raw : Holds) : Holds :=
  fun seat => (raw seat).filter fun held => decide (now ≤ held.deadline)

/-- Some of the seats is held by another owner. -/
def foreign (raw : Holds) (owner : String) (seats : List String) : Bool :=
  seats.any fun seat => (raw seat).any fun held => decide (held.owner ≠ owner)

def take (raw : Holds) (held : Held) (seats : List String) : Holds :=
  fun seat => if seat ∈ seats then some held else raw seat

/-- What refreshing a hold leaves: its value with a new deadline, or a new hold. -/
def kept (held : Held) : Option Held → Held
  | none => held
  | some old => { old with deadline := held.deadline }

def keep (raw : Holds) (held : Held) (seats : List String) : Holds :=
  fun seat => if seat ∈ seats then some (kept held (raw seat)) else raw seat

def drop (raw : Holds) (judge : Held → Bool) (seats : List String) : Holds :=
  fun seat => if seat ∈ seats then (raw seat).filter fun held => !judge held else raw seat

/-- Every hold of `raw'` is in `raw`. -/
def Within (raw' raw : Holds) : Prop := ∀ seat held, raw' seat = some held → raw seat = some held

theorem Within.refl (raw : Holds) : raw.Within raw := fun _ _ h => h

theorem Within.trans {raw raw' raw'' : Holds} (h : raw''.Within raw') (h' : raw'.Within raw) :
    raw''.Within raw := fun seat held hheld => h' seat held (h seat held hheld)

theorem visible_within (now : ℕ) (raw : Holds) : (raw.visible now).Within raw :=
  fun _ _ h => (Option.filter_eq_some_iff.mp h).1

theorem delete_within (raw : Holds) (seat : String) :
    Within (Function.update raw seat none) raw := by
  intro other held hheld
  by_cases hseat : other = seat
  · subst hseat
    rw [Function.update_self] at hheld
    cases hheld
  · rwa [Function.update_of_ne hseat] at hheld

theorem drop_within (raw : Holds) (judge : Held → Bool) (seats : List String) :
    (raw.drop judge seats).Within raw := by
  intro seat held hheld
  unfold drop at hheld
  by_cases hseat : seat ∈ seats
  · rw [if_pos hseat] at hheld
    exact (Option.filter_eq_some_iff.mp hheld).1
  · rwa [if_neg hseat] at hheld

theorem foreign_eq_false (raw : Holds) (owner : String) (seats : List String) :
    raw.foreign owner seats = false ↔
      ∀ seat ∈ seats, ∀ held, raw seat = some held → held.owner = owner := by
  unfold foreign
  constructor
  · intro h seat hseat held hheld
    have hnone := List.any_eq_false.mp h seat hseat
    rw [hheld] at hnone
    simpa using hnone
  · intro h
    apply List.any_eq_false.mpr
    intro seat hseat
    cases hheld : raw seat with
    | none => simp
    | some held => simpa using h seat hseat held hheld

theorem take_cons (raw : Holds) (held : Held) (seat : String) (seats : List String) :
    take (Function.update raw seat (some held)) held seats = take raw held (seat :: seats) := by
  funext other
  unfold take
  by_cases hseat : other = seat
  · subst hseat
    simp
  · rw [Function.update_of_ne hseat]
    simp [hseat]

theorem keep_cons (raw : Holds) (held : Held) (seat : String) (seats : List String) :
    keep (Function.update raw seat (some (kept held (raw seat)))) held seats =
      keep raw held (seat :: seats) := by
  funext other
  unfold keep
  by_cases hseat : other = seat
  · subst hseat
    have htwice : kept held (some (kept held (raw other))) = kept held (raw other) := by
      cases raw other <;> rfl
    simp [htwice]
  · rw [Function.update_of_ne hseat]
    simp [hseat]

theorem drop_cons_of_judged {raw : Holds} {judge : Held → Bool} {seat : String} {held : Held}
    (hheld : raw seat = some held) (h : judge held = true) (seats : List String) :
    drop (Function.update raw seat none) judge seats = drop raw judge (seat :: seats) := by
  funext other
  unfold drop
  by_cases hseat : other = seat
  · subst hseat
    simp [hheld, Option.filter, h]
  · rw [Function.update_of_ne hseat]
    simp [hseat]

theorem drop_cons_of_kept {raw : Holds} {judge : Held → Bool} {seat : String}
    (h : (raw seat).all (fun held => !judge held) = true) (seats : List String) :
    drop raw judge seats = drop raw judge (seat :: seats) := by
  have hself : (raw seat).filter (fun held => !judge held) = raw seat := by
    cases hheld : raw seat with
    | none => rfl
    | some held =>
        rw [hheld] at h
        exact Option.filter_eq_some_iff.mpr ⟨rfl, h⟩
  funext other
  unfold drop
  by_cases hseat : other = seat
  · subst hseat
    simp [hself]
  · simp [hseat]

theorem kept_owner (held : Held) {old : Option Held}
    (h : ∀ found, old = some found → found.owner = held.owner) :
    (kept held old).owner = held.owner := by
  cases old with
  | none => rfl
  | some found => exact h found rfl

/-- Writing seats that nobody else holds leaves the holds of others. -/
theorem take_foreign {raw : Holds} {written held : Held} {seats : List String}
    (hfree : ∀ seat ∈ seats, ∀ old, raw seat = some old → old.owner = written.owner)
    (howner : held.owner ≠ written.owner) (seat : String) :
    raw.take written seats seat = some held ↔ raw seat = some held := by
  unfold take
  by_cases hseat : seat ∈ seats
  · rw [if_pos hseat]
    constructor
    · rintro h
      exact absurd (congrArg Held.owner (Option.some.inj h)).symm howner
    · intro h
      exact absurd (hfree seat hseat held h) howner
  · rw [if_neg hseat]

theorem keep_foreign {raw : Holds} {written held : Held} {seats : List String}
    (hfree : ∀ seat ∈ seats, ∀ old, raw seat = some old → old.owner = written.owner)
    (howner : held.owner ≠ written.owner) (seat : String) :
    raw.keep written seats seat = some held ↔ raw seat = some held := by
  unfold keep
  by_cases hseat : seat ∈ seats
  · rw [if_pos hseat]
    constructor
    · rintro h
      have hkept := kept_owner written (hfree seat hseat)
      rw [Option.some.inj h] at hkept
      exact absurd hkept howner
    · intro h
      exact absurd (hfree seat hseat held h) howner
  · rw [if_neg hseat]

theorem drop_of_not_judged {raw : Holds} {judge : Held → Bool} {held : Held}
    (h : judge held = false) (seats : List String) (seat : String) :
    raw.drop judge seats seat = some held ↔ raw seat = some held := by
  unfold drop
  by_cases hseat : seat ∈ seats
  · rw [if_pos hseat, Option.filter_eq_some_iff]
    simp [h]
  · rw [if_neg hseat]

end Holds

/-- The raw keys of a store carry these holds, and every owner can be read back. -/
structure Carries (store : Store Key) (raw : Holds) : Prop where
  slot : ∀ seat, store (.hold seat) = (raw seat).map Held.entry
  owner : ∀ seat held, raw seat = some held → OwnerName held.owner

theorem rawhold_text {held : Held} (h : OwnerName held.owner) :
    rawhold held.text = some ⟨held.owner, toString held.revision⟩ :=
  rawhold_formatHold h held.revision

namespace Carries

variable {store : Store Key} {raw : Holds}

theorem text (h : Carries store raw) (seat : String) :
    (store (.hold seat)).text = some ((raw seat).map Held.text) := by
  rw [h.slot seat]
  cases raw seat <;> rfl

theorem visible (h : Carries store raw) (now : ℕ) :
    Carries (store.visible now) (raw.visible now) := by
  constructor
  · intro seat
    show Slot.visible now (store (.hold seat)) = _
    rw [h.slot seat]
    unfold Holds.visible Slot.visible
    cases hheld : raw seat with
    | none => rfl
    | some held =>
        by_cases hlive : now ≤ held.deadline
        · simp [Held.entry, Option.filter, hlive]
        · simp [Held.entry, Option.filter, hlive]
  · intro seat held hheld
    exact h.owner seat held (Option.filter_eq_some_iff.mp hheld).1

theorem set (h : Carries store raw) (held : Held) (howner : OwnerName held.owner) (seat : String) :
    Carries (Function.update store (.hold seat) (some held.entry))
      (Function.update raw seat (some held)) := by
  constructor
  · intro other
    by_cases hseat : other = seat
    · subst hseat
      simp
    · rw [Function.update_of_ne hseat, Function.update_of_ne (by simpa using hseat)]
      exact h.slot other
  · intro other found hfound
    by_cases hseat : other = seat
    · subst hseat
      rw [Function.update_self] at hfound
      obtain rfl := Option.some.inj hfound
      exact howner
    · rw [Function.update_of_ne hseat] at hfound
      exact h.owner other found hfound

theorem delete (h : Carries store raw) (seat : String) :
    Carries (Function.update store (.hold seat) none) (Function.update raw seat none) := by
  constructor
  · intro other
    by_cases hseat : other = seat
    · subst hseat
      simp
    · rw [Function.update_of_ne hseat, Function.update_of_ne (by simpa using hseat)]
      exact h.slot other
  · intro other found hfound
    by_cases hseat : other = seat
    · subst hseat
      rw [Function.update_self] at hfound
      cases hfound
    · rw [Function.update_of_ne hseat] at hfound
      exact h.owner other found hfound

/-- Writes to other keys leave the holds. -/
theorem of_eq {store' : Store Key} (h : Carries store raw)
    (hsame : ∀ seat, store' (.hold seat) = store (.hold seat)) : Carries store' raw :=
  ⟨fun seat => (hsame seat).trans (h.slot seat), h.owner⟩

end Carries

theorem ownerText_text {held : Held} (h : OwnerName held.owner) :
    ownerText held.text = some held.owner := by
  have htext : held.text.toList = held.owner.toList ++ '|' :: (toString held.revision).toList := by
    simp [Held.text, formatHold]
  unfold ownerText
  rw [htext, cut_append h.2, Option.map_some, String.ofList_toList]

theorem refusal_spec {store : Store Key} {raw : Holds} (h : Carries store raw) (owner : String)
    (env : Env) (seats : List String) : refusal owner seats env store =
      .done (if raw.foreign owner seats then some (.integer 0) else none) store := by
  induction seats with
  | nil => rfl
  | cons seat seats ih =>
      have hget : Redis.get (.hold seat) env store = .done ((raw seat).map Held.text) store :=
        readKey_some (h.text seat)
      unfold refusal
      rw [bind_of_done hget]
      cases hheld : raw seat with
      | none =>
          have hrest : raw.foreign owner (seat :: seats) = raw.foreign owner seats := by
            simp [Holds.foreign, hheld]
          rw [hrest]
          exact ih
      | some held =>
          dsimp only [Option.map_some]
          rw [ownerText_text (h.owner seat held hheld)]
          dsimp only
          by_cases howner : held.owner = owner
          · have hrest : raw.foreign owner (seat :: seats) = raw.foreign owner seats := by
              simp [Holds.foreign, hheld, howner]
            rw [if_neg (not_not.mpr howner), hrest]
            exact ih
          · have hfound : raw.foreign owner (seat :: seats) = true := by
              simp [Holds.foreign, hheld, howner]
            rw [if_pos howner, hfound]
            rfl

section Loops

variable {store : Store Key} {raw : Holds} {env : Env} {owner : String} {revision ttl : ℕ}

theorem takeSeats_spec (h : Carries store raw) (howner : OwnerName owner) (httl : ttl ≠ 0)
    (seats : List String) : Wp (forEach (takeSeat owner revision ttl) seats) env store
      (fun _ after => Carries after (raw.take ⟨owner, revision, env.now + ttl⟩ seats))
      fun _ => False := by
  induction seats generalizing store raw with
  | nil => exact wp_pure h
  | cons seat seats ih =>
      refine wp_bind (wp_setPx httl ?_)
      rw [← Holds.take_cons]
      exact ih (h.set ⟨owner, revision, env.now + ttl⟩ howner seat)

theorem keepSeat_spec (h : Carries store raw) (howner : OwnerName owner) (httl : ttl ≠ 0)
    (seat : String) : Wp (keepSeat owner revision ttl seat) env store
      (fun _ after => Carries after (Function.update raw seat
        (some (Holds.kept ⟨owner, revision, env.now + ttl⟩ (raw seat))))) fun _ => False := by
  refine wp_bind (wp_get (h.text seat) ?_)
  cases hheld : raw seat with
  | none => exact wp_setPx httl (h.set ⟨owner, revision, env.now + ttl⟩ howner seat)
  | some held =>
      have hslot : store (.hold seat) = some held.entry := by
        rw [h.slot seat, hheld]
        rfl
      exact wp_bind (wp_pexpire httl hslot (wp_pure (h.set
        { held with deadline := env.now + ttl } (h.owner seat held hheld) seat)))

theorem keepSeats_spec (h : Carries store raw) (howner : OwnerName owner) (httl : ttl ≠ 0)
    (seats : List String) : Wp (forEach (keepSeat owner revision ttl) seats) env store
      (fun _ after => Carries after (raw.keep ⟨owner, revision, env.now + ttl⟩ seats))
      fun _ => False := by
  induction seats generalizing store raw with
  | nil => exact wp_pure h
  | cons seat seats ih =>
      refine wp_bind (wp_mono (keepSeat_spec h howner httl seat) ?_ fun _ => id)
      intro _ after hafter
      rw [← Holds.keep_cons]
      exact ih hafter

/-- A judge of values that is a judge of holds deletes what it says. -/
theorem deleteHolds_spec {judge : String → Except String Bool} (judged : Held → Bool)
    (hjudge : ∀ held, OwnerName held.owner → judge held.text = .ok (judged held))
    (h : Carries store raw) (deleted : ℕ) (seats : List String) :
    Wp (deleteHolds judge deleted seats) env store
      (fun reply after => (∃ n, reply = .integer n) ∧ Carries after (raw.drop judged seats))
      fun _ => False := by
  induction seats generalizing store raw deleted with
  | nil => exact wp_pure ⟨⟨deleted, rfl⟩, h⟩
  | cons seat seats ih =>
      refine wp_bind (wp_get (h.text seat) ?_)
      cases hheld : raw seat with
      | none =>
          rw [← Holds.drop_cons_of_kept (by rw [hheld]; rfl)]
          exact ih h deleted
      | some held =>
          dsimp only [Option.map_some]
          rw [hjudge held (h.owner seat held hheld)]
          cases hresult : judged held with
          | false =>
              rw [← Holds.drop_cons_of_kept (by rw [hheld]; simp [hresult])]
              exact ih h deleted
          | true =>
              rw [← Holds.drop_cons_of_judged hheld hresult]
              exact wp_bind (wp_del (ih (h.delete seat) _))

end Loops

section Judges

theorem Held.eq_of_text {a b : Held} (ha : OwnerName a.owner) (hb : OwnerName b.owner)
    (h : a.text = b.text) : a.owner = b.owner ∧ a.revision = b.revision := by
  have hread := rawhold_text ha
  rw [h, rawhold_text hb, Option.some.injEq, RawHold.mk.injEq] at hread
  have hrevision := natural_toString a.revision
  rw [← hread.2, natural_toString] at hrevision
  exact ⟨hread.1.symm, (Option.some.inj hrevision).symm⟩

theorem abortJudge_text {owner : String} {held : Held} (h : OwnerName held.owner)
    (howner : OwnerName owner) (target : ℕ) : abortJudge owner target held.text =
      .ok (decide (held.owner = owner ∧ held.revision = target)) := by
  have hvalue : held.text = formatHold owner (toString target) ↔
      held.owner = owner ∧ held.revision = target := by
    constructor
    · intro heq
      have hsame : held.text = Held.text ⟨owner, target, held.deadline⟩ := heq
      exact Held.eq_of_text h howner hsame
    · rintro ⟨rfl, rfl⟩
      rfl
  unfold abortJudge
  simp only [hvalue]

theorem finalizeJudge_text {owner : String} {held : Held} (h : OwnerName held.owner) (target : ℕ) :
    finalizeJudge owner target held.text =
      .ok (decide (held.owner = owner ∧ held.revision ≤ target)) := by
  have htext : held.text.toList = held.owner.toList ++ '|' :: Nat.toDigits 10 held.revision := by
    simp [Held.text, formatHold]
  have hnumber : tonumber (Nat.toDigits 10 held.revision) = held.revision := by
    unfold tonumber
    exact Nat.ofDigitChars_ten_toDigits
  unfold finalizeJudge
  rw [htext, cut_append h.2]
  dsimp only
  rw [if_neg (by rw [digits_toDigits]; decide), hnumber, String.ofList_toList]

theorem releaseJudge_text {owner : String} {held : Held} (h : OwnerName held.owner) :
    releaseJudge owner held.text = .ok (decide (held.owner = owner)) := by
  unfold releaseJudge
  rw [ownerText_text h]
  simp only [Option.some.injEq]

end Judges

/-- The operations of the hold service. -/
inductive Call where
  | prepare (owner : String) (base target ttl : ℕ) (added retained : List String)
  | ensure (owner : String) (revision ttl : ℕ) (seats : List String)
  | abort (owner : String) (target : ℕ) (added : List String)
  | finalize (owner : String) (target : ℕ) (removed : List String)
  | release (owner : String) (seats : List String)
  deriving DecidableEq

namespace Call

def owner : Call → String
  | prepare owner _ _ _ _ _ => owner
  | ensure owner _ _ _ => owner
  | abort owner _ _ => owner
  | finalize owner _ _ => owner
  | release owner _ => owner

def seats : Call → List String
  | prepare _ _ _ _ added retained => added ++ retained
  | ensure _ _ _ seats => seats
  | abort _ _ added => added
  | finalize _ _ removed => removed
  | release _ seats => seats

def script : Call → Script Key Reply
  | prepare owner base target ttl added retained =>
      Availability.prepare owner base target ttl added retained
  | ensure owner revision ttl seats => Availability.ensure owner revision ttl seats
  | abort owner target added => Availability.abort owner target added
  | finalize owner target removed => Availability.finalize owner target removed
  | release owner seats => Availability.release owner seats

/-- The script as it is sent. -/
def run (maxlen : ℕ) (call : Call) : Script Key Reply := wrapHold maxlen call.seats call.script

/-- The time to live of a call that writes holds. -/
def ttl : Call → Option ℕ
  | prepare _ _ _ ttl _ _ => some ttl
  | ensure _ _ ttl _ => some ttl
  | _ => none

/-- The service makes no call without a positive time to live. -/
def Valid (call : Call) : Prop := OwnerName call.owner ∧ call.ttl ≠ some 0

/-- The holds that an abort, a finalize or a release deletes. -/
def judge : Call → Held → Bool
  | abort owner target _, held => decide (held.owner = owner ∧ held.revision = target)
  | finalize owner target _, held => decide (held.owner = owner ∧ held.revision ≤ target)
  | release owner _, held => decide (held.owner = owner)
  | _, _ => false

/-- The seats of a call that writes holds are held by another owner. -/
def conflicts (raw : Holds) (call : Call) : Bool :=
  call.ttl.isSome && raw.foreign call.owner call.seats

def effect (now : ℕ) (raw : Holds) (call : Call) : Holds :=
  if call.conflicts raw then raw
  else
    match call with
    | prepare owner base target ttl added retained =>
        (raw.take ⟨owner, target, now + ttl⟩ added).keep ⟨owner, base, now + ttl⟩ retained
    | ensure owner revision ttl seats => raw.keep ⟨owner, revision, now + ttl⟩ seats
    | call => raw.drop call.judge call.seats

/-- What the reply says: whether there was a conflict, or a count of deleted holds. -/
def Answers (raw : Holds) (call : Call) (reply : Reply) : Prop :=
  if call.ttl.isSome then reply = .integer (if call.conflicts raw then 0 else 1)
  else ∃ n, reply = .integer n

theorem judge_owner {call : Call} {held : Held} (h : call.judge held = true) :
    held.owner = call.owner := by
  cases call with
  | prepare owner base target ttl added retained => cases h
  | ensure owner revision ttl seats => cases h
  | abort owner target added => exact (of_decide_eq_true h).1
  | finalize owner target removed => exact (of_decide_eq_true h).1
  | release owner seats => exact of_decide_eq_true h

/-- A call that writes holds and answers 1 found no hold of another owner. -/
theorem conflicts_of_answers {call : Call} {raw : Holds} (httl : call.ttl.isSome = true)
    (h : call.Answers raw (.integer 1)) : call.conflicts raw = false := by
  unfold Answers at h
  rw [if_pos httl] at h
  by_contra hconflict
  rw [if_pos (Bool.eq_true_of_not_eq_false hconflict)] at h
  cases h

/-- A call without a time to live deletes what it judges so. -/
theorem effect_of_delete {call : Call} (h : call.ttl = none) (now : ℕ) (raw : Holds) :
    call.effect now raw = raw.drop call.judge call.seats := by
  unfold effect conflicts
  rw [h, if_neg (by simp)]
  cases call with
  | prepare owner base target ttl added retained => cases h
  | ensure owner revision ttl seats => cases h
  | abort owner target added => rfl
  | finalize owner target removed => rfl
  | release owner seats => rfl

/-- A call has no effect on the holds of other owners. -/
theorem effect_foreign {call : Call} {held : Held} (h : held.owner ≠ call.owner) (now : ℕ)
    (raw : Holds) (seat : String) :
    call.effect now raw seat = some held ↔ raw seat = some held := by
  by_cases hconflict : call.conflicts raw = true
  · unfold effect
    rw [if_pos hconflict]
  cases hcall : call.ttl with
  | none =>
      rw [effect_of_delete hcall]
      refine Holds.drop_of_not_judged ?_ _ _
      by_contra hjudged
      exact h (judge_owner (Bool.eq_true_of_not_eq_false hjudged))
  | some ttl =>
      have hfree : raw.foreign call.owner call.seats = false := by
        simpa [conflicts, hcall] using hconflict
      rw [Holds.foreign_eq_false] at hfree
      unfold effect
      rw [if_neg hconflict]
      cases call with
      | prepare owner base target ttl added retained =>
          have hadded : ∀ seat ∈ added, ∀ old, raw seat = some old → old.owner = owner :=
            fun seat hseat => hfree seat (List.mem_append_left _ hseat)
          refine (Holds.keep_foreign ?_ h seat).trans (Holds.take_foreign hadded h seat)
          intro other hother old hold
          by_cases hwritten : other ∈ added
          · unfold Holds.take at hold
            rw [if_pos hwritten] at hold
            exact (congrArg Held.owner (Option.some.inj hold)).symm
          · unfold Holds.take at hold
            rw [if_neg hwritten] at hold
            exact hfree other (List.mem_append_right _ hother) old hold
      | ensure owner revision ttl seats => exact Holds.keep_foreign hfree h seat
      | abort owner target added => cases hcall
      | finalize owner target removed => cases hcall
      | release owner seats => cases hcall

/-- The script of a call has its effect and answers as it should. -/
theorem script_spec {store : Store Key} {raw : Holds} (h : Carries store raw) {call : Call}
    (hvalid : call.Valid) (env : Env) : Wp call.script env store
      (fun reply after => call.Answers raw reply ∧ Carries after (call.effect env.now raw))
      fun _ => False := by
  obtain ⟨howner, httl⟩ := hvalid
  cases call with
  | prepare owner base target ttl added retained =>
      have hpositive : ttl ≠ 0 := fun hzero => httl (congrArg some hzero)
      refine wp_bind (wp_of_done (refusal_spec h owner env _) ?_)
      by_cases hforeign : raw.foreign owner (added ++ retained) = true
      · rw [if_pos hforeign]
        refine wp_pure ⟨?_, ?_⟩
        · simp [Answers, conflicts, Call.ttl, Call.owner, Call.seats, hforeign]
        · simpa [effect, conflicts, Call.ttl, Call.owner, Call.seats, hforeign] using h
      · rw [if_neg hforeign]
        refine wp_bind (wp_mono (takeSeats_spec h howner hpositive added) ?_ fun _ => id)
        intro _ middle hmiddle
        refine wp_bind (wp_mono (keepSeats_spec hmiddle howner hpositive retained) ?_ fun _ => id)
        intro _ after hafter
        refine wp_pure ⟨?_, ?_⟩
        · simp [Answers, conflicts, Call.ttl, Call.owner, Call.seats, hforeign]
        · simpa [effect, conflicts, Call.ttl, Call.owner, Call.seats, hforeign] using hafter
  | ensure owner revision ttl seats =>
      have hpositive : ttl ≠ 0 := fun hzero => httl (congrArg some hzero)
      refine wp_bind (wp_of_done (refusal_spec h owner env _) ?_)
      by_cases hforeign : raw.foreign owner seats = true
      · rw [if_pos hforeign]
        refine wp_pure ⟨?_, ?_⟩
        · simp [Answers, conflicts, Call.ttl, Call.owner, Call.seats, hforeign]
        · simpa [effect, conflicts, Call.ttl, Call.owner, Call.seats, hforeign] using h
      · rw [if_neg hforeign]
        refine wp_bind (wp_mono (keepSeats_spec h howner hpositive seats) ?_ fun _ => id)
        intro _ after hafter
        refine wp_pure ⟨?_, ?_⟩
        · simp [Answers, conflicts, Call.ttl, Call.owner, Call.seats, hforeign]
        · simpa [effect, conflicts, Call.ttl, Call.owner, Call.seats, hforeign] using hafter
  | abort owner target added =>
      exact deleteHolds_spec (judge (abort owner target added))
        (fun held hheld => abortJudge_text hheld howner target) h 0 added
  | finalize owner target removed =>
      exact deleteHolds_spec (judge (finalize owner target removed))
        (fun held hheld => finalizeJudge_text hheld target) h 0 removed
  | release owner seats =>
      exact deleteHolds_spec (judge (release owner seats))
        (fun held hheld => releaseJudge_text hheld) h 0 seats

end Call

section Frames

/-- A key of the derived model. -/
def Key.Derived (key : Key) : Prop := ∀ seat, key ≠ .hold seat

def Key.Raw (key : Key) : Prop := ∃ seat, key = .hold seat

theorem readOnly_compatible (key : Key) (kind : Kind) : ReadOnly (compatible key kind) :=
  writes_bind writes_typeOf fun _ => writes_pure _

theorem readOnly_ready : ReadOnly ready := by
  refine writes_bind (readOnly_compatible _ _) fun found => ?_
  cases found
  · exact writes_pure _
  · exact writes_bind writes_readKey fun _ => writes_pure _

theorem readOnly_zoneHealthy (zone : String) : ReadOnly (zoneHealthy zone) := by
  refine writes_bind writes_typeOf fun _ => writes_bind writes_typeOf fun _ =>
    writes_bind writes_typeOf fun _ => writes_ite (writes_pure _) ?_
  exact writes_bind writes_readKey fun _ => writes_bind writes_readKey fun _ =>
    writes_bind writes_readKey fun _ => writes_bind writes_readKey fun _ =>
      writes_bind writes_readKey fun _ => writes_pure _

theorem readOnly_healthy : ReadOnly healthy := by
  refine writes_bind readOnly_ready fun isReady => ?_
  cases isReady
  · exact writes_pure _
  refine writes_bind (writes_allM fun entry _ => readOnly_compatible _ _) fun passed => ?_
  cases passed
  · exact writes_pure _
  refine writes_bind (writes_allM fun entry _ =>
    writes_bind writes_typeOf fun _ => writes_pure _) fun passed => ?_
  cases passed
  · exact writes_pure _
  · exact writes_bind writes_readKey fun _ => writes_allM fun zone _ => readOnly_zoneHealthy zone

theorem readOnly_validseat (seat : String) : ReadOnly (validseat seat) := by
  refine writes_bind writes_readKey fun zone => ?_
  cases zone with
  | none => exact writes_pure _
  | some zone =>
      exact writes_bind writes_readKey fun _ => writes_ite (writes_pure _)
        (writes_bind writes_readKey fun _ => writes_ite (writes_pure _) writes_readKey)

theorem writes_invalidate : Writes Key.Derived invalidate :=
  writes_bind (writes_del fun _ => nofun) fun _ => writes_pure _

theorem writes_checkModel (seats : List String) : Writes Key.Derived (checkModel seats) := by
  have hdrop : Writes Key.Derived (do invalidate; pure false) :=
    writes_bind writes_invalidate fun _ => writes_pure _
  refine writes_bind readOnly_ready.writes fun isReady => ?_
  cases isReady
  · exact writes_pure _
  refine writes_bind readOnly_healthy.writes fun isHealthy => ?_
  cases isHealthy
  · exact hdrop
  refine writes_bind (writes_allM fun seat _ => (readOnly_validseat seat).writes) fun passed => ?_
  cases passed
  · exact hdrop
  · exact writes_pure _

theorem writes_increase (zone : Option String) (status : Option SeatStatus) (amount : ℤ) :
    Writes Key.Derived (increase zone status amount) := by
  cases zone with
  | none => exact writes_raise _
  | some zone =>
      cases status with
      | none => exact writes_raise _
      | some status => exact writes_hincrby fun _ => nofun

theorem writes_summarychange (zone : Option String) (old new : Option SeatStatus) :
    Writes Key.Derived (summarychange zone old new) :=
  writes_ite (writes_pure _) (writes_bind (writes_increase _ _ _) fun _ => writes_increase _ _ _)

theorem writes_change (zone : Option String) (seat : String) (maxlen : ℕ) :
    Writes Key.Derived (change zone seat maxlen) := by
  cases zone with
  | none => exact writes_raise _
  | some zone => exact writes_xadd fun _ => nofun

theorem writes_copyHold (seat : String) (raw : Option String) (ttl : ℤ) :
    Writes Key.Derived (copyHold seat raw ttl) := by
  unfold copyHold
  split
  · exact writes_bind writes_now fun _ => writes_bind (writes_hset fun _ => nofun) fun _ =>
      writes_zadd fun _ => nofun
  · exact writes_bind (writes_hdel fun _ => nofun) fun _ => writes_zrem fun _ => nofun

theorem writes_synchold (seat : String) (maxlen : ℕ) :
    Writes Key.Derived (synchold seat maxlen) := by
  refine writes_bind writes_readKey fun _ => writes_bind writes_readKey fun _ =>
    writes_bind writes_readKey fun _ => writes_bind writes_readKey fun _ =>
      writes_bind writes_pttl fun _ => ?_
  exact writes_bind (writes_copyHold _ _ _) fun _ => writes_bind (writes_summarychange _ _ _)
    fun _ => writes_ite (writes_change _ _ _) (writes_pure _)

theorem readOnly_refusal (owner : String) (seats : List String) :
    ReadOnly (refusal owner seats) := by
  induction seats with
  | nil => exact writes_pure _
  | cons seat seats ih =>
      refine writes_bind writes_readKey fun value => ?_
      cases value with
      | none => exact ih
      | some value =>
          dsimp only
          cases ownerText value with
          | none => exact writes_pure _
          | some current => exact writes_ite (writes_pure _) ih

theorem writes_takeSeat (owner : String) (revision ttl : ℕ) (seat : String) :
    Writes Key.Raw (takeSeat owner revision ttl seat) := writes_setPx ⟨seat, rfl⟩

theorem writes_keepSeat (owner : String) (revision ttl : ℕ) (seat : String) :
    Writes Key.Raw (keepSeat owner revision ttl seat) :=
  writes_bind writes_readKey fun _ => writes_ite
    (writes_bind (writes_pexpire ⟨seat, rfl⟩) fun _ => writes_pure _) (writes_setPx ⟨seat, rfl⟩)

theorem writes_deleteHolds (judge : String → Except String Bool) (deleted : ℕ)
    (seats : List String) : Writes Key.Raw (deleteHolds judge deleted seats) := by
  induction seats generalizing deleted with
  | nil => exact writes_pure _
  | cons seat seats ih =>
      refine writes_bind writes_readKey fun value => ?_
      cases value with
      | none => exact ih deleted
      | some value =>
          dsimp only
          cases judge value with
          | error message => exact writes_pure _
          | ok judged =>
              cases judged
              · exact ih deleted
              · exact writes_bind (writes_del ⟨seat, rfl⟩) fun _ => ih _

theorem Call.writes_script (call : Call) : Writes Key.Raw call.script := by
  cases call with
  | prepare owner base target ttl added retained =>
      refine writes_bind (readOnly_refusal _ _).writes fun reply => ?_
      cases reply with
      | some reply => exact writes_pure _
      | none =>
          exact writes_bind (writes_forEach fun seat _ => writes_takeSeat _ _ _ seat) fun _ =>
            writes_bind (writes_forEach fun seat _ => writes_keepSeat _ _ _ seat) fun _ =>
              writes_pure _
  | ensure owner revision ttl seats =>
      refine writes_bind (readOnly_refusal _ _).writes fun reply => ?_
      cases reply with
      | some reply => exact writes_pure _
      | none =>
          exact writes_bind (writes_forEach fun seat _ => writes_keepSeat _ _ _ seat) fun _ =>
            writes_pure _
  | abort owner target added => exact writes_deleteHolds _ _ _
  | finalize owner target removed => exact writes_deleteHolds _ _ _
  | release owner seats => exact writes_deleteHolds _ _ _

end Frames

section Wrapped

variable {store : Store Key} {raw : Holds}

theorem compatible_hold (h : Carries store raw) (seat : String) (env : Env) :
    compatible (.hold seat) .string env store = .done true store := by
  have hkind : (store (.hold seat)).kind = none ∨ (store (.hold seat)).kind = some .string := by
    rw [h.slot seat]
    cases raw seat with
    | none => exact Or.inl rfl
    | some held => exact Or.inr rfl
  exact congrArg (fun passed => Outcome.done passed store) (decide_eq_true hkind)

theorem rawhold_map (h : Carries store raw) (seat : String) :
    ((raw seat).map Held.text).bind rawhold =
      (raw seat).map fun held => ⟨held.owner, toString held.revision⟩ := by
  cases hheld : raw seat with
  | none => rfl
  | some held => exact rawhold_text (h.owner seat held hheld)

theorem preflight_spec (h : Carries store raw) (env : Env) (seats : List String) :
    preflight seats env store = .done none store := by
  induction seats with
  | nil => rfl
  | cons seat seats ih =>
      have hget : Redis.get (.hold seat) env store = .done ((raw seat).map Held.text) store :=
        readKey_some (h.text seat)
      unfold preflight
      rw [bind_of_done (compatible_hold h seat env), if_pos rfl, bind_of_done hget, if_neg]
      · exact ih
      · rw [rawhold_map h seat]
        cases raw seat <;> simp

/-- The wrapper answers as the operation does and has its effect on the holds, or it is refused
with the holds as before the operation or as after it. -/
theorem Call.run_holds (h : Carries store raw) {call : Call} (hvalid : call.Valid) (maxlen : ℕ)
    (env : Env) : Wp (call.run maxlen) env store
      (fun reply after => call.Answers raw reply ∧ Carries after (call.effect env.now raw))
      fun after => Carries after raw ∨ Carries after (call.effect env.now raw) := by
  have hderived {before after : Store Key} (hsame : ∀ key, ¬ Key.Derived key →
      after key = before key) {raw : Holds} (hbefore : Carries before raw) : Carries after raw :=
    hbefore.of_eq fun seat => hsame _ fun hkey => hkey seat rfl
  refine wp_bind (wp_mono (wp_frame (writes_checkModel call.seats)) ?_ fun after hafter =>
    Or.inl (hderived hafter h))
  intro modelReady checked hchecked
  have hcarries := hderived hchecked h
  refine wp_bind (wp_of_done (preflight_spec hcarries env call.seats) ?_)
  refine wp_bind (wp_mono (call.script_spec hcarries hvalid env) ?_ fun _ => False.elim)
  rintro reply done ⟨hanswers, hdone⟩
  cases modelReady with
  | false => exact wp_pure ⟨hanswers, hdone⟩
  | true =>
      have hsync : Writes Key.Derived (forEach (fun seat => synchold seat maxlen) call.seats) :=
        writes_forEach fun seat _ => writes_synchold seat maxlen
      refine wp_bind (wp_mono (wp_frame hsync) ?_ fun after hafter =>
        Or.inr (hderived hafter hdone))
      intro _ after hafter
      exact wp_pure ⟨hanswers, hderived hafter hdone⟩

/-- Whatever the end, a call leaves the holds alone or has its effect on them. -/
theorem Call.run_store (h : Carries store raw) {call : Call} (hvalid : call.Valid) (maxlen : ℕ)
    (env : Env) : ∃ raw', Carries (call.run maxlen env store).store raw' ∧
      (raw' = raw ∨ raw' = call.effect env.now raw) := by
  have hrun := call.run_holds h hvalid maxlen env
  cases hdone : call.run maxlen env store with
  | done reply after => exact ⟨_, (wp_done hrun hdone).2, Or.inr rfl⟩
  | raised error after =>
      obtain hsame | hdone := wp_raised hrun hdone
      · exact ⟨raw, hsame, Or.inl rfl⟩
      · exact ⟨_, hdone, Or.inr rfl⟩

end Wrapped

section Cleanup

theorem readOnly_cleanable (seat : String) : ReadOnly (cleanable seat) := by
  refine writes_bind (readOnly_validseat seat) fun passed => ?_
  cases passed
  · exact writes_pure _
  refine writes_bind (readOnly_compatible _ _) fun passed => ?_
  cases passed
  · exact writes_pure _
  · exact writes_bind writes_readKey fun _ => writes_pure _

/-- The store carries some of the holds. -/
def CarriesWithin (raw : Holds) (store : Store Key) : Prop :=
  ∃ raw', Carries store raw' ∧ raw'.Within raw

variable {store : Store Key} {raw : Holds} {env : Env}

theorem CarriesWithin.of_derived {after : Store Key} (h : CarriesWithin raw store)
    (hsame : ∀ key, ¬ Key.Derived key → after key = store key) : CarriesWithin raw after := by
  obtain ⟨raw', hcarries, hwithin⟩ := h
  exact ⟨raw', hcarries.of_eq fun seat => hsame _ fun hkey => hkey seat rfl, hwithin⟩

theorem CarriesWithin.wp_derived {α : Type} {script : Script Key α} (h : CarriesWithin raw store)
    (hwrites : Writes Key.Derived script) : Wp script env store
      (fun _ after => CarriesWithin raw after) (CarriesWithin raw) :=
  wp_mono (wp_frame hwrites) (fun _ _ hsame => h.of_derived hsame) fun _ hsame =>
    h.of_derived hsame

theorem expireSeat_holds (h : CarriesWithin raw store) (now maxlen : ℕ) (seat : String) :
    Wp (expireSeat now maxlen seat) env store (fun _ after => CarriesWithin raw after)
      (CarriesWithin raw) := by
  have hsync {store : Store Key} (hstore : CarriesWithin raw store) : Wp (do
      synchold seat maxlen
      pure 1) env store (fun _ after => CarriesWithin raw after) (CarriesWithin raw) :=
    hstore.wp_derived (writes_bind (writes_synchold seat maxlen) fun _ => writes_pure 1)
  refine wp_read writes_readKey h fun copy _ => ?_
  cases copy.bind hold with
  | none =>
      exact h.wp_derived (writes_bind (writes_zrem fun _ => nofun) fun _ => writes_pure 0)
  | some found =>
      dsimp only
      by_cases hexpired : found.expiry ≤ now
      · rw [if_pos hexpired]
        refine wp_read writes_readKey h fun value _ => ?_
        by_cases hsame : value = some (formatHold found.owner found.revision)
        · rw [if_pos hsame]
          refine wp_bind (wp_del ?_)
          obtain ⟨raw', hcarries, hwithin⟩ := h
          exact hsync ⟨_, hcarries.delete seat, (raw'.delete_within seat).trans hwithin⟩
        · rw [if_neg hsame]
          exact hsync h
      · rw [if_neg hexpired]
        exact h.wp_derived (writes_bind (writes_zadd fun _ => nofun) fun _ => writes_pure 0)

theorem expireSeats_holds (h : CarriesWithin raw store) (now maxlen count : ℕ)
    (seats : List String) : Wp (expireSeats now maxlen count seats) env store
      (fun _ after => CarriesWithin raw after) (CarriesWithin raw) := by
  induction seats generalizing store count with
  | nil => exact wp_pure h
  | cons seat seats ih =>
      refine wp_bind (wp_mono (expireSeat_holds h now maxlen seat) ?_ fun _ => id)
      intro n after hafter
      exact ih hafter _

/-- The cleanup writes no hold. -/
theorem expire_holds (h : Carries store raw) (limit maxlen : ℕ) : Wp (expire limit maxlen) env store
    (fun _ after => CarriesWithin raw after) (CarriesWithin raw) := by
  have hstart : CarriesWithin raw store := ⟨raw, h, Holds.Within.refl raw⟩
  have hrebuild : Wp rebuild env store (fun _ after => CarriesWithin raw after)
      (CarriesWithin raw) :=
    hstart.wp_derived (writes_bind writes_invalidate fun _ => writes_pure _)
  refine wp_read readOnly_healthy hstart fun isHealthy _ => ?_
  cases isHealthy
  · exact hrebuild
  rw [if_pos rfl]
  by_cases hconfig : limit = 0 ∨ maxlen = 0
  · rw [if_pos hconfig]
    exact wp_pure hstart
  rw [if_neg hconfig]
  refine wp_bind (wp_now (wp_read writes_readKey hstart fun seats _ => ?_))
  refine wp_read (writes_allM fun seat _ => readOnly_cleanable seat) hstart fun passed _ => ?_
  cases passed
  · exact hrebuild
  refine wp_bind (wp_mono (expireSeats_holds hstart env.now maxlen 0 seats) ?_ fun _ => id)
  intro count after hafter
  exact wp_read writes_readKey hafter fun left _ => wp_pure hafter

end Cleanup

end Ticketing.Availability
