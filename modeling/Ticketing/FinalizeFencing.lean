import Ticketing.HoldCalls
import Ticketing.Library.Trace

/-!
# A late finalize leaves the selected seats

Changing the seats of a checkout runs in two steps under its row lock: the prepare call, and the
commit, which advances the revision. The finalize of a committed change runs outside the lock, at
any later time and any number of times. Every hold of the checkout on a selected seat carries a
revision beyond all changes that once dropped the seat.
-/

namespace Ticketing.Availability

open Redis Script Transition

/-- A checkout and its holds. A change whose prepare has been applied waits for its commit;
`committed` lists the revisions of the committed changes with the seats they dropped, and `called`
has the revision of the last prepare or ensure call with a seat. -/
structure SeatChanges where
  store : Store Key
  now : ℕ
  revision : ℕ
  seatIds : List String
  prepared : Option (List String)
  committed : List (ℕ × List String)
  called : String → Option ℕ

inductive ChangeAction where
  | prepare (seatIds : List String) (ttl : ℕ)
  | commit
  | ensure (ttl : ℕ)
  | finalize (target : ℕ) (removed : List String)
  | outside (call : Call)
  | expire (limit : ℕ)
  | derived (store : Store Key)

/-- An action at a time, with the stream bound of the scripts. -/
structure ChangeEvent where
  env : Env
  maxlen : ℕ
  action : ChangeAction

namespace SeatChanges

def addedSeatIds (old new : List String) : List String :=
  new.filter fun seat => decide (seat ∉ old)

def retainedSeatIds (old new : List String) : List String :=
  new.filter fun seat => decide (seat ∈ old)

def removedSeatIds (old new : List String) : List String :=
  old.filter fun seat => decide (seat ∉ new)

/-- The keys that are still there when the script runs. -/
def visible (s : SeatChanges) (env : Env) : Store Key := s.store.visible env.now

def prepareCall (owner : String) (s : SeatChanges) (seatIds : List String) (ttl : ℕ) : Call :=
  .prepare owner s.revision (s.revision + 1) ttl (addedSeatIds s.seatIds seatIds)
    (retainedSeatIds s.seatIds seatIds)

def ensureCall (owner : String) (s : SeatChanges) (ttl : ℕ) : Call :=
  .ensure owner s.revision ttl s.seatIds

/-- The revision becomes that of the last call for the seats. -/
def mark (s : SeatChanges) (seats : List String) (revision : ℕ) : String → Option ℕ :=
  fun seat => if seat ∈ seats then some revision else s.called seat

/-- A prepare that is not applied starts no change, and an empty selection needs none. -/
def startChange (owner : String) (s : SeatChanges) (event : ChangeEvent) (seatIds : List String)
    (ttl : ℕ) : Option SeatChanges :=
  if s.prepared.isSome ∨ ttl = 0 then none
  else if seatIds = [] then some { s with now := event.env.now, prepared := some [] }
  else
    match (s.prepareCall owner seatIds ttl).run event.maxlen event.env (s.visible event.env) with
    | .done reply after =>
        if reply = .integer 1 then
          some { s with
            store := after
            now := event.env.now
            prepared := some seatIds
            called := s.mark seatIds (s.revision + 1) }
        else none
    | .raised _ _ => none

def commit (s : SeatChanges) (now : ℕ) (seatIds : List String) : SeatChanges :=
  { s with
    now := now
    revision := s.revision + 1
    seatIds := seatIds
    prepared := none
    committed := (s.revision + 1, removedSeatIds s.seatIds seatIds) :: s.committed }

def runScript {α : Type} (s : SeatChanges) (env : Env) (script : Script Key α) : SeatChanges :=
  { s with store := (script env (s.visible env)).store, now := env.now }

/-- The holds of the checkout are written under its row lock only; a confirm that is reset releases
them there too. -/
def step (owner : String) (event : ChangeEvent) (s : SeatChanges) : Option SeatChanges :=
  if event.env.now < s.now then none
  else
    match event.action with
    | .prepare seatIds ttl => s.startChange owner event seatIds ttl
    | .commit => s.prepared.map fun seatIds => s.commit event.env.now seatIds
    | .ensure ttl =>
        if s.prepared.isSome ∨ ttl = 0 then none
        else some { s.runScript event.env ((s.ensureCall owner ttl).run event.maxlen) with
          called := s.mark s.seatIds s.revision }
    | .finalize target removed =>
        if (target, removed) ∈ s.committed then
          some (s.runScript event.env ((Call.finalize owner target removed).run event.maxlen))
        else none
    | .outside call => some (s.runScript event.env (call.run event.maxlen))
    | .expire limit => some (s.runScript event.env (expire limit event.maxlen))
    | .derived store => some { s with store := store, now := event.env.now }

/-- What callers keep to: another owner calls with its own valid name, the checkout itself calls
otherwise only to release, and writes to the derived model leave the holds. -/
def Allowed (owner : String) (event : ChangeEvent) (s : SeatChanges) : Prop :=
  match event.action with
  | .outside call => call.Valid ∧ (call.owner = owner → ∃ seats, call = .release owner seats)
  | .derived store => ∀ seat, store (.hold seat) = s.store (.hold seat)
  | _ => True

def Steps (owner : String) (event : ChangeEvent) (s t : SeatChanges) : Prop :=
  Allowed owner event s ∧ step owner event s = some t

/-- The checkout has been created with a prepare of revision 0, on a store without holds of it. -/
structure Created (owner : String) (s : SeatChanges) : Prop where
  revision : s.revision = 0
  prepared : s.prepared = none
  committed : s.committed = []
  called : ∀ seat, s.called seat = if seat ∈ s.seatIds then some 0 else none
  store : ∃ raw env store ttl maxlen, Carries store raw ∧ (∀ seat held, raw seat = some held →
    held.owner ≠ owner) ∧ ttl ≠ 0 ∧
      (Call.prepare owner 0 0 ttl s.seatIds []).run maxlen env store =
        .done (.integer 1) s.store

/-- The seat is held by the owner with this entry. -/
def HeldBy (owner : String) (slot : Slot) : Prop :=
  ∃ held : Held, held.owner = owner ∧ slot = some held.entry

/-- The holds of the checkout are fenced against the finalize of every committed change. -/
structure Fenced (owner : String) (s : SeatChanges) (raw : Holds) : Prop where
  carries : Carries s.store raw
  bounded : ∀ change ∈ s.committed, change.1 ≤ s.revision
  selected : ∀ change ∈ s.committed, ∀ seat ∈ change.2, seat ∈ s.seatIds → change.1 < s.revision
  written : ∀ seat held, raw seat = some held → held.owner = owner →
    ∃ last, s.called seat = some last ∧
      ∀ change ∈ s.committed, seat ∈ change.2 → change.1 ≤ last → change.1 < held.revision
  current : ∀ seat ∈ s.seatIds, ∃ last, s.called seat = some last ∧
    ∀ change ∈ s.committed, seat ∈ change.2 → change.1 ≤ last
  pending : ∀ seatIds, s.prepared = some seatIds → ∀ seat ∈ seatIds,
    s.called seat = some (s.revision + 1)
  past : ∀ seat last, s.called seat = some last → last ≤ s.revision ∨
    ∃ seatIds, s.prepared = some seatIds ∧ seat ∈ seatIds

namespace Fenced

variable {owner : String} {s : SeatChanges} {raw : Holds}

/-- Losing holds of the owner, and any change to other holds, keeps the fence. -/
theorem of_store (h : Fenced owner s raw) {store : Store Key} {raw' : Holds}
    (hcarries : Carries store raw') (hkept : ∀ seat held, raw' seat = some held →
      held.owner = owner → raw seat = some held) (now : ℕ) :
    Fenced owner { s with store := store, now := now } raw' where
  carries := hcarries
  bounded := h.bounded
  selected := h.selected
  written seat held hheld howner := h.written seat held (hkept seat held hheld howner) howner
  current := h.current
  pending := h.pending
  past := h.past

theorem visible (h : Fenced owner s raw) (now : ℕ) :
    Fenced owner { s with store := s.store.visible now, now := now } (raw.visible now) :=
  h.of_store (h.carries.visible now)
    (fun seat held hheld _ => raw.visible_within now seat held hheld) now

/-- What a prepare or an ensure leaves on a selected seat is beyond every change that dropped it. -/
theorem kept (h : Fenced owner s raw) {seat : String} (hseat : seat ∈ s.seatIds)
    (hfree : ∀ old, raw seat = some old → old.owner = owner) (deadline : ℕ) :
    ∀ change ∈ s.committed, seat ∈ change.2 →
      change.1 < (Holds.kept ⟨owner, s.revision, deadline⟩ (raw seat)).revision := by
  intro change hchange hdropped
  cases hold : raw seat with
  | none => exact h.selected change hchange seat hdropped hseat
  | some old =>
      obtain ⟨last, hlast, hfenced⟩ := h.written seat old hold (hfree old hold)
      obtain ⟨last', hlast', hbound⟩ := h.current seat hseat
      rw [hlast] at hlast'
      obtain rfl := Option.some.inj hlast'
      exact hfenced change hchange hdropped (hbound change hchange hdropped)

/-- With no change under way, every call so far was made at a committed revision. -/
theorem called_le (h : Fenced owner s raw) (hprepared : s.prepared = none) {seat : String}
    {last : ℕ} (hlast : s.called seat = some last) : last ≤ s.revision := by
  obtain hle | ⟨seatIds, hpending, _⟩ := h.past seat last hlast
  · exact hle
  · rw [hprepared] at hpending
    cases hpending

theorem prepare (h : Fenced owner s raw) (hprepared : s.prepared = none) {seatIds : List String}
    {ttl : ℕ} {env : Env} {store : Store Key} (now : ℕ)
    (hconflict : (s.prepareCall owner seatIds ttl).conflicts raw = false)
    (hcarries : Carries store ((s.prepareCall owner seatIds ttl).effect env.now raw)) :
    Fenced owner { s with
      store := store
      now := now
      prepared := some seatIds
      called := s.mark seatIds (s.revision + 1) }
      ((s.prepareCall owner seatIds ttl).effect env.now raw) := by
  have hsplit : ∀ seat, seat ∈ addedSeatIds s.seatIds seatIds ↔
      seat ∈ seatIds ∧ seat ∉ s.seatIds := fun seat => by simp [addedSeatIds]
  have hsplit' : ∀ seat, seat ∈ retainedSeatIds s.seatIds seatIds ↔
      seat ∈ seatIds ∧ seat ∈ s.seatIds := fun seat => by simp [retainedSeatIds]
  have hfree := (Holds.foreign_eq_false raw owner _).mp hconflict
  have heffect : (s.prepareCall owner seatIds ttl).effect env.now raw =
      (raw.take ⟨owner, s.revision + 1, env.now + ttl⟩ (addedSeatIds s.seatIds seatIds)).keep
        ⟨owner, s.revision, env.now + ttl⟩ (retainedSeatIds s.seatIds seatIds) := by
    unfold Call.effect
    rw [if_neg (by rw [hconflict]; decide)]
    rfl
  refine ⟨hcarries, h.bounded, h.selected, ?written, ?current, ?pending, ?past⟩
  case written =>
    intro seat held hheld howner
    rw [heffect] at hheld
    unfold Holds.keep at hheld
    by_cases hretained : seat ∈ retainedSeatIds s.seatIds seatIds
    · obtain ⟨hnew, hold⟩ := (hsplit' seat).mp hretained
      refine ⟨s.revision + 1, if_pos hnew, fun change hchange hdropped _ => ?_⟩
      have hadded : seat ∉ addedSeatIds s.seatIds seatIds := fun hmem =>
        ((hsplit seat).mp hmem).2 hold
      rw [if_pos hretained, Holds.take, if_neg hadded] at hheld
      rw [← Option.some.inj hheld]
      exact h.kept hold (hfree seat (List.mem_append_right _ hretained)) _ change hchange hdropped
    · rw [if_neg hretained] at hheld
      unfold Holds.take at hheld
      by_cases hadded : seat ∈ addedSeatIds s.seatIds seatIds
      · rw [if_pos hadded] at hheld
        refine ⟨s.revision + 1, if_pos ((hsplit seat).mp hadded).1, fun change hchange _ _ => ?_⟩
        rw [← Option.some.inj hheld]
        exact Nat.lt_succ_of_le (h.bounded change hchange)
      · rw [if_neg hadded] at hheld
        have hnew : seat ∉ seatIds := by
          intro hnew
          by_cases hold : seat ∈ s.seatIds
          · exact hretained ((hsplit' seat).mpr ⟨hnew, hold⟩)
          · exact hadded ((hsplit seat).mpr ⟨hnew, hold⟩)
        obtain ⟨last, hlast, hfenced⟩ := h.written seat held hheld howner
        exact ⟨last, (if_neg hnew).trans hlast, hfenced⟩
  case current =>
    intro seat hseat
    by_cases hnew : seat ∈ seatIds
    · exact ⟨s.revision + 1, if_pos hnew, fun change hchange _ =>
        Nat.le_succ_of_le (h.bounded change hchange)⟩
    · obtain ⟨last, hlast, hbound⟩ := h.current seat hseat
      exact ⟨last, (if_neg hnew).trans hlast, hbound⟩
  case pending =>
    intro pending hpending seat hseat
    obtain rfl := Option.some.inj hpending
    exact if_pos hseat
  case past =>
    intro seat last hlast
    by_cases hnew : seat ∈ seatIds
    · exact Or.inr ⟨seatIds, rfl, hnew⟩
    · exact Or.inl (h.called_le hprepared ((if_neg hnew).symm.trans hlast))

theorem commit (h : Fenced owner s raw) {seatIds : List String}
    (hprepared : s.prepared = some seatIds) (now : ℕ) :
    Fenced owner (s.commit now seatIds) raw := by
  refine ⟨h.carries, ?bounded, ?selected, ?written, ?current, ?pending, ?past⟩
  case bounded =>
    intro change hchange
    obtain rfl | hchange := List.mem_cons.mp hchange
    · exact Nat.le_refl _
    · exact Nat.le_succ_of_le (h.bounded change hchange)
  case selected =>
    intro change hchange seat hdropped hseat
    obtain rfl | hchange := List.mem_cons.mp hchange
    · have hgone := (List.mem_filter.mp hdropped).2
      exact absurd hseat (of_decide_eq_true hgone)
    · exact Nat.lt_succ_of_le (h.bounded change hchange)
  case written =>
    intro seat held hheld howner
    obtain ⟨last, hlast, hfenced⟩ := h.written seat held hheld howner
    refine ⟨last, hlast, fun change hchange hdropped hle => ?_⟩
    obtain rfl | hchange := List.mem_cons.mp hchange
    · -- A dropped seat was not called since the change began.
      have hgone := of_decide_eq_true (List.mem_filter.mp hdropped).2
      obtain hpast | ⟨pending, hpending, hseat⟩ := h.past seat last hlast
      · exact absurd (Nat.le_trans hle hpast) (Nat.not_succ_le_self _)
      · rw [hprepared] at hpending
        obtain rfl := Option.some.inj hpending
        exact absurd hseat hgone
    · exact hfenced change hchange hdropped hle
  case current =>
    intro seat hseat
    refine ⟨s.revision + 1, h.pending seatIds hprepared seat hseat, fun change hchange _ => ?_⟩
    obtain rfl | hchange := List.mem_cons.mp hchange
    · exact Nat.le_refl _
    · exact Nat.le_succ_of_le (h.bounded change hchange)
  case pending =>
    intro pending hpending
    cases hpending
  case past =>
    intro seat last hlast
    obtain hle | ⟨pending, hpending, hseat⟩ := h.past seat last hlast
    · exact Or.inl (Nat.le_succ_of_le hle)
    · have hcalled := h.pending pending hpending seat hseat
      exact Or.inl (Nat.le_of_eq (Option.some.inj (hcalled.symm.trans hlast)).symm)

/-- The seats of an ensure are marked as called whether it wrote them or was refused. -/
theorem ensure (h : Fenced owner s raw) (hprepared : s.prepared = none) {ttl : ℕ} {env : Env}
    {store : Store Key} {raw' : Holds} (now : ℕ) (hcarries : Carries store raw')
    (heffect : raw' = raw ∨ raw' = (s.ensureCall owner ttl).effect env.now raw) :
    Fenced owner { s with store := store, now := now, called := s.mark s.seatIds s.revision }
      raw' := by
  have hkept : ∀ seat held, raw seat = some held → held.owner = owner →
      ∃ last, s.mark s.seatIds s.revision seat = some last ∧ ∀ change ∈ s.committed,
        seat ∈ change.2 → change.1 ≤ last → change.1 < held.revision := by
    intro seat held hheld howner
    obtain ⟨last, hlast, hfenced⟩ := h.written seat held hheld howner
    by_cases hseat : seat ∈ s.seatIds
    · refine ⟨s.revision, if_pos hseat, fun change hchange hdropped _ => ?_⟩
      have hbeyond := h.kept hseat (fun old hold => by
        rw [hheld] at hold
        exact (congrArg Held.owner (Option.some.inj hold)).symm.trans howner) 0 change hchange
        hdropped
      rwa [hheld] at hbeyond
    · exact ⟨last, (if_neg hseat).trans hlast, hfenced⟩
  refine ⟨hcarries, h.bounded, h.selected, ?written, ?current, ?pending, ?past⟩
  case written =>
    obtain rfl | rfl := heffect
    · exact hkept
    intro seat held hheld howner
    unfold Call.effect at hheld
    by_cases hconflict : (s.ensureCall owner ttl).conflicts raw = true
    · rw [if_pos hconflict] at hheld
      exact hkept seat held hheld howner
    rw [if_neg hconflict] at hheld
    have hfree := (Holds.foreign_eq_false raw owner s.seatIds).mp
      (Bool.eq_false_of_not_eq_true hconflict)
    change raw.keep ⟨owner, s.revision, env.now + ttl⟩ s.seatIds seat = some held at hheld
    unfold Holds.keep at hheld
    by_cases hseat : seat ∈ s.seatIds
    · rw [if_pos hseat] at hheld
      refine ⟨s.revision, if_pos hseat, fun change hchange hdropped _ => ?_⟩
      rw [← Option.some.inj hheld]
      exact h.kept hseat (hfree seat hseat) _ change hchange hdropped
    · rw [if_neg hseat] at hheld
      exact hkept seat held hheld howner
  case current =>
    intro seat hseat
    exact ⟨s.revision, if_pos hseat, fun change hchange _ => h.bounded change hchange⟩
  case pending =>
    intro pending hpending
    rw [hprepared] at hpending
    cases hpending
  case past =>
    intro seat last hlast
    by_cases hseat : seat ∈ s.seatIds
    · exact Or.inl (Nat.le_of_eq (Option.some.inj ((if_pos hseat).symm.trans hlast)).symm)
    · exact Or.inl (h.called_le hprepared ((if_neg hseat).symm.trans hlast))

end Fenced

variable {owner : String} {s t : SeatChanges} {raw : Holds}

theorem Created.fenced (h : Created owner s) (howner : OwnerName owner) :
    ∃ raw, Fenced owner s raw := by
  obtain ⟨raw, env, store, ttl, maxlen, hcarries, hfresh, httl, hrun⟩ := h.store
  have hvalid : (Call.prepare owner 0 0 ttl s.seatIds []).Valid :=
    ⟨howner, fun hzero => httl (Option.some.inj hzero)⟩
  obtain ⟨hanswers, hafter⟩ := wp_done (Call.run_holds hcarries hvalid maxlen env) hrun
  have hconflict := Call.conflicts_of_answers rfl hanswers
  have heffect : (Call.prepare owner 0 0 ttl s.seatIds []).effect env.now raw =
      raw.take ⟨owner, 0, env.now + ttl⟩ s.seatIds := by
    unfold Call.effect
    rw [if_neg (by rw [hconflict]; decide)]
    rfl
  rw [heffect] at hafter
  have hnone : ∀ change, change ∉ s.committed := by
    rw [h.committed]
    exact fun change => List.not_mem_nil
  refine ⟨_, hafter, ?bounded, ?selected, ?written, ?current, ?pending, ?past⟩
  case bounded => exact fun change hchange => absurd hchange (hnone change)
  case selected => exact fun change hchange => absurd hchange (hnone change)
  case written =>
    intro seat held hheld hself
    unfold Holds.take at hheld
    by_cases hseat : seat ∈ s.seatIds
    · exact ⟨0, by rw [h.called, if_pos hseat], fun change hchange => absurd hchange (hnone change)⟩
    · rw [if_neg hseat] at hheld
      exact absurd hself (hfresh seat held hheld)
  case current =>
    intro seat hseat
    exact ⟨0, by rw [h.called, if_pos hseat], fun change hchange => absurd hchange (hnone change)⟩
  case pending =>
    intro pending hpending
    rw [h.prepared] at hpending
    cases hpending
  case past =>
    intro seat last hlast
    rw [h.called] at hlast
    by_cases hseat : seat ∈ s.seatIds
    · rw [if_pos hseat] at hlast
      exact Or.inl (by rw [← Option.some.inj hlast]; exact Nat.zero_le _)
    · rw [if_neg hseat] at hlast
      cases hlast

/-- Calls from outside leave the checkout no hold that it did not have. -/
theorem outside_kept {call : Call}
    (hcall : call.owner = owner → ∃ seats, call = .release owner seats) {now : ℕ} {raw' : Holds}
    (heffect : raw' = raw ∨ raw' = call.effect now raw) (seat : String) (held : Held)
    (hheld : raw' seat = some held) (howner : held.owner = owner) : raw seat = some held := by
  obtain rfl | rfl := heffect
  · exact hheld
  by_cases hself : call.owner = owner
  · obtain ⟨seats, rfl⟩ := hcall hself
    rw [Call.effect_of_delete rfl] at hheld
    exact raw.drop_within _ _ seat held hheld
  · exact (Call.effect_foreign (howner.trans_ne (Ne.symm hself)) now raw seat).mp hheld

theorem finalize_valid (howner : OwnerName owner) (target : ℕ) (removed : List String) :
    (Call.finalize owner target removed).Valid := ⟨howner, nofun⟩

/-- Every step keeps the fence. -/
theorem Fenced.step (h : Fenced owner s raw) (howner : OwnerName owner) {event : ChangeEvent}
    (hstep : Steps owner event s t) : ∃ raw', Fenced owner t raw' := by
  obtain ⟨hallowed, hstep⟩ := hstep
  obtain ⟨env, maxlen, action⟩ := event
  have hvisible := h.visible env.now
  unfold SeatChanges.step at hstep
  by_cases htime : env.now < s.now
  · rw [if_pos htime] at hstep
    cases hstep
  rw [if_neg htime] at hstep
  cases action with
  | prepare seatIds ttl =>
      dsimp only [startChange] at hstep
      by_cases hguard : s.prepared.isSome = true ∨ ttl = 0
      · rw [if_pos hguard] at hstep
        cases hstep
      rw [if_neg hguard] at hstep
      obtain ⟨hprepared, httl⟩ := not_or.mp hguard
      have hnone := Option.not_isSome_iff_eq_none.mp hprepared
      by_cases hempty : seatIds = []
      · rw [if_pos hempty] at hstep
        obtain rfl := Option.some.inj hstep
        refine ⟨raw, h.carries, h.bounded, h.selected, h.written, h.current, ?_, ?_⟩
        · rintro _ ⟨⟩ seat hseat
          cases hseat
        · exact fun seat last hlast => Or.inl (h.called_le hnone hlast)
      rw [if_neg hempty] at hstep
      have hvalid : (s.prepareCall owner seatIds ttl).Valid :=
        ⟨howner, fun hzero => httl (Option.some.inj hzero)⟩
      have hrun := Call.run_holds hvisible.carries hvalid maxlen env
      cases hdone : (s.prepareCall owner seatIds ttl).run maxlen env (s.visible env) with
      | raised error after =>
          rw [hdone] at hstep
          cases hstep
      | done reply after =>
          obtain ⟨hanswers, hafter⟩ := wp_done hrun hdone
          rw [hdone] at hstep
          dsimp only at hstep
          by_cases hreply : reply = .integer 1
          · rw [if_pos hreply] at hstep
            obtain rfl := Option.some.inj hstep
            subst hreply
            have hconflict := Call.conflicts_of_answers rfl hanswers
            exact ⟨_, hvisible.prepare hnone env.now hconflict hafter⟩
          · rw [if_neg hreply] at hstep
            cases hstep
  | commit =>
      obtain ⟨seatIds, hprepared, rfl⟩ := Option.map_eq_some_iff.mp hstep
      exact ⟨raw, h.commit hprepared env.now⟩
  | ensure ttl =>
      dsimp only at hstep
      by_cases hguard : s.prepared.isSome = true ∨ ttl = 0
      · rw [if_pos hguard] at hstep
        cases hstep
      rw [if_neg hguard] at hstep
      obtain ⟨hprepared, httl⟩ := not_or.mp hguard
      have hvalid : (s.ensureCall owner ttl).Valid :=
        ⟨howner, fun hzero => httl (Option.some.inj hzero)⟩
      obtain ⟨raw', hcarries, heffect⟩ := Call.run_store hvisible.carries hvalid maxlen env
      obtain rfl := Option.some.inj hstep
      exact ⟨raw', hvisible.ensure (Option.not_isSome_iff_eq_none.mp hprepared) env.now hcarries
        heffect⟩
  | finalize target removed =>
      dsimp only at hstep
      by_cases hcommitted : (target, removed) ∈ s.committed
      · rw [if_pos hcommitted] at hstep
        obtain rfl := Option.some.inj hstep
        obtain ⟨raw', hcarries, heffect⟩ := Call.run_store hvisible.carries
          (finalize_valid howner target removed) maxlen env
        refine ⟨raw', hvisible.of_store hcarries (fun seat held hheld _ => ?_) env.now⟩
        obtain rfl | rfl := heffect
        · exact hheld
        · rw [Call.effect_of_delete rfl] at hheld
          exact Holds.drop_within _ _ _ seat held hheld
      · rw [if_neg hcommitted] at hstep
        cases hstep
  | outside call =>
      obtain rfl := Option.some.inj hstep
      obtain ⟨hvalid, hcall⟩ := hallowed
      obtain ⟨raw', hcarries, heffect⟩ := Call.run_store hvisible.carries hvalid maxlen env
      exact ⟨raw', hvisible.of_store hcarries (outside_kept hcall heffect) env.now⟩
  | expire limit =>
      obtain rfl := Option.some.inj hstep
      obtain ⟨raw', hcarries, hwithin⟩ := wp_store (expire_holds hvisible.carries limit maxlen)
      exact ⟨raw', hvisible.of_store hcarries (fun seat held hheld _ => hwithin seat held hheld)
        env.now⟩
  | derived store =>
      obtain rfl := Option.some.inj hstep
      exact ⟨raw, h.of_store (h.carries.of_eq hallowed) (fun _ _ hheld _ => hheld) env.now⟩

theorem fenced_of_trace {first : SeatChanges} {events : List ChangeEvent}
    (hcreated : Created owner first) (howner : OwnerName owner)
    (hrun : Trace (Steps owner) first events s) : ∃ raw, Fenced owner s raw :=
  hrun.invariant (I := fun s => ∃ raw, Fenced owner s raw)
    (fun _ _ _ ⟨_, h⟩ hstep => h.step howner hstep) (hcreated.fenced howner)

/-- A finalize leaves the holds of the selected seats, and deletes a hold of the checkout only on a
seat that its own change dropped and that no prepare or ensure has had since. -/
theorem finalize_fenced (howner : OwnerName owner) {first : SeatChanges}
    {events : List ChangeEvent} (hcreated : Created owner first)
    (hrun : Trace (Steps owner) first events s) {event : ChangeEvent} {target : ℕ}
    {removed : List String} (haction : event.action = .finalize target removed)
    (hstep : Steps owner event s t) :
    (∀ seat ∈ s.seatIds, HeldBy owner (s.visible event.env (.hold seat)) →
      t.store (.hold seat) = s.visible event.env (.hold seat)) ∧
    ∀ seat, t.store (.hold seat) ≠ s.visible event.env (.hold seat) →
      t.store (.hold seat) = none ∧ HeldBy owner (s.visible event.env (.hold seat)) ∧
        seat ∈ removed ∧ ∃ last, s.called seat = some last ∧ last < target := by
  obtain ⟨raw, h⟩ := fenced_of_trace hcreated howner hrun
  obtain ⟨env, maxlen, action⟩ := event
  obtain rfl := haction
  have hvisible := h.visible env.now
  have hcommitted : (target, removed) ∈ s.committed ∧ t =
      s.runScript env ((Call.finalize owner target removed).run maxlen) := by
    have hstep := hstep.2
    unfold SeatChanges.step at hstep
    dsimp only at hstep
    split_ifs at hstep with htime hmem
    exact ⟨hmem, (Option.some.inj hstep).symm⟩
  obtain ⟨hmem, rfl⟩ := hcommitted
  obtain ⟨raw', hcarries, heffect⟩ := Call.run_store hvisible.carries
    (finalize_valid howner target removed) maxlen env
  -- What the call removes is a hold of the owner that is older than the change.
  have hgone : ∀ seat, raw' seat ≠ raw.visible env.now seat → raw' seat = none ∧ seat ∈ removed ∧
      ∃ held, raw.visible env.now seat = some held ∧ held.owner = owner ∧
        held.revision ≤ target := by
    intro seat hne
    obtain rfl | rfl := heffect
    · exact absurd rfl hne
    rw [Call.effect_of_delete rfl] at hne ⊢
    unfold Holds.drop at hne ⊢
    by_cases hseat : seat ∈ (Call.finalize owner target removed).seats
    · rw [if_pos hseat] at hne ⊢
      cases hheld : raw.visible env.now seat with
      | none =>
          rw [hheld] at hne
          exact absurd rfl hne
      | some held =>
          rw [hheld] at hne
          by_cases hjudged : (Call.finalize owner target removed).judge held = true
          · have hboth := of_decide_eq_true hjudged
            exact ⟨by simp [Option.filter, hjudged], hseat, held, rfl, hboth⟩
          · exact absurd (by simp [Option.filter, hjudged]) hne
    · rw [if_neg hseat] at hne
      exact absurd rfl hne
  have hslot : ∀ seat, s.visible env (.hold seat) = (raw.visible env.now seat).map Held.entry :=
    hvisible.carries.slot
  have hslot' : ∀ seat, (s.runScript env ((Call.finalize owner target removed).run maxlen)).store
      (.hold seat) = (raw' seat).map Held.entry := hcarries.slot
  constructor
  · intro seat hseat _
    rw [hslot, hslot']
    by_contra hne
    obtain ⟨-, hremoved, held, hheld, hself, hle⟩ := hgone seat fun heq => hne (by rw [heq])
    obtain ⟨last, hlast, hfenced⟩ := hvisible.written seat held hheld hself
    obtain ⟨last', hlast', hbound⟩ := hvisible.current seat hseat
    obtain rfl := Option.some.inj (hlast.symm.trans hlast')
    have hbeyond := hfenced _ hmem hremoved (hbound _ hmem hremoved)
    exact absurd hbeyond (Nat.not_lt.mpr hle)
  · intro seat hne
    obtain ⟨hnone, hremoved, held, hheld, hself, hle⟩ := hgone seat fun heq =>
      hne (by rw [hslot, hslot', heq])
    obtain ⟨last, hlast, hfenced⟩ := hvisible.written seat held hheld hself
    refine ⟨by rw [hslot', hnone]; rfl, ⟨held, hself, by rw [hslot, hheld]; rfl⟩, hremoved, last,
      hlast, ?_⟩
    by_contra hlate
    exact absurd (hfenced _ hmem hremoved (Nat.le_of_not_lt hlate)) (Nat.not_lt.mpr hle)

section Example

/-- A checkout with two seats at time 0. -/
def twoSeats : SeatChanges where
  store := ((Call.prepare "C1" 0 0 300 ["A1", "A2"] []).run 1000 { now := 0 } fun _ => none).store
  now := 0
  revision := 0
  seatIds := ["A1", "A2"]
  prepared := none
  committed := []
  called seat := if seat ∈ ["A1", "A2"] then some 0 else none

/-- The change to the first seat, between its prepare and its commit. -/
def changing : SeatChanges where
  store := ((twoSeats.prepareCall "C1" ["A1"] 300).run 1000 { now := 1 }
    (twoSeats.visible { now := 1 })).store
  now := 1
  revision := 0
  seatIds := ["A1", "A2"]
  prepared := some ["A1"]
  committed := []
  called := twoSeats.mark ["A1"] 1

theorem twoSeats_created : Created "C1" twoSeats := by
  refine ⟨rfl, rfl, rfl, fun _ => rfl, fun _ => none, { now := 0 }, fun _ => none, 300, 1000,
    ⟨fun _ => rfl, nofun⟩, nofun, by decide, ?_⟩
  rfl

theorem twoSeats_changed : Trace (Steps "C1") twoSeats
    [⟨{ now := 1 }, 1000, .prepare ["A1"] 300⟩, ⟨{ now := 2 }, 1000, .commit⟩]
    (changing.commit 2 ["A1"]) :=
  .cons ⟨trivial, rfl⟩ (.single ⟨trivial, rfl⟩)

/-- The finalize of the change deletes the hold of the dropped seat and leaves the other. -/
theorem finalize_fenced_twoSeats :
    let s := changing.commit 2 ["A1"]
    let event : ChangeEvent := ⟨{ now := 3 }, 1000, .finalize 1 ["A2"]⟩
    ∃ t, Steps "C1" event s t ∧
      (∀ seat ∈ s.seatIds, HeldBy "C1" (s.visible event.env (.hold seat)) →
        t.store (.hold seat) = s.visible event.env (.hold seat)) ∧
      ∀ seat, t.store (.hold seat) ≠ s.visible event.env (.hold seat) →
        t.store (.hold seat) = none ∧ HeldBy "C1" (s.visible event.env (.hold seat)) ∧
          seat ∈ ["A2"] ∧ ∃ last, s.called seat = some last ∧ last < 1 := by
  have howner : OwnerName "C1" := ⟨by decide, by decide⟩
  have hstep : Steps "C1" ⟨{ now := 3 }, 1000, .finalize 1 ["A2"]⟩ (changing.commit 2 ["A1"])
      ((changing.commit 2 ["A1"]).runScript { now := 3 }
        ((Call.finalize "C1" 1 ["A2"]).run 1000)) := ⟨trivial, rfl⟩
  exact ⟨_, hstep, finalize_fenced howner twoSeats_created twoSeats_changed rfl hstep⟩

end Example

end SeatChanges

end Ticketing.Availability
