import Ticketing.LateCalls

/-!
# What a late abort or release can reach

A failed change does not advance the revision, so that the next one writes the same values, and a
release looks at the owner alone. Where neither happens on a seat that the late call is about, every
hold that a later turn set survives it.
-/

namespace Ticketing.Availability

open Redis Script Transition MergeSets

namespace Call

variable {call : Call} {store : Store Key} {raw : Holds} {now : ℕ} {seat : String}

/-- Only a prepare and an ensure set holds, and only with values that they may write. -/
theorem held_of_sets (h : seat ∈ call.sets store) (now : ℕ) : call.ttl.isSome = true ∧
    ∃ held, call.held now seat = some held ∧ held.owner = call.owner ∧
      call.Writes seat held.revision := by
  cases call with
  | prepare owner base target ttl added retained =>
      refine ⟨rfl, _, rfl, rfl, ?_⟩
      dsimp only
      split_ifs with hadded
      · exact Or.inl ⟨hadded, rfl⟩
      · obtain hmem | hmem := List.mem_append.mp h
        · exact absurd hmem hadded
        · exact Or.inr ⟨(List.mem_filter.mp hmem).1, rfl⟩
  | ensure owner revision ttl seats =>
      exact ⟨rfl, _, rfl, rfl, (List.mem_filter.mp h).1, rfl⟩
  | abort owner target added => cases h
  | finalize owner target removed => cases h
  | release owner seats => cases h

theorem isNone_of_free (hcarries : Carries store raw) (h : raw seat = none) :
    (store (.hold seat)).isNone = true := by
  rw [hcarries.slot seat, h]
  rfl

/-- A hold that is there after a call was set by it, or was there with its value. -/
theorem effect_some (hcarries : Carries store raw) {held : Held}
    (h : call.effect now raw seat = some held) :
    seat ∈ call.sets store ∧ call.held now seat = some held ∨
      ∃ old, raw seat = some old ∧ old.owner = held.owner ∧ old.revision = held.revision := by
  by_cases hconflict : call.conflicts raw = true
  · unfold effect at h
    rw [if_pos hconflict] at h
    exact Or.inr ⟨held, h, rfl, rfl⟩
  have hkeep {written : Held} {before : Holds} {seats : List String}
      (hkept : before.keep written seats seat = some held) :
      seat ∈ seats ∧ before seat = none ∧ held = written ∨
        ∃ old, before seat = some old ∧ old.owner = held.owner ∧ old.revision = held.revision := by
    unfold Holds.keep at hkept
    split_ifs at hkept with hseat
    · have hkept := Option.some.inj hkept
      cases hbefore : before seat with
      | none =>
          rw [hbefore] at hkept
          exact Or.inl ⟨hseat, rfl, hkept.symm⟩
      | some old =>
          rw [hbefore] at hkept
          subst hkept
          exact Or.inr ⟨old, rfl, rfl, rfl⟩
    · exact Or.inr ⟨held, hkept, rfl, rfl⟩
  unfold effect at h
  rw [if_neg hconflict] at h
  cases call with
  | prepare owner base target ttl added retained =>
      by_cases hadded : seat ∈ added
      · have htaken : raw.take ⟨owner, target, now + ttl⟩ added seat =
            some ⟨owner, target, now + ttl⟩ := if_pos hadded
        refine Or.inl ⟨List.mem_append_left _ hadded, ?_⟩
        show some (⟨owner, if seat ∈ added then target else base, now + ttl⟩ : Held) = some held
        rw [if_pos hadded, ← h]
        dsimp only [Holds.keep]
        split_ifs
        · rw [htaken]
          rfl
        · exact htaken.symm
      · have hsame : raw.take ⟨owner, target, now + ttl⟩ added seat = raw seat := if_neg hadded
        obtain ⟨hretained, hnone, rfl⟩ | hold := hkeep h
        · rw [hsame] at hnone
          refine Or.inl ⟨List.mem_append_right _ (List.mem_filter.mpr
            ⟨hretained, isNone_of_free hcarries hnone⟩), ?_⟩
          show some (⟨owner, if seat ∈ added then target else base, now + ttl⟩ : Held) = _
          rw [if_neg hadded]
        · rw [hsame] at hold
          exact Or.inr hold
  | ensure owner revision ttl seats =>
      obtain ⟨hseat, hnone, rfl⟩ | hold := hkeep h
      · exact Or.inl ⟨List.mem_filter.mpr ⟨hseat, isNone_of_free hcarries hnone⟩, rfl⟩
      · exact Or.inr hold
  | abort owner target added => exact Or.inr ⟨held, raw.drop_within _ _ seat held h, rfl, rfl⟩
  | finalize owner target removed => exact Or.inr ⟨held, raw.drop_within _ _ seat held h, rfl, rfl⟩
  | release owner seats => exact Or.inr ⟨held, raw.drop_within _ _ seat held h, rfl, rfl⟩

/-- What a call deletes it has judged. -/
theorem judge_of_deleted (hdelete : call.ttl = none) (hseat : seat ∈ call.seats) {held : Held}
    (hheld : raw seat = some held) (hgone : call.effect now raw seat = none) :
    call.judge held = true := by
  rw [effect_of_delete hdelete] at hgone
  unfold Holds.drop at hgone
  rw [if_pos hseat, hheld] at hgone
  by_contra hjudged
  simp [Option.filter, Bool.eq_false_of_not_eq_true hjudged] at hgone

theorem ttl_of_undoes (h : call.undoes = true) : call.ttl = none := by
  cases call with
  | prepare owner base target ttl added retained => cases h
  | ensure owner revision ttl seats => cases h
  | abort owner target added => rfl
  | finalize owner target removed => rfl
  | release owner seats => rfl

theorem compensation_some {abortCall : Call} (h : call.compensation = some abortCall) :
    abortCall = .abort call.owner call.attempted.2 call.attempted.1 := by
  cases call with
  | prepare owner base target ttl added retained =>
      dsimp only [compensation] at h
      split_ifs at h
      exact (Option.some.inj h).symm
  | ensure owner revision ttl seats => cases h
  | abort owner target added => cases h
  | finalize owner target removed => cases h
  | release owner seats => cases h

end Call

namespace LateCalls

variable {collation : Collation} {owner : String} {scope : Scope} {s t : LateCalls} {raw : Holds}
  {sent : List (ℕ × Call)}

/-- A call that is still to come: one that sets holds is among the sent ones, and an abort is that
of a failed call. -/
structure Pending (owner : String) (number : ℕ) (failed sent : List (ℕ × Call))
    (pending : ℕ × Call) : Prop where
  bounded : pending.1 ≤ number
  valid : pending.2.Valid
  owner : pending.2.owner = owner
  sets : pending.2.ttl.isSome → pending ∈ sent
  aborts : ∀ owner' target added, pending.2 = .abort owner' target added →
    ∃ call, (pending.1, call) ∈ failed ∧ call.attempted = (added, target)

theorem Pending.mono {number number' : ℕ} {failed failed' sent' : List (ℕ × Call)}
    {pending : ℕ × Call} (h : Pending owner number failed sent pending) (hnumber : number ≤ number')
    (hfailed : failed ⊆ failed') (hsent : sent ⊆ sent') :
    Pending owner number' failed' sent' pending where
  bounded := h.bounded.trans hnumber
  valid := h.valid
  owner := h.owner
  sets hsets := hsent (h.sets hsets)
  aborts owner' target added heq := by
    obtain ⟨call, hcall, hattempted⟩ := h.aborts owner' target added heq
    exact ⟨call, hfailed hcall, hattempted⟩

/-- The turn that has the row: a change writes seats it is about to select at the next revision, and
selected ones at the current revision. -/
structure Holder (owner : String) (s : LateCalls) (sent : List (ℕ × Call)) (turn : Turn) :
    Prop where
  sent : ∀ call, turn.call = some call → (s.number, call) ∈ sent
  owner : ∀ call, turn.call = some call → call.owner = owner
  create : ∀ seatIds, turn.request = .create seatIds → s.stage = .absent ∧
    (s.failed = [] ∨ turn.phase = .failed) ∧
    ∀ call, turn.call = some call → call.ttl.isSome
  replace : ∀ seatIds, turn.request = .replace seatIds → s.stage ≠ .absent ∧
    ∀ call, turn.call = some call → call.ttl.isSome ∧ call.attempted.2 = s.revision + 1 ∧
      ∀ seat revision, call.Writes seat revision →
        revision = s.revision + 1 ∧ seat ∈ seatIds ∨ revision = s.revision ∧ seat ∈ s.seatIds

/-- What holds after every step of a calm run; `sent` has the first call of every turn. -/
structure Inv (scope : Scope) (owner : String) (s : LateCalls) (raw : Holds)
    (sent : List (ℕ × Call)) : Prop where
  carries : Carries s.store raw
  written : ∀ seat held, raw seat = some held → held.owner = owner →
    ∃ number call, s.setter seat = some number ∧ (number, call) ∈ sent ∧
      call.Writes seat held.revision
  unique : ∀ number call call', (number, call) ∈ sent → (number, call') ∈ sent → call = call'
  bounded : ∀ call ∈ sent, call.1 ≤ s.number
  pending : ∀ pending ∈ s.outstanding, Pending owner s.number s.failed sent pending
  lasting : ∀ call ∈ s.lasting, call ∈ sent
  apart : ∀ failed ∈ s.failed, ∀ lasting ∈ s.lasting, failed.1 < lasting.1 →
    ∀ seat revision, lasting.2.Writes seat revision → revision = failed.2.attempted.2 →
      scope.Free failed.2.attempted.1 seat
  current : ∀ failed ∈ s.failed, failed.2.attempted.2 = s.revision →
    ∀ seat ∈ s.seatIds, scope.Free failed.2.attempted.1 seat
  released : ∀ number owner' seats, (number, Call.release owner' seats) ∈ s.outstanding →
    ∀ seat ∈ seats, ∀ held, raw seat = some held → held.owner = owner →
      ∀ setter, s.setter seat = some setter → setter ≤ number
  collided : ∀ deletion ∈ s.deleted, deletion.issuer < deletion.setter →
    ∃ failed call, (deletion.issuer, failed) ∈ s.failed ∧ (deletion.setter, call) ∈ sent ∧
      deletion.seat ∈ failed.attempted.1 ∧ call.Writes deletion.seat failed.attempted.2
  absent : s.stage = .absent → s.seatIds = [] ∧ (s.turn = none → s.failed = [])
  turn : ∀ turn, s.turn = some turn → Holder owner s sent turn

theorem Scope.not_mem {added : List String} {seat : String} (h : scope.Free added seat) :
    seat ∉ added := by
  cases scope with
  | seat => exact h
  | checkout =>
      rw [show added = [] from h]
      exact List.not_mem_nil

theorem Inv.fenced (h : Inv scope owner s raw sent) : Fenced scope s where
  deleted deletion hdeletion hlater call hlasting := by
    obtain ⟨failed, call', hfailed, hsent, hadded, hwrites⟩ := h.collided deletion hdeletion hlater
    obtain rfl := h.unique _ _ _ (h.lasting _ hlasting) hsent
    exact Scope.not_mem (h.apart _ hfailed _ hlasting hlater _ _ hwrites rfl) hadded
  toldApart := h.apart

theorem Fresh.inv (h : Fresh owner s) : ∃ raw, Inv scope owner s raw [] := by
  obtain ⟨raw, hcarries, hforeign⟩ := h.store
  refine ⟨raw, ⟨hcarries, fun seat held hheld howner => absurd howner (hforeign seat held hheld),
    ?_, ?_, ?_, ?_, ?_, ?_, ?_, ?_, fun _ => ⟨h.seatIds, fun _ => h.failed⟩, ?_⟩⟩
  · intro number call call' hcall
    cases hcall
  · intro call hcall
    cases hcall
  · rw [h.outstanding]
    intro pending hpending
    cases hpending
  · rw [h.lasting]
    intro call hcall
    cases hcall
  · rw [h.failed]
    intro failed hfailed
    cases hfailed
  · rw [h.failed]
    intro failed hfailed
    cases hfailed
  · rw [h.outstanding]
    intro number owner' seats hrelease
    cases hrelease
  · rw [h.deleted]
    intro deletion hdeletion
    cases hdeletion
  · rw [h.turn]
    intro turn hturn
    cases hturn

namespace Inv

/-- Losing holds of the checkout, and any change to other holds, keeps the fence. -/
theorem of_store (h : Inv scope owner s raw sent) {store : Store Key} {raw' : Holds}
    (hcarries : Carries store raw') (hkept : ∀ seat held, raw' seat = some held →
      held.owner = owner → raw seat = some held) (now : ℕ) :
    Inv scope owner { s with store := store, now := now } raw' sent where
  carries := hcarries
  written seat held hheld howner := h.written seat held (hkept seat held hheld howner) howner
  unique := h.unique
  bounded := h.bounded
  pending := h.pending
  lasting := h.lasting
  apart := h.apart
  current := h.current
  released number owner' seats hrelease seat hseat held hheld howner :=
    h.released number owner' seats hrelease seat hseat held (hkept seat held hheld howner) howner
  collided := h.collided
  absent := h.absent
  turn turn hturn :=
    have hold := h.turn turn hturn
    ⟨hold.sent, hold.owner, hold.create, hold.replace⟩

theorem visible (h : Inv scope owner s raw sent) (now : ℕ) :
    Inv scope owner { s with store := s.store.visible now, now := now } (raw.visible now) sent :=
  h.of_store (h.carries.visible now)
    (fun seat held hheld _ => raw.visible_within now seat held hheld) now

/-- Every setter of a hold of the checkout has had its turn. -/
theorem setter_le (h : Inv scope owner s raw sent) {seat : String} {held : Held}
    (hheld : raw seat = some held) (howner : held.owner = owner) {setter : ℕ}
    (hsetter : s.setter seat = some setter) : setter ≤ s.number := by
  obtain ⟨number, call, hnumber, hsent, -⟩ := h.written seat held hheld howner
  obtain rfl := Option.some.inj (hsetter.symm.trans hnumber)
  exact h.bounded _ hsent

theorem send (h : Inv scope owner s raw sent) {call : Option Call}
    (hpending : ∀ found, call = some found →
      Pending owner s.number s.failed sent (s.number, found)) :
    Inv scope owner (s.send call) raw sent where
  carries := h.carries
  written := h.written
  unique := h.unique
  bounded := h.bounded
  pending pending hmem := by
    obtain hold | hnew := List.mem_append.mp hmem
    · exact h.pending pending hold
    · obtain ⟨found, hfound, rfl⟩ := Option.map_eq_some_iff.mp (Option.mem_toList.mp hnew)
      exact hpending found hfound
  lasting := h.lasting
  apart := h.apart
  current := h.current
  released number owner' seats hmem seat hseat held hheld howner setter hsetter := by
    obtain hold | hnew := List.mem_append.mp hmem
    · exact h.released number owner' seats hold seat hseat held hheld howner setter hsetter
    · obtain ⟨found, hfound, heq⟩ := Option.map_eq_some_iff.mp (Option.mem_toList.mp hnew)
      rw [← (Prod.mk.inj heq).1]
      exact h.setter_le hheld howner hsetter
  collided := h.collided
  absent := h.absent
  turn turn hturn :=
    have hold := h.turn turn hturn
    ⟨hold.sent, hold.owner, hold.create, hold.replace⟩

/-- The next number, with the call that its turn sends first. -/
theorem advance (h : Inv scope owner s raw sent) (hturn : s.turn = none) (call : Option Call) :
    Inv scope owner { s with number := s.number + 1 } raw
      (sent ++ (call.map fun call => (s.number + 1, call)).toList) where
  carries := h.carries
  written seat held hheld howner := by
    obtain ⟨number, found, hsetter, hsent, hwrites⟩ := h.written seat held hheld howner
    exact ⟨number, found, hsetter, List.mem_append_left _ hsent, hwrites⟩
  unique number found found' hfound hfound' := by
    have hnew {found : Call} (hmem : (number, found) ∈
        (call.map fun call => (s.number + 1, call)).toList) :
        number = s.number + 1 ∧ call = some found := by
      obtain ⟨other, hother, heq⟩ := Option.map_eq_some_iff.mp (Option.mem_toList.mp hmem)
      obtain ⟨rfl, rfl⟩ := Prod.mk.inj heq
      exact ⟨rfl, hother⟩
    obtain hold | hmem := List.mem_append.mp hfound
    · obtain hold' | hmem' := List.mem_append.mp hfound'
      · exact h.unique number found found' hold hold'
      · have hle := h.bounded _ hold
        have heq := (hnew hmem').1
        omega
    · obtain hold' | hmem' := List.mem_append.mp hfound'
      · have hle := h.bounded _ hold'
        have heq := (hnew hmem).1
        omega
      · exact Option.some.inj ((hnew hmem).2.symm.trans (hnew hmem').2)
  bounded found hfound := by
    obtain hold | hmem := List.mem_append.mp hfound
    · exact Nat.le_succ_of_le (h.bounded found hold)
    · obtain ⟨other, -, rfl⟩ := Option.map_eq_some_iff.mp (Option.mem_toList.mp hmem)
      exact Nat.le_refl _
  pending pending hpending :=
    (h.pending pending hpending).mono (Nat.le_succ _) (List.Subset.refl _)
      (List.subset_append_left _ _)
  lasting call hcall := List.mem_append_left _ (h.lasting call hcall)
  apart := h.apart
  current := h.current
  released := h.released
  collided deletion hdeletion hlater := by
    obtain ⟨failed, found, hfailed, hsent, hadded, hwrites⟩ :=
      h.collided deletion hdeletion hlater
    exact ⟨failed, found, hfailed, List.mem_append_left _ hsent, hadded, hwrites⟩
  absent := h.absent
  turn turn hsome := by
    rw [hturn] at hsome
    cases hsome

theorem setTurn (h : Inv scope owner s raw sent) (turn : Turn)
    (hholder : Holder owner s sent turn) :
    Inv scope owner { s with turn := some turn } raw sent where
  carries := h.carries
  written := h.written
  unique := h.unique
  bounded := h.bounded
  pending := h.pending
  lasting := h.lasting
  apart := h.apart
  current := h.current
  released := h.released
  collided := h.collided
  absent hstage := ⟨(h.absent hstage).1, fun hnone => by cases hnone⟩
  turn other hother := by
    obtain rfl := Option.some.inj hother
    exact ⟨hholder.sent, hholder.owner, hholder.create, hholder.replace⟩

/-- A call that is to last writes no value that a failed call has tried to write. -/
theorem addLasting (h : Inv scope owner s raw sent) {call : ℕ × Call} (hsent : call ∈ sent)
    (hapart : ∀ failed ∈ s.failed, ∀ seat revision, call.2.Writes seat revision →
      revision = failed.2.attempted.2 → scope.Free failed.2.attempted.1 seat) :
    Inv scope owner { s with lasting := s.lasting ++ [call] } raw sent where
  carries := h.carries
  written := h.written
  unique := h.unique
  bounded := h.bounded
  pending := h.pending
  lasting other hother := by
    obtain hold | hnew := List.mem_append.mp hother
    · exact h.lasting other hold
    · rwa [List.mem_singleton.mp hnew]
  apart failed hfailed other hother hlater := by
    obtain hold | hnew := List.mem_append.mp hother
    · exact h.apart failed hfailed other hold hlater
    · rw [List.mem_singleton.mp hnew]
      exact hapart failed hfailed
  current := h.current
  released := h.released
  collided := h.collided
  absent := h.absent
  turn turn hturn :=
    have hold := h.turn turn hturn
    ⟨hold.sent, hold.owner, hold.create, hold.replace⟩

section Execute

variable {index number : ℕ} {call : Call}

/-- The holds after a call: each was set by it, or was there with its value. -/
theorem kept_or_set {store : Store Key} (hcarries : Carries store raw) {now : ℕ} {raw' : Holds}
    (heffect : raw' = raw ∨ raw' = call.effect now raw) {seat : String} {held : Held}
    (hheld : raw' seat = some held) :
    seat ∈ call.sets store ∧ call.held now seat = some held ∨
      ∃ old, raw seat = some old ∧ old.owner = held.owner ∧ old.revision = held.revision := by
  obtain rfl | rfl := heffect
  · exact Or.inr ⟨held, hheld, rfl, rfl⟩
  · exact Call.effect_some hcarries hheld

/-- The ghost names who has set a hold: this call with one of its values, or an earlier one. -/
theorem setterAfter_cases (s : LateCalls) (number : ℕ) {before after : Store Key} {raw' : Holds}
    (hbefore : Carries before raw) (hafter : Carries after raw') {now : ℕ}
    (heffect : raw' = raw ∨ raw' = call.effect now raw) (howner : OwnerName call.owner)
    {seat : String} {held : Held} (hheld : raw' seat = some held) :
    seat ∈ call.sets before ∧ s.setterAfter now number call before after seat = some number ∧
        call.Writes seat held.revision ∨
      s.setterAfter now number call before after seat = s.setter seat ∧
        ∃ old, raw seat = some old ∧ old.owner = held.owner ∧ old.revision = held.revision := by
  have htext : (after (.hold seat)).text = some (some held.text) := by
    rw [hafter.text seat, hheld]
    rfl
  unfold setterAfter
  rw [htext]
  by_cases hset : seat ∈ call.sets before ∧ some (some held.text) =
      some ((call.held now seat).map Held.text)
  · obtain ⟨-, found, hfound, hfoundOwner, hwrites⟩ := Call.held_of_sets hset.1 now
    have hsame := hset.2
    rw [hfound] at hsame
    have hsame := Option.some.inj (Option.some.inj hsame)
    obtain ⟨-, hrevision⟩ := Held.eq_of_text (hafter.owner seat held hheld)
      (by rwa [hfoundOwner]) hsame
    rw [if_pos hset, hrevision]
    exact Or.inl ⟨hset.1, rfl, hwrites⟩
  · rw [if_neg hset]
    obtain ⟨hmem, hfound⟩ | hold := kept_or_set hbefore heffect hheld
    · refine absurd ⟨hmem, ?_⟩ hset
      rw [hfound]
      rfl
    · exact Or.inr ⟨rfl, hold⟩

theorem deletions_mem {before after : Store Key} {deletion : Deletion}
    (h : deletion ∈ s.deletions number call before after) : call.undoes = true ∧
      deletion.seat ∈ call.seats ∧ (before (.hold deletion.seat)).isSome = true ∧
      (after (.hold deletion.seat)).isNone = true ∧
      s.setter deletion.seat = some deletion.setter ∧ deletion.issuer = number := by
  unfold deletions at h
  split_ifs at h with hundoes
  · obtain ⟨seat, hseat, hsome⟩ := List.mem_filterMap.mp h
    split_ifs at hsome with hgone
    obtain ⟨setter, hsetter, rfl⟩ := Option.map_eq_some_iff.mp hsome
    exact ⟨hundoes, hseat, hgone.1, hgone.2, hsetter, rfl⟩
  · cases h

/-- A late abort or release deletes a later hold only where both calls write the same value. -/
theorem deletions_collided (h : Inv scope owner s raw sent) {before after : Store Key}
    {raw' : Holds} (hbefore : Carries before raw) (hafter : Carries after raw') {now : ℕ}
    (heffect : raw' = raw ∨ raw' = call.effect now raw) (hmem : (number, call) ∈ s.outstanding)
    {deletion : Deletion} (hdeletion : deletion ∈ s.deletions number call before after)
    (hlater : deletion.issuer < deletion.setter) :
    ∃ failed found, (deletion.issuer, failed) ∈ s.failed ∧ (deletion.setter, found) ∈ sent ∧
      deletion.seat ∈ failed.attempted.1 ∧ found.Writes deletion.seat failed.attempted.2 := by
  obtain ⟨hundoes, hseat, hsome, hnone, hsetter, rfl⟩ := deletions_mem hdeletion
  have hpending := h.pending _ hmem
  rw [hbefore.slot, Option.isSome_map] at hsome
  rw [hafter.slot, Option.isNone_map] at hnone
  obtain ⟨held, hheld⟩ := Option.isSome_iff_exists.mp hsome
  have hgone := Option.isNone_iff_eq_none.mp hnone
  have hjudge : call.judge held = true := by
    obtain rfl | rfl := heffect
    · rw [hheld] at hgone
      cases hgone
    · exact Call.judge_of_deleted (Call.ttl_of_undoes hundoes) hseat hheld hgone
  have howner : held.owner = owner := (Call.judge_owner hjudge).trans hpending.owner
  obtain ⟨setter, found, hnamed, hsent, hwrites⟩ := h.written _ held hheld howner
  obtain rfl := Option.some.inj (hsetter.symm.trans hnamed)
  cases call with
  | prepare owner base target ttl added retained => cases hundoes
  | ensure owner revision ttl seats => cases hundoes
  | finalize owner target removed => cases hundoes
  | abort owner' target added =>
      obtain ⟨failed, hfailed, hattempted⟩ := hpending.aborts _ _ _ rfl
      obtain ⟨-, hrevision⟩ := of_decide_eq_true hjudge
      refine ⟨failed, found, hfailed, hsent, ?_, ?_⟩
      · rw [hattempted]
        exact hseat
      · rw [hattempted, ← hrevision]
        exact hwrites
  | release owner' seats =>
      have hle := h.released _ _ _ hmem _ hseat held hheld howner _ hsetter
      omega

theorem answered_some {outcome : Outcome Key Reply} {turn : Turn}
    (h : s.answered number call outcome = some turn) : ∃ old, s.turn = some old ∧
      turn.request = old.request ∧ turn.call = old.call ∧
      (old.phase = .failed → turn.phase = .failed) := by
  obtain ⟨old, hold, rfl⟩ := Option.map_eq_some_iff.mp h
  refine ⟨old, hold, ?_⟩
  split_ifs with hwaiting
  · refine ⟨rfl, rfl, fun hfailed => ?_⟩
    rw [hwaiting.2.2] at hfailed
    cases hfailed
  · exact ⟨rfl, rfl, id⟩

theorem execute (h : Inv scope owner s raw sent) (event : LateEvent)
    (hindex : s.outstanding[index]? = some (number, call))
    (hcalm : ∀ seat ∈ call.sets (s.visible event.env), ∀ other ∈ s.outstanding,
      other.1 < number → seat ∉ other.2.releases) :
    ∃ raw', Inv scope owner (s.execute event index number call) raw' sent := by
  have hvisible := h.visible event.env.now
  have hmem := List.mem_of_getElem? hindex
  have hpending := h.pending _ hmem
  obtain ⟨raw', hcarries, heffect⟩ :=
    Call.run_store hvisible.carries hpending.valid event.maxlen event.env
  have hsetter {seat : String} {held : Held} (hheld : raw' seat = some held) :=
    setterAfter_cases s number hvisible.carries hcarries heffect hpending.valid.1 hheld
  have hleft {pending : ℕ × Call} (hin : pending ∈ s.outstanding.eraseIdx index) :
      pending ∈ s.outstanding := List.eraseIdx_subset hin
  refine ⟨raw', hcarries, ?written, h.unique, h.bounded, ?pending, h.lasting, h.apart, h.current,
    ?released, ?collided, ?absent, ?turn⟩
  case written =>
    intro seat held hheld howner
    obtain ⟨hset, hnamed, hwrites⟩ | ⟨hnamed, old, hold, holdOwner, hrevision⟩ := hsetter hheld
    · exact ⟨number, call, hnamed, hpending.sets (Call.held_of_sets hset 0).1, hwrites⟩
    · obtain ⟨setter, found, hfound, hsent, hwrites⟩ :=
        hvisible.written seat old hold (holdOwner.trans howner)
      rw [hrevision] at hwrites
      exact ⟨setter, found, hnamed.trans hfound, hsent, hwrites⟩
  case pending =>
    intro pending hin
    exact h.pending pending (hleft hin)
  case released =>
    intro other owner' seats hin seat hseat held hheld howner setter hnamed'
    obtain ⟨hset, hnamed, -⟩ | ⟨hnamed, old, hold, holdOwner, -⟩ := hsetter hheld
    · obtain rfl := Option.some.inj (hnamed.symm.trans hnamed')
      by_contra hlater
      exact hcalm seat hset _ (hleft hin) (Nat.lt_of_not_le hlater) hseat
    · exact hvisible.released other owner' seats (hleft hin) seat hseat old hold
        (holdOwner.trans howner) setter (hnamed.symm.trans hnamed')
  case collided =>
    intro deletion hdeletion hlater
    obtain hold | hnew := List.mem_append.mp hdeletion
    · exact h.collided deletion hold hlater
    · exact hvisible.deletions_collided hvisible.carries hcarries heffect hmem hnew hlater
  case absent =>
    intro hstage
    refine ⟨(h.absent hstage).1, fun hnone => (h.absent hstage).2 ?_⟩
    exact Option.map_eq_none_iff.mp hnone
  case turn =>
    intro turn hturn
    obtain ⟨old, hold, hrequest, hcall, hphase⟩ := answered_some hturn
    have hholder := h.turn old hold
    constructor
    · rw [hcall]
      exact hholder.sent
    · rw [hcall]
      exact hholder.owner
    · rw [hrequest, hcall]
      intro seatIds hcreate
      obtain ⟨hstage, hfailed, hwrites⟩ := hholder.create seatIds hcreate
      exact ⟨hstage, hfailed.imp id hphase, hwrites⟩
    · rw [hrequest, hcall]
      exact hholder.replace

end Execute

section Turns

/-- The turn of a create, a change, a confirm or a reset gets the row. -/
theorem take (h : Inv scope owner s raw sent) (hturn : s.turn = none) {request : TurnRequest}
    {call : Option Call} (extra : List (ℕ × Call))
    (hvalid : ∀ found, call = some found → found.Valid ∧ found.owner = owner ∧
      ∀ owner' target added, found ≠ .abort owner' target added)
    (hlasting : ∀ other ∈ extra, ∃ found, call = some found ∧ other = (s.number + 1, found) ∧
      ∀ failed ∈ s.failed, ∀ seat revision, found.Writes seat revision →
        revision = failed.2.attempted.2 → scope.Free failed.2.attempted.1 seat)
    (hextra : extra.length ≤ 1)
    (hcreate : ∀ seatIds, request = .create seatIds → s.stage = .absent ∧
      ∀ found, call = some found → found.ttl.isSome)
    (hreplace : ∀ seatIds, request = .replace seatIds → s.stage ≠ .absent ∧
      ∀ found, call = some found → found.ttl.isSome ∧ found.attempted.2 = s.revision + 1 ∧
        ∀ seat revision, found.Writes seat revision →
          revision = s.revision + 1 ∧ seat ∈ seatIds ∨ revision = s.revision ∧ seat ∈ s.seatIds) :
    ∃ sent', Inv scope owner (LateCalls.take { s with lasting := s.lasting ++ extra } request call)
      raw sent' := by
  have hnumber := h.advance hturn call
  set sent' := sent ++ (call.map fun call => (s.number + 1, call)).toList with hsent'
  have hsent (found : Call) (hfound : call = some found) : (s.number + 1, found) ∈ sent' := by
    rw [hsent', hfound]
    exact List.mem_append_right _ (List.mem_singleton_self _)
  have hwith : Inv scope owner { s with number := s.number + 1, lasting := s.lasting ++ extra } raw
      sent' := by
    cases extra with
    | nil => simpa using hnumber
    | cons first rest =>
        obtain rfl : rest = [] := List.length_eq_zero_iff.mp (by simpa using hextra)
        obtain ⟨found, hfound, rfl, hapart⟩ := hlasting first List.mem_cons_self
        exact hnumber.addLasting (hsent found hfound) hapart
  have hheld := hwith.setTurn ⟨request, call, if call.isSome then .waiting else .writing⟩
    ⟨hsent, fun found hfound => (hvalid found hfound).2.1, fun seatIds hrequest =>
        ⟨(hcreate seatIds hrequest).1, Or.inl ((h.absent (hcreate seatIds hrequest).1).2 hturn),
          (hcreate seatIds hrequest).2⟩, hreplace⟩
  refine ⟨sent', hheld.send fun found hfound => ?_⟩
  obtain ⟨hvalid, howner, habort⟩ := hvalid found hfound
  exact ⟨Nat.le_refl _, hvalid, howner, fun _ => hsent found hfound,
    fun owner' target added heq => absurd heq (habort owner' target added)⟩

/-- The turn leaves the row behind in another state. -/
theorem endTurn (h : Inv scope owner s raw sent) (stage : CheckoutStage) {revision : ℕ}
    {seatIds : List String}
    (hcurrent : ∀ failed ∈ s.failed, failed.2.attempted.2 = revision →
      ∀ seat ∈ seatIds, scope.Free failed.2.attempted.1 seat)
    (habsent : stage ≠ .absent) :
    Inv scope owner { s with
      turn := none
      stage := stage
      revision := revision
      seatIds := seatIds } raw sent where
  carries := h.carries
  written := h.written
  unique := h.unique
  bounded := h.bounded
  pending := h.pending
  lasting := h.lasting
  apart := h.apart
  current := hcurrent
  released := h.released
  collided := h.collided
  absent hstage := absurd hstage habsent
  turn turn hturn := by cases hturn

/-- The failure of a turn comes after every call that is to last so far. -/
theorem addFailed (h : Inv scope owner s raw sent) {turn : Turn} (hturn : s.turn = some turn)
    {call : Call} (hcurrent : call.attempted.2 = s.revision →
      ∀ seat ∈ s.seatIds, scope.Free call.attempted.1 seat) :
    Inv scope owner { s with
      turn := some { turn with phase := .failed }
      failed := s.failed ++ [(s.number, call)] } raw sent where
  carries := h.carries
  written := h.written
  unique := h.unique
  bounded := h.bounded
  pending pending hpending :=
    (h.pending pending hpending).mono le_rfl (List.subset_append_left _ _) (List.Subset.refl _)
  lasting := h.lasting
  apart failed hfailed lasting hlasting hlater := by
    obtain hold | hnew := List.mem_append.mp hfailed
    · exact h.apart failed hold lasting hlasting hlater
    · rw [List.mem_singleton.mp hnew] at hlater
      have hle := h.bounded _ (h.lasting _ hlasting)
      exact absurd hlater (Nat.not_lt.mpr hle)
  current failed hfailed := by
    obtain hold | hnew := List.mem_append.mp hfailed
    · exact h.current failed hold
    · rw [List.mem_singleton.mp hnew]
      exact hcurrent
  released := h.released
  collided deletion hdeletion hlater := by
    obtain ⟨failed, found, hfailed, hrest⟩ := h.collided deletion hdeletion hlater
    exact ⟨failed, found, List.mem_append_left _ hfailed, hrest⟩
  absent hstage := ⟨(h.absent hstage).1, fun hnone => by cases hnone⟩
  turn other hother := by
    obtain rfl := Option.some.inj hother
    have hold := h.turn turn hturn
    refine ⟨hold.sent, hold.owner, fun seatIds hcreate => ?_, hold.replace⟩
    obtain ⟨hstage, -, hsets⟩ := hold.create seatIds hcreate
    exact ⟨hstage, Or.inr rfl, hsets⟩

theorem commitTurn (h : Inv scope owner s raw sent) (howner : OwnerName owner) {turn : Turn}
    (hturn : s.turn = some turn) (hphase : turn.phase = .writing)
    (hcalm : ∀ seatIds, turn.request = .replace seatIds → ∀ failed ∈ s.failed,
      failed.2.attempted.2 = s.revision + 1 →
        ∀ seat ∈ seatIds, scope.Free failed.2.attempted.1 seat) :
    Inv scope owner (s.commitTurn collation owner turn) raw sent := by
  have hholder := h.turn turn hturn
  unfold LateCalls.commitTurn
  cases hrequest : turn.request with
  | create seatIds =>
      obtain ⟨-, hfailed, -⟩ := hholder.create seatIds hrequest
      have hnone : s.failed = [] := by
        obtain hnone | hfailed := hfailed
        · exact hnone
        · rw [hphase] at hfailed
          cases hfailed
      refine h.endTurn _ (fun failed hmem => ?_) (by simp)
      rw [hnone] at hmem
      cases hmem
  | confirm => exact h.endTurn _ h.current (by simp)
  | reset => exact h.endTurn _ h.current (by simp)
  | replace seatIds =>
      obtain ⟨hstage, hcall⟩ := hholder.replace seatIds hrequest
      have hcalm := hcalm seatIds hrequest
      have hlasting : Inv scope owner { s with lasting := s.lasting ++
          (turn.call.map fun call => (s.number, call)).toList } raw sent := by
        cases hfound : turn.call with
        | none => simpa using h
        | some call =>
            refine h.addLasting (hholder.sent call hfound) fun failed hfailed seat revision hwrites
              heq => ?_
            obtain ⟨hnext, hseat⟩ | ⟨hcurrent, hseat⟩ :=
              (hcall call hfound).2.2 seat revision hwrites
            · exact hcalm failed hfailed (heq.symm.trans hnext) seat hseat
            · exact h.current failed hfailed (heq.symm.trans hcurrent) seat hseat
      refine (hlasting.endTurn _ hcalm hstage).send fun found hfound => ?_
      unfold finalizeCall at hfound
      dsimp only at hfound
      split_ifs at hfound
      obtain rfl := Option.some.inj hfound
      refine ⟨Nat.le_refl _, ⟨howner, by simp [Call.ttl]⟩, rfl, fun hsets => ?_,
        fun owner' target added heq => ?_⟩
      · cases hsets
      · cases heq

theorem failTurn (h : Inv scope owner s raw sent) (howner : OwnerName owner) {turn : Turn}
    (hturn : s.turn = some turn) : Inv scope owner (s.failTurn turn) raw sent := by
  have hholder := h.turn turn hturn
  have hfailed {call : Call} (hcall : turn.call = some call)
      (hcurrent : call.attempted.2 = s.revision →
        ∀ seat ∈ s.seatIds, scope.Free call.attempted.1 seat) :
      Inv scope owner (LateCalls.send { s with
        turn := some { turn with phase := .failed }
        failed := s.failed ++ [(s.number, call)] } call.compensation) raw sent := by
    refine (h.addFailed hturn hcurrent).send fun found hfound => ?_
    obtain rfl := Call.compensation_some hfound
    have hself := hholder.owner call hcall
    refine ⟨Nat.le_refl _, ⟨by rw [← hself] at howner; exact howner, by simp [Call.ttl]⟩, hself,
      fun hsets => (by cases hsets), fun owner' target added heq => ?_⟩
    injection heq with _ htarget hadded
    refine ⟨call, List.mem_append_right _ (List.mem_singleton_self _), ?_⟩
    rw [← htarget, ← hadded]
  have hplain :
      Inv scope owner { s with turn := some { turn with phase := .failed } } raw sent := by
    refine h.setTurn _ ⟨hholder.sent, hholder.owner, fun seatIds hcreate => ?_, hholder.replace⟩
    obtain ⟨hstage, -, hsets⟩ := hholder.create seatIds hcreate
    exact ⟨hstage, Or.inr rfl, hsets⟩
  obtain ⟨request, call, phase⟩ := turn
  cases request with
  | confirm => exact hplain
  | reset => exact hplain
  | create seatIds =>
      cases call with
      | none => exact hplain
      | some call =>
          have hempty := (h.absent (hholder.create seatIds rfl).1).1
          refine hfailed rfl fun _ seat hseat => ?_
          rw [hempty] at hseat
          cases hseat
  | replace seatIds =>
      cases call with
      | none => exact hplain
      | some call =>
          have hnext := ((hholder.replace seatIds rfl).2 call rfl).2.1
          refine hfailed rfl fun heq => ?_
          rw [hnext] at heq
          exact absurd heq (Nat.succ_ne_self _)

/-- A change writes what it selects at the next revision, and what stays at the current one. -/
theorem prepareCall_some {seatIds : List String} {ttl : ℕ} {call : Call}
    (h : s.prepareCall collation owner seatIds ttl = some call) (howner : OwnerName owner)
    (httl : ttl ≠ 0) : (call.Valid ∧ call.owner = owner ∧
      ∀ owner' target added, call ≠ .abort owner' target added) ∧
      call.ttl.isSome ∧ call.attempted.2 = s.revision + 1 ∧
      ∀ seat revision, call.Writes seat revision →
        revision = s.revision + 1 ∧ seat ∈ seatIds ∨ revision = s.revision ∧ seat ∈ s.seatIds := by
  unfold prepareCall at h
  dsimp only at h
  split_ifs at h
  obtain rfl := Option.some.inj h
  refine ⟨⟨⟨howner, by simpa [Call.ttl] using httl⟩, rfl, by simp⟩, rfl, rfl, ?_⟩
  rintro seat revision (⟨hadded, rfl⟩ | ⟨hretained, rfl⟩)
  · exact Or.inl ⟨rfl, setDifference_subset hadded⟩
  · exact Or.inr ⟨rfl, Collation.mem_orderBy.mp (setIntersection_subset_right hretained)⟩

/-- A turn that lasts nothing yet. -/
theorem takeTurn (h : Inv scope owner s raw sent) (hturn : s.turn = none) {request : TurnRequest}
    {call : Option Call}
    (hvalid : ∀ found, call = some found → found.Valid ∧ found.owner = owner ∧
      ∀ owner' target added, found ≠ .abort owner' target added)
    (hcreate : ∀ seatIds, request = .create seatIds → s.stage = .absent ∧
      ∀ found, call = some found → found.ttl.isSome)
    (hreplace : ∀ seatIds, request = .replace seatIds → s.stage ≠ .absent ∧
      ∀ found, call = some found → found.ttl.isSome ∧ found.attempted.2 = s.revision + 1 ∧
        ∀ seat revision, found.Writes seat revision →
          revision = s.revision + 1 ∧ seat ∈ seatIds ∨ revision = s.revision ∧ seat ∈ s.seatIds) :
    ∃ sent', Inv scope owner (s.take request call) raw sent' := by
  have htake := h.take hturn [] hvalid (fun other hother => by cases hother) (Nat.zero_le _)
    hcreate hreplace
  rw [List.append_nil] at htake
  exact htake

theorem startCreate (h : Inv scope owner s raw sent) (howner : OwnerName owner)
    (hturn : s.turn = none) (hstage : s.stage = .absent) {seatIds : List String} {ttl : ℕ}
    (httl : ttl ≠ 0) : ∃ sent', Inv scope owner
      (s.take (.create seatIds) (some (.prepare owner 0 0 ttl seatIds []))) raw sent' := by
  refine h.takeTurn hturn (fun found hfound => ?_) (fun _ _ => ⟨hstage, fun found hfound => ?_⟩)
    fun _ hreplace => ?_
  · obtain rfl := Option.some.inj hfound
    exact ⟨⟨howner, by simpa [Call.ttl] using httl⟩, rfl, by simp⟩
  · obtain rfl := Option.some.inj hfound
    rfl
  · cases hreplace

theorem startReplace (h : Inv scope owner s raw sent) (howner : OwnerName owner)
    (hturn : s.turn = none) (hstage : s.stage = .selecting) {seatIds : List String} {ttl : ℕ}
    (httl : ttl ≠ 0) : ∃ sent', Inv scope owner
      (s.take (.replace seatIds) (s.prepareCall collation owner seatIds ttl)) raw sent' := by
  refine h.takeTurn hturn (fun found hfound => (prepareCall_some hfound howner httl).1)
    (fun _ hcreate => ?_) fun other hreplace => ⟨?_, fun found hfound => ?_⟩
  · cases hcreate
  · rw [hstage]
    simp
  · obtain rfl := TurnRequest.replace.inj hreplace
    exact (prepareCall_some hfound howner httl).2

theorem startConfirm (h : Inv scope owner s raw sent) (howner : OwnerName owner)
    (hturn : s.turn = none) {ttl : ℕ} (httl : ttl ≠ 0) : ∃ sent', Inv scope owner
      (LateCalls.take { s with lasting := s.lasting ++
        [(s.number + 1, .ensure owner s.revision ttl (collation.orderBy s.seatIds))] } .confirm
        (some (.ensure owner s.revision ttl (collation.orderBy s.seatIds)))) raw sent' := by
  refine h.take hturn _ (fun found hfound => ?_) (fun other hother => ?_) (Nat.le_refl _)
    (fun _ hcreate => ?_) fun _ hreplace => ?_
  · obtain rfl := Option.some.inj hfound
    exact ⟨⟨howner, by simpa [Call.ttl] using httl⟩, rfl, by simp⟩
  · refine ⟨_, rfl, List.mem_singleton.mp hother, ?_⟩
    rintro failed hfailed seat revision ⟨hseat, rfl⟩ heq
    exact h.current failed hfailed heq.symm seat (Collation.mem_orderBy.mp hseat)
  · cases hcreate
  · cases hreplace

theorem releaseCall_pending (collation : Collation) (s : LateCalls) (h : OwnerName owner) :
    (s.releaseCall collation owner).Valid ∧
    (s.releaseCall collation owner).owner = owner ∧
    ∀ owner' target added, s.releaseCall collation owner ≠ .abort owner' target added :=
  ⟨⟨h, by simp [releaseCall, Call.ttl]⟩, rfl, by simp [releaseCall]⟩

theorem startReset (h : Inv scope owner s raw sent) (howner : OwnerName owner)
    (hturn : s.turn = none) : ∃ sent', Inv scope owner
      (s.take .reset (some (s.releaseCall collation owner))) raw sent' := by
  refine h.takeTurn hturn (fun found hfound => ?_) (fun _ hcreate => ?_) fun _ hreplace => ?_
  · obtain rfl := Option.some.inj hfound
    exact releaseCall_pending collation s howner
  · cases hcreate
  · cases hreplace

theorem close (h : Inv scope owner s raw sent) (howner : OwnerName owner) (hturn : s.turn = none) :
    ∃ sent', Inv scope owner
      (LateCalls.send { s with number := s.number + 1, turn := none, stage := .closed }
        (some (s.releaseCall collation owner))) raw sent' := by
  have hnumber := h.advance hturn (some (s.releaseCall collation owner))
  have hclosed := hnumber.endTurn .closed h.current (by simp)
  refine ⟨_, hclosed.send fun found hfound => ?_⟩
  obtain rfl := Option.some.inj hfound
  obtain ⟨hvalid, hself, habort⟩ := releaseCall_pending collation s howner
  exact ⟨Nat.le_refl _, hvalid, hself, fun hsets => (by cases hsets),
    fun owner' target added heq => absurd heq (habort owner' target added)⟩

end Turns

/-- Every calm step keeps the invariant. -/
theorem step (h : Inv scope owner s raw sent) (howner : OwnerName owner) {event : LateEvent}
    (hcalm : Calm scope event s) (hstep : Steps collation owner event s t) :
    ∃ raw' sent', Inv scope owner t raw' sent' := by
  obtain ⟨hallowed, hstep⟩ := hstep
  obtain ⟨env, maxlen, action⟩ := event
  have hvisible := h.visible env.now
  unfold LateCalls.step at hstep
  by_cases htime : env.now < s.now
  · rw [if_pos htime] at hstep
    cases hstep
  rw [if_neg htime] at hstep
  cases action with
  | outside call =>
      obtain rfl := Option.some.inj hstep
      obtain ⟨hvalid, hforeign⟩ := hallowed
      obtain ⟨raw', hcarries, heffect⟩ := Call.run_store hvisible.carries hvalid maxlen env
      refine ⟨raw', sent, hvisible.of_store hcarries (fun seat held hheld hself => ?_) env.now⟩
      obtain rfl | rfl := heffect
      · exact hheld
      · exact (Call.effect_foreign (hself.trans_ne (Ne.symm hforeign)) env.now _ seat).mp hheld
  | expire limit =>
      obtain rfl := Option.some.inj hstep
      obtain ⟨raw', hcarries, hwithin⟩ := wp_store (expire_holds hvisible.carries limit maxlen)
      exact ⟨raw', sent, hvisible.of_store hcarries
        (fun seat held hheld _ => hwithin seat held hheld) env.now⟩
  | derived store =>
      obtain rfl := Option.some.inj hstep
      exact ⟨raw, sent, h.of_store (h.carries.of_eq hallowed) (fun _ _ hheld _ => hheld) env.now⟩
  | execute index =>
      obtain ⟨⟨number, call⟩, hindex, rfl⟩ := Option.map_eq_some_iff.mp hstep
      unfold Calm at hcalm
      dsimp only at hcalm
      rw [hindex] at hcalm
      obtain ⟨raw', hinv⟩ := h.execute ⟨env, maxlen, .execute index⟩ hindex hcalm
      exact ⟨raw', sent, hinv⟩
  | create seatIds ttl =>
      cases hturn : s.turn with
      | some turn =>
          rw [hturn] at hstep
          cases hstep
      | none =>
          rw [hturn] at hstep
          dsimp only at hstep
          split_ifs at hstep with hready
          obtain rfl := Option.some.inj hstep
          exact ⟨raw, h.startCreate howner hturn hready.1 hready.2.2⟩
  | replace seatIds ttl =>
      cases hturn : s.turn with
      | some turn =>
          rw [hturn] at hstep
          cases hstep
      | none =>
          rw [hturn] at hstep
          dsimp only at hstep
          split_ifs at hstep with hready
          obtain rfl := Option.some.inj hstep
          exact ⟨raw, h.startReplace howner hturn hready.1 hready.2⟩
  | confirm ttl =>
      cases hturn : s.turn with
      | some turn =>
          rw [hturn] at hstep
          cases hstep
      | none =>
          rw [hturn] at hstep
          dsimp only at hstep
          split_ifs at hstep with hready
          obtain rfl := Option.some.inj hstep
          exact ⟨raw, h.startConfirm howner hturn hready.2.2⟩
  | reset =>
      cases hturn : s.turn with
      | some turn =>
          rw [hturn] at hstep
          cases hstep
      | none =>
          rw [hturn] at hstep
          dsimp only at hstep
          split_ifs at hstep with hready
          obtain rfl := Option.some.inj hstep
          exact ⟨raw, h.startReset howner hturn⟩
  | close =>
      cases hturn : s.turn with
      | some turn =>
          rw [hturn] at hstep
          cases hstep
      | none =>
          rw [hturn] at hstep
          dsimp only at hstep
          split_ifs at hstep with hready
          obtain rfl := Option.some.inj hstep
          exact ⟨raw, h.close howner hturn⟩
  | giveUp =>
      cases hturn : s.turn with
      | none =>
          rw [hturn] at hstep
          cases hstep
      | some turn =>
          rw [hturn] at hstep
          dsimp only at hstep
          split_ifs at hstep with hwaiting
          obtain rfl := Option.some.inj hstep
          have hholder := h.turn turn hturn
          refine ⟨raw, sent, h.setTurn _ ⟨hholder.sent, hholder.owner, fun seatIds hcreate => ?_,
            hholder.replace⟩⟩
          obtain ⟨hstage, hfailed, hsets⟩ := hholder.create seatIds hcreate
          refine ⟨hstage, Or.inl (hfailed.resolve_right fun heq => ?_), hsets⟩
          rw [hwaiting] at heq
          cases heq
  | commit =>
      cases hturn : s.turn with
      | none =>
          rw [hturn] at hstep
          cases hstep
      | some turn =>
          rw [hturn] at hstep
          dsimp only at hstep
          split_ifs at hstep with hwriting
          obtain rfl := Option.some.inj hstep
          refine ⟨raw, sent, h.commitTurn howner hturn hwriting fun seatIds hreplace => ?_⟩
          obtain ⟨request, call, phase⟩ := turn
          subst hreplace
          unfold Calm at hcalm
          rw [hturn] at hcalm
          exact hcalm
  | fail =>
      cases hturn : s.turn with
      | none =>
          rw [hturn] at hstep
          cases hstep
      | some turn =>
          rw [hturn] at hstep
          dsimp only at hstep
          split_ifs at hstep
          obtain rfl := Option.some.inj hstep
          exact ⟨raw, sent, h.failTurn howner hturn⟩
  | leave =>
      cases hturn : s.turn with
      | none =>
          rw [hturn] at hstep
          cases hstep
      | some turn =>
          rw [hturn] at hstep
          dsimp only at hstep
          split_ifs at hstep
          · obtain rfl := Option.some.inj hstep
            exact ⟨raw, sent, h.endTurn _ h.current (by simp)⟩
          · rename_i hstage
            obtain rfl := Option.some.inj hstep
            exact ⟨raw, sent, h.endTurn _ h.current hstage⟩

end Inv

section Example

/-- What the checkout and Redis do themselves. -/
def LateAction.own : LateAction → Bool
  | .outside _ => false
  | .derived _ => false
  | _ => true

def created : List LateAction := [.create ["A1"] 300, .execute 0, .commit]

end Example

end LateCalls

end Ticketing.Availability
