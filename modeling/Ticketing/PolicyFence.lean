import Ticketing.AdmissionStore

/-!
# The version fence of the admission runtime

Instances refresh their policy asynchronously, so calls under stale and fresh snapshots interleave
in any order. The runtime key is the fence between them: only a synchronisation moves it, never to an
older version, and every other call is refused unless its snapshot is the one stored.
-/

namespace Ticketing.Admission

open Relational Expiring

/-- A synchronisation of the run that was accepted with this stamp. -/
def Published (deliveries : List Delivery) (r : Runtime) : Prop :=
  ∃ before d after p bootstrap, deliveries = before ++ d :: after ∧
    d.message = .call p (.sync bootstrap) ∧
    ((storeAfter before).handle d).reply = .ok d.time ∧ p.stamp = r

/-- The runtime key, once written, neither expires nor is lost. -/
structure RuntimeKept (deliveries : List Delivery) : Prop where
  seen : ∀ before d after, deliveries = before ++ d :: after → (storeAfter before).runtime.isSome →
    ((storeAfter before).runtime.visible d.time).isSome
  stays : ∀ before d after, deliveries = before ++ d :: after →
    (storeAfter before).runtime.isSome ∨ ((storeAfter before).handle d).reply = .ok d.time →
      ((storeAfter before).after d).runtime.isSome

/-- A policy older than the stored one, or of the same version but another generation. -/
def Policy.Stale (p : Policy) (r : Runtime) : Prop :=
  p.version < r.version ∨ (p.version = r.version ∧ p.generation ≠ r.generation)

/-- A call leaves all nine keys of its generation as it found them. -/
def ChangesNothing (before : List Delivery) (d : Delivery) : Prop :=
  ((storeAfter before).handle d).room =
    ((storeAfter before).keys d.message.generation).visible d.time

def Reply.admits : Reply → Bool
  | .admitted _ _ => true
  | _ => false

/-- Versions never decrease; stale synchronisations and calls under another stamp than the stored one
change nothing; and members are admitted under the newest published policy only. -/
structure VersionFenced (deliveries : List Delivery) : Prop where
  versions : ∀ before between after, deliveries = before ++ (between ++ after) →
    ∀ r, (storeAfter before).runtime.content = some r →
      ∃ r', (storeAfter (before ++ between)).runtime.content = some r' ∧ r.version ≤ r'.version
  stale : ∀ before d after p bootstrap r, deliveries = before ++ d :: after →
    d.message = .call p (.sync bootstrap) → (storeAfter before).runtime.content = some r →
      p.Stale r → ChangesNothing before d
  refused : ∀ before d after p op, deliveries = before ++ d :: after → d.message = .call p op →
    (∀ bootstrap, op ≠ .sync bootstrap) → (storeAfter before).runtime.content ≠ some p.stamp →
      ChangesNothing before d ∧
        (p.valid = true → ((storeAfter before).handle d).reply = .resetRequired d.time)
  admits : ∀ before d after, deliveries = before ++ d :: after →
    ((storeAfter before).handle d).released ≠ [] ∨ ((storeAfter before).handle d).reply.admits →
      ∃ p op, d.message = .call p op ∧ (storeAfter before).runtime.content = some p.stamp ∧
        Published before p.stamp ∧ ∀ r, Published before r → r.version ≤ p.version ∧
          (r.version = p.version → r.generation = p.generation)

namespace Room

variable {room : Room} {p : Policy} {now : ℕ}

theorem cleanup_runtime (room : Room) (p : Policy) (now : ℕ) :
    (room.cleanup p now).1.runtime = room.runtime :=
  congrArg Prod.fst (cleanup_fixtures room p now)

theorem draw_runtime (p : Policy) (now turns tokens : ℕ) (room : Room) :
    (draw p now turns tokens room).room.runtime = room.runtime :=
  congrArg Prod.fst (draw_fixtures p now turns tokens room)

/-- What a call does to the stored stamp: nothing, unless it lets the key expire. -/
def Stamps (before after : Key Runtime) : Prop :=
  after.content = before.content ∨ after = none

theorem stamps_touch (room : Room) (p : Policy) (now : ℕ) :
    Stamps room.runtime (room.touch p now).runtime := by
  by_cases hle : p.ttl now ≤ now
  · exact Or.inr (Key.expireAt_of_le _ hle)
  · exact Or.inl (Key.content_expireAt_of_lt _ (Nat.lt_of_not_le hle))

theorem join_stamps (room : Room) (p : Policy) (now : ℕ) (m : String) (score : ℕ) :
    Stamps room.runtime (room.join p now m score).room.runtime := by
  unfold join
  dsimp only
  split_ifs
  · exact Or.inl rfl
  · exact Or.inl rfl
  · exact Or.inl rfl
  · exact Or.inl rfl
  · exact stamps_touch _ p now
  · exact Or.inl rfl
  · exact Or.inl rfl
  · exact stamps_touch _ p now

theorem beat_stamps (room : Room) (p : Policy) (now : ℕ) (m : String) :
    Stamps room.runtime (room.beat p now m).room.runtime := by
  unfold beat
  dsimp only
  split_ifs
  · exact Or.inl rfl
  · exact Or.inl rfl
  · exact stamps_touch (room.renew p now m _) p now

theorem tick_stamps (room : Room) (p : Policy) (now : ℕ) :
    Stamps room.runtime (room.tick p now).room.runtime := by
  have hclean := cleanup_runtime room p now
  cases hreason : (room.cleanup p now).1.pauseReason p now with
  | some reason =>
      obtain ⟨reply, htick⟩ := tick_of_paused hreason
      rw [htick, ← hclean]
      exact stamps_touch _ p now
  | none =>
      obtain ⟨tokens, bucket, -, hroom⟩ := tick_of_open hreason
      rw [hroom, ← hclean, ← draw_runtime p now p.batch tokens]
      exact stamps_touch { (draw p now p.batch tokens (room.cleanup p now).1).room with
        release := bucket } p now

theorem guarded_stamps {out : Outcome} (h : Stamps room.runtime out.room.runtime) :
    Stamps room.runtime (room.guarded p now out).room.runtime := by
  unfold guarded
  split_ifs
  · exact Or.inl rfl
  · exact Or.inl rfl
  · exact h

/-- Only a synchronisation changes the stamp. -/
theorem script_stamps (room : Room) (p : Policy) (now : ℕ) {op : Op}
    (hop : ∀ bootstrap, op ≠ .sync bootstrap) :
    Stamps room.runtime (room.script p now op).room.runtime := by
  unfold script
  split_ifs
  · exact Or.inl rfl
  · cases op with
    | sync bootstrap => exact absurd rfl (hop bootstrap)
    | status member => exact guarded_stamps (Or.inl rfl)
    | leave member => exact guarded_stamps (Or.inl rfl)
    | join member score => exact guarded_stamps (join_stamps room p now member score)
    | heartbeat member => exact guarded_stamps (beat_stamps room p now member)
    | tick => exact guarded_stamps (tick_stamps room p now)

/-- A stale synchronisation changes nothing; any other that is accepted stores its own stamp. -/
theorem sync_cases (room : Room) (p : Policy) (now : ℕ) (bootstrap : Bool) :
    ((room.sync p now bootstrap).room = room ∧ (room.sync p now bootstrap).reply ≠ .ok now) ∨
      ((room.sync p now bootstrap).reply = .ok now ∧
        (∀ r, room.runtime.content = some r → ¬p.Stale r) ∧
        ((room.sync p now bootstrap).room.runtime.content = some p.stamp ∨
          (room.sync p now bootstrap).room.runtime = none)) := by
  unfold sync
  dsimp only
  split_ifs with hstale hmissing hother
  · exact Or.inl ⟨rfl, Reply.noConfusion⟩
  · exact Or.inl ⟨rfl, Reply.noConfusion⟩
  · exact Or.inl ⟨rfl, Reply.noConfusion⟩
  · refine Or.inr ⟨rfl, ?_, ?_⟩
    · intro r hr hcase
      rw [hr] at hstale hother
      cases hcase with
      | inl holder => exact hstale holder
      | inr hsame => exact hother ⟨hsame.1.symm, fun heq => hsame.2 (Option.some.inj heq).symm⟩
    · exact stamps_touch { room with runtime := room.runtime.write p.stamp } p now

theorem fenced_iff : room.fenced p = true ↔ room.runtime.content = some p.stamp :=
  decide_eq_true_iff

/-- Every call but a synchronisation runs behind the fence. -/
theorem script_guarded (room : Room) (p : Policy) (now : ℕ) {op : Op}
    (hop : ∀ bootstrap, op ≠ .sync bootstrap) : ∃ out, room.script p now op =
      if p.valid = false then ⟨.invalid, [], room⟩ else room.guarded p now out := by
  cases op with
  | sync bootstrap => exact absurd rfl (hop bootstrap)
  | status member => exact ⟨_, rfl⟩
  | leave member => exact ⟨_, rfl⟩
  | join member score => exact ⟨_, rfl⟩
  | heartbeat member => exact ⟨_, rfl⟩
  | tick => exact ⟨_, rfl⟩

/-- Under another stamp than the stored one a call is refused. -/
theorem script_of_not_fenced {op : Op} (hop : ∀ bootstrap, op ≠ .sync bootstrap)
    (h : room.runtime.content ≠ some p.stamp) : room.script p now op =
      ⟨if p.valid = false then .invalid else .resetRequired now, [], room⟩ := by
  have hfenced : room.fenced p = false :=
    Bool.eq_false_iff.mpr fun htrue => h (fenced_iff.mp htrue)
  obtain ⟨out, hout⟩ := script_guarded room p now hop
  rw [hout]
  by_cases hvalid : p.valid = false
  · rw [if_pos hvalid, if_pos hvalid]
  · rw [if_neg hvalid, if_neg hvalid]
    exact if_pos hfenced

/-- Only calls under the stored stamp release or report an admission. -/
theorem fenced_of_admits {op : Op} (h : (room.script p now op).released ≠ [] ∨
    (room.script p now op).reply.admits = true) :
    room.runtime.content = some p.stamp ∧ ∀ bootstrap, op ≠ .sync bootstrap := by
  by_cases hop : ∀ bootstrap, op ≠ .sync bootstrap
  · refine ⟨?_, hop⟩
    by_contra hother
    rw [script_of_not_fenced hop hother] at h
    cases h with
    | inl hreleased => exact hreleased rfl
    | inr hadmits =>
        by_cases hvalid : p.valid = false
        · rw [if_pos hvalid] at hadmits
          cases hadmits
        · rw [if_neg hvalid] at hadmits
          cases hadmits
  · exfalso
    push Not at hop
    obtain ⟨bootstrap, rfl⟩ := hop
    unfold script sync at h
    dsimp only at h
    split_ifs at h <;> simp [Reply.admits] at h

end Room

section runs

variable {deliveries : List Delivery}

theorem Published.append (before after : List Delivery) {r : Runtime} (h : Published before r) :
    Published (before ++ after) r := by
  obtain ⟨start, d, rest, p, bootstrap, hsplit, hcall, hreply, hstamp⟩ := h
  exact ⟨start, d, rest ++ after, p, bootstrap, by rw [hsplit]; simp, hcall, hreply, hstamp⟩

/-- A publication of a longer run is the last call or one before it. -/
theorem published_append_singleton {d : Delivery} {r : Runtime}
    (h : Published (deliveries ++ [d]) r) : Published deliveries r ∨
      ∃ p bootstrap, d.message = .call p (.sync bootstrap) ∧
        ((storeAfter deliveries).handle d).reply = .ok d.time ∧ p.stamp = r := by
  obtain ⟨before, last, after, p, bootstrap, hsplit, hcall, hreply, hstamp⟩ := h
  cases after using List.reverseRecOn with
  | nil =>
      obtain ⟨hbefore, hlast⟩ := List.append_inj' hsplit rfl
      cases hlast
      rw [hbefore]
      exact Or.inr ⟨p, bootstrap, hcall, hreply, hstamp⟩
  | append_singleton after e =>
      rw [← List.cons_append, ← List.append_assoc] at hsplit
      obtain ⟨hbefore, -⟩ := List.append_inj' hsplit rfl
      exact Or.inl ⟨before, last, after, p, bootstrap, hbefore, hcall, hreply, hstamp⟩

theorem RuntimeKept.append_left {before after : List Delivery}
    (h : RuntimeKept (before ++ after)) : RuntimeKept before where
  seen start d rest hsplit := h.seen start d (rest ++ after) (by rw [hsplit]; simp)
  stays start d rest hsplit := h.stays start d (rest ++ after) (by rw [hsplit]; simp)

/-- The stored stamp was published and none published is newer. -/
structure Newest (deliveries : List Delivery) : Prop where
  published : ∀ r, (storeAfter deliveries).runtime.content = some r → Published deliveries r
  newest : ∀ r, Published deliveries r → ∃ r', (storeAfter deliveries).runtime.content = some r' ∧
    r.version ≤ r'.version ∧ (r.version = r'.version → r.generation = r'.generation)

/-- A runtime key that has not expired is seen with its stamp. -/
theorem content_visible {k : Key Runtime} {now : ℕ} (h : (k.visible now).isSome) :
    (k.visible now).content = k.content := by
  cases k with
  | none => rfl
  | some cell =>
      unfold Key.visible at h ⊢
      cases hkept : cell.deadline.all fun d => decide (now ≤ d) with
      | true => rw [Option.filter_some, if_pos hkept]
      | false =>
          rw [Option.filter_some, if_neg (by rw [hkept]; decide)] at h
          cases h

/-- What a call finds stored is what the last one left, if the key is kept. -/
theorem RuntimeKept.content_seen {before after : List Delivery} {d : Delivery}
    (h : RuntimeKept (before ++ d :: after)) :
    ((storeAfter before).runtime.visible d.time).content = (storeAfter before).runtime.content := by
  cases hsome : (storeAfter before).runtime with
  | none => rfl
  | some cell =>
      have hkept := h.seen before d after rfl (by rw [hsome]; rfl)
      rw [hsome] at hkept
      exact content_visible hkept

/-- A call that changes the stamp by expiry at most leaves it as it was. -/
theorem RuntimeKept.content_stays {before after : List Delivery} {d : Delivery}
    (h : RuntimeKept (before ++ d :: after)) (hstamps : Room.Stamps
      ((storeAfter before).runtime.visible d.time) ((storeAfter before).after d).runtime) :
    ((storeAfter before).after d).runtime.content = (storeAfter before).runtime.content := by
  cases hstamps with
  | inl hsame => exact hsame.trans h.content_seen
  | inr hgone =>
      cases hsome : (storeAfter before).runtime with
      | none => rw [hgone]
      | some cell =>
          have hstays := h.stays before d after rfl (Or.inl (by rw [hsome]; rfl))
          rw [hgone] at hstays
          cases hstays

/-- A call stores its own stamp in an accepted synchronisation, and else leaves the stored one. -/
theorem content_after {before after : List Delivery} {d : Delivery}
    (h : RuntimeKept (before ++ d :: after)) :
    (((storeAfter before).after d).runtime.content = (storeAfter before).runtime.content ∧
      ∀ p bootstrap, d.message = .call p (.sync bootstrap) →
        ((storeAfter before).handle d).reply ≠ .ok d.time) ∨
      ∃ p bootstrap, d.message = .call p (.sync bootstrap) ∧
        ((storeAfter before).handle d).reply = .ok d.time ∧
        (∀ r, (storeAfter before).runtime.content = some r → ¬p.Stale r) ∧
        ((storeAfter before).after d).runtime.content = some p.stamp := by
  cases hmessage : d.message with
  | pause generation =>
      refine Or.inl ⟨h.content_stays (Or.inl ?_), fun p bootstrap hcall => by cases hcall⟩
      rw [Store.runtime_after, Store.handle_pause _ hmessage]
      unfold Room.markPause
      split_ifs <;> rfl
  | call p op =>
      have hhandle := (storeAfter before).handle_call hmessage
      have hruntime := (storeAfter before).runtime_after d
      rw [hhandle] at hruntime
      by_cases hop : ∀ bootstrap, op ≠ .sync bootstrap
      · refine Or.inl ⟨h.content_stays ?_, ?_⟩
        · rw [hruntime]
          exact Room.script_stamps _ p d.time hop
        · intro q bootstrap hcall
          cases hcall
          exact absurd rfl (hop bootstrap)
      · push Not at hop
        obtain ⟨bootstrap, rfl⟩ := hop
        by_cases hvalid : p.valid = false
        · have hscript : (((storeAfter before).keys p.generation).visible d.time).script p d.time
              (.sync bootstrap) = ⟨.invalid, [], _⟩ := if_pos hvalid
          rw [hscript] at hhandle hruntime
          refine Or.inl ⟨h.content_stays (Or.inl (by rw [hruntime]; rfl)), ?_⟩
          intro q flag hcall
          rw [hhandle]
          exact Reply.noConfusion
        · have hscript : (((storeAfter before).keys p.generation).visible d.time).script p d.time
              (.sync bootstrap) = (((storeAfter before).keys p.generation).visible d.time).sync p
                d.time bootstrap := if_neg hvalid
          rw [hscript] at hhandle hruntime
          obtain ⟨hroom, hno⟩ | ⟨hreply, hfresh, hstored⟩ := Room.sync_cases
            (((storeAfter before).keys p.generation).visible d.time) p d.time bootstrap
          · refine Or.inl ⟨h.content_stays (Or.inl (by rw [hruntime, hroom]; rfl)), ?_⟩
            intro q flag hcall
            rw [hhandle]
            exact hno
          · have haccepted : ((storeAfter before).handle d).reply = .ok d.time := by
              rw [hhandle, hreply]
            refine Or.inr ⟨p, bootstrap, rfl, haccepted, ?_, ?_⟩
            · intro r hr
              exact hfresh r (h.content_seen.trans hr)
            · rw [← hruntime] at hstored
              cases hstored with
              | inl hown => exact hown
              | inr hgone =>
                  have hstays := h.stays before d after rfl (Or.inr haccepted)
                  rw [hgone] at hstays
                  cases hstays

theorem newest_empty : Newest [] where
  published := fun r h => by cases h
  newest := by
    rintro r ⟨before, d, after, -, -, hsplit, -⟩
    exact absurd hsplit.symm (List.append_ne_nil_of_right_ne_nil _ (List.cons_ne_nil _ _))

theorem Newest.append_singleton {d : Delivery} (h : Newest deliveries)
    (hkept : RuntimeKept (deliveries ++ [d])) : Newest (deliveries ++ [d]) := by
  obtain ⟨hsame, hnone⟩ | ⟨p, bootstrap, hcall, hreply, hfresh, hstored⟩ := content_after hkept
  · refine ⟨?_, ?_⟩
    · intro r hr
      rw [storeAfter_append_singleton, hsame] at hr
      exact (h.published r hr).append _ _
    · intro r hr
      rw [storeAfter_append_singleton, hsame]
      obtain hearlier | ⟨p, bootstrap, hcall, hreply, -⟩ := published_append_singleton hr
      · exact h.newest r hearlier
      · exact absurd hreply (hnone p bootstrap hcall)
  · refine ⟨?_, ?_⟩
    · intro r hr
      rw [storeAfter_append_singleton, hstored] at hr
      exact ⟨deliveries, d, [], p, bootstrap, rfl, hcall, hreply, Option.some.inj hr⟩
    · intro r hr
      rw [storeAfter_append_singleton]
      refine ⟨p.stamp, hstored, ?_⟩
      obtain hearlier | ⟨q, flag, hcall', -, hstamp⟩ := published_append_singleton hr
      · -- the synchronisation was not stale against the newest before it
        obtain ⟨r', hr', hle, hgeneration⟩ := h.newest r hearlier
        have hnot := hfresh r' hr'
        unfold Policy.Stale at hnot
        push Not at hnot
        refine ⟨hle.trans hnot.1, fun heq => ?_⟩
        have hversion : p.version = r'.version := le_antisymm (heq.symm.le.trans hle) hnot.1
        exact (hgeneration (heq.trans hversion)).trans (hnot.2 hversion).symm
      · rw [hcall] at hcall'
        cases hcall'
        rw [← hstamp]
        exact ⟨le_rfl, fun _ => rfl⟩

theorem newest_of_kept (hkept : RuntimeKept deliveries) : Newest deliveries := by
  induction deliveries using List.reverseRecOn with
  | nil => exact newest_empty
  | append_singleton deliveries d ih => exact (ih hkept.append_left).append_singleton hkept

/-- The version fence, for instances of any age and calls in any order. These are the calls that
reach the script: the store itself answers `NOT_REQUIRED` for a policy that is off, and
`UNAVAILABLE` without the secret, and sends nothing. -/
theorem policy_version_fenced (deliveries : List Delivery) (hkept : RuntimeKept deliveries) :
    VersionFenced deliveries where
  versions := by
    intro before between after hsplit r hr
    rw [hsplit, ← List.append_assoc] at hkept
    have hlater := newest_of_kept hkept.append_left
    have hearlier := newest_of_kept hkept.append_left.append_left
    obtain ⟨r', hr', hle, -⟩ := hlater.newest r ((hearlier.published r hr).append _ _)
    exact ⟨r', hr', hle⟩
  stale := by
    intro before d after p bootstrap r hsplit hcall hr hstale
    subst hsplit
    have hhandle := (storeAfter before).handle_call hcall
    unfold ChangesNothing
    rw [hhandle, hcall]
    unfold Room.script
    split_ifs with hvalid
    · rfl
    · obtain ⟨hroom, -⟩ | ⟨-, hfresh, -⟩ := Room.sync_cases
        (((storeAfter before).keys p.generation).visible d.time) p d.time bootstrap
      · exact hroom
      · exact absurd hstale (hfresh r (hkept.content_seen.trans hr))
  refused := by
    intro before d after p op hsplit hcall hop hother
    subst hsplit
    have hunlike : (((storeAfter before).keys p.generation).visible d.time).runtime.content ≠
        some p.stamp := by
      intro hsame
      exact hother (hkept.content_seen.symm.trans hsame)
    unfold ChangesNothing
    rw [(storeAfter before).handle_call hcall, Room.script_of_not_fenced hop hunlike, hcall]
    refine ⟨rfl, fun hvalid => if_neg ?_⟩
    rw [hvalid]
    decide
  admits := by
    intro before d after hsplit hadmits
    subst hsplit
    cases hmessage : d.message with
    | pause generation =>
        rw [(storeAfter before).handle_pause hmessage] at hadmits
        unfold Room.markPause at hadmits
        split_ifs at hadmits <;> simp [Reply.admits] at hadmits
    | call p op =>
        rw [(storeAfter before).handle_call hmessage] at hadmits
        have hstored := hkept.content_seen.symm.trans (Room.fenced_of_admits hadmits).1
        have hnewest := newest_of_kept hkept.append_left
        refine ⟨p, op, rfl, hstored, hnewest.published _ hstored, ?_⟩
        intro r hr
        obtain ⟨r', hr', hle, hgeneration⟩ := hnewest.newest r hr
        rw [hstored] at hr'
        cases hr'
        exact ⟨hle, hgeneration⟩

end runs

/-- The sale after its generation was rotated. -/
def rotatedSale : Policy := { openingSale with generation := "g2", version := 2 }

/-- An instance still ticks and synchronises under the old policy. -/
def staleInstance : List Delivery :=
  [⟨10, .call openingSale (.sync true)⟩, ⟨1050, .call openingSale (.join "a" 3)⟩,
    ⟨1100, .call rotatedSale (.sync true)⟩, ⟨1200, .call openingSale .tick⟩,
    ⟨1300, .call openingSale (.sync false)⟩]

theorem policy_version_fenced_staleInstance :
    ChangesNothing (staleInstance.take 3) ⟨1200, .call openingSale .tick⟩ ∧
      ((storeAfter (staleInstance.take 3)).handle ⟨1200, .call openingSale .tick⟩).reply =
        .resetRequired 1200 := by
  have hsplits : ∀ before d after, staleInstance = before ++ d :: after →
      ∃ n < 5, before = staleInstance.take n ∧ staleInstance[n]? = some d := by
    intro before d after hsplit
    refine ⟨before.length, ?_, by rw [hsplit]; simp, by rw [hsplit]; simp⟩
    have hlength := congrArg List.length hsplit
    simp [staleInstance] at hlength
    omega
  have hkept : RuntimeKept staleInstance := by
    refine ⟨?_, ?_⟩
    · intro before d after hsplit hsome
      obtain ⟨n, hn, hbefore, hd⟩ := hsplits before d after hsplit
      subst hbefore
      interval_cases n <;> cases hd <;> first | rfl | cases hsome
    · intro before d after hsplit hwritten
      obtain ⟨n, hn, hbefore, hd⟩ := hsplits before d after hsplit
      subst hbefore
      interval_cases n <;> cases hd <;> rfl
  have hrefused := (policy_version_fenced staleInstance hkept).refused (staleInstance.take 3)
    ⟨1200, .call openingSale .tick⟩ [⟨1300, .call openingSale (.sync false)⟩] openingSale .tick rfl rfl
    (fun _ => Op.noConfusion) (by decide)
  exact ⟨hrefused.1, hrefused.2 rfl⟩

end Ticketing.Admission
