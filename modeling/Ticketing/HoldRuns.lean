import Ticketing.SessionRuns

/-!
# The holds over runs

Whatever scripts have run before, a hold that still has time to live is safe from everybody but its
owner, a call that writes holds writes all of them or none, and the derived model next to the holds
changes neither what a hold script answers nor what it writes.
-/

namespace Ticketing.Availability

open Redis Script Transition

section Determined

theorem raw_hold (seat : String) : Key.Raw (.hold seat) := ⟨seat, rfl⟩

theorem determinedBy_forEach {body : String → Script Key Unit}
    (h : ∀ seat, DeterminedBy Key.Raw (body seat)) (seats : List String) :
    DeterminedBy Key.Raw (forEach body seats) := by
  induction seats with
  | nil => exact determinedBy_pure _
  | cons seat seats ih => exact determinedBy_bind (h seat) fun _ => ih

theorem determinedBy_get (seat : String) : DeterminedBy Key.Raw (get (.hold seat)) :=
  determinedBy_readKey (raw_hold seat)

theorem determinedBy_refusal (owner : String) (seats : List String) :
    DeterminedBy Key.Raw (refusal owner seats) := by
  induction seats with
  | nil => exact determinedBy_pure _
  | cons seat seats ih =>
      refine determinedBy_bind (determinedBy_get seat) fun value => ?_
      cases value with
      | none => exact ih
      | some value =>
          dsimp only
          cases ownerText value with
          | none => exact determinedBy_pure _
          | some current => exact determinedBy_ite (determinedBy_pure _) ih

theorem determinedBy_takeSeat (owner : String) (revision ttl : ℕ) (seat : String) :
    DeterminedBy Key.Raw (takeSeat owner revision ttl seat) := by
  unfold takeSeat setPx
  exact determinedBy_atKey (raw_hold seat)

theorem determinedBy_keepSeat (owner : String) (revision ttl : ℕ) (seat : String) :
    DeterminedBy Key.Raw (keepSeat owner revision ttl seat) :=
  determinedBy_bind (determinedBy_get seat) fun _ => determinedBy_ite
    (determinedBy_bind (determinedBy_atKey (raw_hold seat)) fun _ => determinedBy_pure _)
    (determinedBy_atKey (raw_hold seat))

theorem determinedBy_deleteHolds (judge : String → Except String Bool) (deleted : ℕ)
    (seats : List String) : DeterminedBy Key.Raw (deleteHolds judge deleted seats) := by
  induction seats generalizing deleted with
  | nil => exact determinedBy_pure _
  | cons seat seats ih =>
      refine determinedBy_bind (determinedBy_get seat) fun value => ?_
      cases value with
      | none => exact ih deleted
      | some value =>
          dsimp only
          cases judge value with
          | error message => exact determinedBy_pure _
          | ok judged =>
              cases judged
              · exact ih deleted
              · exact determinedBy_bind (determinedBy_atKey (raw_hold seat)) fun _ => ih _

/-- The operation itself depends on the holds only. -/
theorem Call.determinedBy_script (call : Call) : DeterminedBy Key.Raw call.script := by
  cases call with
  | prepare owner base target ttl added retained =>
      refine determinedBy_bind (determinedBy_refusal _ _) fun reply => ?_
      cases reply with
      | some reply => exact determinedBy_pure _
      | none =>
          exact determinedBy_bind (determinedBy_forEach (determinedBy_takeSeat _ _ _) _) fun _ =>
            determinedBy_bind (determinedBy_forEach (determinedBy_keepSeat _ _ _) _) fun _ =>
              determinedBy_pure _
  | ensure owner revision ttl seats =>
      refine determinedBy_bind (determinedBy_refusal _ _) fun reply => ?_
      cases reply with
      | some reply => exact determinedBy_pure _
      | none =>
          exact determinedBy_bind (determinedBy_forEach (determinedBy_keepSeat _ _ _) _) fun _ =>
            determinedBy_pure _
  | abort owner target added => exact determinedBy_deleteHolds _ _ _
  | finalize owner target removed => exact determinedBy_deleteHolds _ _ _
  | release owner seats => exact determinedBy_deleteHolds _ _ _

end Determined

section Wrapped

variable {store after : Store Key} {env : Env} {maxlen : ℕ} {raw : Holds}

/-- A wrapped operation that ends answers as the operation alone. -/
theorem Call.run_reply (hraw : Carries store raw) {call : Call} {reply : Reply}
    (hrun : call.run maxlen env store = .done reply after) :
    (call.script env store).value = some reply := by
  obtain ⟨modelReady, checked, hchecked, hrest⟩ := bind_eq_done.mp hrun
  have hframe : ∀ key, ¬ Key.Derived key → checked key = store key := by
    have hwrites := writes_checkModel call.seats env store
    rw [hchecked] at hwrites
    exact hwrites
  obtain ⟨message, middle, hpreflight, hrest⟩ := bind_eq_done.mp hrest
  rw [preflight_spec (hraw.of_derived hframe) env call.seats] at hpreflight
  cases hpreflight
  obtain ⟨result, written, hscript, hlast⟩ := bind_eq_done.mp hrest
  have hresult : result = reply := by
    cases modelReady with
    | false =>
        injection hlast
    | true =>
        obtain ⟨_, _, _, hpure⟩ := bind_eq_done.mp hlast
        injection hpure
  have hsame := call.determinedBy_script env checked store fun key hkey => by
    obtain ⟨seat, rfl⟩ := hkey
    exact hframe _ fun hderived => hderived seat rfl
  rw [hscript, hresult] at hsame
  cases halone : call.script env store with
  | done value alone =>
      rw [halone] at hsame
      rw [hsame.1]
      rfl
  | raised error alone =>
      rw [halone] at hsame
      exact hsame.elim

end Wrapped

section Effects

variable {raw : Holds}

theorem Call.conflicts_iff (call : Call) (raw : Holds) (httl : call.ttl.isSome) : call.conflicts raw = true ↔
    ∃ seat ∈ call.seats, ∃ held, raw seat = some held ∧ held.owner ≠ call.owner := by
  unfold conflicts
  rw [httl, Bool.true_and]
  constructor
  · intro hforeign
    by_contra hnone
    have hfree : raw.foreign call.owner call.seats = false := by
      rw [Holds.foreign_eq_false]
      intro seat hseat held hheld
      by_contra hother
      exact hnone ⟨seat, hseat, held, hheld, hother⟩
    rw [hfree] at hforeign
    cases hforeign
  · rintro ⟨seat, hseat, held, hheld, hother⟩
    by_contra hfree
    exact hother ((Holds.foreign_eq_false raw _ _).mp (Bool.eq_false_of_not_eq_true hfree) seat
      hseat held hheld)

/-- A call without a conflict leaves each of its seats held by its owner for the whole time to
live. -/
theorem Call.effect_own (call : Call) {ttl : ℕ} (httl : call.ttl = some ttl)
    (hfree : call.conflicts raw = false) (now : ℕ) {seat : String} (hseat : seat ∈ call.seats) : ∃ held,
      call.effect now raw seat = some held ∧ held.owner = call.owner ∧
        held.deadline = now + ttl := by
  have hkept (held : Held) (old : Option Held) : (Holds.kept held old).deadline = held.deadline := by
    cases old <;> rfl
  have howner : ∀ seat ∈ call.seats, ∀ held, raw seat = some held → held.owner = call.owner := by
    intro seat hseat held hheld
    by_contra hother
    have hconflict := (call.conflicts_iff raw (by rw [httl]; rfl)).mpr
      ⟨seat, hseat, held, hheld, hother⟩
    rw [hfree] at hconflict
    cases hconflict
  unfold effect
  rw [if_neg (by rw [hfree]; exact Bool.false_ne_true)]
  cases call with
  | prepare owner base target callTtl added retained =>
      obtain rfl := Option.some.inj httl
      show ∃ held, Holds.keep _ _ retained seat = some held ∧ _
      unfold Holds.keep
      by_cases hretained : seat ∈ retained
      · rw [if_pos hretained]
        refine ⟨_, rfl, Holds.kept_owner _ fun found hfound => ?_, hkept _ _⟩
        unfold Holds.take at hfound
        split_ifs at hfound with hadded
        · obtain rfl := Option.some.inj hfound
          rfl
        · exact howner seat hseat found hfound
      · have hadded : seat ∈ added := (List.mem_append.mp hseat).resolve_right hretained
        rw [if_neg hretained]
        exact ⟨_, if_pos hadded, rfl, rfl⟩
  | ensure owner revision callTtl seats =>
      obtain rfl := Option.some.inj httl
      refine ⟨_, if_pos hseat, Holds.kept_owner _ fun found hfound => ?_, hkept _ _⟩
      exact howner seat hseat found hfound
  | abort owner target added => cases httl
  | finalize owner target removed => cases httl
  | release owner seats => cases httl

end Effects

section Runs

variable {maxlen : ℕ} {k k' : Keyspace} {events : List SessionEvent} {env : Env}

/-- In every state that is reached, a script leaves a hold that still has time to live as it is,
unless it is a call of the owner. -/
theorem live_hold_kept (hmaxlen : maxlen ≠ 0) (hstart : Starts k.store)
    (hrun : Trace (Keyspace.step maxlen) k events k') (hnow : k'.now ≤ env.now)
    (call : SessionCall) (hvalid : call.Valid) {id value : String} {deadline : ℕ}
    (hslot : k'.store (.hold id) = some ⟨.string value, some deadline⟩) (hlive : env.now < deadline)
    (hforeign : ∀ own, call = .hold own → ownerText value ≠ some own.owner) :
    (k'.run maxlen env call).store (.hold id) = some ⟨.string value, some deadline⟩ := by
  obtain ⟨s, t, hbefore, hmirrors, hnext, hafter, -⟩ :=
    (Keyspace.tracked_run hmaxlen hstart hrun).run hmaxlen hnow hvalid
  have hvisible : k'.visible env (.hold id) = some ⟨.string value, some deadline⟩ := by
    show Slot.visible env.now (k'.store (.hold id)) = _
    rw [hslot]
    exact Option.filter_eq_some_iff.mpr ⟨rfl, decide_eq_true hlive.le⟩
  rw [hbefore.carries.slot id] at hvisible
  obtain ⟨held, hheld, hentry⟩ := Option.map_eq_some_iff.mp hvisible
  injection hentry with hvalue hdeadline
  injection hvalue with htext
  obtain rfl := Option.some.inj hdeadline
  have hkept := hmirrors.live hnext hheld hlive fun own hown howner => hforeign own hown (by
    rw [← htext, ownerText_text (hbefore.carries.owner id held hheld), howner])
  rw [hafter.carries.slot id, hkept, ← htext]
  rfl

theorem eq_of_text {slot : Slot} {value : String} {deadline : ℕ}
    (htext : slot.text = some (some value)) (hdeadline : slot.deadline = some deadline) :
    slot = some ⟨.string value, some deadline⟩ := by
  rcases slot with _ | ⟨content, expiry⟩
  · cases htext
  · cases content with
    | string text =>
        obtain rfl := Option.some.inj (Option.some.inj htext)
        obtain rfl : expiry = some deadline := hdeadline
        rfl
    | _ => cases htext

/-- A seat that is held by somebody else. -/
def HeldByOther (store : Store Key) (owner seat : String) : Prop :=
  ∃ value deadline, store (.hold seat) = some ⟨.string value, some deadline⟩ ∧
    ownerText value ≠ some owner

/-- A call that writes holds is refused for a seat that is held by somebody else and then writes no
hold, or it leaves every one of its seats held by the caller. -/
def AllOrNothing (before : Store Key) (now : ℕ) (call : Call) (ttl : ℕ)
    (result : Outcome Key Reply) : Prop :=
  ((∃ seat ∈ call.seats, HeldByOther before call.owner seat) ∧
      result.value = some (.integer 0) ∧
      ∀ seat, result.store (.hold seat) = before (.hold seat)) ∨
    (¬ (∃ seat ∈ call.seats, HeldByOther before call.owner seat) ∧
      result.value = some (.integer 1) ∧
      ∀ seat ∈ call.seats, ∃ value, ownerText value = some call.owner ∧
        result.store (.hold seat) = some ⟨.string value, some (now + ttl)⟩)

theorem holds_all_or_nothing (hmaxlen : maxlen ≠ 0) (hstart : Starts k.store)
    (hrun : Trace (Keyspace.step maxlen) k events k') (hnow : k'.now ≤ env.now) (call : Call)
    (hvalid : call.Valid) {ttl : ℕ} (httl : call.ttl = some ttl) :
    AllOrNothing (k'.visible env) env.now call ttl (k'.run maxlen env (.hold call)) := by
  obtain ⟨s, t, hbefore, -, hnext, hafter, -⟩ :=
    (Keyspace.tracked_run hmaxlen hstart hrun).run hmaxlen hnow (show (SessionCall.hold call).Valid
      from hvalid)
  have hsome : call.ttl.isSome = true := by
    rw [httl]
    rfl
  have hother : (∃ seat ∈ call.seats, HeldByOther (k'.visible env) call.owner seat) ↔
      call.conflicts s.raw = true := by
    rw [call.conflicts_iff s.raw hsome]
    refine exists_congr fun seat => and_congr_right fun _ => ⟨?_, ?_⟩
    · rintro ⟨value, deadline, hslot, hvalue⟩
      rw [hbefore.carries.slot seat] at hslot
      obtain ⟨held, hheld, hentry⟩ := Option.map_eq_some_iff.mp hslot
      injection hentry with htext
      injection htext with htext
      refine ⟨held, hheld, fun howner => hvalue ?_⟩
      rw [← htext, ownerText_text (hbefore.carries.owner seat held hheld), howner]
    · rintro ⟨held, hheld, howner⟩
      refine ⟨held.text, held.deadline, ?_, fun htext => howner ?_⟩
      · rw [hbefore.carries.slot seat, hheld]
        rfl
      · rw [ownerText_text (hbefore.carries.owner seat held hheld)] at htext
        exact Option.some.inj htext
  generalize hresult : (k'.run maxlen env (.hold call)).value = result at hnext
  cases hnext with
  | hold answers =>
      rename_i reply
      unfold Call.Answers at answers
      rw [if_pos hsome] at answers
      cases hconflict : call.conflicts s.raw with
      | true =>
          rw [hconflict] at answers
          refine Or.inl ⟨hother.mpr hconflict, by rw [hresult, answers]; rfl, fun seat => ?_⟩
          have heffect : call.effect env.now s.raw = s.raw := if_pos hconflict
          rw [hafter.carries.slot seat, hbefore.carries.slot seat]
          show (call.effect env.now s.raw seat).map Held.entry = _
          rw [heffect]
      | false =>
          rw [hconflict] at answers
          refine Or.inr ⟨fun hheld => ?_, by rw [hresult, answers]; rfl, fun seat hseat => ?_⟩
          · rw [hother.mp hheld] at hconflict
            cases hconflict
          · obtain ⟨held, hheld, howner, hdeadline⟩ :=
              call.effect_own httl hconflict env.now hseat
            have hslot := hafter.carries.slot seat
            have hname := hafter.carries.owner seat held hheld
            refine ⟨held.text, by rw [ownerText_text hname, howner], ?_⟩
            rw [hslot]
            show (call.effect env.now s.raw seat).map Held.entry = _
            rw [hheld, ← hdeadline]
            rfl

/-- A hold that still has time to live stays as it is unless its owner calls, and a call that writes
holds writes all of them or none. -/
structure HoldsExclusive (maxlen : ℕ) (k : Keyspace) (env : Env) : Prop where
  kept : ∀ call : SessionCall, call.Valid → ∀ id value deadline,
    k.store (.hold id) = some ⟨.string value, some deadline⟩ → env.now < deadline →
    (∀ own, call = .hold own → ownerText value ≠ some own.owner) →
      (k.run maxlen env call).store (.hold id) = some ⟨.string value, some deadline⟩
  decided : ∀ call : Call, call.Valid → ∀ ttl, call.ttl = some ttl →
    AllOrNothing (k.visible env) env.now call ttl (k.run maxlen env (.hold call))

/-- The holds are exclusive in every state that is reached. -/
theorem holds_exclusive (hmaxlen : maxlen ≠ 0) (hstart : Starts k.store)
    (hrun : Trace (Keyspace.step maxlen) k events k') (hnow : k'.now ≤ env.now) :
    HoldsExclusive maxlen k' env where
  kept call hvalid _ _ _ hslot hlive hforeign :=
    live_hold_kept hmaxlen hstart hrun hnow call hvalid hslot hlive hforeign
  decided call hvalid _ httl := holds_all_or_nothing hmaxlen hstart hrun hnow call hvalid httl

/-- The seat is held, and another checkout neither releases it nor gets it together with a free
one. -/
theorem holds_exclusive_heldSeat :
    heldSeat.store (.hold "seat") = some ⟨.string "checkout|1", some 1003⟩ ∧
      (heldSeat.run 10 ⟨500, fun _ => 0⟩ (.hold (.ensure "other" 1 1000 ["free", "seat"]))).value =
        some (.integer 0) ∧
      HoldsExclusive 10 heldSeat ⟨500, fun _ => 0⟩ := by
  obtain ⟨events, hrun⟩ := reaches_heldSeat
  exact ⟨eq_of_text (by decide +kernel) (by decide +kernel), by decide +kernel,
    holds_exclusive (by decide) starts_empty hrun (by decide)⟩

/-- In every state with a ready model the copies mirror the holds, and so a cleanup deletes no hold
that still has time to live. -/
theorem holds_mirrored (hmaxlen : maxlen ≠ 0) (hstart : Starts k.store)
    (hrun : Trace (Keyspace.step maxlen) k events k') (hready : Ready k'.store) :
    HoldsMirrored k' ∧ ∀ (env : Env) (limit : ℕ), k'.now ≤ env.now → limit ≠ 0 →
      ∀ id value deadline, k'.store (.hold id) = some ⟨.string value, some deadline⟩ →
        env.now < deadline →
          (k'.run maxlen env (.expire limit)).store (.hold id) =
            some ⟨.string value, some deadline⟩ := by
  refine ⟨holdsMirrored_run hmaxlen hstart hrun hready, ?_⟩
  intro env limit hnow hlimit id value deadline hslot hlive
  refine live_hold_kept hmaxlen hstart hrun hnow (.expire limit) hlimit hslot hlive ?_
  rintro own hown
  cases hown

theorem holds_mirrored_heldSeat :
    fieldOf (heldSeat.store .holds) "seat" = some "checkout|1|1003" ∧ HoldsMirrored heldSeat ∧
      ∀ (env : Env) (limit : ℕ), heldSeat.now ≤ env.now → limit ≠ 0 →
        ∀ id value deadline, heldSeat.store (.hold id) = some ⟨.string value, some deadline⟩ →
          env.now < deadline →
            (heldSeat.run 10 env (.expire limit)).store (.hold id) =
              some ⟨.string value, some deadline⟩ := by
  obtain ⟨events, hrun⟩ := reaches_heldSeat
  exact ⟨by decide +kernel,
    holds_mirrored (by decide) starts_empty hrun (by unfold Ready; decide +kernel)⟩

/-- In every state that is reached, a wrapped hold script never fails, it answers what the script
alone would answer on the same keys, and it leaves the same holds with the same times to live. -/
theorem wrapper_transparent (hmaxlen : maxlen ≠ 0) (hstart : Starts k.store)
    (hrun : Trace (Keyspace.step maxlen) k events k') (hnow : k'.now ≤ env.now) {call : Call}
    (hvalid : call.Valid) : ∃ reply after alone,
      k'.run maxlen env (.hold call) = .done reply after ∧
        call.script env (k'.visible env) = .done reply alone ∧
        ∀ seat, after (.hold seat) = alone (.hold seat) := by
  obtain ⟨s, t, hbefore, -, -, -, -⟩ :=
    (Keyspace.tracked_run hmaxlen hstart hrun).run hmaxlen hnow (show (SessionCall.hold call).Valid
      from hvalid)
  obtain ⟨reply, after, hdone, -, hafter⟩ := wp_total (hold_refines hbefore hvalid hmaxlen)
  obtain ⟨reply', alone, halone, -, hcarries⟩ :=
    wp_total (call.script_spec hbefore.carries hvalid env)
  have hreply := Call.run_reply hbefore.carries hdone
  rw [halone] at hreply
  obtain rfl := Option.some.inj hreply
  refine ⟨_, after, alone, hdone, halone, fun seat => ?_⟩
  rw [hafter.carries.slot seat, hcarries.slot seat]
  rfl

theorem wrapper_transparent_heldSeat : ∃ reply after alone,
    heldSeat.run 10 ⟨500, fun _ => 0⟩ (.hold (.release "checkout" ["seat"])) = .done reply after ∧
      (Call.release "checkout" ["seat"]).script ⟨500, fun _ => 0⟩
        (heldSeat.visible ⟨500, fun _ => 0⟩) = .done reply alone ∧
      ∀ seat, after (.hold seat) = alone (.hold seat) := by
  obtain ⟨events, hrun⟩ := reaches_heldSeat
  exact wrapper_transparent (by decide) starts_empty hrun (by decide)
    ⟨⟨by decide, by decide⟩, by decide⟩

end Runs

end Ticketing.Availability
