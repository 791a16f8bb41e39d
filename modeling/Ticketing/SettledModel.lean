import Ticketing.ProjectionRuns
import Ticketing.Library.LengthPrefix

/-!
# The model once everything is projected

When the outbox is empty and a cleanup has left no expired copy, everybody sees of a seat what the
database and the holds say, and the counters of a zone count just that.
-/

namespace Ticketing.Availability

open Redis Script Tally

/-- A hold that still has time to live. -/
def heldAt (store : Store Key) (now : ℕ) (id : String) : Bool :=
  match store (.hold id) with
  | some ⟨.string _, some deadline⟩ => decide (now < deadline)
  | _ => false

/-- What everybody should see of a seat. -/
def FormalSeat.seen (formal : FormalSeat) (held : Bool) : SeatStatus :=
  if formal.status = .available ∧ held then .held else formal.status

namespace Projection

/-- The seats of a zone that everybody should see in this status. -/
def seenCount (layout : Layout) (p : Projection) (store : Store Key) (now : ℕ) (zone : String)
    (status : SeatStatus) : ℕ :=
  (layout.seats.filter fun entry => decide (entry.2 = zone ∧
    (p.seats entry.1).seen (heldAt store now entry.1) = status)).length

structure Settled (layout : Layout) (p : Projection) (store : Store Key) (now : ℕ) : Prop where
  seats : ∀ id ∈ layout.ids, publicIn store id = some ((p.seats id).seen (heldAt store now id))
  counters : ∀ id zone, (id, zone) ∈ layout.seats → ∀ status,
    fieldOf (store (.zoneSummary zone)) (counterName status) =
      some (toString (p.seenCount layout store now zone status))

variable {p p' : Projection} {layout : Layout} {settings : AvailabilitySettings} {env : Env}

theorem heldAt_carries {store : Store Key} {raw : Holds} (h : Carries store raw) (now : ℕ)
    (id : String) : heldAt store now id = (liveHold now (raw id)).isSome := by
  unfold heldAt liveHold
  rw [h.slot id]
  cases raw id with
  | none => rfl
  | some held =>
      rw [Option.filter_some]
      show decide (now < held.deadline) = _
      by_cases hlive : now < held.deadline
      · rw [if_pos (decide_eq_true hlive), decide_eq_true hlive]
        rfl
      · rw [if_neg (by rw [decide_eq_false hlive]; nofun), decide_eq_false hlive]
        rfl

/-- Where no copy has expired, the copies are the holds that have time to live. -/
theorem hold_of_clean {now : ℕ} {model : Model} {raw : Holds} (h : Mirror now model raw)
    (hclean : ∀ id copy, model.hold id = some copy → now < copy.deadline) {id : String}
    (hid : id ∈ model.ids) : model.hold id = liveHold now (raw id) := by
  cases hcopy : model.hold id with
  | some copy =>
      have hlive := hclean id copy hcopy
      exact (liveHold_eq_some.mpr ⟨h.backed id copy hcopy hlive, hlive⟩).symm
  | none =>
      cases hheld : liveHold now (raw id) with
      | none => rfl
      | some held =>
          obtain ⟨hraw, hlive⟩ := liveHold_eq_some.mp hheld
          rw [h.copied id hid held hraw hlive] at hcopy
          cases hcopy

/-- The seats of a zone that a model shows in a status are entries of the layout. -/
theorem count_placed {model : Model} (h : layout.Placed model) (zone : String)
    (status : SeatStatus) : model.count zone status =
      (layout.seats.filter fun entry => decide (entry.2 = zone ∧
        (model.seat entry.1).publicStatus = status)).length := by
  have hnodup : ((layout.seats.filter fun entry => decide (entry.2 = zone ∧
      (model.seat entry.1).publicStatus = status)).map Prod.fst).Nodup :=
    layout.nodup.sublist (List.filter_sublist.map Prod.fst)
  rw [← List.length_map Prod.fst, ← List.toFinset_card_of_nodup hnodup]
  unfold Model.count tally
  congr 1
  ext id
  rw [Finset.mem_filter, Model.mem_zoneIds, ← h id zone, List.mem_toFinset, List.mem_map]
  constructor
  · rintro ⟨hentry, hstatus⟩
    exact ⟨(id, zone), List.mem_filter.mpr ⟨hentry, decide_eq_true ⟨rfl, hstatus⟩⟩, rfl⟩
  · rintro ⟨⟨other, otherZone⟩, hentry, rfl⟩
    obtain ⟨hmem, hboth⟩ := List.mem_filter.mp hentry
    obtain ⟨rfl, hstatus⟩ := of_decide_eq_true hboth
    exact ⟨hmem, hstatus⟩

/-- In every state that is reached, once the outbox is empty and a cleanup leaves nothing to clean,
the model is settled. -/
theorem settled_after_cleanup (hstart : p.Starts) (hrun : ReachesInTime layout settings p p')
    (hdrained : p'.outbox = []) (hlater : p'.keys.now ≤ env.now) {limit : ℕ} (hlimit : limit ≠ 0)
    {cleaned : String} (hreply : (p'.keys.run settings.streamMaxlen env (.expire limit)).value =
      some (.strings ["OK", cleaned, "0"])) :
    Settled layout p' (p'.keys.run settings.streamMaxlen env (.expire limit)).store env.now := by
  have hsynced := hstart.synced.reachesInTime hrun
  have houtside : Sendable layout p' (.expire limit) := .outside hlimit
  obtain ⟨s, t, -, hnext, hafter, hmirrors, hagrees⟩ := @Synced.call True p' layout settings env
    hsynced (fun _ => hlater) _ houtside
  rw [hreply] at hnext
  obtain ⟨model, hmodel, hclean⟩ : ∃ model, t.model = some model ∧
      ∀ id copy, model.hold id = some copy → env.now < copy.deadline := by
    generalize hresult : some (Reply.strings ["OK", cleaned, "0"]) = result at hnext
    cases hnext with
    | @cleaned limit model ids count left shown fits expired clean =>
        have hleft : left = 0 := by
          simp only [Option.some.injEq, Reply.strings.injEq, List.cons.injEq] at hresult
          exact LengthPrefix.nat_toString_injective hresult.2.2.1.symm
        exact ⟨_, rfl, clean hleft⟩
    | unclean unfit => simp at hresult
  have hstored := (hafter.models model hmodel).stored
  have hplaced := hagrees.placed model hmodel
  have hpublic {id : String} (hid : id ∈ model.ids) : (model.seat id).publicStatus =
      (p'.seats id).seen (heldAt (p'.keys.run settings.streamMaxlen env (.expire limit)).store
        env.now id) := by
    have hformal : (model.seat id).formal = p'.seats id := by
      have hpast := hagrees.shown model hmodel id hid
      rcases hagrees.safe id with ⟨row, hrow, -⟩ | hcovered
      · rw [hdrained] at hrow
        cases hrow
      · exact hpast.eq (hpast.le.antisymm (hcovered.model model hmodel hid))
    rw [heldAt_carries hafter.carries, ← hold_of_clean (hmirrors.mirror trivial model hmodel) hclean hid,
      Model.hold_of_mem hid, ← hformal]
    rfl
  refine ⟨fun id hid => ?_, fun id zone hentry status => ?_⟩
  · have hmem := hplaced.mem.mpr hid
    rw [publicIn_stored hstored hmem, hpublic hmem]
  · obtain ⟨hmem, hzone⟩ := (hplaced id zone).mp hentry
    have hlisted := model.zone_mem id hmem
    rw [hzone] at hlisted
    obtain ⟨fields, hfields, -, hcounts⟩ := hstored (.zoneSummary zone) hlisted
    rw [fieldOf_shows hfields, hcounts status, count_placed hplaced]
    unfold seenCount
    congr 3
    refine List.filter_congr fun entry hmember => ?_
    rw [hpublic (hplaced.mem.mpr (List.mem_map_of_mem hmember))]

/-- A cleanup after the event is projected. -/
theorem settled_after_cleanup_projected :
    Settled oneSeat projected (projected.keys.run 10 ⟨4, fun _ => 0⟩ (.expire 1)).store 4 :=
  settled_after_cleanup starts_idle reaches_projected (by decide +kernel) (by decide +kernel)
    (by decide) (show (projected.keys.run 10 ⟨4, fun _ => 0⟩ (.expire 1)).value =
      some (.strings ["OK", "0", "0"]) by decide +kernel)

end Projection

end Ticketing.Availability
