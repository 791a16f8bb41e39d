import Ticketing.HoldCalls
import Ticketing.Library.LastingKeys
import Ticketing.Library.Streams
import Ticketing.Library.Tally

/-!
# The derived model of a session

What the derived keys say together: the seats with their zones, formal states and copies of holds,
and a change stream for every zone. A store shows a model when every key has the content that the
model gives it; the counters of a zone are then the numbers of its seats by public status.
-/

namespace Ticketing.Availability

open Redis Script Tally

structure SeatState where
  zone : String
  status : SeatStatus
  version : ℕ
  hold : Option Held

namespace SeatState

def formalText (seat : SeatState) : String := statusName seat.status ++ "|" ++ toString seat.version

/-- What everybody sees of a seat. -/
def publicStatus (seat : SeatState) : SeatStatus :=
  if seat.status = .available ∧ seat.hold.isSome then .held else seat.status

theorem publicstatus_eq (seat : SeatState) :
    publicstatus (some seat.status) seat.hold.isSome = some seat.publicStatus := by
  unfold publicstatus publicStatus
  cases hstatus : seat.status <;> cases hhold : seat.hold <;> simp

end SeatState

def Held.derivedText (held : Held) : String := formatDerived held.text held.deadline

/-- A model: its seats are in its zones. -/
structure Model where
  generation : String
  zones : List String
  ids : Finset String
  seat : String → SeatState
  changes : String → Stream
  zone_mem : ∀ id ∈ ids, (seat id).zone ∈ zones

namespace Model

def find (model : Model) (id : String) : Option SeatState :=
  if id ∈ model.ids then some (model.seat id) else none

def hold (model : Model) (id : String) : Option Held := (model.find id).bind SeatState.hold

def zoneIds (model : Model) (zone : String) : Finset String :=
  model.ids.filter fun id => (model.seat id).zone = zone

/-- The number of seats of a zone that everybody sees in this status. -/
def count (model : Model) (zone : String) (status : SeatStatus) : ℕ :=
  tally (model.zoneIds zone) (fun id => (model.seat id).publicStatus) status

/-- The texts of the counters of a zone. -/
def Summary (model : Model) (zone : String) (fields : String → Option String) : Prop :=
  fields "total" = some (toString (model.zoneIds zone).card) ∧
    ∀ status, fields (counterName status) = some (toString (model.count zone status))

/-- What a key contains according to the model. -/
def Shows (model : Model) : Key → Slot → Prop
  | .modelMeta, slot => ∃ fields, slot.Shows Slot.fields fields ∧ fields "ready" = some "1" ∧
      fields "generation" = some model.generation
  | .zones, slot => slot.Shows Slot.list model.zones
  | .seatZone, slot => slot.Shows Slot.fields fun id => (model.find id).map SeatState.zone
  | .formal, slot => slot.Shows Slot.fields fun id => (model.find id).map SeatState.formalText
  | .holds, slot => slot.Shows Slot.fields (fun id => (model.hold id).map Held.derivedText) ∧
      ∀ id held, model.hold id = some held → OwnerName held.owner
  | .holdExpiry, slot =>
      slot.Shows Slot.scores fun id => (model.hold id).map fun held => (held.deadline : ℤ)
  | .zoneSeats zone, slot => zone ∈ model.zones → slot.Shows Slot.members (model.zoneIds zone)
  | .zoneSummary zone, slot => zone ∈ model.zones →
      ∃ fields, slot.Shows Slot.fields fields ∧ model.Summary zone fields
  | .zoneChanges zone, slot => zone ∈ model.zones →
      slot.Shows Slot.stream (model.changes zone) ∧ (model.changes zone).Sound
  | .initLock, _ => True
  | .hold _, _ => True

/-- There are zones and every zone has a seat, as in a model that was built from rows. -/
def Inhabited (model : Model) : Prop :=
  model.zones ≠ [] ∧ ∀ zone ∈ model.zones, (model.zoneIds zone).Nonempty

/-- The counters are short enough for the health check. -/
def Fits (model : Model) : Prop := ∀ zone ∈ model.zones, (model.zoneIds zone).card < 10 ^ 10

instance (model : Model) : Decidable model.Fits :=
  inferInstanceAs (Decidable (∀ zone ∈ model.zones, (model.zoneIds zone).card < 10 ^ 10))

theorem find_of_mem {model : Model} {id : String} (h : id ∈ model.ids) :
    model.find id = some (model.seat id) := if_pos h

theorem find_of_notMem {model : Model} {id : String} (h : id ∉ model.ids) :
    model.find id = none := if_neg h

theorem hold_of_mem {model : Model} {id : String} (h : id ∈ model.ids) :
    model.hold id = (model.seat id).hold := by
  unfold hold
  rw [find_of_mem h]
  rfl

theorem mem_of_hold {model : Model} {id : String} {held : Held} (h : model.hold id = some held) :
    id ∈ model.ids := by
  by_contra hid
  unfold hold at h
  rw [find_of_notMem hid] at h
  cases h

theorem mem_zoneIds {model : Model} {zone id : String} :
    id ∈ model.zoneIds zone ↔ id ∈ model.ids ∧ (model.seat id).zone = zone := Finset.mem_filter

theorem mem_own_zone {model : Model} {id : String} (h : id ∈ model.ids) :
    id ∈ model.zoneIds (model.seat id).zone := mem_zoneIds.mpr ⟨h, rfl⟩

/-- The counters of a zone add up to its seats. -/
theorem sum_count (model : Model) (zone : String) :
    model.count zone .available + model.count zone .held + model.count zone .sold =
      (model.zoneIds zone).card := by
  have hclasses : ∀ id ∈ model.zoneIds zone, (model.seat id).publicStatus ∈
      ({.available, .held, .sold} : Finset SeatStatus) := by
    intro id _
    cases (model.seat id).publicStatus <;> decide
  rw [← sum_tally hclasses, Finset.sum_insert (by decide), Finset.sum_insert (by decide),
    Finset.sum_singleton, Nat.add_assoc]
  rfl

end Model

section Texts

theorem bar_notMem_statusName (status : SeatStatus) : '|' ∉ (statusName status).toList := by
  cases status <;> decide

theorem statusOfName_statusName (status : SeatStatus) :
    statusOfName (statusName status) = some status := by
  cases status <;> decide

theorem formal_formalText (seat : SeatState) :
    formal seat.formalText = some ⟨seat.status, toString seat.version⟩ := by
  have htext : seat.formalText.toList =
      (statusName seat.status).toList ++ '|' :: (toString seat.version).toList := by
    simp [SeatState.formalText]
  unfold formal
  rw [htext, cut_append (bar_notMem_statusName _)]
  dsimp only
  rw [if_pos (by rw [natural_toString]; rfl), String.ofList_toList, String.ofList_toList,
    statusOfName_statusName]
  rfl

theorem hold_derivedText {held : Held} (h : OwnerName held.owner) :
    hold held.derivedText = some ⟨held.owner, toString held.revision, held.deadline⟩ := by
  unfold Held.derivedText
  rw [hold_formatDerived, rawhold_text h]
  rfl

theorem bind_hold {held : Option Held} (h : ∀ found, held = some found → OwnerName found.owner) :
    (held.map Held.derivedText).bind hold =
      held.map fun found => ⟨found.owner, toString found.revision, found.deadline⟩ := by
  cases held with
  | none => rfl
  | some found => exact hold_derivedText (h found rfl)

end Texts

/-- Every key of the store has the content that the model gives it. -/
def Stored (store : Store Key) (model : Model) : Prop := ∀ key, model.Shows key (store key)

section Reads

variable {store : Store Key} {model : Model} {env : Env}

theorem ready_done (h : Stored store model) : ready env store = .done true store := by
  obtain ⟨fields, hfields, hready, -⟩ := h .modelMeta
  have hkind := Slot.kind_of_field hfields.view (by rw [hready]; rfl)
  have hcompatible : compatible .modelMeta .hash env store = .done true store :=
    congrArg (fun passed => Outcome.done passed store) (decide_eq_true (Or.inr hkind))
  obtain ⟨table, htable, rfl⟩ := Option.map_eq_some_iff.mp hfields.view
  have hget : hget .modelMeta "ready" env store = .done (some "1") store := by
    rw [← hready]
    exact readKey_some htable
  unfold ready
  rw [bind_of_done hcompatible, if_pos rfl, bind_of_done hget]
  rfl

theorem counter_toString {count n : ℕ} (h : n ≤ count) :
    counter count (some (toString n)) = if (toString n).length ≤ 10 then some n else none := by
  have hdecimal : decimal (toString n) = true := by
    unfold decimal
    rw [natural_toString]
    rfl
  have hnumber : tonumber (toString n).toList = n := by
    unfold tonumber
    rw [toList_toString, Nat.ofDigitChars_ten_toDigits]
  unfold counter
  dsimp only
  rw [hdecimal, hnumber]
  simp [h]

theorem length_toString_le {n : ℕ} : (toString n).length ≤ 10 ↔ n < 10 ^ 10 := by
  rw [← String.length_toList, toList_toString]
  exact Nat.length_toDigits_le_iff (by decide) (by decide)

theorem countersOk_eq {total available held sold : ℕ} (hsum : available + held + sold = total) :
    countersOk total (some (toString total)) (some (toString available)) (some (toString held))
      (some (toString sold)) = decide (total < 10 ^ 10) := by
  unfold countersOk
  rw [counter_toString le_rfl, counter_toString (by omega), counter_toString (by omega),
    counter_toString (by omega)]
  simp only [length_toString_le]
  by_cases hsmall : total < 10 ^ 10
  · rw [if_pos hsmall, if_pos (by omega), if_pos (by omega), if_pos (by omega),
      decide_eq_true hsmall]
    exact decide_eq_true ⟨rfl, hsum⟩
  · rw [if_neg hsmall, decide_eq_false hsmall]

theorem zoneHealthy_done (h : Stored store model) {zone : String} (hzone : zone ∈ model.zones)
    (hnonempty : (model.zoneIds zone).Nonempty) : zoneHealthy zone env store =
      .done (decide ((model.zoneIds zone).card < 10 ^ 10)) store := by
  have hseats := (h (.zoneSeats zone) hzone).view
  obtain ⟨fields, hfields, htotal, hcounts⟩ := h (.zoneSummary zone) hzone
  obtain ⟨hstream, hsound⟩ := h (.zoneChanges zone) hzone
  have hseatsKind := Slot.kind_of_members hseats hnonempty
  have hsummaryKind := Slot.kind_of_field hfields.view (by rw [htotal]; rfl)
  have hchangesKind : (store (.zoneChanges zone)).kind = some .stream := by
    rcases Slot.kind_of_stream hstream.view with hnone | hkind
    · have hempty := hstream.view
      rw [hnone] at hempty
      exact absurd (congrArg Stream.entries (Option.some.inj hempty)).symm hsound.entries_ne_nil
    · exact hkind
  have havailable : fields "available" = _ := hcounts .available
  have hheld : fields "held" = _ := hcounts .held
  have hsold : fields "sold" = _ := hcounts .sold
  apply wp_eq_done
  refine wp_bind (wp_typeOf (wp_bind (wp_typeOf (wp_bind (wp_typeOf ?_)))))
  rw [hseatsKind, hsummaryKind, hchangesKind, if_neg (by simp)]
  refine wp_bind (wp_scard hseats (wp_bind (wp_hget hfields.view (wp_bind (wp_hget hfields.view
    (wp_bind (wp_hget hfields.view (wp_bind (wp_hget hfields.view (wp_pure ⟨?_, rfl⟩))))))))))
  rw [htotal, havailable, hheld, hsold]
  exact countersOk_eq (model.sum_count zone)

theorem compatible_done {key : Key} {kind : Kind}
    (h : store key = none ∨ (store key).kind = some kind) :
    compatible key kind env store = .done true store := by
  refine congrArg (fun passed => Outcome.done passed store) (decide_eq_true ?_)
  rcases h with hnone | hkind
  · exact Or.inl (by rw [hnone]; rfl)
  · exact Or.inr hkind

theorem derivedKinds_done (h : Stored store model) :
    allM (fun entry => compatible entry.1 entry.2) derivedKinds env store = .done true store := by
  refine allM_done (f := fun _ => true) fun entry hentry => ?_
  have hkinds : entry ∈ [(Key.zones, Kind.list), (.seatZone, .hash), (.formal, .hash),
      (.holds, .hash), (.holdExpiry, .zset)] := hentry
  simp only [List.mem_cons, List.not_mem_nil, or_false] at hkinds
  rcases hkinds with rfl | rfl | rfl | rfl | rfl
  · exact compatible_done (Slot.kind_of_list (h .zones).view)
  · exact compatible_done (Slot.kind_of_fields (h .seatZone).view)
  · exact compatible_done (Slot.kind_of_fields (h .formal).view)
  · exact compatible_done (Slot.kind_of_fields (h .holds).1.view)
  · exact compatible_done (Slot.kind_of_scores (h .holdExpiry).view)

theorem requiredKinds_done (h : Stored store model) (hinhabited : model.Inhabited) :
    allM (fun entry => do
      let kind ← typeOf entry.1
      pure (decide (kind = some entry.2))) requiredKinds env store = .done true store := by
  have hzones : (store .zones).kind = some .list := by
    rcases Slot.kind_of_list (h .zones).view with hnone | hkind
    · have hempty := (h .zones).view
      rw [hnone] at hempty
      exact absurd (Option.some.inj hempty).symm hinhabited.1
    · exact hkind
  obtain ⟨zone, hzone⟩ := List.exists_mem_of_ne_nil _ hinhabited.1
  obtain ⟨id, hid⟩ := hinhabited.2 zone hzone
  have hfind := Model.find_of_mem (Model.mem_zoneIds.mp hid).1
  have hseatZone := @Slot.kind_of_field _ _ id (h .seatZone).view (by rw [hfind]; rfl)
  have hformal := @Slot.kind_of_field _ _ id (h .formal).view (by rw [hfind]; rfl)
  refine allM_done (f := fun _ => true) fun entry hentry => ?_
  have hkinds : entry ∈ [(Key.zones, Kind.list), (.seatZone, .hash), (.formal, .hash)] := hentry
  simp only [List.mem_cons, List.not_mem_nil, or_false] at hkinds
  have hfound {key : Key} {kind : Kind} (hkind : (store key).kind = some kind) :
      (do let found ← typeOf key; pure (decide (found = some kind)) : Script Key Bool) env store =
        .done true store :=
    congrArg (fun passed => Outcome.done passed store) (decide_eq_true hkind)
  rcases hkinds with rfl | rfl | rfl
  · exact hfound hzones
  · exact hfound hseatZone
  · exact hfound hformal

/-- The health check accepts what shows a model, up to the length of the counters. -/
theorem healthy_done (h : Stored store model) (hinhabited : model.Inhabited) :
    healthy env store = .done (decide model.Fits) store := by
  have hlist : lrange .zones env store = .done model.zones store := readKey_some (h .zones).view
  have hall : allM zoneHealthy model.zones env store = .done (model.zones.all fun zone =>
      decide ((model.zoneIds zone).card < 10 ^ 10)) store :=
    allM_done fun zone hzone => zoneHealthy_done h hzone (hinhabited.2 zone hzone)
  unfold healthy
  rw [bind_of_done (ready_done h), if_pos rfl, bind_of_done (derivedKinds_done h), if_pos rfl,
    bind_of_done (requiredKinds_done h hinhabited), if_pos rfl, bind_of_done hlist, hall]
  congr 1
  apply Bool.eq_iff_iff.mpr
  rw [List.all_eq_true, decide_eq_true_iff]
  exact forall₂_congr fun zone _ => decide_eq_true_iff

theorem validseat_done (h : Stored store model) (id : String) :
    validseat id env store = .done (decide (id ∈ model.ids)) store := by
  have hzone := (h .seatZone).view
  have hformal := (h .formal).view
  obtain ⟨hholds, howners⟩ := h .holds
  apply wp_eq_done
  refine wp_bind (wp_hget hzone ?_)
  by_cases hid : id ∈ model.ids
  · rw [Model.find_of_mem hid]
    dsimp only [Option.map_some]
    refine wp_bind (wp_hget hformal ?_)
    rw [Model.find_of_mem hid, Option.map_some, Option.bind_some, formal_formalText,
      if_neg (by simp)]
    refine wp_bind (wp_hget hholds.view ?_)
    rw [bind_hold (howners id), if_neg (by cases model.hold id <;> simp)]
    have hseats := h (.zoneSeats (model.seat id).zone) (model.zone_mem id hid)
    refine wp_sismember hseats.view ⟨?_, rfl⟩
    rw [decide_eq_true (Model.mem_own_zone hid), decide_eq_true hid]
  · rw [Model.find_of_notMem hid]
    exact wp_pure ⟨(decide_eq_false hid).symm, rfl⟩

end Reads

end Ticketing.Availability
