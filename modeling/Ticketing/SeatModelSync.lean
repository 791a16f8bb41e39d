import Ticketing.SeatModel

/-!
# Keeping the derived model up to date

A seat of the model changes its hold or its formal state. The counters of its zone move with its
public status and the change enters the stream of the zone, so the store shows the changed model.
-/

namespace Ticketing.Availability

open Redis Script Tally

namespace Model

/-- One seat changes and stays in its zone. -/
def modify (model : Model) (id : String) (f : SeatState → SeatState)
    (hzone : ∀ seat, (f seat).zone = seat.zone) : Model where
  generation := model.generation
  zones := model.zones
  ids := model.ids
  seat := Function.update model.seat id (f (model.seat id))
  changes := model.changes
  zone_mem := by
    intro other hother
    by_cases hid : other = id
    · subst hid
      rw [Function.update_self, hzone]
      exact model.zone_mem other hother
    · rw [Function.update_of_ne hid]
      exact model.zone_mem other hother

def setHold (model : Model) (id : String) (held : Option Held) : Model :=
  model.modify id (fun seat => { seat with hold := held }) fun _ => rfl

def setFormal (model : Model) (id : String) (status : SeatStatus) (version : ℕ) : Model :=
  model.modify id (fun seat => { seat with status, version }) fun _ => rfl

/-- The change of a seat is added to the stream of its zone. -/
def log (model : Model) (env : Env) (maxlen : ℕ) (id : String) : Model :=
  { model with
    changes := Function.update model.changes (model.seat id).zone
      ((model.changes (model.seat id).zone).add env (some maxlen)
        [("kind", "change"), ("seatId", id)]) }

section Modify

variable (model : Model) (id : String) {f : SeatState → SeatState}
  (hzone : ∀ seat, (f seat).zone = seat.zone)

theorem seat_modify : (model.modify id f hzone).seat =
    Function.update model.seat id (f (model.seat id)) := rfl

theorem zone_modify (other : String) :
    ((model.modify id f hzone).seat other).zone = (model.seat other).zone := by
  rw [seat_modify]
  by_cases hother : other = id
  · subst hother
    rw [Function.update_self, hzone]
  · rw [Function.update_of_ne hother]

theorem find_modify : (model.modify id f hzone).find =
    Function.update model.find id ((model.find id).map f) := by
  funext other
  unfold find
  by_cases hother : other = id
  · subst hother
    rw [Function.update_self, seat_modify, Function.update_self]
    show (if other ∈ model.ids then _ else _) = _
    split_ifs <;> rfl
  · rw [Function.update_of_ne hother, seat_modify, Function.update_of_ne hother]
    rfl

theorem zoneIds_modify (zone : String) :
    (model.modify id f hzone).zoneIds zone = model.zoneIds zone := by
  unfold zoneIds
  show model.ids.filter _ = _
  apply Finset.filter_congr
  intro other _
  rw [zone_modify]

variable {model id}

/-- The public status of the seat moves from one counter of its zone to another. -/
theorem count_modify (hid : id ∈ model.ids) (status : SeatStatus) :
    ((model.modify id f hzone).count (model.seat id).zone status +
        if (model.seat id).publicStatus = status then 1 else 0) =
      model.count (model.seat id).zone status +
        if (f (model.seat id)).publicStatus = status then 1 else 0 := by
  have hmove := tally_move (mem_own_zone hid) (f := fun other => (model.seat other).publicStatus)
    (g := fun other => ((model.modify id f hzone).seat other).publicStatus)
    (fun other _ hother => by rw [seat_modify, Function.update_of_ne hother]) status
  rw [seat_modify, Function.update_self] at hmove
  unfold count
  rw [zoneIds_modify]
  exact hmove

theorem count_modify_of_ne {zone : String} (h : zone ≠ (model.seat id).zone)
    (status : SeatStatus) : (model.modify id f hzone).count zone status =
      model.count zone status := by
  unfold count
  rw [zoneIds_modify]
  refine tally_congr (fun other hother => ?_) status
  rw [seat_modify, Function.update_of_ne]
  rintro rfl
  exact h (mem_zoneIds.mp hother).2.symm

theorem summary_modify_of_ne {zone : String} (h : zone ≠ (model.seat id).zone)
    {fields : String → Option String} (hsummary : model.Summary zone fields) :
    (model.modify id f hzone).Summary zone fields := by
  refine ⟨?_, fun status => ?_⟩
  · rw [zoneIds_modify]
    exact hsummary.1
  · rw [count_modify_of_ne hzone h]
    exact hsummary.2 status

end Modify

end Model

theorem counterName_injective : Function.Injective counterName := by
  intro a b h
  cases a <;> cases b <;> first | rfl | exact absurd h (by decide)

theorem counterName_ne_total (status : SeatStatus) : "total" ≠ counterName status := by
  cases status <;> decide

section Summaries

variable {store : Store Key} {model : Model} {env : Env} {id : String}
  {fields : String → Option String} {f : SeatState → SeatState}

/-- A seat that keeps its public status keeps the counters. -/
theorem summary_kept (hid : id ∈ model.ids) (hzone : ∀ seat, (f seat).zone = seat.zone)
    (hsame : (f (model.seat id)).publicStatus = (model.seat id).publicStatus)
    (hsummary : model.Summary (model.seat id).zone fields) :
    (model.modify id f hzone).Summary (model.seat id).zone fields := by
  refine ⟨?_, fun status => ?_⟩
  · rw [Model.zoneIds_modify]
    exact hsummary.1
  · have hmove := Model.count_modify hzone hid status
    rw [hsame] at hmove
    rw [Nat.add_right_cancel hmove]
    exact hsummary.2 status

theorem summary_moved (hid : id ∈ model.ids) (hzone : ∀ seat, (f seat).zone = seat.zone)
    {old new : SeatStatus} (hold : (model.seat id).publicStatus = old)
    (hnew : (f (model.seat id)).publicStatus = new) (hmoved : old ≠ new)
    (hsummary : model.Summary (model.seat id).zone fields) :
    (model.modify id f hzone).Summary (model.seat id).zone
      (Function.update (Function.update fields (counterName old)
        (some (toString (model.count (model.seat id).zone old - 1)))) (counterName new)
        (some (toString (model.count (model.seat id).zone new + 1)))) := by
  obtain ⟨htotal, hcounts⟩ := hsummary
  refine ⟨?_, fun status => ?_⟩
  · rw [Function.update_of_ne (counterName_ne_total new),
      Function.update_of_ne (counterName_ne_total old), Model.zoneIds_modify]
    exact htotal
  · have hmove := Model.count_modify hzone hid status
    rw [hold, hnew] at hmove
    by_cases hisnew : status = new
    · subst hisnew
      rw [if_neg hmoved, if_pos rfl, Nat.add_zero] at hmove
      rw [Function.update_self, hmove]
    · rw [Function.update_of_ne fun heq => hisnew (counterName_injective heq)]
      have hnotnew : ¬ new = status := fun heq => hisnew heq.symm
      by_cases hisold : status = old
      · subst hisold
        rw [if_pos rfl, if_neg hnotnew] at hmove
        rw [Function.update_self]
        congr 2
        omega
      · have hnotold : ¬ old = status := fun heq => hisold heq.symm
        rw [if_neg hnotold, if_neg hnotnew, Nat.add_zero, Nat.add_zero] at hmove
        rw [Function.update_of_ne fun heq => hisold (counterName_injective heq), hcounts, hmove]

/-- The store with another content of one key. -/
def OnlyAt (key : Key) (store after : Store Key) : Prop :=
  ∀ other, other ≠ key → after other = store other

/-- Two counters of the zone move when the public status of the seat does. -/
theorem summarychange_spec (hid : id ∈ model.ids) (hzone : ∀ seat, (f seat).zone = seat.zone)
    (hsmall : (model.zoneIds (model.seat id).zone).card < 10 ^ 10)
    (hfields : (store (.zoneSummary (model.seat id).zone)).Shows Slot.fields fields)
    (hsummary : model.Summary (model.seat id).zone fields) :
    Wp (summarychange (some (model.seat id).zone) (some (model.seat id).publicStatus)
      (some (f (model.seat id)).publicStatus)) env store
      (fun _ after => OnlyAt (.zoneSummary (model.seat id).zone) store after ∧
        ∃ fields', (after (.zoneSummary (model.seat id).zone)).Shows Slot.fields fields' ∧
          (model.modify id f hzone).Summary (model.seat id).zone fields') fun _ => False := by
  generalize hold : (model.seat id).publicStatus = old
  generalize hnew : (f (model.seat id)).publicStatus = new
  have hbound (status : SeatStatus) : model.count (model.seat id).zone status < 10 ^ 10 :=
    lt_of_le_of_lt (tally_le _ _ _) hsmall
  have hpositive : 0 < model.count (model.seat id).zone old := by
    rw [← hold]
    exact tally_pos (Model.mem_own_zone hid) _
  have hlarge {n m : ℕ} (hn : n < 10 ^ 10) (hm : m ≤ 10 ^ 10) :
      maxInt64 < (n : ℤ) ∨ maxInt64 < (m : ℤ) → False := by
    unfold maxInt64
    omega
  unfold summarychange
  by_cases hsame : old = new
  · rw [if_pos (congrArg some hsame)]
    refine wp_pure ⟨fun _ _ => rfl, fields, hfields, summary_kept hid hzone ?_ hsummary⟩
    rw [hnew, hold, hsame]
  · rw [if_neg fun heq => hsame (Option.some.inj heq)]
    refine wp_bind (wp_hincrby (m := model.count (model.seat id).zone old - 1) hfields
      (hsummary.2 old) (by omega)
      (hlarge (hbound old) ((Nat.sub_le _ _).trans (hbound old).le)) ?_)
    intro slot hslot
    have hother : Function.update fields (counterName old)
        (some (toString (model.count (model.seat id).zone old - 1))) (counterName new) =
          some (toString (model.count (model.seat id).zone new)) := by
      rw [Function.update_of_ne fun heq => hsame (counterName_injective heq).symm]
      exact hsummary.2 new
    refine wp_hincrby (m := model.count (model.seat id).zone new + 1)
      (by rw [Function.update_self]; exact hslot) hother (by omega)
      (hlarge (hbound new) (hbound new)) ?_
    intro slot' hslot'
    refine ⟨fun other hother => ?_, _, ?_, summary_moved hid hzone hold hnew hsame hsummary⟩
    · rw [Function.update_of_ne hother, Function.update_of_ne hother]
    · rw [Function.update_self]
      exact hslot'

end Summaries

section Changes

variable {store : Store Key} {model : Model} {env : Env} {id : String}

theorem change_spec (h : Stored store model) (hid : id ∈ model.ids) {maxlen : ℕ}
    (hmaxlen : maxlen ≠ 0) : Wp (change (some (model.seat id).zone) id maxlen) env store
      (fun _ after => Stored after (model.log env maxlen id)) fun _ => False := by
  obtain ⟨hstream, hsound⟩ := h (.zoneChanges (model.seat id).zone) (model.zone_mem id hid)
  refine wp_xadd hstream hsound.room fun slot hslot key => ?_
  by_cases hkey : key = .zoneChanges (model.seat id).zone
  · subst hkey
    rw [Function.update_self]
    intro _
    show slot.Shows Slot.stream (Function.update model.changes _ _ _) ∧
      (Function.update model.changes _ _ _).Sound
    rw [Function.update_self]
    exact ⟨hslot, hsound.add env (fun heq => hmaxlen (Option.some.inj heq)) _⟩
  · rw [Function.update_of_ne hkey]
    have hshown := h key
    cases key with
    | zoneChanges zone =>
        have hzone : zone ≠ (model.seat id).zone := fun heq => hkey (by rw [heq])
        intro hmem
        dsimp only [Model.log]
        rw [Function.update_of_ne hzone]
        exact hshown hmem
    | _ => exact hshown

end Changes

section Copies

variable {store : Store Key} {model : Model} {env : Env} {id : String} {raw : Holds}

/-- The hold that still has time to live. -/
def liveHold (now : ℕ) (held : Option Held) : Option Held :=
  held.filter fun held => decide (now < held.deadline)

/-- The remaining milliseconds of a hold key. -/
def holdTtl (now : ℕ) : Option Held → ℤ
  | none => -2
  | some held => ((held.deadline - now : ℕ) : ℤ)

theorem liveOwner_eq {held : Option Held}
    (howner : ∀ found, held = some found → OwnerName found.owner) (now : ℕ) :
    liveOwner (held.map Held.text) (holdTtl now held) = (liveHold now held).map Held.owner := by
  cases held with
  | none => rfl
  | some found =>
      have hread := rawhold_text (howner found rfl)
      unfold liveOwner liveHold
      by_cases hlive : now < found.deadline
      · have httl : ¬ holdTtl now (some found) ≤ 0 := by
          show ¬ ((found.deadline - now : ℕ) : ℤ) ≤ 0
          omega
        rw [if_neg httl, Option.filter_some, if_pos (decide_eq_true hlive), Option.map_some,
          Option.bind_some, hread]
        rfl
      · have httl : holdTtl now (some found) ≤ 0 := by
          show ((found.deadline - now : ℕ) : ℤ) ≤ 0
          omega
        rw [if_pos httl, Option.filter_some, if_neg (by simpa using hlive)]
        rfl

/-- The copy of a live hold and its expiry are stored, or both are taken away. -/
theorem copyHold_fields {copies : String → Option String} {scores : String → Option ℤ}
    {held : Option Held} (howner : ∀ found, held = some found → OwnerName found.owner)
    (hholds : (store .holds).fields = some copies)
    (hexpiry : (store .holdExpiry).scores = some scores) :
    Wp (copyHold id (held.map Held.text) (holdTtl env.now held)) env store
      (fun _ after => ((after .holds).fields = some
          (Function.update copies id ((liveHold env.now held).map Held.derivedText)) ∧
            ((store .holds).deadline = none → (after .holds).deadline = none)) ∧
        ((after .holdExpiry).scores = some
          (Function.update scores id ((liveHold env.now held).map fun found =>
            (found.deadline : ℤ))) ∧
            ((store .holdExpiry).deadline = none → (after .holdExpiry).deadline = none)) ∧
        ∀ key, key ≠ .holds → key ≠ .holdExpiry → after key = store key) fun _ => False := by
  have howners := liveOwner_eq howner env.now
  have hend {holds expiry : Slot} {key : Key} (hkey : key ≠ .holds) (hkey' : key ≠ .holdExpiry) :
      Function.update (Function.update store .holds holds) .holdExpiry expiry key = store key := by
    rw [Function.update_of_ne hkey', Function.update_of_ne hkey]
  have hkept (holds : Slot) : Function.update store .holds holds .holdExpiry = store .holdExpiry :=
    Function.update_of_ne (by decide) _ _
  have hcopied (holds expiry : Slot) :
      Function.update (Function.update store .holds holds) .holdExpiry expiry .holds = holds := by
    rw [Function.update_of_ne (by decide), Function.update_self]
  unfold copyHold
  cases hlive : liveHold env.now held with
  | none =>
      rw [hlive] at howners
      rw [howners]
      refine wp_bind (wp_hdel_fields hholds fun holds hcopies hlasting => wp_zrem_scores
        (by rw [hkept]; exact hexpiry) fun expiry hscores hlasting' => ⟨?_, ?_,
          fun key hkey hkey' => hend hkey hkey'⟩)
      · rw [hcopied]
        exact ⟨hcopies, hlasting⟩
      · rw [hkept] at hlasting'
        rw [Function.update_self]
        exact ⟨hscores, hlasting'⟩
  | some found =>
      obtain ⟨rfl, hdeadline⟩ := Option.filter_eq_some_iff.mp hlive
      rw [hlive] at howners
      rw [howners]
      have hnow : env.now < found.deadline := of_decide_eq_true hdeadline
      have hsum : env.now + (holdTtl env.now (some found)).toNat = found.deadline := by
        show env.now + ((found.deadline - env.now : ℕ) : ℤ).toNat = found.deadline
        omega
      dsimp only [Option.map_some]
      refine wp_bind (wp_now ?_)
      rw [hsum]
      refine wp_bind (wp_hset_fields hholds fun holds hcopies hlasting => wp_zadd_scores
        (by rw [hkept]; exact hexpiry) fun expiry hscores hlasting' => ⟨?_, ?_,
          fun key hkey hkey' => hend hkey hkey'⟩)
      · rw [hcopied]
        exact ⟨hcopies, hlasting⟩
      · rw [hkept] at hlasting'
        rw [Function.update_self]
        exact ⟨hscores, hlasting'⟩

theorem copyHold_spec {copies : String → Option String} {scores : String → Option ℤ}
    {held : Option Held} (howner : ∀ found, held = some found → OwnerName found.owner)
    (hholds : (store .holds).Shows Slot.fields copies)
    (hexpiry : (store .holdExpiry).Shows Slot.scores scores) :
    Wp (copyHold id (held.map Held.text) (holdTtl env.now held)) env store
      (fun _ after => (after .holds).Shows Slot.fields
          (Function.update copies id ((liveHold env.now held).map Held.derivedText)) ∧
        (after .holdExpiry).Shows Slot.scores
          (Function.update scores id ((liveHold env.now held).map fun found =>
            (found.deadline : ℤ))) ∧
        ∀ key, key ≠ .holds → key ≠ .holdExpiry → after key = store key) fun _ => False := by
  refine wp_mono (copyHold_fields howner hholds.view hexpiry.view) ?_ fun _ hfalse => hfalse
  rintro - after ⟨⟨hcopies, hlasting⟩, ⟨hscores, hlasting'⟩, hkept⟩
  exact ⟨⟨hcopies, hlasting hholds.lasting⟩, ⟨hscores, hlasting' hexpiry.lasting⟩, hkept⟩

end Copies

namespace Model

variable {model : Model} {id : String}

theorem hold_setHold (hid : id ∈ model.ids) (held : Option Held) :
    (model.setHold id held).hold = Function.update model.hold id held := by
  funext other
  unfold hold setHold
  rw [find_modify]
  by_cases hother : other = id
  · subst hother
    rw [Function.update_self, Function.update_self, find_of_mem hid]
    rfl
  · rw [Function.update_of_ne hother, Function.update_of_ne hother]

/-- A modification that keeps some data of every seat keeps what is stored of it. -/
theorem map_find_modify {α : Type} (f : SeatState → SeatState)
    (hzone : ∀ seat, (f seat).zone = seat.zone) (data : SeatState → α)
    (hdata : ∀ seat, data (f seat) = data seat) (other : String) :
    ((model.modify id f hzone).find other).map data = (model.find other).map data := by
  rw [find_modify]
  by_cases hother : other = id
  · subst hother
    rw [Function.update_self, Option.map_map]
    exact congrArg (fun data => (model.find other).map data) (funext hdata)
  · rw [Function.update_of_ne hother]

/-- The keys of the zones and of their seats are not touched by a modification of a seat, and those
of the summaries only in its zone. -/
theorem Shows.modify {f : SeatState → SeatState} (hzone : ∀ seat, (f seat).zone = seat.zone)
    {key : Key} {slot : Slot} (h : model.Shows key slot)
    (hkey : key ∉ [.formal, .holds, .holdExpiry, .zoneSummary (model.seat id).zone]) :
    (model.modify id f hzone).Shows key slot := by
  cases key with
  | formal => simp at hkey
  | holds => simp at hkey
  | holdExpiry => simp at hkey
  | zoneSummary zone =>
      have hother : zone ≠ (model.seat id).zone := by simpa using hkey
      intro hmem
      obtain ⟨fields, hfields, hsummary⟩ := h hmem
      exact ⟨fields, hfields, summary_modify_of_ne hzone hother hsummary⟩
  | seatZone =>
      show slot.Shows Slot.fields _
      simp only [map_find_modify f hzone SeatState.zone hzone]
      exact h
  | zoneSeats zone =>
      intro hmem
      rw [zoneIds_modify]
      exact h hmem
  | _ => exact h

end Model

section Sync

variable {store after : Store Key} {model : Model} {env : Env} {id : String}

theorem stored_setHold (h : Stored store model) (hid : id ∈ model.ids) {held : Option Held}
    (howner : ∀ found, held = some found → OwnerName found.owner)
    (hholds : (after .holds).Shows Slot.fields
      (Function.update (fun other => (model.hold other).map Held.derivedText) id
        (held.map Held.derivedText)))
    (hexpiry : (after .holdExpiry).Shows Slot.scores
      (Function.update (fun other => (model.hold other).map fun found => (found.deadline : ℤ)) id
        (held.map fun found => (found.deadline : ℤ))))
    (hsummary : ∃ fields, (after (.zoneSummary (model.seat id).zone)).Shows Slot.fields fields ∧
      (model.setHold id held).Summary (model.seat id).zone fields)
    (hsame : ∀ key, key ∉ [.holds, .holdExpiry, .zoneSummary (model.seat id).zone] →
      after key = store key) : Stored after (model.setHold id held) := by
  have hhold := Model.hold_setHold hid held
  have hmap {α : Type} (data : Held → α) : (fun other => ((model.setHold id held).hold other).map
      data) = Function.update (fun other => (model.hold other).map data) id (held.map data) := by
    rw [hhold]
    funext other
    by_cases hother : other = id
    · subst hother
      rw [Function.update_self, Function.update_self]
    · rw [Function.update_of_ne hother, Function.update_of_ne hother]
  intro key
  by_cases hkey : key ∈ [.holds, .holdExpiry, .zoneSummary (model.seat id).zone]
  · simp only [List.mem_cons, List.not_mem_nil, or_false] at hkey
    rcases hkey with rfl | rfl | rfl
    · refine ⟨?_, fun other found hfound => ?_⟩
      · rw [hmap]
        exact hholds
      · rw [hhold] at hfound
        by_cases hother : other = id
        · subst hother
          rw [Function.update_self] at hfound
          exact howner found hfound
        · rw [Function.update_of_ne hother] at hfound
          exact (h .holds).2 other found hfound
    · show (after .holdExpiry).Shows Slot.scores _
      rw [hmap]
      exact hexpiry
    · exact fun _ => hsummary
  · rw [hsame key hkey]
    by_cases hformal : key = .formal
    · subst hformal
      show (store .formal).Shows Slot.fields _
      have hkept (other : String) : ((model.setHold id held).find other).map SeatState.formalText =
          (model.find other).map SeatState.formalText :=
        Model.map_find_modify (fun seat => { seat with hold := held }) (fun _ => rfl)
          SeatState.formalText (fun _ => rfl) other
      simp only [hkept]
      exact h .formal
    · refine (h key).modify _ ?_
      simp only [List.mem_cons, List.not_mem_nil, or_false, not_or] at hkey ⊢
      exact ⟨hformal, hkey⟩

/-- What synchronising a seat with its raw hold makes of the model. -/
def Model.sync (model : Model) (env : Env) (maxlen : ℕ) (id : String) (held : Option Held) :
    Model :=
  let next := model.setHold id (liveHold env.now held)
  if (model.seat id).status = .available ∧
      (model.hold id).map Held.owner ≠ (liveHold env.now held).map Held.owner then
    next.log env maxlen id
  else next

theorem pttl_done {raw : Holds} (h : Carries store raw) :
    pttl (.hold id) env store = .done (holdTtl env.now (raw id)) store := by
  unfold pttl
  rw [h.slot id]
  cases raw id <;> rfl

theorem liveHold_owner {held : Option Held} {now : ℕ}
    (h : ∀ found, held = some found → OwnerName found.owner) :
    ∀ found, liveHold now held = some found → OwnerName found.owner :=
  fun found hfound => h found (Option.filter_eq_some_iff.mp hfound).1

theorem copyOwner_eq {held : Option Held}
    (h : ∀ found, held = some found → OwnerName found.owner) :
    ((held.map Held.derivedText).bind hold).map Hold.owner = held.map Held.owner := by
  rw [bind_hold h, Option.map_map]
  rfl

theorem publicstatus_hold (seat : SeatState) (held : Option Held) :
    publicstatus (some seat.status) (held.map Held.owner).isSome =
      some ({ seat with hold := held } : SeatState).publicStatus := by
  rw [Option.isSome_map]
  exact SeatState.publicstatus_eq { seat with hold := held }

/-- The change is announced on the stream of the zone when it is one for everybody. -/
theorem announce_spec {held : Option Held} (hid : id ∈ model.ids)
    (h : Stored store (model.setHold id (liveHold env.now held))) {maxlen : ℕ}
    (hmaxlen : maxlen ≠ 0) :
    Wp (if some (model.seat id).status = some .available ∧ (model.hold id).map Held.owner ≠
          (liveHold env.now held).map Held.owner then
        change (some (model.seat id).zone) id maxlen
      else pure ()) env store
      (fun _ after => Stored after (model.sync env maxlen id held)) fun _ => False := by
  unfold Model.sync
  simp only [Option.some.injEq]
  by_cases hchanged : (model.seat id).status = .available ∧
      (model.hold id).map Held.owner ≠ (liveHold env.now held).map Held.owner
  · rw [if_pos hchanged, if_pos hchanged]
    have hzone : ((model.setHold id (liveHold env.now held)).seat id).zone =
        (model.seat id).zone := Model.zone_modify model id _ id
    rw [← hzone]
    exact change_spec h hid hmaxlen
  · rw [if_neg hchanged, if_neg hchanged]
    exact wp_pure h

theorem synchold_spec {raw : Holds} (h : Stored store model) (hraw : Carries store raw)
    (hid : id ∈ model.ids) (hfits : model.Fits) {maxlen : ℕ} (hmaxlen : maxlen ≠ 0) :
    Wp (synchold id maxlen) env store
      (fun _ after => Stored after (model.sync env maxlen id (raw id))) fun _ => False := by
  have hzone := model.zone_mem id hid
  have howner := hraw.owner id
  obtain ⟨hholds, hnames⟩ := h .holds
  obtain ⟨fields, hfields, hsummary⟩ := h (.zoneSummary (model.seat id).zone) hzone
  refine wp_bind (wp_hget (h .seatZone).view (wp_bind (wp_hget (h .formal).view
    (wp_bind (wp_hget hholds.view (wp_bind (wp_get (hraw.text id) (wp_bind
      (wp_of_done (pttl_done hraw) ?_)))))))))
  rw [Model.find_of_mem hid, Option.map_some, Option.map_some, Option.bind_some,
    formal_formalText, Option.map_some, copyOwner_eq (hnames id), liveOwner_eq howner]
  dsimp only
  rw [publicstatus_hold, publicstatus_hold, Model.hold_of_mem hid]
  refine wp_bind (wp_mono (copyHold_spec howner hholds (h .holdExpiry)) ?_ fun _ hfalse => hfalse)
  rintro _ middle ⟨hcopies, hscores, hkept⟩
  have hmiddle : (middle (.zoneSummary (model.seat id).zone)).Shows Slot.fields fields := by
    rw [hkept (.zoneSummary _) nofun nofun]
    exact hfields
  refine wp_bind (wp_mono (summarychange_spec (f := fun seat =>
    { seat with hold := liveHold env.now (raw id) }) hid (fun _ => rfl) (hfits _ hzone) hmiddle
    hsummary) ?_ fun _ hfalse => hfalse)
  rintro _ last ⟨honly, hlast⟩
  rw [← Model.hold_of_mem hid]
  refine announce_spec hid (stored_setHold h hid (liveHold_owner howner) ?_ ?_ hlast
    fun key hkey => ?_) hmaxlen
  · rw [honly .holds nofun]
    exact hcopies
  · rw [honly .holdExpiry nofun]
    exact hscores
  · simp only [List.mem_cons, List.not_mem_nil, or_false, not_or] at hkey
    rw [honly key hkey.2.2, hkept key hkey.1 hkey.2.1]

end Sync

end Ticketing.Availability
