import Ticketing.SeatModelRuns

/-!
# The copies mirror the holds

In a session that the scripts have brought about, a hold that still has time to live has its copy in
the model, and a copy that has not expired has its hold. The cleanup therefore deletes no hold that
still has time to live.
-/

namespace Ticketing.Availability

open Redis

theorem liveHold_eq_some {now : ℕ} {held : Option Held} {copy : Held} :
    liveHold now held = some copy ↔ held = some copy ∧ now < copy.deadline := by
  unfold liveHold
  rw [Option.filter_eq_some_iff, decide_eq_true_iff]

/-- The copies of a model against the holds. -/
structure Mirror (now : ℕ) (model : Model) (raw : Holds) : Prop where
  copied : ∀ id ∈ model.ids, ∀ held, raw id = some held → now < held.deadline →
    model.hold id = some held
  backed : ∀ id copy, model.hold id = some copy → now < copy.deadline → raw id = some copy

namespace Mirror

variable {now : ℕ} {model model' : Model} {raw raw' : Holds}

theorem visible (h : Mirror now model raw) {later : ℕ} (hlater : now ≤ later) :
    Mirror later model (raw.visible later) where
  copied := fun id hid held hheld hlive =>
    h.copied id hid held (raw.visible_within later id held hheld) (lt_of_le_of_lt hlater hlive)
  backed := fun id copy hcopy hlive =>
    Option.filter_eq_some_iff.mpr ⟨h.backed id copy hcopy (lt_of_le_of_lt hlater hlive),
      decide_eq_true hlive.le⟩

/-- Some seats take a copy of what is live and the others keep theirs, as their holds do. -/
theorem of_live (h : Mirror now model raw) (chosen : String → Prop) (hids : model'.ids = model.ids)
    (hchosen : ∀ id, chosen id → model'.hold id = liveHold now (raw' id))
    (hothers : ∀ id, ¬ chosen id → model'.hold id = model.hold id ∧ raw' id = raw id) :
    Mirror now model' raw' where
  copied := fun id hid held hheld hlive => by
    by_cases hid' : chosen id
    · rw [hchosen id hid']
      exact liveHold_eq_some.mpr ⟨hheld, hlive⟩
    · obtain ⟨hcopy, hraw⟩ := hothers id hid'
      rw [hcopy]
      exact h.copied id (by rw [← hids]; exact hid) held (by rw [← hraw]; exact hheld) hlive
  backed := fun id copy hcopy hlive => by
    by_cases hid : chosen id
    · rw [hchosen id hid] at hcopy
      exact (liveHold_eq_some.mp hcopy).1
    · obtain ⟨hsame, hraw⟩ := hothers id hid
      rw [hsame] at hcopy
      rw [hraw]
      exact h.backed id copy hcopy hlive

end Mirror

/-- A call writes its own seats only. -/
theorem Call.effect_of_notMem {call : Call} {id : String} (h : id ∉ call.seats) (now : ℕ)
    (raw : Holds) : call.effect now raw id = raw id := by
  unfold effect
  split_ifs
  · rfl
  cases call with
  | prepare owner base target ttl added retained =>
      have hid : id ∉ added ∧ id ∉ retained := not_or.mp fun hmem => h (List.mem_append.mpr hmem)
      show Holds.keep _ _ retained id = raw id
      unfold Holds.keep Holds.take
      rw [if_neg hid.2, if_neg hid.1]
  | ensure owner revision ttl seats => exact if_neg h
  | abort owner target added => exact if_neg h
  | finalize owner target removed => exact if_neg h
  | release owner seats => exact if_neg h

section Scripts

variable {env : Env} {maxlen : ℕ} {model : Model} {raw : Holds}

theorem mirror_hold (h : Mirror env.now model raw) {call : Call} (hknown : model.Known call.seats) :
    Mirror env.now (model.syncAll env maxlen (call.effect env.now raw) call.seats)
      (call.effect env.now raw) := by
  have hhold := Model.hold_syncAll env maxlen (call.effect env.now raw) hknown.2
  refine h.of_live (fun id => id ∈ call.seats)
    (Model.sameLayout_syncAll env maxlen _ _).ids (fun id hid => ?_) fun id hid => ⟨?_, ?_⟩
  · rw [hhold, if_pos hid]
  · rw [hhold, if_neg hid]
  · exact call.effect_of_notMem hid env.now raw

theorem clean_of_ne {copy : Held} {id other : String} (hother : other ≠ id) :
    raw.clean copy id other = raw other := by
  unfold Holds.clean
  split_ifs
  · exact Function.update_of_ne hother _ _
  · rfl

theorem mirror_cleanSeat {s : Model × Holds} (h : Mirror env.now s.1 s.2) (id : String) :
    Mirror env.now (cleanSeat env maxlen s id).1 (cleanSeat env maxlen s id).2 := by
  unfold cleanSeat
  cases hcopy : s.1.hold id with
  | none => exact h
  | some copy =>
      dsimp only
      split_ifs
      · have hhold := Model.hold_sync (Model.mem_of_hold hcopy) env maxlen (s.2.clean copy id id)
        refine h.of_live (fun other => other = id)
          (Model.sameLayout_sync env maxlen _).ids (fun other hother => ?_)
          fun other hother => ⟨?_, clean_of_ne hother⟩
        · subst hother
          rw [hhold, Function.update_self]
        · rw [hhold, Function.update_of_ne hother]
      · exact h

theorem mirror_cleanSeats {s : Model × Holds} (h : Mirror env.now s.1 s.2) (ids : List String) :
    Mirror env.now (cleanSeats env maxlen s ids).1 (cleanSeats env maxlen s ids).2 := by
  induction ids generalizing s with
  | nil => exact h
  | cons id ids ih => exact ih (mirror_cleanSeat h id)

/-- The cleanup of a seat deletes no live hold: its copy would not have expired. -/
theorem cleanSeat_live {s : Model × Holds} (h : Mirror env.now s.1 s.2) (id : String)
    {other : String} {held : Held} (hheld : s.2 other = some held)
    (hlive : env.now < held.deadline) : (cleanSeat env maxlen s id).2 other = some held := by
  unfold cleanSeat
  cases hcopy : s.1.hold id with
  | none => exact hheld
  | some copy =>
      dsimp only
      split_ifs with hexpired
      · by_cases hother : other = id
        · subst hother
          have hsame := h.copied other (Model.mem_of_hold hcopy) held hheld hlive
          rw [hcopy] at hsame
          obtain rfl := Option.some.inj hsame
          omega
        · exact (clean_of_ne hother).trans hheld
      · exact hheld

theorem cleanSeats_live {s : Model × Holds} (h : Mirror env.now s.1 s.2) (ids : List String)
    {id : String} {held : Held} (hheld : s.2 id = some held) (hlive : env.now < held.deadline) :
    (cleanSeats env maxlen s ids).2 id = some held := by
  induction ids generalizing s with
  | nil => exact hheld
  | cons other ids ih =>
      exact ih (mirror_cleanSeat h other) (cleanSeat_live h other hheld hlive)

theorem mirror_project (h : Mirror env.now model raw) (id : String) (status : SeatStatus)
    (version : ℕ) : Mirror env.now (model.project env maxlen id status version) raw := by
  unfold Model.project
  split_ifs
  · have hhold : (model.setFormal id status version).hold = model.hold :=
      hold_setFormal status version
    exact h.of_live (fun _ => False) rfl nofun fun other _ => ⟨congrFun hhold other, rfl⟩
  · exact h

theorem mirror_ofRows {generation : String} {rows : List SeatRow} (hrows : GoodRows rows) :
    Mirror env.now (Model.ofRows generation env raw rows) raw where
  copied := fun id hid held hheld hlive => by
    rw [hold_ofRows hrows hid]
    exact liveHold_eq_some.mpr ⟨hheld, hlive⟩
  backed := fun id copy hcopy hlive => by
    rw [hold_ofRows hrows (Model.mem_of_hold hcopy)] at hcopy
    exact (liveHold_eq_some.mp hcopy).1

end Scripts

namespace Session

/-- A session that scripts have brought about: there is no lock next to a model, and while the clock
has not gone back its copies mirror its holds. -/
structure Mirrors (timely : Prop) (s : Session) (now : ℕ) : Prop where
  unlocked : s.model.isSome → s.lock = none
  mirror : timely → ∀ model, s.model = some model → Mirror now model s.raw

variable {timely : Prop} {s t : Session} {env : Env} {maxlen : ℕ}

theorem Mirrors.visible {now later : ℕ} (h : s.Mirrors timely now)
    (hlater : timely → now ≤ later) : (s.visible later).Mirrors timely later where
  unlocked := fun hmodel => by
    show s.lock.filter _ = none
    rw [h.unlocked hmodel]
    rfl
  mirror := fun htimely model hmodel => (h.mirror htimely model hmodel).visible (hlater htimely)

theorem mirrors_none {now : ℕ} (hmodel : s.model = none) : s.Mirrors timely now where
  unlocked := fun hsome => by
    rw [hmodel] at hsome
    cases hsome
  mirror := fun _ model hmodel' => by
    rw [hmodel] at hmodel'
    cases hmodel'

/-- A session with another model and the lock that it had. -/
theorem Mirrors.of_model (h : s.Mirrors timely env.now) {model model' : Model} {raw : Holds}
    (hmodel : s.model = some model)
    (hmirror : Mirror env.now model s.raw → Mirror env.now model' raw) :
    Mirrors timely ⟨raw, some model', s.lock⟩ env.now where
  unlocked := fun _ => h.unlocked (by rw [hmodel]; rfl)
  mirror := by
    rintro htimely _ ⟨rfl⟩
    exact hmirror (h.mirror htimely model hmodel)

theorem Mirrors.next {call : SessionCall} {result : Option Reply} (h : s.Mirrors timely env.now)
    (hnext : s.Next env maxlen call result t) : t.Mirrors timely env.now := by
  cases hnext with
  | hold answers =>
      unfold afterHold
      cases hmodel : s.model with
      | none => exact mirrors_none rfl
      | some model =>
          rw [Option.bind_some]
          split_ifs with hknown
          · exact h.of_model hmodel fun hmirror => mirror_hold hmirror hknown
          · exact mirrors_none rfl
  | cleaned shown fits expired clean =>
      exact h.of_model shown fun hmirror => mirror_cleanSeats (s := (_, s.raw)) hmirror _
  | unclean unfit => exact mirrors_none rfl
  | applied shown known =>
      exact h.of_model shown fun hmirror => mirror_project hmirror _ _ _
  | unknown shown unknown => exact mirrors_none rfl
  | invalid malformed shown => exact h
  | unready missing => exact h
  | found shown => exact h
  | acquired missing =>
      refine ⟨fun hmodel => ?_, h.mirror⟩
      have hnone : s.model.isSome = true := hmodel
      rw [missing] at hnone
      cases hnone
  | unlocked =>
      refine ⟨fun hmodel => ?_, h.mirror⟩
      show s.lock.filter _ = none
      rw [h.unlocked hmodel]
      rfl
  | refused => exact h
  | failed => exact mirrors_none rfl
  | installed locked good =>
      refine ⟨fun _ => rfl, ?_⟩
      rintro - _ ⟨rfl⟩
      exact mirror_ofRows good
  | read => exact h
  | unread => exact mirrors_none rfl

/-- A live hold stays where it is, unless its owner calls. -/
theorem Mirrors.live {call : SessionCall} {result : Option Reply} (h : s.Mirrors True env.now)
    (hnext : s.Next env maxlen call result t) {id : String} {held : Held}
    (hheld : s.raw id = some held) (hlive : env.now < held.deadline)
    (hforeign : ∀ own, call = .hold own → held.owner ≠ own.owner) : t.raw id = some held := by
  cases hnext with
  | hold answers => exact (Call.effect_foreign (hforeign _ rfl) env.now s.raw id).mpr hheld
  | cleaned shown fits expired clean =>
      exact cleanSeats_live (s := (_, s.raw)) (h.mirror trivial _ shown) _ hheld hlive
  | _ => exact hheld

end Session

end Ticketing.Availability
