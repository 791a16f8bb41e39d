import Ticketing.SeatModelSync

/-!
# The scripts on a session with a model

Each script takes a store that shows a model to a store that shows the next one, or it drops the
model. The hold scripts synchronise the seats they name, the cleanup those whose copy has run out,
and a projection changes the formal state of one seat.
-/

namespace Ticketing.Availability

open Redis Script Tally

namespace Model

/-- The same generation with the same seats in the same zones. -/
structure SameLayout (model model' : Model) : Prop where
  generation : model'.generation = model.generation
  zones : model'.zones = model.zones
  ids : model'.ids = model.ids
  zone : ∀ id, (model'.seat id).zone = (model.seat id).zone

namespace SameLayout

variable {model model' model'' : Model}

theorem refl (model : Model) : model.SameLayout model := ⟨rfl, rfl, rfl, fun _ => rfl⟩

theorem trans (h : model.SameLayout model') (h' : model'.SameLayout model'') :
    model.SameLayout model'' :=
  ⟨h'.generation.trans h.generation, h'.zones.trans h.zones, h'.ids.trans h.ids,
    fun id => (h'.zone id).trans (h.zone id)⟩

theorem zoneIds (h : model.SameLayout model') (zone : String) :
    model'.zoneIds zone = model.zoneIds zone := by
  unfold Model.zoneIds
  rw [h.ids]
  apply Finset.filter_congr
  intro id _
  rw [h.zone id]

theorem fits (h : model.SameLayout model') : model'.Fits ↔ model.Fits := by
  unfold Fits
  rw [h.zones]
  exact forall₂_congr fun zone _ => by rw [h.zoneIds zone]

theorem inhabited (h : model.SameLayout model') (hinhabited : model.Inhabited) :
    model'.Inhabited := by
  refine ⟨by rw [h.zones]; exact hinhabited.1, fun zone hzone => ?_⟩
  rw [h.zones] at hzone
  rw [h.zoneIds zone]
  exact hinhabited.2 zone hzone

end SameLayout

variable {model : Model} {id : String}

theorem sameLayout_modify {f : SeatState → SeatState} (hzone : ∀ seat, (f seat).zone = seat.zone) :
    model.SameLayout (model.modify id f hzone) :=
  ⟨rfl, rfl, rfl, zone_modify model id hzone⟩

theorem sameLayout_sync (env : Env) (maxlen : ℕ) (held : Option Held) :
    model.SameLayout (model.sync env maxlen id held) := by
  have hset : model.SameLayout (model.setHold id (liveHold env.now held)) := sameLayout_modify _
  unfold sync
  dsimp only
  split_ifs
  · exact ⟨rfl, rfl, rfl, hset.zone⟩
  · exact hset

/-- Synchronising a seat leaves its formal state. -/
theorem formal_sync (env : Env) (maxlen : ℕ) (held : Option Held) (other : String) :
    ((model.sync env maxlen id held).seat other).status = (model.seat other).status ∧
      ((model.sync env maxlen id held).seat other).version = (model.seat other).version := by
  have hseat : ((model.sync env maxlen id held).seat other) =
      ((model.setHold id (liveHold env.now held)).seat other) := by
    unfold sync
    dsimp only
    split_ifs <;> rfl
  rw [hseat]
  show (Function.update model.seat id _ other).status = _ ∧
    (Function.update model.seat id _ other).version = _
  by_cases hother : other = id
  · subst hother
    rw [Function.update_self]
    exact ⟨rfl, rfl⟩
  · rw [Function.update_of_ne hother]
    exact ⟨rfl, rfl⟩

theorem hold_sync (hid : id ∈ model.ids) (env : Env) (maxlen : ℕ) (held : Option Held) :
    (model.sync env maxlen id held).hold =
      Function.update model.hold id (liveHold env.now held) := by
  rw [← hold_setHold hid]
  unfold sync
  dsimp only
  split_ifs <;> rfl

/-- Synchronising several seats with their raw holds. -/
def syncAll (model : Model) (env : Env) (maxlen : ℕ) (raw : Holds) (ids : List String) : Model :=
  ids.foldl (fun model id => model.sync env maxlen id (raw id)) model

theorem sameLayout_syncAll (env : Env) (maxlen : ℕ) (raw : Holds) (ids : List String) :
    model.SameLayout (model.syncAll env maxlen raw ids) := by
  induction ids generalizing model with
  | nil => exact .refl model
  | cons id ids ih => exact (sameLayout_sync env maxlen (raw id)).trans ih

theorem formal_syncAll (env : Env) (maxlen : ℕ) (raw : Holds) (ids : List String)
    (other : String) :
    ((model.syncAll env maxlen raw ids).seat other).status = (model.seat other).status ∧
      ((model.syncAll env maxlen raw ids).seat other).version = (model.seat other).version := by
  induction ids generalizing model with
  | nil => exact ⟨rfl, rfl⟩
  | cons id ids ih =>
      obtain ⟨hstatus, hversion⟩ := @formal_sync model id env maxlen (raw id) other
      obtain ⟨hstatus', hversion'⟩ := @ih (model.sync env maxlen id (raw id))
      exact ⟨hstatus'.trans hstatus, hversion'.trans hversion⟩

theorem hold_syncAll (env : Env) (maxlen : ℕ) (raw : Holds) {ids : List String}
    (hids : ∀ id ∈ ids, id ∈ model.ids) (other : String) :
    (model.syncAll env maxlen raw ids).hold other =
      if other ∈ ids then liveHold env.now (raw other) else model.hold other := by
  induction ids generalizing model with
  | nil => rfl
  | cons id ids ih =>
      have hlayout : model.SameLayout (model.sync env maxlen id (raw id)) :=
        sameLayout_sync env maxlen (raw id)
      show ((model.sync env maxlen id (raw id)).syncAll env maxlen raw ids).hold other = _
      rw [ih fun found hfound => by
        rw [hlayout.ids]
        exact hids found (List.mem_cons_of_mem id hfound)]
      rw [hold_sync (hids id List.mem_cons_self)]
      by_cases hrest : other ∈ ids
      · rw [if_pos hrest, if_pos (List.mem_cons_of_mem id hrest)]
      · rw [if_neg hrest]
        by_cases hother : other = id
        · subst hother
          rw [Function.update_self, if_pos List.mem_cons_self]
        · rw [Function.update_of_ne hother, if_neg (by simp [hother, hrest])]

/-- The model is small enough for the health check and has all these seats. -/
def Known (model : Model) (ids : List String) : Prop := model.Fits ∧ ∀ id ∈ ids, id ∈ model.ids

instance (model : Model) (ids : List String) : Decidable (model.Known ids) :=
  inferInstanceAs (Decidable (_ ∧ _))

end Model

/-- No model is ready: what is left of it is rebuilt before anything reads it. -/
def Dropped (store : Store Key) : Prop := ∀ env, ready env store = .done false store

section Dropped

variable {store after : Store Key}

theorem dropped_of_missing (h : store .modelMeta = none) : Dropped store := by
  intro env
  have hcompatible : compatible .modelMeta .hash env store = .done true store :=
    compatible_done (Or.inl h)
  have hget : hget .modelMeta "ready" env store = .done none store := by
    have hview : Slot.hash (store .modelMeta) = some Relational.Table.empty := by
      rw [h]
      rfl
    exact readKey_some hview
  unfold ready
  rw [bind_of_done hcompatible, if_pos rfl, bind_of_done hget]
  rfl

theorem determinedBy_ready : DeterminedBy (fun key => key = Key.modelMeta) ready := by
  have hcompatible : DeterminedBy (fun key => key = Key.modelMeta) (compatible .modelMeta .hash) :=
    determinedBy_bind (determinedBy_typeOf rfl) fun _ => determinedBy_pure _
  exact determinedBy_bind hcompatible fun _ => determinedBy_ite
    (determinedBy_bind (determinedBy_readKey rfl) fun _ => determinedBy_pure _)
    (determinedBy_pure _)

theorem Dropped.of_eq (h : Dropped store) (hsame : after .modelMeta = store .modelMeta) :
    Dropped after := fun env => determinedBy_ready.answer readOnly_ready
      (fun key hkey => by rw [hkey, hsame]) (h env)

end Dropped

section Wrapper

variable {store : Store Key} {model : Model} {env : Env} {raw : Holds}

theorem validseats_done (h : Stored store model) (ids : List String) :
    allM validseat ids env store = .done (decide (∀ id ∈ ids, id ∈ model.ids)) store := by
  rw [allM_done fun id _ => validseat_done h id]
  congr 1
  apply Bool.eq_iff_iff.mpr
  rw [List.all_eq_true, decide_eq_true_iff]
  exact forall₂_congr fun id _ => decide_eq_true_iff

theorem checkModel_known (h : Stored store model) (hinhabited : model.Inhabited)
    {ids : List String} (hknown : model.Known ids) :
    checkModel ids env store = .done true store := by
  unfold checkModel
  rw [bind_of_done (ready_done h), if_pos rfl, bind_of_done (healthy_done h hinhabited),
    if_pos (decide_eq_true hknown.1), bind_of_done (validseats_done h ids),
    if_pos (decide_eq_true hknown.2)]
  rfl

theorem invalidate_done : invalidate env store =
    .done () (Function.update store .modelMeta none) := rfl

theorem checkModel_unknown (h : Stored store model) (hinhabited : model.Inhabited)
    {ids : List String} (hunknown : ¬ model.Known ids) :
    checkModel ids env store = .done false (Function.update store .modelMeta none) := by
  unfold checkModel
  rw [bind_of_done (ready_done h), if_pos rfl, bind_of_done (healthy_done h hinhabited)]
  by_cases hfits : model.Fits
  · have hids : ¬ ∀ id ∈ ids, id ∈ model.ids := fun hids => hunknown ⟨hfits, hids⟩
    rw [if_pos (decide_eq_true hfits), bind_of_done (validseats_done h ids),
      if_neg (by simpa using hids)]
    rfl
  · rw [if_neg (by simpa using hfits)]
    rfl

theorem checkModel_dropped (h : Dropped store) (ids : List String) :
    checkModel ids env store = .done false store := by
  unfold checkModel
  rw [bind_of_done (h env)]
  rfl

/-- The store shows what it showed when only raw keys are written. -/
theorem Stored.of_raw {after : Store Key} (h : Stored store model)
    (hsame : ∀ key, ¬ Key.Raw key → after key = store key) : Stored after model := by
  intro key
  by_cases hraw : Key.Raw key
  · obtain ⟨seat, rfl⟩ := hraw
    trivial
  · rw [hsame key hraw]
    exact h key

theorem modelMeta_not_raw : ¬ Key.Raw .modelMeta := by
  rintro ⟨seat, hseat⟩
  cases hseat

theorem Carries.of_derived {after : Store Key} (h : Carries store raw)
    (hsame : ∀ key, ¬ Key.Derived key → after key = store key) : Carries after raw :=
  h.of_eq fun seat => hsame _ fun hkey => hkey seat rfl

theorem syncAll_spec (h : Stored store model) (hraw : Carries store raw) {ids : List String}
    (hknown : model.Known ids) {maxlen : ℕ} (hmaxlen : maxlen ≠ 0) :
    Wp (forEach (fun id => synchold id maxlen) ids) env store
      (fun _ after => Stored after (model.syncAll env maxlen raw ids) ∧ Carries after raw)
      fun _ => False := by
  induction ids generalizing store model with
  | nil => exact wp_pure ⟨h, hraw⟩
  | cons id ids ih =>
      have hid := hknown.2 id List.mem_cons_self
      refine wp_bind (wp_mono (wp_and (synchold_spec h hraw hid hknown.1 hmaxlen)
        (wp_frame (writes_synchold id maxlen))) ?_ fun _ hfalse => hfalse.1)
      rintro _ after ⟨hafter, hframe⟩
      have hlayout : model.SameLayout (model.sync env maxlen id (raw id)) :=
        Model.sameLayout_sync env maxlen (raw id)
      refine ih hafter (hraw.of_derived hframe) ⟨hlayout.fits.mpr hknown.1, fun other hother => ?_⟩
      rw [hlayout.ids]
      exact hknown.2 other (List.mem_cons_of_mem id hother)

/-- What the operation and the synchronisation of its seats end with. -/
theorem wrapped_spec (hraw : Carries store raw) {call : Call} (hvalid : call.Valid) :
    Wp call.script env store (fun reply after => call.Answers raw reply ∧
      Carries after (call.effect env.now raw) ∧ ∀ key, ¬ Key.Raw key → after key = store key)
      fun _ => False := by
  refine wp_mono (wp_and (call.script_spec hraw hvalid env) (wp_frame call.writes_script)) ?_
    fun _ hfalse => hfalse.1
  rintro reply after ⟨⟨hanswers, hafter⟩, hframe⟩
  exact ⟨hanswers, hafter, hframe⟩

/-- A hold script on a store with a model that knows the seats. -/
theorem Call.run_known (h : Stored store model) (hinhabited : model.Inhabited)
    (hraw : Carries store raw) {call : Call} (hvalid : call.Valid)
    (hknown : model.Known call.seats) {maxlen : ℕ} (hmaxlen : maxlen ≠ 0) :
    Wp (call.run maxlen) env store (fun reply after => call.Answers raw reply ∧
      Carries after (call.effect env.now raw) ∧
      Stored after (model.syncAll env maxlen (call.effect env.now raw) call.seats))
      fun _ => False := by
  refine wp_bind (wp_of_done (checkModel_known h hinhabited hknown) ?_)
  refine wp_bind (wp_of_done (preflight_spec hraw env call.seats) ?_)
  refine wp_bind (wp_mono (wrapped_spec hraw hvalid) ?_ fun _ hfalse => hfalse)
  rintro reply middle ⟨hanswers, hmiddle, hframe⟩
  rw [if_pos rfl]
  refine wp_bind (wp_mono (syncAll_spec (h.of_raw hframe) hmiddle hknown hmaxlen) ?_
    fun _ hfalse => hfalse)
  rintro _ after ⟨hafter, hcarries⟩
  exact wp_pure ⟨hanswers, hcarries, hafter⟩

/-- A hold script on a store whose model is not ready. -/
theorem Call.run_dropped (h : Dropped store) (hraw : Carries store raw) {call : Call}
    (hvalid : call.Valid) (maxlen : ℕ) :
    Wp (call.run maxlen) env store (fun reply after => call.Answers raw reply ∧
      Carries after (call.effect env.now raw) ∧ Dropped after) fun _ => False := by
  refine wp_bind (wp_of_done (checkModel_dropped h call.seats) ?_)
  refine wp_bind (wp_of_done (preflight_spec hraw env call.seats) ?_)
  refine wp_bind (wp_mono (wrapped_spec hraw hvalid) ?_ fun _ hfalse => hfalse)
  rintro reply after ⟨hanswers, hafter, hframe⟩
  exact wp_pure ⟨hanswers, hafter, h.of_eq (hframe _ modelMeta_not_raw)⟩

/-- A hold script on a store with a model that does not know all seats drops it. -/
theorem Call.run_unknown (h : Stored store model) (hinhabited : model.Inhabited)
    (hraw : Carries store raw) {call : Call} (hvalid : call.Valid)
    (hunknown : ¬ model.Known call.seats) (maxlen : ℕ) :
    Wp (call.run maxlen) env store (fun reply after => call.Answers raw reply ∧
      Carries after (call.effect env.now raw) ∧ Dropped after) fun _ => False := by
  have hcarries : Carries (Function.update store .modelMeta none) raw :=
    hraw.of_eq fun seat => Function.update_of_ne (show Key.hold seat ≠ .modelMeta from nofun) _ _
  refine wp_bind (wp_of_done (checkModel_unknown h hinhabited hunknown) ?_)
  refine wp_bind (wp_of_done (preflight_spec hcarries env call.seats) ?_)
  refine wp_bind (wp_mono (wrapped_spec hcarries hvalid) ?_ fun _ hfalse => hfalse)
  rintro reply after ⟨hanswers, hafter, hframe⟩
  refine wp_pure ⟨hanswers, hafter, dropped_of_missing ?_⟩
  rw [hframe _ modelMeta_not_raw, Function.update_self]

end Wrapper

end Ticketing.Availability
