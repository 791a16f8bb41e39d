import Ticketing.SeatModelScripts

/-!
# Cleaning up expired copies

The cleanup walks over seats whose copy has run out. It deletes the raw hold that the copy was made
of and synchronises the seat; a raw hold with another value is copied instead.
-/

namespace Ticketing.Availability

open Redis Script Tally

/-- The raw holds without the one that the copy was made of. -/
def Holds.clean (raw : Holds) (copy : Held) (id : String) : Holds :=
  if (raw id).map Held.text = some copy.text then Function.update raw id none else raw

/-- The model and the raw holds after the cleanup of a seat. -/
def cleanSeat (env : Env) (maxlen : ℕ) (s : Model × Holds) (id : String) : Model × Holds :=
  match s.1.hold id with
  | none => s
  | some copy =>
      if copy.deadline ≤ env.now then
        (s.1.sync env maxlen id (s.2.clean copy id id), s.2.clean copy id)
      else s

def cleanSeats (env : Env) (maxlen : ℕ) (s : Model × Holds) (ids : List String) : Model × Holds :=
  ids.foldl (cleanSeat env maxlen) s

theorem cleanSeat_layout (env : Env) (maxlen : ℕ) (s : Model × Holds) (id : String) :
    s.1.SameLayout (cleanSeat env maxlen s id).1 := by
  unfold cleanSeat
  cases s.1.hold id with
  | none => exact .refl s.1
  | some copy =>
      dsimp only
      split_ifs
      · exact Model.sameLayout_sync _ _ _
      · exact .refl s.1

theorem cleanSeats_layout (env : Env) (maxlen : ℕ) (s : Model × Holds) (ids : List String) :
    s.1.SameLayout (cleanSeats env maxlen s ids).1 := by
  induction ids generalizing s with
  | nil => exact .refl s.1
  | cons id ids ih => exact (cleanSeat_layout env maxlen s id).trans (ih _)

theorem cleanSeat_formal (env : Env) (maxlen : ℕ) (s : Model × Holds) (id other : String) :
    ((cleanSeat env maxlen s id).1.seat other).status = (s.1.seat other).status ∧
      ((cleanSeat env maxlen s id).1.seat other).version = (s.1.seat other).version := by
  unfold cleanSeat
  cases s.1.hold id with
  | none => exact ⟨rfl, rfl⟩
  | some copy =>
      dsimp only
      split_ifs
      · exact Model.formal_sync _ _ _ _
      · exact ⟨rfl, rfl⟩

section Expire

variable {store : Store Key} {model : Model} {env : Env} {raw : Holds} {id : String}

/-- The store shows the model and carries the raw holds. -/
structure Shown (store : Store Key) (s : Model × Holds) : Prop where
  stored : Stored store s.1
  carries : Carries store s.2

theorem Shown.wp_derived {s : Model × Holds} {α : Type} {script : Script Key α}
    {Q : α → Store Key → Prop} (hcarries : Carries store s.2) (hwrites : Writes Key.Derived script)
    (h : Wp script env store Q fun _ => False) :
    Wp script env store (fun value after => Q value after ∧ Carries after s.2) fun _ => False := by
  refine wp_mono (wp_and h (wp_frame hwrites)) ?_ fun _ hfalse => hfalse.1
  rintro value after ⟨hq, hframe⟩
  exact ⟨hq, hcarries.of_derived hframe⟩

theorem sync_shown {s : Model × Holds} (h : Shown store s) (hid : id ∈ s.1.ids)
    (hfits : s.1.Fits) {maxlen : ℕ} (hmaxlen : maxlen ≠ 0) : Wp (do
      synchold id maxlen
      pure 1) env store
      (fun (_ : ℕ) after => Shown after (s.1.sync env maxlen id (s.2 id), s.2)) fun _ => False := by
  refine wp_bind (wp_mono (Shown.wp_derived h.carries (writes_synchold id maxlen)
    (synchold_spec h.stored h.carries hid hfits hmaxlen)) ?_ fun _ hfalse => hfalse)
  rintro _ after ⟨hafter, hcarries⟩
  exact wp_pure ⟨hafter, hcarries⟩

theorem expireSeat_spec {s : Model × Holds} (h : Shown store s) (hid : id ∈ s.1.ids)
    (hfits : s.1.Fits) {maxlen : ℕ} (hmaxlen : maxlen ≠ 0) :
    Wp (expireSeat env.now maxlen id) env store
      (fun _ after => Shown after (cleanSeat env maxlen s id)) fun _ => False := by
  obtain ⟨hholds, hnames⟩ := h.stored .holds
  have hexpiry := h.stored .holdExpiry
  have hkept {slot : Slot} {scores : String → Option ℤ} (hslot : slot.Shows Slot.scores scores)
      (hsame : scores = fun other => (s.1.hold other).map fun held => (held.deadline : ℤ)) :
      Shown (Function.update store .holdExpiry slot) s := by
    refine ⟨fun key => ?_, h.carries.of_eq fun seat =>
      Function.update_of_ne (show Key.hold seat ≠ .holdExpiry from nofun) _ _⟩
    by_cases hkey : key = .holdExpiry
    · subst hkey
      rw [Function.update_self]
      rw [hsame] at hslot
      exact hslot
    · rw [Function.update_of_ne hkey]
      exact h.stored key
  refine wp_bind (wp_hget hholds.view ?_)
  rw [bind_hold (hnames id)]
  unfold cleanSeat
  cases hfound : s.1.hold id with
  | none =>
      -- the copy is gone, and so is its score
      refine wp_bind (wp_zrem hexpiry fun slot hslot => wp_pure (hkept hslot ?_))
      rw [Function.update_eq_self_iff, hfound]
      rfl
  | some copy =>
      dsimp only [Option.map_some]
      by_cases hexpired : copy.deadline ≤ env.now
      · rw [if_pos hexpired, if_pos hexpired]
        refine wp_bind (wp_get (h.carries.text id) ?_)
        rw [show formatHold copy.owner (toString copy.revision) = copy.text from rfl]
        unfold Holds.clean
        by_cases hsame : (s.2 id).map Held.text = some copy.text
        · rw [if_pos hsame, if_pos hsame]
          refine wp_bind (wp_del ?_)
          have hdeleted : Shown (Function.update store (.hold id) none)
              (s.1, Function.update s.2 id none) :=
            ⟨h.stored.of_raw fun key hkey => Function.update_of_ne
              (fun heq => hkey ⟨id, heq⟩) _ _, h.carries.delete id⟩
          exact sync_shown hdeleted hid hfits hmaxlen
        · rw [if_neg hsame, if_neg hsame]
          exact sync_shown h hid hfits hmaxlen
      · rw [if_neg hexpired, if_neg hexpired]
        refine wp_bind (wp_zadd hexpiry fun slot hslot => wp_pure (hkept hslot ?_))
        rw [Function.update_eq_self_iff, hfound]
        rfl

theorem expireSeats_spec {s : Model × Holds} (h : Shown store s) {ids : List String}
    (hids : ∀ id ∈ ids, id ∈ s.1.ids) (hfits : s.1.Fits) {maxlen : ℕ} (hmaxlen : maxlen ≠ 0)
    (count : ℕ) : Wp (expireSeats env.now maxlen count ids) env store
      (fun _ after => Shown after (cleanSeats env maxlen s ids)) fun _ => False := by
  induction ids generalizing store s count with
  | nil => exact wp_pure h
  | cons id ids ih =>
      refine wp_bind (wp_mono (expireSeat_spec h (hids id List.mem_cons_self) hfits hmaxlen) ?_
        fun _ hfalse => hfalse)
      intro n after hafter
      have hlayout := cleanSeat_layout env maxlen s id
      refine ih hafter (fun other hother => ?_) (hlayout.fits.mpr hfits) (count + n)
      rw [hlayout.ids]
      exact hids other (List.mem_cons_of_mem id hother)

theorem cleanable_done {s : Model × Holds} (h : Shown store s) (id : String) :
    cleanable id env store = .done (decide (id ∈ s.1.ids)) store := by
  have hget : get (.hold id) env store = .done ((s.2 id).map Held.text) store :=
    readKey_some (h.carries.text id)
  unfold cleanable
  rw [bind_of_done (validseat_done h.stored id)]
  by_cases hid : id ∈ s.1.ids
  · rw [decide_eq_true hid, if_pos rfl, bind_of_done (compatible_hold h.carries id env),
      if_pos rfl, bind_of_done hget, rawhold_map h.carries id]
    cases s.2 id <;> simp
  · rw [decide_eq_false hid]
    rfl

/-- The cleanup of a small enough model: the seats it walks over have expired copies, and when it
counts none afterwards, no copy has expired. -/
theorem expire_known {s : Model × Holds} (h : Shown store s) (hinhabited : s.1.Inhabited)
    (hfits : s.1.Fits) {limit maxlen : ℕ} (hlimit : limit ≠ 0) (hmaxlen : maxlen ≠ 0) :
    Wp (expire limit maxlen) env store (fun reply after => ∃ ids, ∃ count left : ℕ,
      (∀ id ∈ ids, ∃ copy, s.1.hold id = some copy ∧ copy.deadline ≤ env.now) ∧
      Shown after (cleanSeats env maxlen s ids) ∧
      reply = .strings ["OK", toString count, toString left] ∧
      (left = 0 → ∀ id copy, (cleanSeats env maxlen s ids).1.hold id = some copy →
        env.now < copy.deadline)) fun _ => False := by
  refine wp_bind (wp_of_done (healthy_done h.stored hinhabited) ?_)
  rw [if_pos (decide_eq_true hfits), if_neg (by simp [hlimit, hmaxlen])]
  refine wp_bind (wp_now (wp_bind (wp_zrangeByScore (h.stored .holdExpiry).view fun ids hids => ?_)))
  have hexpired : ∀ id ∈ ids, ∃ copy, s.1.hold id = some copy ∧ copy.deadline ≤ env.now := by
    intro id hid
    obtain ⟨score, hscore, hle⟩ := hids id hid
    obtain ⟨copy, hcopy, rfl⟩ := Option.map_eq_some_iff.mp hscore
    exact ⟨copy, hcopy, Int.ofNat_le.mp hle⟩
  have hmem : ∀ id ∈ ids, id ∈ s.1.ids := fun id hid => by
    obtain ⟨copy, hcopy, -⟩ := hexpired id hid
    exact Model.mem_of_hold hcopy
  have hclean : allM cleanable ids env store = .done true store := by
    rw [allM_done fun id _ => cleanable_done h id]
    congr 1
    exact List.all_eq_true.mpr fun id hid => decide_eq_true (hmem id hid)
  refine wp_bind (wp_of_done hclean ?_)
  rw [if_pos rfl]
  refine wp_bind (wp_mono (expireSeats_spec h hmem hfits hmaxlen 0) ?_ fun _ hfalse => hfalse)
  intro count after hafter
  refine wp_bind (wp_zcount (hafter.stored .holdExpiry).view fun left hleft => ?_)
  refine wp_pure ⟨ids, count, left, hexpired, hafter, rfl, fun hzero id copy hcopy => ?_⟩
  have hscore := hleft hzero id copy.deadline (by rw [hcopy]; rfl)
  exact Int.ofNat_lt.mp hscore

theorem expire_unknown (h : Stored store model) (hinhabited : model.Inhabited)
    (hfits : ¬ model.Fits) (limit maxlen : ℕ) : expire limit maxlen env store =
      .done (.strings ["REBUILD"]) (Function.update store .modelMeta none) := by
  unfold expire
  rw [bind_of_done (healthy_done h hinhabited), if_neg (by simpa using hfits)]
  rfl

theorem healthy_dropped (h : Dropped store) : healthy env store = .done false store := by
  unfold healthy
  rw [bind_of_done (h env)]
  rfl

theorem expire_dropped (h : Dropped store) (limit maxlen : ℕ) : expire limit maxlen env store =
      .done (.strings ["REBUILD"]) (Function.update store .modelMeta none) := by
  unfold expire
  rw [bind_of_done (healthy_dropped h), if_neg (by simp)]
  rfl

end Expire

end Ticketing.Availability
