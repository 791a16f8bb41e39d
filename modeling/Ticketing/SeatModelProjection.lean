import Ticketing.SeatModelScripts

/-!
# Projecting a formal state into the model

A projection carries a status with its version. The model takes it only when the version is beyond
the one it has: comparing the texts of two versions compares the numbers.
-/

namespace Ticketing.Availability

open Redis Script Tally

section Versions

theorem greater_toString (m n : ℕ) : greater (toString m) (toString n) = decide (n < m) := by
  have hlength (k : ℕ) : (toString k).length = (Nat.toDigits 10 k).length := by
    rw [← String.length_toList, toList_toString]
  have hdigits (k : ℕ) := all_of_digits (digits_toDigits k)
  unfold greater
  rw [hlength, hlength]
  by_cases hsame : (Nat.toDigits 10 m).length = (Nat.toDigits 10 n).length
  · rw [if_neg (not_not.mpr hsame)]
    apply decide_eq_decide.mpr
    rw [String.lt_iff, toList_toString, toList_toString,
      lt_iff_ofDigitChars (hdigits n) (hdigits m) hsame.symm, Nat.ofDigitChars_ten_toDigits,
      Nat.ofDigitChars_ten_toDigits]
  · rw [if_pos hsame]
    apply decide_eq_decide.mpr
    refine ⟨lt_of_length_lt, fun hless => ?_⟩
    by_contra hnot
    have hlonger : (Nat.toDigits 10 m).length < (Nat.toDigits 10 n).length := by omega
    exact Nat.lt_asymm hless (lt_of_length_lt hlonger)

theorem eq_of_statusOfName {name : String} {status : SeatStatus}
    (h : statusOfName name = some status) : name = statusName status := by
  unfold statusOfName at h
  split_ifs at h with havailable hheld hsold
  · obtain rfl := Option.some.inj h
    exact havailable
  · obtain rfl := Option.some.inj h
    exact hheld
  · obtain rfl := Option.some.inj h
    exact hsold

/-- The formal state of a row of the inventory as a projection carries it. -/
theorem formal_append {status version : String} {next : Formal}
    (h : formal (status ++ "|" ++ version) = some next) :
    status = statusName next.status ∧ next.version = version ∧
      ∃ n : ℕ, version = toString n := by
  have htext : (status ++ "|" ++ version).toList = status.toList ++ '|' :: version.toList := by
    simp
  unfold formal at h
  rw [htext] at h
  have hbar : '|' ∉ status.toList := by
    intro hbar
    obtain ⟨front, back, hsplit, hfront⟩ := List.eq_append_cons_of_mem hbar
    rw [hsplit, List.append_assoc, List.cons_append, cut_append hfront] at h
    dsimp only at h
    split_ifs at h with hnatural
    obtain ⟨n, hn⟩ := Option.isSome_iff_exists.mp hnatural
    have hdigits := all_of_digits (digits_toDigits n)
    rw [← eq_toDigits_of_natural hn] at hdigits
    exact absurd (hdigits '|' (by simp)) (by decide)
  rw [cut_append hbar] at h
  dsimp only at h
  split_ifs at h with hnatural
  obtain ⟨n, hn⟩ := Option.isSome_iff_exists.mp hnatural
  obtain ⟨found, hfound, rfl⟩ := Option.map_eq_some_iff.mp h
  rw [String.ofList_toList] at hfound
  refine ⟨?_, String.ofList_toList, n, eq_toString_of_natural hn⟩
  exact eq_of_statusOfName hfound

end Versions

section Apply

variable {store after : Store Key} {model : Model} {env : Env} {id : String}

theorem formalText_setFormal (hid : id ∈ model.ids) (status : SeatStatus) (version : ℕ) :
    (fun other => ((model.setFormal id status version).find other).map SeatState.formalText) =
      Function.update (fun other => (model.find other).map SeatState.formalText) id
        (some (statusName status ++ "|" ++ toString version)) := by
  funext other
  unfold Model.setFormal
  rw [Model.find_modify]
  by_cases hother : other = id
  · subst hother
    rw [Function.update_self, Function.update_self, Model.find_of_mem hid]
    rfl
  · rw [Function.update_of_ne hother, Function.update_of_ne hother]

theorem hold_setFormal (status : SeatStatus) (version : ℕ) :
    (model.setFormal id status version).hold = model.hold := by
  funext other
  unfold Model.hold Model.setFormal
  rw [Model.find_modify]
  by_cases hother : other = id
  · subst hother
    rw [Function.update_self]
    cases model.find other <;> rfl
  · rw [Function.update_of_ne hother]

theorem stored_setFormal (h : Stored store model) (hid : id ∈ model.ids) {status : SeatStatus}
    {version : ℕ}
    (hformal : (after .formal).Shows Slot.fields
      (Function.update (fun other => (model.find other).map SeatState.formalText) id
        (some (statusName status ++ "|" ++ toString version))))
    (hsummary : ∃ fields, (after (.zoneSummary (model.seat id).zone)).Shows Slot.fields fields ∧
      (model.setFormal id status version).Summary (model.seat id).zone fields)
    (hsame : ∀ key, key ∉ [.formal, .zoneSummary (model.seat id).zone] →
      after key = store key) : Stored after (model.setFormal id status version) := by
  intro key
  by_cases hkey : key ∈ [.formal, .zoneSummary (model.seat id).zone]
  · simp only [List.mem_cons, List.not_mem_nil, or_false] at hkey
    rcases hkey with rfl | rfl
    · show (after .formal).Shows Slot.fields _
      rw [formalText_setFormal hid]
      exact hformal
    · exact fun _ => hsummary
  · rw [hsame key hkey]
    by_cases hholds : key = .holds
    · subst hholds
      show (store .holds).Shows Slot.fields _ ∧ _
      rw [hold_setFormal]
      exact h .holds
    · by_cases hexpiry : key = .holdExpiry
      · subst hexpiry
        show (store .holdExpiry).Shows Slot.scores _
        rw [hold_setFormal]
        exact h .holdExpiry
      · refine (h key).modify _ ?_
        simp only [List.mem_cons, List.not_mem_nil, or_false, not_or] at hkey ⊢
        exact ⟨hkey.1, hholds, hexpiry, hkey.2⟩

/-- What a projection of a version makes of the model. -/
def Model.project (model : Model) (env : Env) (maxlen : ℕ) (id : String) (status : SeatStatus)
    (version : ℕ) : Model :=
  if (model.seat id).version < version then
    (model.setFormal id status version).log env maxlen id
  else model

theorem copyPublic_eq (seat : SeatState) (status : SeatStatus) :
    publicstatus (some status) (seat.hold.map Held.derivedText).isSome =
      some ({ seat with status } : SeatState).publicStatus := by
  rw [Option.isSome_map]
  exact SeatState.publicstatus_eq { seat with status }

/-- A projection with a version that is not newer changes nothing. -/
theorem apply_known (h : Stored store model) (hinhabited : model.Inhabited)
    (hknown : model.Known [id]) {maxlen : ℕ} (hmaxlen : maxlen ≠ 0) (status : SeatStatus)
    (version : ℕ) : Wp (apply id (statusName status) (toString version) maxlen) env store
      (fun reply after => Stored after (model.project env maxlen id status version) ∧
        reply = .strings [if (model.seat id).version < version then "APPLIED"
          else "STALE_OR_DUPLICATE"]) fun _ => False := by
  have hid := hknown.2 id (List.mem_singleton_self id)
  have hzone := model.zone_mem id hid
  have hformal : formal (statusName status ++ "|" ++ toString version) =
      some ⟨status, toString version⟩ :=
    formal_formalText ⟨"", status, version, none⟩
  obtain ⟨fields, hfields, hsummary⟩ := h (.zoneSummary (model.seat id).zone) hzone
  refine wp_bind (wp_of_done (ready_done h) ?_)
  rw [if_pos rfl, hformal]
  dsimp only
  rw [if_neg hmaxlen]
  refine wp_bind (wp_of_done (healthy_done h hinhabited) ?_)
  rw [if_pos (decide_eq_true hknown.1)]
  refine wp_bind (wp_of_done (validseat_done h id) ?_)
  rw [if_pos (decide_eq_true hid)]
  refine wp_bind (wp_hget (h .formal).view ?_)
  rw [Model.find_of_mem hid, Option.map_some, Option.bind_some, formal_formalText]
  dsimp only
  rw [greater_toString]
  unfold Model.project
  by_cases hnewer : (model.seat id).version < version
  · rw [if_neg (by simpa using hnewer), if_pos hnewer, if_pos hnewer]
    refine wp_bind (wp_hget (h .seatZone).view (wp_bind (wp_hget (h .holds).1.view ?_)))
    rw [Model.find_of_mem hid, Option.map_some, Model.hold_of_mem hid, copyPublic_eq, copyPublic_eq]
    refine wp_bind (wp_mono (summarychange_spec (f := fun seat => { seat with status, version }) hid
      (fun _ => rfl) (hknown.1 _ hzone) hfields hsummary) ?_ fun _ hfalse => hfalse)
    rintro _ middle ⟨honly, hmiddle⟩
    have hkept : (middle .formal).Shows Slot.fields fun other =>
        (model.find other).map SeatState.formalText := by
      rw [honly .formal nofun]
      exact h .formal
    refine wp_bind (wp_hset hkept fun slot hslot => ?_)
    have hset : Stored (Function.update middle .formal slot)
        (model.setFormal id status version) := by
      refine stored_setFormal h hid ?_ ?_ fun key hkey => ?_
      · rw [Function.update_self]
        exact hslot
      · rw [Function.update_of_ne (show Key.zoneSummary _ ≠ .formal from nofun)]
        exact hmiddle
      · simp only [List.mem_cons, List.not_mem_nil, or_false, not_or] at hkey
        rw [Function.update_of_ne hkey.1, honly key hkey.2]
    have hzones : ((model.setFormal id status version).seat id).zone = (model.seat id).zone :=
      Model.zone_modify model id _ id
    rw [← hzones]
    refine wp_bind (wp_mono (change_spec hset hid hmaxlen) ?_ fun _ hfalse => hfalse)
    intro _ after hafter
    exact wp_pure ⟨hafter, rfl⟩
  · rw [if_pos (by simpa using hnewer), if_neg hnewer, if_neg hnewer]
    exact wp_pure ⟨h, rfl⟩

/-- A projection for a seat that the model does not know drops the model. -/
theorem apply_unknown (h : Stored store model) (hinhabited : model.Inhabited)
    (hunknown : ¬ model.Known [id]) {maxlen : ℕ} (hmaxlen : maxlen ≠ 0) {status version : String}
    {next : Formal} (hformal : formal (status ++ "|" ++ version) = some next) :
    apply id status version maxlen env store =
      .done (.strings ["ERROR"]) (Function.update store .modelMeta none) := by
  unfold apply
  rw [bind_of_done (ready_done h), if_pos rfl, hformal]
  dsimp only
  rw [if_neg hmaxlen, bind_of_done (healthy_done h hinhabited)]
  by_cases hfits : model.Fits
  · have hid : id ∉ model.ids := fun hid => hunknown ⟨hfits, fun other hother => by
      obtain rfl := List.mem_singleton.mp hother
      exact hid⟩
    rw [if_pos (decide_eq_true hfits), bind_of_done (validseat_done h id),
      if_neg (by simpa using hid)]
    rfl
  · rw [if_neg (by simpa using hfits)]
    rfl

theorem apply_invalid (h : Stored store model) {maxlen : ℕ} {status version : String}
    (hformal : formal (status ++ "|" ++ version) = none) :
    apply id status version maxlen env store =
      .done (.error "invalid projection") store := by
  unfold apply
  rw [bind_of_done (ready_done h), if_pos rfl, hformal]
  rfl

theorem apply_dropped (h : Dropped store) (status version : String) (maxlen : ℕ) :
    apply id status version maxlen env store =
      .done (.strings [if (store .initLock).isSome then "INITIALIZING" else "NO_MODEL"]) store := by
  have hlock : exist .initLock env store = .done (store .initLock).isSome store := rfl
  unfold apply
  rw [bind_of_done (h env), if_neg (by simp), bind_of_done hlock]
  cases (store .initLock).isSome <;> rfl

end Apply

end Ticketing.Availability
