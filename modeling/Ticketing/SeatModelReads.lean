import Ticketing.SeatModelRuns

/-!
# What a read answers

Over the keys of a model a read answers with a selection: all seats of a zone, or the seats of the
events after a cursor. A browser gets back from the texts what was selected.
-/

namespace Ticketing.Availability

open Redis Script

section Cursors

theorem dropWhile_isDigit {front : List Char} (h : ∀ c ∈ front, c.isDigit = true)
    (back : List Char) : (front ++ '-' :: back).dropWhile Char.isDigit = '-' :: back := by
  rw [List.dropWhile_append_of_pos h]
  rfl

theorem takeWhile_isDigit {front : List Char} (h : ∀ c ∈ front, c.isDigit = true)
    (back : List Char) : (front ++ '-' :: back).takeWhile Char.isDigit = front := by
  rw [List.takeWhile_append_of_pos h]
  exact List.append_nil front

theorem cursorParts_digits {value : String} {ms seq : ℕ}
    (h : value.toList = Nat.toDigits 10 ms ++ '-' :: Nat.toDigits 10 seq) :
    cursorParts value = some (Nat.toDigits 10 ms, Nat.toDigits 10 seq) := by
  have hdigits := all_of_digits (digits_toDigits ms)
  unfold cursorParts
  rw [h, dropWhile_isDigit hdigits, takeWhile_isDigit hdigits]
  exact if_pos ⟨Nat.toDigits_ne_nil, digits_toDigits _⟩

theorem toList_streamText (id : ℕ) : (streamText id).toList =
    Nat.toDigits 10 (id / 2 ^ 64) ++ '-' :: Nat.toDigits 10 (id % 2 ^ 64) := by
  simp [streamText]

theorem cursorParts_streamText (id : ℕ) : cursorParts (streamText id) =
    some (Nat.toDigits 10 (id / 2 ^ 64), Nat.toDigits 10 (id % 2 ^ 64)) :=
  cursorParts_digits (toList_streamText id)

/-- The cursors are compared as the ids. -/
theorem cursorless_streamText (a b : ℕ) :
    cursorless (streamText a) (streamText b) = pure (decide (a < b)) := by
  have hdiv (id : ℕ) := Nat.div_add_mod id (2 ^ 64)
  have hmod (id : ℕ) := Nat.mod_lt id (show 2 ^ 64 > 0 by decide)
  unfold cursorless
  rw [cursorParts_streamText, cursorParts_streamText]
  dsimp only
  have htext (n : ℕ) : String.ofList (Nat.toDigits 10 n) = toString n := by
    rw [← toList_toString, String.ofList_toList]
  rw [htext, htext, htext, htext, greater_toString, greater_toString]
  by_cases hms : a / 2 ^ 64 = b / 2 ^ 64
  · rw [if_neg (by rw [hms]; exact fun hne => hne rfl)]
    congr 1
    apply decide_eq_decide.mpr
    have ha := hdiv a
    have hb := hdiv b
    rw [hms] at ha
    omega
  · have hdigits : Nat.toDigits 10 (a / 2 ^ 64) ≠ Nat.toDigits 10 (b / 2 ^ 64) := by
      intro hsame
      have hread := congrArg (fun cs => Nat.ofDigitChars 10 cs 0) hsame
      simp only [Nat.ofDigitChars_ten_toDigits] at hread
      exact hms hread
    rw [if_pos hdigits]
    congr 1
    apply decide_eq_decide.mpr
    have ha := hdiv a
    have hb := hdiv b
    have ha' := hmod a
    have hb' := hmod b
    constructor
    · intro hless
      have hscaled : 2 ^ 64 * (a / 2 ^ 64 + 1) ≤ 2 ^ 64 * (b / 2 ^ 64) :=
        Nat.mul_le_mul_left _ hless
      omega
    · intro hless
      exact lt_of_le_of_ne (Nat.div_le_div_right hless.le) hms

/-- A cursor that is still a number of Redis is read back. -/
theorem streamId_streamText {id found : ℕ} (h : streamId (streamText id) = some found) :
    found = id := by
  unfold streamId at h
  rw [cursorParts_streamText] at h
  dsimp only at h
  split_ifs at h
  obtain rfl := Option.some.inj h
  unfold tonumber firstId
  rw [Nat.ofDigitChars_ten_toDigits, Nat.ofDigitChars_ten_toDigits, Nat.mul_comm]
  exact Nat.div_add_mod id (2 ^ 64)

end Cursors

/-- What the parts of a copy are when it is read back. -/
def Held.copy (held : Held) : Hold := ⟨held.owner, toString held.revision, held.deadline⟩

namespace Model

/-- The texts of a seat in an answer. -/
def seatText (model : Model) (now : ℕ) (id : String) : List String :=
  [id, statusName (model.seat id).status, shownOwner now ((model.hold id).map Held.copy)]

/-- The texts of a zone with its counters. -/
def zoneText (model : Model) (zone : String) : List String :=
  [zone, toString (model.zoneIds zone).card, toString (model.count zone .available),
    toString (model.count zone .held), toString (model.count zone .sold)]

/-- A snapshot of the zone, or what follows a cursor that nothing after it has been trimmed from. -/
inductive Selects (model : Model) (zone generation since : String) (limit : ℕ) : Selection → Prop
  | snapshot {ids : List String} {reset reason : String} (nodup : ids.Nodup)
      (members : ∀ id, id ∈ ids ↔ id ∈ model.zoneIds zone) :
      Selects model zone generation since limit
        ⟨"snapshot", streamText (model.changes zone).lastId, reset, "0", reason, ids⟩
  | delta {id : ℕ} {first : StreamEntry} (known : generation = model.generation)
      (named : generation ≠ "") (found : streamId since = some id)
      (start : (model.changes zone).entries.head? = some first)
      (kept : cursorless since (streamText first.id) ≠ pure true) :
      Selects model zone generation since limit (deltaSelection since limit
        (((model.changes zone).entries.filter fun event => decide (id < event.id)).take
          (limit + 1)))

def replyTexts (model : Model) (now : ℕ) (selection : Selection) : List String :=
  ["OK", selection.mode, model.generation, selection.cursor, selection.reset, selection.more,
    selection.reason, toString model.zones.length] ++ model.zones.flatMap model.zoneText ++
      toString selection.ids.length :: selection.ids.flatMap (model.seatText now)

end Model

section Answers

variable {store : Store Key} {model : Model} {env : Env} {zone generation since : String}
  {limit : ℕ}

theorem seatTexts_done (h : Stored store model) (now : ℕ) {ids : List String}
    (hids : ∀ id ∈ ids, id ∈ model.zoneIds zone) : seatTexts zone now ids env store =
      .done (some (ids.flatMap (model.seatText now))) store := by
  induction ids with
  | nil => rfl
  | cons id ids ih =>
      obtain ⟨hid, hzone⟩ := Model.mem_zoneIds.mp (hids id List.mem_cons_self)
      have hrest := ih fun other hother => hids other (List.mem_cons_of_mem id hother)
      obtain ⟨hholds, howners⟩ := h .holds
      have hcopy : ((model.hold id).map Held.derivedText).bind hold =
          (model.hold id).map Held.copy := bind_hold (howners id)
      apply wp_eq_done
      refine wp_bind (wp_of_done (validseat_done h id) ?_)
      rw [if_pos (decide_eq_true hid)]
      refine wp_bind (wp_hget (h .seatZone).view ?_)
      rw [Model.find_of_mem hid, Option.map_some, if_pos (congrArg some hzone)]
      refine wp_bind (wp_hget (h .formal).view (wp_bind (wp_hget hholds.view ?_)))
      rw [Model.find_of_mem hid, Option.map_some, Option.bind_some, formal_formalText]
      refine wp_bind (wp_of_done hrest (wp_pure ⟨?_, rfl⟩))
      rw [hcopy]
      rfl

theorem summaryTexts_done (h : Stored store model) {zones : List String}
    (hzones : ∀ zone ∈ zones, zone ∈ model.zones) : summaryTexts zones env store =
      .done (zones.flatMap model.zoneText) store := by
  induction zones with
  | nil => rfl
  | cons zone zones ih =>
      have hrest := ih fun other hother => hzones other (List.mem_cons_of_mem zone hother)
      obtain ⟨fields, hfields, htotal, hcounts⟩ := h (.zoneSummary zone) (hzones zone
        List.mem_cons_self)
      have havailable : fields "available" = _ := hcounts .available
      have hheld : fields "held" = _ := hcounts .held
      have hsold : fields "sold" = _ := hcounts .sold
      have hcounters : counterTexts zone counterNames env store =
          .done (model.zoneText zone).tail store := by
        apply wp_eq_done
        refine wp_bind (wp_hget hfields.view ?_)
        rw [htotal]
        refine wp_bind (wp_pure (wp_bind (wp_bind (wp_hget hfields.view ?_))))
        rw [havailable]
        refine wp_bind (wp_pure (wp_bind (wp_bind (wp_hget hfields.view ?_))))
        rw [hheld]
        refine wp_bind (wp_pure (wp_bind (wp_bind (wp_hget hfields.view ?_))))
        rw [hsold]
        exact wp_bind (wp_pure (wp_bind (wp_pure (wp_pure (wp_pure (wp_pure (wp_pure ⟨rfl, rfl⟩)))))))
      apply wp_eq_done
      exact wp_bind (wp_of_done hcounters (wp_bind (wp_of_done hrest (wp_pure ⟨rfl, rfl⟩))))

theorem snapshotSelection_known (h : Stored store model) (hzone : zone ∈ model.zones)
    (generation since reset reason : String) (limit : ℕ) :
    Wp (snapshotSelection zone reset reason) env store (fun selection after => after = store ∧
      model.Selects zone generation since limit selection) fun _ => False := by
  obtain ⟨hstream, hsound⟩ := h (.zoneChanges zone) hzone
  obtain ⟨table, htable, hmembers⟩ := Option.map_eq_some_iff.mp (h (.zoneSeats zone) hzone).view
  have hlast : (model.changes zone).entries.getLast?.map StreamEntry.id =
      some (model.changes zone).lastId := by
    rw [← List.getLast?_map]
    exact hsound.last
  obtain ⟨last, hentry, hid⟩ := Option.map_eq_some_iff.mp hlast
  refine wp_bind (wp_of_done (readKey_some htable) (wp_bind (wp_of_done (readKey_some hstream.view)
    ?_)))
  rw [hentry]
  refine wp_pure ⟨rfl, ?_⟩
  rw [hid]
  refine .snapshot ((List.perm_insertionSort _ _).nodup_iff.mpr table.nodup) fun id => ?_
  rw [List.mem_insertionSort, ← hmembers, List.mem_toFinset]

theorem select_known (h : Stored store model) (hzone : zone ∈ model.zones) :
    Wp (select zone generation since limit (some model.generation)) env store
      (fun found after => after = store ∧ ∃ selection, found = some selection ∧
        model.Selects zone generation since limit selection) (fun after => after = store) := by
  obtain ⟨hstream, hsound⟩ := h (.zoneChanges zone) hzone
  have hsnapshot (reset reason : String) : Wp (some <$> snapshotSelection zone reset reason) env
      store (fun found after => after = store ∧ ∃ selection, found = some selection ∧
        model.Selects zone generation since limit selection) (fun after => after = store) := by
    refine wp_bind (wp_mono (snapshotSelection_known h hzone generation since reset reason limit) ?_
      fun _ hfalse => hfalse.elim)
    rintro selection _ ⟨rfl, hselects⟩
    exact wp_pure ⟨rfl, selection, rfl, hselects⟩
  unfold select
  split_ifs with hempty hother
  · exact hsnapshot "0" ""
  · exact wp_bind (wp_of_done (readKey_some hstream.view) (hsnapshot "1" "generation"))
  · refine wp_bind (wp_of_done (readKey_some hstream.view) ?_)
    have hknown : generation = model.generation := (Option.some.inj (not_not.mp hother)).symm
    cases hentries : (model.changes zone).entries with
    | nil => exact absurd hentries hsound.entries_ne_nil
    | cons first rest =>
        refine wp_read (readOnly_cursorless _ _) rfl fun trimmed htrimmed => ?_
        cases trimmed with
        | true => exact hsnapshot "1" "trim"
        | false =>
            have hkept : cursorless since (streamText first.id) ≠ pure true := by
              intro htrue
              rw [htrue] at htrimmed
              cases htrimmed
            rw [if_neg (by simp)]
            unfold xrangeSince
            cases hid : streamId since with
            | none => exact wp_bind (wp_raise rfl)
            | some id =>
                dsimp only
                split_ifs with hsmall
                · refine wp_bind (wp_of_done (readKey_some hstream.view) (wp_pure ⟨rfl, _, rfl,
                    .delta hknown hempty hid ?_ hkept⟩))
                  rw [hentries]
                  rfl
                · exact wp_bind (wp_raise rfl)

theorem mem_changedSeats {seen : List String} {events : List StreamEntry} {id : String} :
    id ∈ changedSeats seen events ↔ id ∉ seen ∧ ∃ event ∈ events, changedSeat event = some id := by
  induction events generalizing seen with
  | nil => simp [changedSeats]
  | cons event events ih =>
      unfold changedSeats
      cases hseat : changedSeat event with
      | none => simp [ih, hseat]
      | some other =>
          dsimp only
          by_cases hknown : other ∈ seen
          · rw [if_pos hknown, ih]
            constructor
            · rintro ⟨hid, found, hmem, hfound⟩
              exact ⟨hid, found, List.mem_cons_of_mem _ hmem, hfound⟩
            · rintro ⟨hid, found, hmem, hfound⟩
              rcases List.mem_cons.mp hmem with rfl | hrest
              · rw [hseat] at hfound
                exact absurd (Option.some.inj hfound ▸ hknown) hid
              · exact ⟨hid, found, hrest, hfound⟩
          · rw [if_neg hknown, List.mem_cons, ih]
            by_cases hsame : id = other
            · subst hsame
              exact iff_of_true (Or.inl rfl) ⟨hknown, event, List.mem_cons_self, hseat⟩
            · simp [hsame, hseat, Ne.symm hsame]

/-- What is selected belongs to the zone. -/
theorem Model.Selects.seats {selection : Selection}
    (h : model.Selects zone generation since limit selection) (hlogged : model.Logged)
    (hzone : zone ∈ model.zones) : ∀ id ∈ selection.ids, id ∈ model.zoneIds zone := by
  intro id hid
  cases h with
  | snapshot nodup members => exact (members id).mp hid
  | delta known named found start kept =>
      obtain ⟨-, event, hevent, hseat⟩ := mem_changedSeats.mp hid
      have hentry := (List.mem_filter.mp (List.mem_of_mem_take (List.mem_of_mem_take hevent))).1
      exact hlogged zone hzone event hentry id hseat

/-- An answer that is in order has the texts of a selection. -/
theorem read_known (h : Models store model) (hzone : zone ∈ model.zones) :
    Wp (read zone generation since limit) env store (fun reply after =>
      ∀ texts, reply = .strings ("OK" :: texts) → after = store ∧ model.Fits ∧ ∃ selection,
        model.Selects zone generation since limit selection ∧
          "OK" :: texts = model.replyTexts env.now selection) (fun _ => True) := by
  obtain ⟨hstored, hinhabited, hlogged⟩ := h
  obtain ⟨fields, hfields, -, hgeneration⟩ := hstored .modelMeta
  refine wp_bind (wp_of_done (healthy_done hstored hinhabited) ?_)
  split_ifs with hfits hlimit
  · exact wp_pure nofun
  · refine wp_bind (wp_exist ?_)
    split_ifs with hexist
    · refine wp_bind (wp_hget hfields.view ?_)
      rw [hgeneration]
      refine wp_bind (wp_mono (select_known hstored hzone) ?_ fun _ _ => trivial)
      rintro _ _ ⟨rfl, selection, rfl, hselects⟩
      refine wp_bind (wp_lrange (hstored .zones).view ?_)
      refine wp_bind (wp_of_done (summaryTexts_done hstored fun _ hmem => hmem) ?_)
      refine wp_bind (wp_now (wp_bind (wp_of_done
        (seatTexts_done hstored env.now (hselects.seats hlogged hzone)) ?_)))
      refine wp_bind (wp_pure (wp_pure fun texts htexts =>
        ⟨rfl, of_decide_eq_true hfits, selection, hselects, ?_⟩))
      exact (Reply.strings.inj htexts).symm
    · refine wp_pure fun texts htexts => ?_
      simp at htexts
  · refine wp_bind (wp_of_done invalidate_done (wp_pure fun texts htexts => ?_))
    simp at htexts

/-- An answer that is in order names the generation of the model, whatever was asked for. -/
theorem read_generation (h : Models store model) :
    Wp (read zone generation since limit) env store (fun reply _ =>
      ∀ texts, reply = .strings ("OK" :: texts) → ∃ mode rest,
        texts = mode :: model.generation :: rest) (fun _ => True) := by
  obtain ⟨fields, hfields, -, hgeneration⟩ := h.stored .modelMeta
  have hrebuild {before : Store Key} : Wp rebuild env before (fun reply _ =>
      ∀ texts, reply = .strings ("OK" :: texts) → ∃ mode rest,
        texts = mode :: model.generation :: rest) (fun _ => True) := by
    refine wp_bind (wp_of_done invalidate_done (wp_pure fun texts htexts => ?_))
    simp at htexts
  refine wp_bind (wp_of_done (healthy_done h.stored h.inhabited) ?_)
  split_ifs with hfits hlimit
  · exact wp_pure nofun
  · refine wp_bind (wp_exist ?_)
    split_ifs with hexist
    · refine wp_bind (wp_hget hfields.view ?_)
      rw [hgeneration]
      refine wp_read (readOnly_select _ _ _ _ _) trivial fun selection _ => ?_
      cases selection with
      | none =>
          refine wp_pure fun texts htexts => ?_
          simp at htexts
      | some selection =>
          refine wp_read writes_readKey trivial fun zones _ => ?_
          refine wp_read (readOnly_summaryTexts zones) trivial fun summaries _ => ?_
          refine wp_bind (wp_now (wp_read (readOnly_seatTexts _ _ _) trivial fun seats _ => ?_))
          cases seats with
          | none => exact hrebuild
          | some seats =>
              refine wp_bind (wp_pure (wp_pure fun texts htexts => ?_))
              have htail := (Reply.strings.inj htexts).symm
              exact ⟨selection.mode, _, (List.cons.inj htail).2⟩
    · refine wp_pure fun texts htexts => ?_
      simp at htexts
  · exact hrebuild

theorem read_dropped (h : Dropped store) (zone generation since : String) (limit : ℕ) :
    read zone generation since limit env store =
      .done (.strings ["REBUILD"]) (Function.update store .modelMeta none) := by
  unfold read rebuild
  rw [bind_of_done (healthy_dropped h), if_neg (by simp), bind_of_done invalidate_done]
  rfl

end Answers

section Decoding

variable {model : Model}

/-- What a browser that has a checkout of its own is shown of a seat. -/
def Model.display (model : Model) (now : ℕ) (own id : String) : String :=
  displaySeatStatus (statusName (model.seat id).status)
    (((model.hold id).filter fun held => decide (now < held.deadline)).map Held.owner) own

def Model.zoneCounts (model : Model) (zone : String) : ZoneCounts :=
  ⟨zone, (model.zoneIds zone).card, model.count zone .available, model.count zone .held,
    model.count zone .sold⟩

theorem stoull_toString (n : ℕ) : stoull (toString n) = some n := natural_toString n

theorem zonesOfTexts_zoneText (zones rest : List String) :
    zonesOfTexts zones.length (zones.flatMap model.zoneText ++ rest) =
      some (zones.map model.zoneCounts, rest) := by
  induction zones with
  | nil => rfl
  | cons zone zones ih =>
      simp only [List.flatMap_cons, Model.zoneText, List.cons_append, List.nil_append,
        List.length_cons, zonesOfTexts, stoull_toString, Option.bind_eq_bind,
        Option.bind_some] at ih ⊢
      rw [ih]
      rfl

/-- An owner text stands for a hold that has not expired, since owners are not empty. -/
theorem owner_shown {now : ℕ} {copy : Option Held}
    (howner : ∀ held, copy = some held → OwnerName held.owner) :
    (if shownOwner now (copy.map Held.copy) = "" then none
      else some (shownOwner now (copy.map Held.copy))) =
        (copy.filter fun held => decide (now < held.deadline)).map Held.owner := by
  cases copy with
  | none => rfl
  | some held =>
      have hname := (howner held rfl).1
      by_cases hlive : now < held.deadline
      · have hshown : shownOwner now ((some held).map Held.copy) = held.owner := by
          unfold shownOwner
          rw [Option.map_some, Option.filter_some,
            if_pos (show decide (now < held.copy.expiry) = true from decide_eq_true hlive)]
          rfl
        rw [hshown, if_neg hname, Option.filter_some, if_pos (decide_eq_true hlive)]
        rfl
      · have hshown : shownOwner now ((some held).map Held.copy) = "" := by
          unfold shownOwner
          rw [Option.map_some, Option.filter_some,
            if_neg (show ¬ decide (now < held.copy.expiry) = true from
              fun htrue => hlive (of_decide_eq_true htrue))]
          rfl
        rw [hshown, if_pos rfl, Option.filter_some,
          if_neg fun htrue => hlive (of_decide_eq_true htrue)]
        rfl

theorem seatsOfTexts_seatText (howners : ∀ id held, model.hold id = some held → OwnerName held.owner)
    (now : ℕ) (own : String) (ids : List String) :
    seatsOfTexts own ids.length (ids.flatMap (model.seatText now)) =
      some (ids.map fun id => ⟨id, model.display now own id⟩) := by
  induction ids with
  | nil => rfl
  | cons id ids ih =>
      simp only [List.flatMap_cons, Model.seatText, List.cons_append, List.nil_append,
        List.length_cons, seatsOfTexts, Option.bind_eq_bind] at ih ⊢
      rw [ih, Option.bind_some, owner_shown (howners id)]
      rfl

/-- The body of an answer with this selection. -/
def Model.answer (model : Model) (polling : SeatReadConfig) (session zone own : String) (now : ℕ)
    (selection : Selection) : SyncBody where
  sessionId := session
  zone := zone
  mode := selection.mode
  generation := some model.generation
  cursor := some selection.cursor
  reset := decide (selection.reset = "1")
  hasMore := decide (selection.more = "1")
  degraded := false
  zones := model.zones.map model.zoneCounts
  seats := selection.ids.map fun id => ⟨id, model.display now own id⟩
  pollAfterMs := pollAfter polling (decide (selection.more = "1")) selection.mode
    selection.ids.length

theorem bodyOfTexts_generation {polling : SeatReadConfig}
    {session zone own mode generation : String} {rest : List String} {body : SyncBody}
    (h : bodyOfTexts polling session zone own ("OK" :: mode :: generation :: rest) = some body) :
    body.generation = some generation ∧ body.zone = zone := by
  match rest with
  | cursor :: reset :: more :: reason :: zones :: rest =>
      simp only [bodyOfTexts, Option.bind_eq_bind, Option.bind_eq_some_iff] at h
      obtain ⟨count, -, ⟨counts, texts⟩, -, h⟩ := h
      cases texts with
      | nil => cases h
      | cons first texts =>
          simp only [Option.bind_eq_some_iff] at h
          obtain ⟨number, -, seats, -, h⟩ := h
          obtain rfl := Option.some.inj h
          exact ⟨rfl, rfl⟩
  | [] | [_] | [_, _] | [_, _, _] | [_, _, _, _] => cases h

/-- A browser gets back what was selected. -/
theorem bodyOfTexts_replyTexts {store : Store Key} (h : Stored store model)
    (polling : SeatReadConfig) (session zone own : String) (now : ℕ) (selection : Selection) :
    bodyOfTexts polling session zone own (model.replyTexts now selection) =
      some (model.answer polling session zone own now selection) := by
  unfold Model.replyTexts
  simp only [List.cons_append, List.nil_append, bodyOfTexts, stoull_toString,
    Option.bind_eq_bind, Option.bind_some, zonesOfTexts_zoneText]
  rw [seatsOfTexts_seatText (h .holds).2]
  rfl

end Decoding

end Ticketing.Availability
