import Ticketing.SeatLayout

/-!
# Equal validators name equal layouts

A statement that leaves the revision of a session alone changes none of the columns that its layout
joins, and revisions only rise. So two snapshots under one validator are the same.
-/

namespace Ticketing.Layout

open Relational Transition

/-! ## The rows of a layout -/

section Rows

variable {tables tables' : Tables} {sessionId : String} {row : LayoutRow}

theorem changedRows_eq {ρ σ : Type} [DecidableEq σ] (projection : ρ → σ) (c : Change ρ)
    (rows : List ρ) : changedRows projection c rows = c.changed projection rows := by
  cases c with
  | insert new => exact (Change.changed_insert new).symm
  | update set => rfl
  | delete hit => exact (Change.changed_delete hit).symm

/-- A layout depends on the watched columns alone. -/
theorem mem_layoutRows : row ∈ layoutRows tables sessionId ↔
    ∃ i ∈ tables.sessionSeats.map SessionSeatRow.columns, i.sessionId = sessionId ∧
      ∃ s ∈ tables.seats.map SeatRow.columns, s.id = i.seatId ∧
        ∃ z ∈ tables.venueZones.map VenueZoneRow.columns,
          (z.id = s.zoneId ∧ z.venueId = s.venueId) ∧ layoutRow i s z = row := by
  simp only [layoutRows, joinedRows, seatsOf, zonesOf, List.mem_flatMap, List.mem_filter,
    List.mem_map, decide_eq_true_eq, Bool.and_eq_true, exists_exists_and_eq_and, and_assoc]
  rfl

theorem joinedRows_ids (hseats : (tables.seats.map SeatRow.id).Nodup)
    (hzones : (tables.venueZones.map VenueZoneRow.id).Nodup) (inventory : SessionSeatRow) :
    ((joinedRows tables inventory).map LayoutRow.id).Sublist [inventory.id] := by
  have hseat : seatsOf tables inventory = [] ∨ ∃ seat, seatsOf tables inventory = [seat] :=
    filter_key hseats fun seat h => of_decide_eq_true h
  obtain hnone | ⟨seat, hone⟩ := hseat
  · rw [joinedRows, hnone]
    exact List.nil_sublist _
  · have hzone : zonesOf tables seat = [] ∨ ∃ zone, zonesOf tables seat = [zone] :=
      filter_key hzones fun zone h => of_decide_eq_true (Bool.and_eq_true_iff.mp h).1
    rw [joinedRows, hone, List.flatMap_singleton]
    obtain hnone' | ⟨zone, hone'⟩ := hzone
    · rw [hnone']
      exact List.nil_sublist _
    · rw [hone']
      exact List.Sublist.refl _

theorem layoutRows_ids_nodup (h : tables.Constraints) (sessionId : String) :
    ((layoutRows tables sessionId).map LayoutRow.id).Nodup := by
  obtain ⟨-, -, hinventory, hseats, hzones, -⟩ := h
  refine List.Nodup.sublist (@flatMap_keys_sublist _ _ _ SessionSeatRow.id _ _ ?_ _)
    (hinventory.sublist (List.filter_sublist.map SessionSeatRow.id))
  exact joinedRows_ids hseats hzones

end Rows

/-! ## The order of a layout -/

section Order

variable {c : Collation} {a b d : LayoutRow}

theorem before_total (c : Collation) (a b : LayoutRow) : Before c a b ∨ Before c b a := by
  unfold Before
  obtain h | h | h := lt_trichotomy a.sortOrder b.sortOrder
  · exact .inl (.inl h)
  · obtain h' | h' | h' := c.before_trichotomy a.rowNo b.rowNo
    · exact .inl (.inr ⟨h, .inl h'⟩)
    · obtain h'' | h'' | h'' := lt_trichotomy a.seatNo b.seatNo
      · exact .inl (.inr ⟨h, .inr ⟨h', .inl h''⟩⟩)
      · obtain hid | hid := c.total a.id b.id
        · exact .inl (.inr ⟨h, .inr ⟨h', .inr ⟨h'', hid⟩⟩⟩)
        · exact .inr (.inr ⟨h.symm, .inr ⟨h'.symm, .inr ⟨h''.symm, hid⟩⟩⟩)
      · exact .inr (.inr ⟨h.symm, .inr ⟨h'.symm, .inl h''⟩⟩)
    · exact .inr (.inr ⟨h.symm, .inl h'⟩)
  · exact .inr (.inl h)

theorem before_trans (h : Before c a b) (h' : Before c b d) : Before c a d := by
  obtain h | ⟨hsort, h⟩ := h
  · obtain h' | ⟨hsort', -⟩ := h'
    · exact .inl (lt_trans h h')
    · exact .inl (hsort' ▸ h)
  obtain h' | ⟨hsort', h'⟩ := h'
  · exact .inl (hsort ▸ h')
  refine .inr ⟨hsort.trans hsort', ?_⟩
  obtain h | ⟨hrow, h⟩ := h
  · obtain h' | ⟨hrow', -⟩ := h'
    · exact .inl (Collation.before_trans h h')
    · exact .inl (hrow' ▸ h)
  obtain h' | ⟨hrow', h'⟩ := h'
  · exact .inl (hrow ▸ h')
  refine .inr ⟨hrow.trans hrow', ?_⟩
  obtain h | ⟨hseat, h⟩ := h
  · obtain h' | ⟨hseat', -⟩ := h'
    · exact .inl (lt_trans h h')
    · exact .inl (hseat' ▸ h)
  obtain h' | ⟨hseat', h'⟩ := h'
  · exact .inl (hseat ▸ h')
  · exact .inr ⟨hseat.trans hseat', c.trans _ _ _ h h'⟩

/-- Rows that stand before each other have one id. -/
theorem id_eq_of_before (h : Before c a b) (h' : Before c b a) : a.id = b.id := by
  have hasymm := c.before_asymm
  obtain h | ⟨hsort, h⟩ := h
  · obtain h' | ⟨hsort', -⟩ := h' <;> omega
  obtain h' | ⟨-, h'⟩ := h'
  · omega
  obtain h | ⟨hrow, h⟩ := h
  · obtain h' | ⟨hrow', -⟩ := h'
    · exact absurd h' (hasymm _ _ h)
    · exact absurd hrow'.symm h.2
  obtain h' | ⟨-, h'⟩ := h'
  · exact absurd hrow.symm h'.2
  obtain h | ⟨hseat, h⟩ := h
  · obtain h' | ⟨hseat', -⟩ := h' <;> omega
  obtain h' | ⟨-, h'⟩ := h'
  · omega
  · exact c.antisymm _ _ h h'

instance (c : Collation) : Std.Total (Before c) := ⟨before_total c⟩

instance (c : Collation) : IsTrans LayoutRow (Before c) := ⟨fun _ _ _ => before_trans⟩

/-- The rows decide their order: rows with distinct ids are sorted in one way only. -/
theorem sorted_eq {rows rows' : List LayoutRow} (hids : (rows.map LayoutRow.id).Nodup)
    (hids' : (rows'.map LayoutRow.id).Nodup) (hsame : ∀ row, row ∈ rows ↔ row ∈ rows') :
    rows.insertionSort (Before c) = rows'.insertionSort (Before c) := by
  have hperm : rows.Perm rows' :=
    (List.perm_ext_iff_of_nodup hids.of_map hids'.of_map).mpr hsame
  have hsorted : (rows.insertionSort (Before c)).Perm (rows'.insertionSort (Before c)) :=
    (List.perm_insertionSort _ _).trans (hperm.trans (List.perm_insertionSort _ _).symm)
  refine hsorted.eq_of_pairwise ?_ (List.pairwise_insertionSort _ _)
    (List.pairwise_insertionSort _ _)
  intro a b ha hb hab hba
  have ha' : a ∈ rows := (List.mem_insertionSort _).mp ha
  have hb' : b ∈ rows := (hsame b).mpr ((List.mem_insertionSort _).mp hb)
  exact List.inj_on_of_nodup_map hids ha' hb' (id_eq_of_before hab hba)

theorem layoutSeats_congr {db db' : LayoutDb} {sessionId : String} (h : db.tables.Constraints)
    (h' : db'.tables.Constraints)
    (hsame : ∀ row, row ∈ layoutRows db.tables sessionId ↔ row ∈ layoutRows db'.tables sessionId) :
    layoutSeats c db sessionId = layoutSeats c db' sessionId := by
  unfold layoutSeats
  rw [sorted_eq (layoutRows_ids_nodup h sessionId) (layoutRows_ids_nodup h' sessionId) hsame]

end Order

/-! ## Revisions -/

section Bumps

variable {revisions : Revisions} {ids : List String} {id : String} {r : ℕ}

theorem bump_of_mem (h : id ∈ ids) (hr : revisions id = some r) :
    bumpSessionLayoutRevisions ids revisions id = some (r + 1) := by
  rw [bumpSessionLayoutRevisions, if_pos h, hr, Option.map_some]

/-- Revisions never fall, and no row of theirs is deleted. -/
def Rises (revisions revisions' : Revisions) : Prop :=
  ∀ id r, revisions id = some r → ∃ r', revisions' id = some r' ∧ r ≤ r'

theorem Rises.refl (revisions : Revisions) : Rises revisions revisions :=
  fun _ r h => ⟨r, h, le_refl r⟩

theorem Rises.trans {revisions' revisions'' : Revisions} (h : Rises revisions revisions')
    (h' : Rises revisions' revisions'') : Rises revisions revisions'' := by
  intro id r hr
  obtain ⟨r', hr', hle⟩ := h id r hr
  obtain ⟨r'', hr'', hle'⟩ := h' id r' hr'
  exact ⟨r'', hr'', hle.trans hle'⟩

theorem bump_rises (ids : List String) (revisions : Revisions) :
    Rises revisions (bumpSessionLayoutRevisions ids revisions) := by
  intro id r hr
  by_cases h : id ∈ ids
  · exact ⟨r + 1, bump_of_mem h hr, Nat.le_succ r⟩
  · exact ⟨r, by rw [bumpSessionLayoutRevisions, if_neg h, hr], le_refl r⟩

theorem insertOrBump_rises (ids : List String) (revisions : Revisions) :
    Rises revisions (insertOrBump ids revisions) := by
  intro id r hr
  by_cases h : id ∈ ids
  · exact ⟨r + 1, by rw [insertOrBump, if_pos h, hr, Option.elim_some], Nat.le_succ r⟩
  · exact ⟨r, by rw [insertOrBump, if_neg h, hr], le_refl r⟩

theorem identity_rises (c : Change SessionRow) (sessions : List SessionRow)
    (revisions : Revisions) :
    Rises revisions (maintainSessionLayoutIdentity c sessions revisions) := by
  cases c with
  | insert new => exact insertOrBump_rises _ _
  | update set => exact (insertOrBump_rises _ _).trans (bump_rises _ _)
  | delete hit => exact bump_rises _ _

theorem fire_rises (db : LayoutDb) (statement : Statement) :
    Rises db.revisions (fire db statement).revisions := by
  cases statement with
  | events c => exact Rises.refl _
  | sessions c => exact identity_rises _ _ _
  | sessionSeats c => exact bump_rises _ _
  | seats c => exact bump_rises _ _
  | venueZones c => exact bump_rises _ _

theorem Rises.isSome {revisions' : Revisions} (h : Rises revisions revisions')
    (hid : (revisions id).isSome) : (revisions' id).isSome := by
  obtain ⟨r, hr⟩ := Option.isSome_iff_exists.mp hid
  obtain ⟨r', hr', -⟩ := h id r hr
  exact Option.isSome_iff_exists.mpr ⟨r', hr'⟩

theorem insertOrBump_isSome (h : id ∈ ids) : (insertOrBump ids revisions id).isSome := by
  rw [insertOrBump, if_pos h]
  rfl

end Bumps

/-! ## Statements -/

/-- The constraints hold, and every session has a revision. -/
structure Maintained (db : LayoutDb) : Prop where
  constraints : db.tables.Constraints
  revised : ∀ session ∈ db.tables.sessions, (db.revisions session.id).isSome

theorem Maintained.of_inventory {db : LayoutDb} (h : Maintained db) {inventory : SessionSeatRow}
    (hmem : inventory ∈ db.tables.sessionSeats) :
    ∃ r, db.revisions inventory.sessionId = some r := by
  obtain ⟨-, -, -, -, -, -, hsession, -⟩ := h.constraints
  obtain ⟨session, hin, hid, -⟩ := hsession inventory hmem
  exact Option.isSome_iff_exists.mp (hid ▸ h.revised session hin)

theorem install_maintained {tables : Tables} (h : tables.Constraints) :
    Maintained (install tables) := by
  refine ⟨h, fun session hin => ?_⟩
  have hmem : session.id ∈ tables.sessions.map SessionRow.id := List.mem_map_of_mem hin
  show (if session.id ∈ tables.sessions.map SessionRow.id then some 1 else none).isSome
  rw [if_pos hmem]
  rfl

theorem identity_revised {db : LayoutDb} (h : Maintained db) (c : Change SessionRow) :
    ∀ session ∈ c.apply db.tables.sessions,
      (maintainSessionLayoutIdentity c db.tables.sessions db.revisions session.id).isSome := by
  intro session hin
  obtain hnew | hbefore := Change.mem_apply hin
  · cases c with
    | insert new => exact insertOrBump_isSome (List.mem_map_of_mem hnew)
    | delete hit => cases hnew
    | update set =>
        -- An id of the transition table is new, or a replaced row had it.
        by_cases hold : ∃ old ∈ (Change.update set).oldRows db.tables.sessions,
            old.id = session.id
        · obtain ⟨old, hin', hid⟩ := hold
          exact (identity_rises _ _ _).isSome (hid ▸ h.revised old (Change.oldRows_subset hin'))
        · refine (bump_rises _ _).isSome (insertOrBump_isSome (List.mem_map_of_mem ?_))
          refine List.mem_filter.mpr ⟨hnew, ?_⟩
          rw [Bool.not_eq_true', List.any_eq_false]
          exact fun old hin' heq => hold ⟨old, hin', of_decide_eq_true heq⟩
  · exact (identity_rises _ _ _).isSome (h.revised session hbefore)

theorem execute_maintained {db db' : LayoutDb} {statement : Statement} (h : Maintained db)
    (hrun : Executes statement db db') : Maintained db' := by
  unfold Executes execute at hrun
  split_ifs at hrun with hvalid
  obtain rfl := Option.some.inj hrun
  refine ⟨hvalid, ?_⟩
  cases statement with
  | sessions c => exact identity_revised h c
  | events c => exact h.revised
  | sessionSeats c => exact fun session hin => (bump_rises _ _).isSome (h.revised session hin)
  | seats c => exact fun session hin => (bump_rises _ _).isSome (h.revised session hin)
  | venueZones c => exact fun session hin => (bump_rises _ _).isSome (h.revised session hin)

/-! ## What a statement changes -/

section Changes

variable {db : LayoutDb} {sessionId : String}

/-- The sessions that the triggers on inventory, seats and zones find. -/
def affected (db : LayoutDb) : Statement → List String
  | .sessionSeats c =>
      (changedRows SessionSeatRow.columns c db.tables.sessionSeats).map SessionSeatColumns.sessionId
  | .seats c =>
      (db.tables.sessionSeats.filter fun i =>
        (changedRows SeatRow.columns c db.tables.seats).any fun c => decide (c.id = i.seatId)).map
          SessionSeatRow.sessionId
  | .venueZones c =>
      (db.tables.sessionSeats.filter fun i => db.tables.seats.any fun s =>
        decide (s.id = i.seatId) && (changedRows VenueZoneRow.columns c db.tables.venueZones).any
          fun c => decide (c.id = s.zoneId) && decide (c.venueId = s.venueId)).map
            SessionSeatRow.sessionId
  | _ => []

theorem rows_of_sessionSeats {c : Change SessionSeatRow}
    (h : sessionId ∉ affected db (.sessionSeats c)) (row : LayoutRow) :
    row ∈ layoutRows (fire db (.sessionSeats c)).tables sessionId ↔
      row ∈ layoutRows db.tables sessionId := by
  rw [mem_layoutRows, mem_layoutRows]
  refine exists_congr fun i => and_congr_left fun hi => ?_
  refine Change.mem_map_apply fun hchanged => h ?_
  rw [← changedRows_eq] at hchanged
  exact List.mem_map.mpr ⟨i, hchanged, hi.1⟩

theorem rows_of_seats {c : Change SeatRow} (h : sessionId ∉ affected db (.seats c))
    (row : LayoutRow) :
    row ∈ layoutRows (fire db (.seats c)).tables sessionId ↔
      row ∈ layoutRows db.tables sessionId := by
  rw [mem_layoutRows, mem_layoutRows]
  refine exists_congr fun i => and_congr_right fun hi => and_congr_right fun hsession => ?_
  refine exists_congr fun s => and_congr_left fun hs => ?_
  refine Change.mem_map_apply fun hchanged => h ?_
  rw [← changedRows_eq] at hchanged
  obtain ⟨inventory, hin, rfl⟩ := List.mem_map.mp hi
  refine List.mem_map.mpr ⟨inventory, List.mem_filter.mpr ⟨hin, ?_⟩, hsession⟩
  exact List.any_eq_true.mpr ⟨s, hchanged, decide_eq_true hs.1⟩

theorem rows_of_venueZones {c : Change VenueZoneRow}
    (h : sessionId ∉ affected db (.venueZones c)) (row : LayoutRow) :
    row ∈ layoutRows (fire db (.venueZones c)).tables sessionId ↔
      row ∈ layoutRows db.tables sessionId := by
  rw [mem_layoutRows, mem_layoutRows]
  refine exists_congr fun i => and_congr_right fun hi => and_congr_right fun hsession => ?_
  refine exists_congr fun s => and_congr_right fun hs => and_congr_right fun hseat => ?_
  refine exists_congr fun z => and_congr_left fun hz => ?_
  refine Change.mem_map_apply fun hchanged => h ?_
  rw [← changedRows_eq] at hchanged
  obtain ⟨inventory, hin, rfl⟩ := List.mem_map.mp hi
  obtain ⟨seat, hin', rfl⟩ := List.mem_map.mp hs
  refine List.mem_map.mpr ⟨inventory, List.mem_filter.mpr ⟨hin, ?_⟩, hsession⟩
  refine List.any_eq_true.mpr ⟨seat, hin', Bool.and_eq_true_iff.mpr ⟨decide_eq_true hseat, ?_⟩⟩
  exact List.any_eq_true.mpr ⟨z, hchanged, Bool.and_eq_true_iff.mpr
    ⟨decide_eq_true hz.1.1, decide_eq_true hz.1.2⟩⟩

/-- A layout that no trigger found has its rows. -/
theorem rows_of_unaffected {statement : Statement} (h : sessionId ∉ affected db statement)
    (row : LayoutRow) : row ∈ layoutRows (fire db statement).tables sessionId ↔
      row ∈ layoutRows db.tables sessionId := by
  cases statement with
  | events c => rfl
  | sessions c => rfl
  | sessionSeats c => exact rows_of_sessionSeats h row
  | seats c => exact rows_of_seats h row
  | venueZones c => exact rows_of_venueZones h row

theorem revised_of_affected {statement : Statement} (h : Maintained db)
    (hafter : (fire db statement).tables.Constraints)
    (haffected : sessionId ∈ affected db statement) : ∃ r, db.revisions sessionId = some r := by
  cases statement with
  | events c => cases haffected
  | sessions c => cases haffected
  | sessionSeats c =>
      obtain ⟨columns, hcolumns, rfl⟩ := List.mem_map.mp haffected
      rw [changedRows_eq] at hcolumns
      obtain hbefore | hnew := Change.mem_of_changed hcolumns
      · obtain ⟨inventory, hin, rfl⟩ := List.mem_map.mp hbefore
        exact h.of_inventory hin
      · -- The session of a new row exists, and the statement left the sessions alone.
        obtain ⟨inventory, hin, rfl⟩ := List.mem_map.mp hnew
        obtain ⟨-, -, -, -, -, -, hsession, -⟩ := hafter
        obtain ⟨session, hin', hid, -⟩ := hsession inventory hin
        have hrevised := h.revised session hin'
        rw [hid] at hrevised
        exact Option.isSome_iff_exists.mp hrevised
  | seats c =>
      obtain ⟨inventory, hin, rfl⟩ := List.mem_map.mp haffected
      exact h.of_inventory (List.mem_of_mem_filter hin)
  | venueZones c =>
      obtain ⟨inventory, hin, rfl⟩ := List.mem_map.mp haffected
      exact h.of_inventory (List.mem_of_mem_filter hin)

theorem fire_affected {statement : Statement} {r : ℕ}
    (haffected : sessionId ∈ affected db statement) (hr : db.revisions sessionId = some r) :
    (fire db statement).revisions sessionId = some (r + 1) := by
  cases statement with
  | events c => cases haffected
  | sessions c => cases haffected
  | sessionSeats c => exact bump_of_mem haffected hr
  | seats c => exact bump_of_mem haffected hr
  | venueZones c => exact bump_of_mem haffected hr

/-- A statement that changes a layout, or its order, raises the revision of the session by one. -/
theorem changed_layout_bumps {db' : LayoutDb} {statement : Statement} {c : Collation}
    (h : Maintained db) (hrun : Executes statement db db')
    (hchanged : layoutSeats c db' sessionId ≠ layoutSeats c db sessionId) :
    ∃ r, db.revisions sessionId = some r ∧ db'.revisions sessionId = some (r + 1) := by
  have hvalid := (execute_maintained h hrun).constraints
  unfold Executes execute at hrun
  split_ifs at hrun with hafter
  obtain rfl := Option.some.inj hrun
  have haffected : sessionId ∈ affected db statement := by
    by_contra hnot
    exact hchanged (layoutSeats_congr hvalid h.constraints (rows_of_unaffected hnot))
  obtain ⟨r, hr⟩ := revised_of_affected h hafter haffected
  exact ⟨r, hr, fire_affected haffected hr⟩

theorem execute_rises {db' : LayoutDb} {statement : Statement} (hrun : Executes statement db db') :
    Rises db.revisions db'.revisions := by
  unfold Executes execute at hrun
  split_ifs at hrun
  obtain rfl := Option.some.inj hrun
  exact fire_rises db statement

end Changes

/-! ## Runs -/

section Runs

variable {db db' : LayoutDb} {statements : List Statement} {sessionId : String} {c : Collation}

theorem run_maintained (h : Maintained db) (hrun : Trace Executes db statements db') :
    Maintained db' :=
  hrun.invariant (fun _ _ _ hmid hstep => execute_maintained hmid hstep) h

theorem run_rises (hrun : Trace Executes db statements db') :
    Rises db.revisions db'.revisions := by
  induction hrun with
  | nil => exact Rises.refl _
  | cons head _ ih => exact (execute_rises head).trans ih

/-- A run that ends at the revision it started from has not changed the layout. -/
theorem layoutSeats_of_revision {r : ℕ} (h : Maintained db)
    (hrun : Trace Executes db statements db') (hr : db.revisions sessionId = some r)
    (hr' : db'.revisions sessionId = some r) :
    layoutSeats c db' sessionId = layoutSeats c db sessionId := by
  induction hrun with
  | nil => rfl
  | @cons db mid db' statement statements head tail ih =>
      obtain ⟨r₁, hr₁, hle⟩ := execute_rises head sessionId r hr
      obtain ⟨r₂, hr₂, hle'⟩ := run_rises tail sessionId r₁ hr₁
      rw [hr'] at hr₂
      obtain rfl := Option.some.inj hr₂
      obtain rfl : r₁ = r := le_antisymm hle' hle
      have hhead : layoutSeats c mid sessionId = layoutSeats c db sessionId := by
        by_contra hne
        obtain ⟨r₀, hr₀, hr₁'⟩ := changed_layout_bumps h head hne
        rw [hr] at hr₀
        rw [hr₁] at hr₁'
        obtain rfl := Option.some.inj hr₀
        exact Nat.succ_ne_self r₁ (Option.some.inj hr₁').symm
      rw [ih (execute_maintained h head) hr₁ hr', hhead]

end Runs

/-! ## Validators -/

section Validators

variable {sha256Hex : String → String} {db : LayoutDb} {sessionId : String}
  {identity : LayoutIdentity}

theorem LayoutIdentity.text_injective : Function.Injective LayoutIdentity.text := by
  rintro ⟨session, venue, created, published, revision⟩
    ⟨session', venue', created', published', revision'⟩ h
  have hvalues : [session, venue, created, published, revision] =
      [session', venue', created', published', revision'] := LengthPrefix.foldl_injective h
  simpa using hvalues

theorem layoutTag_injective (hsha : Function.Injective sha256Hex) :
    Function.Injective (layoutTag sha256Hex) := by
  intro row row' h
  have hchars := congrArg String.toList h
  unfold layoutTag at hchars
  rw [String.toList_append, String.toList_append, String.toList_append, String.toList_append]
    at hchars
  have hhash : sha256Hex row.text = sha256Hex row'.text :=
    String.toList_inj.mp (List.append_cancel_left (List.append_cancel_right hchars))
  exact LayoutIdentity.text_injective (hsha hhash)

theorem layoutIdentity_spec (h : layoutIdentity db sessionId = some identity) :
    identity.layoutSessionId = sessionId ∧
      ∃ r, db.revisions sessionId = some r ∧ identity.layoutRevision = toString r := by
  unfold layoutIdentity at h
  obtain ⟨session, hsession, h⟩ := Option.bind_eq_some_iff.mp h
  obtain ⟨event, -, h⟩ := Option.bind_eq_some_iff.mp h
  obtain ⟨r, hr, h⟩ := Option.bind_eq_some_iff.mp h
  have hid : session.id = sessionId := by simpa using List.find?_some hsession
  split_ifs at h
  obtain rfl := Option.some.inj h
  exact ⟨hid, r, hid ▸ hr, rfl⟩

end Validators

/-- Equal validators of a session at two times of a run name one body. Every statement that changes
the seats of a body raises the revision, and the text under the hash determines its columns. -/
theorem layout_tags_sound (c : Collation) (sha256Hex : String → String)
    (hsha : Function.Injective sha256Hex) (tables : Tables) (htables : tables.Constraints)
    (db db' : LayoutDb) (before between : List Statement)
    (hbefore : Trace Executes (install tables) before db)
    (hbetween : Trace Executes db between db') :
    (∀ sessionId tag, publicLayoutIdentity sha256Hex db sessionId = some tag →
      publicLayoutIdentity sha256Hex db' sessionId = some tag →
      ∃ snapshot, snapshot.etag = tag ∧
        listLayoutBySessionId c sha256Hex db sessionId = some snapshot ∧
        listLayoutBySessionId c sha256Hex db' sessionId = some snapshot) ∧
    (∀ sessionId statement next, Executes statement db' next →
      layoutSeats c next sessionId ≠ layoutSeats c db' sessionId →
      ∃ r, db'.revisions sessionId = some r ∧ next.revisions sessionId = some (r + 1)) ∧
    Function.Injective LayoutIdentity.text := by
  have hdb := run_maintained (install_maintained htables) hbefore
  refine ⟨fun sessionId tag htag htag' => ?_, fun sessionId statement next hrun hne => ?_,
    LayoutIdentity.text_injective⟩
  · obtain ⟨identity, hidentity, rfl⟩ := Option.map_eq_some_iff.mp htag
    obtain ⟨identity', hidentity', heq⟩ := Option.map_eq_some_iff.mp htag'
    obtain rfl := layoutTag_injective hsha heq
    obtain ⟨hid, r, hr, hrevision⟩ := layoutIdentity_spec hidentity
    obtain ⟨-, r', hr', hrevision'⟩ := layoutIdentity_spec hidentity'
    obtain rfl := LengthPrefix.nat_toString_injective (hrevision.symm.trans hrevision')
    have hseats := layoutSeats_of_revision (c := c) hdb hbetween hr hr'
    refine ⟨⟨layoutTag sha256Hex identity', layoutSeats c db sessionId⟩, rfl, ?_, ?_⟩
    · exact Option.map_eq_some_iff.mpr ⟨identity', hidentity, by rw [hid]⟩
    · exact Option.map_eq_some_iff.mpr ⟨identity', hidentity', by rw [hid, hseats]⟩
  · exact changed_layout_bumps (run_maintained hdb hbetween) hrun hne

/-! A session with one seat, whose price is corrected before its seat is held. -/

def onePricedSeat : Tables where
  events := [⟨"E-1", .onSale, some 1767312000000000⟩]
  sessions := [⟨"S-1", "E-1", "V-1", .onSale, 1767225600000000⟩]
  sessionSeats := [⟨"SS-1", "S-1", "SEAT-1", "V-1", 18000, "AVAILABLE", none⟩]
  seats := [⟨"SEAT-1", "V-1", "Z-1", "A", 1, "A1"⟩]
  venueZones := [⟨"Z-1", "V-1", "MAIN", "Main", 0⟩]

def correctPrice : Statement := .sessionSeats (.update fun seat => some { seat with price := 12000 })

def holdSeat : Statement := .sessionSeats (.update fun seat =>
  some { seat with status := "HELD", currentReservationId := some "R-1" })

def pricedIdentity : LayoutIdentity :=
  ⟨"S-1", "V-1", "1767225600000000", "1767312000000000", "2"⟩

/-- The digest of one text, as the hash returns it; every other text is its own digest. -/
def digestOfPriced (text : String) : String :=
  if text = "seat-layout-v23:S-13:V-116:176722560000000016:17673120000000001:2" then
    "18855000fccf1f74aa942eed3589aa5ae6a65b722916203f00faad0ebb1379a9"
  else text ++ "."

theorem digestOfPriced_injective : Function.Injective digestOfPriced := by
  have hapart : ∀ text : String, text ++ "." ≠
      "18855000fccf1f74aa942eed3589aa5ae6a65b722916203f00faad0ebb1379a9" := fun text h => by
    have hlast := congrArg (fun s => s.toList.getLast?) h
    simp [String.toList_append] at hlast
  intro text text' h
  unfold digestOfPriced at h
  split_ifs at h with htext htext'
  · rw [htext, htext']
  · exact absurd h.symm (hapart text')
  · exact absurd h (hapart text)
  · have hchars := congrArg String.toList h
    rw [String.toList_append, String.toList_append] at hchars
    exact String.toList_inj.mp (List.append_cancel_right hchars)

theorem layout_tags_sound_heldSeat :
    ∃ snapshot : SeatLayoutSnapshot, snapshot.etag = layoutTag digestOfPriced pricedIdentity ∧
      listLayoutBySessionId Collation.bytewise digestOfPriced
        (fire (install onePricedSeat) correctPrice) "S-1" = some snapshot ∧
      listLayoutBySessionId Collation.bytewise digestOfPriced
        (fire (fire (install onePricedSeat) correctPrice) holdSeat) "S-1" = some snapshot := by
  have hcorrect : Executes correctPrice (install onePricedSeat)
      (fire (install onePricedSeat) correctPrice) := if_pos (by decide +kernel)
  have hhold : Executes holdSeat (fire (install onePricedSeat) correctPrice)
      (fire (fire (install onePricedSeat) correctPrice) holdSeat) := if_pos (by decide +kernel)
  have hpriced : layoutIdentity (fire (install onePricedSeat) correctPrice) "S-1" =
      some pricedIdentity := by decide +kernel
  have hheld : layoutIdentity (fire (fire (install onePricedSeat) correctPrice) holdSeat) "S-1" =
      some pricedIdentity := by decide +kernel
  refine (layout_tags_sound Collation.bytewise digestOfPriced digestOfPriced_injective onePricedSeat
    (by decide +kernel) _ _ _ _ (Trace.single hcorrect) (Trace.single hhold)).1 "S-1" _ ?_ ?_
  · exact Option.map_eq_some_iff.mpr ⟨pricedIdentity, hpriced, rfl⟩
  · exact Option.map_eq_some_iff.mpr ⟨pricedIdentity, hheld, rfl⟩

end Ticketing.Layout
