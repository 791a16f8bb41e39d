import Ticketing.AdminJobs
import Ticketing.Library.JsonValue
import Mathlib.Data.List.DropRight

/-!
# Venue plans

A plan comes as JSON, is checked against the limits of the configuration, and is stored as the zones
and seats of a venue. The label of a seat is the label of its row with the number of the seat in
three digits.
-/

namespace Ticketing.Admin

open GuardedRows JsonCpp ReadCommitted

/-! ## Limits -/

structure Limits where
  zones : ℕ := 32
  rows : ℕ := 200
  seatsPerRow : ℕ := 500
  seats : ℕ := 20000
  sessions : ℕ := 20
  deriving DecidableEq

/-- A missing limit has its default; one that is there is a positive `int`. -/
def limit (members : List (String × Value)) (key : String) (default : ℕ) : Except String ℕ :=
  match members.lookup key with
  | none => .ok default
  | some (.int n) => if 0 < n ∧ n < 2 ^ 31 then .ok n.toNat else .error ("Invalid admin_catalog." ++ key)
  | some _ => .error ("Invalid admin_catalog." ++ key)

/-- A product that must fit 64 bits. -/
def multiply (product factor : ℕ) : Except String ℕ :=
  if (2 ^ 63 - 1) / factor < product then .error "admin_catalog multiplication overflow"
  else .ok (product * factor)

def limits : Value → Except String Limits
  | .null => .ok {}
  | .object members => do
      let zones ← limit members "max_zones_per_venue" 32
      let rows ← limit members "max_rows_per_zone" 200
      let seatsPerRow ← limit members "max_seats_per_row" 500
      let seats ← limit members "max_seats_per_venue" 20000
      let sessions ← limit members "max_sessions_per_event" 20
      let _ ← [rows, seatsPerRow, sessions].foldlM multiply zones
      .ok { zones, rows, seatsPerRow, seats, sessions }
  | _ => .error "admin_catalog must be an object"

/-! ## Checking a plan -/

abbrev Checked := Except Failure

def check (b : Bool) : Checked Unit := if b then .ok () else .error invalidArgument

def fields (v : Value) (allowed : List String) : Checked Unit :=
  match v with
  | .object members => check (members.all fun m => m.1 ∈ allowed)
  | _ => .error invalidArgument

/-- `v[key]` of an object. -/
def member : Value → String → Value
  | .object members, key => (members.lookup key).getD .null
  | _, _ => .null

def blank (c : Char) : Bool := c = ' ' || c = '\t' || c = '\r' || c = '\n'

def text (v : Value) (key : String) (max : ℕ) : Checked String :=
  match member v key with
  | .string raw =>
      let trimmed := String.ofList ((raw.toList.dropWhile blank).rdropWhile blank)
      if trimmed ≠ "" ∧ trimmed.utf8ByteSize ≤ max ∧ '\x00' ∉ trimmed.toList then .ok trimmed
      else .error invalidArgument
  | _ => .error invalidArgument

/-- `[A-Z0-9_-]{1,32}` -/
def codePattern (code : String) : Bool :=
  decide (1 ≤ code.toList.length ∧ code.toList.length ≤ 32) &&
    code.toList.all fun c => c.isUpper || c.isDigit || c = '_' || c = '-'

def seatCount (cfg : Limits) : Value → Checked ℕ
  | .int n =>
      if 0 < n ∧ n < 2 ^ 31 ∧ n ≤ cfg.seatsPerRow then .ok n.toNat else .error invalidArgument
  | _ => .error invalidArgument

/-- The rows of one zone, with the labels seen in it and the seats of the venue so far. -/
def validateRows (cfg : Limits) : List String → ℕ → List Value → Checked (List RowPlan × ℕ)
  | _, total, [] => .ok ([], total)
  | labels, total, r :: rest => do
      fields r ["label", "seatCount"]
      let label ← text r "label" 16
      check (label ∉ labels)
      let count ← seatCount cfg (member r "seatCount")
      check (total + count ≤ cfg.seats)
      let (rows, total) ← validateRows cfg (label :: labels) (total + count) rest
      .ok (⟨label, count⟩ :: rows, total)

def validateZones (cfg : Limits) :
    List String → List String → ℕ → List Value → Checked (List ZonePlan)
  | _, _, _, [] => .ok []
  | codes, names, total, z :: rest => do
      fields z ["code", "name", "rows"]
      let raw ← text z "code" 32
      let code := String.ofList (raw.toList.map Char.toUpper)
      check (codePattern code && code ∉ codes)
      let name ← text z "name" 100
      check (name ∉ names)
      let rawRows := (member z "rows").elements
      check ((member z "rows").isArray && !rawRows.isEmpty && rawRows.length ≤ cfg.rows)
      let (rows, total) ← validateRows cfg [] total rawRows
      let zones ← validateZones cfg (code :: codes) (name :: names) total rest
      .ok (⟨code, name, rows⟩ :: zones)

/-- `AdminVenueService::validate`, with the configuration that `limits` reads. -/
def validate (config body : Value) : Checked Plan := do
  fields body ["name", "city", "zones"]
  let cfg ← (limits config).mapError fun _ => internalError
  let name ← text body "name" 200
  let city ← text body "city" 100
  let rawZones := (member body "zones").elements
  check ((member body "zones").isArray && !rawZones.isEmpty && rawZones.length ≤ cfg.zones)
  let zones ← validateZones cfg [] [] 0 rawZones
  .ok ⟨name, city, zones⟩

/-! ## What is accepted -/

theorem ok_of_bind {ε α β : Type} {first : Except ε α} {next : α → Except ε β} {result : β}
    (h : first >>= next = .ok result) : ∃ value, first = .ok value ∧ next value = .ok result := by
  cases first with
  | error e => cases h
  | ok value => exact ⟨value, rfl, h⟩

theorem check_ok {b : Bool} {u : Unit} (h : check b = .ok u) : b = true := by
  cases b with
  | false => cases h
  | true => rfl

/-- The labels of the rows are distinct, and new. -/
theorem validateRows_labels {cfg : Limits} {labels : List String} {total total' : ℕ}
    {raws : List Value} {rows : List RowPlan}
    (h : validateRows cfg labels total raws = .ok (rows, total')) :
    (rows.map RowPlan.label).Nodup ∧ ∀ l ∈ labels, l ∉ rows.map RowPlan.label := by
  induction raws generalizing labels total rows with
  | nil =>
      cases h
      exact ⟨List.nodup_nil, fun _ _ => List.not_mem_nil⟩
  | cons r raws ih =>
      obtain ⟨_, _, h⟩ := ok_of_bind h
      obtain ⟨label, _, h⟩ := ok_of_bind h
      obtain ⟨_, hnew, h⟩ := ok_of_bind h
      obtain ⟨count, _, h⟩ := ok_of_bind h
      obtain ⟨_, _, h⟩ := ok_of_bind h
      obtain ⟨⟨rest, later⟩, hrest, h⟩ := ok_of_bind h
      cases h
      obtain ⟨hnodup, hseen⟩ := ih hrest
      have hlabel : label ∉ labels := by simpa using check_ok hnew
      refine ⟨List.nodup_cons.mpr ⟨hseen label List.mem_cons_self, hnodup⟩, fun l hl => ?_⟩
      rw [List.map_cons, List.mem_cons, not_or]
      exact ⟨ne_of_mem_of_not_mem hl hlabel, hseen l (List.mem_cons_of_mem _ hl)⟩

/-- Codes and names of zones are distinct, and the labels of the rows of each zone. -/
structure Distinct (zones : List ZonePlan) : Prop where
  codes : (zones.map ZonePlan.code).Nodup
  names : (zones.map ZonePlan.name).Nodup
  labels : ∀ z ∈ zones, (z.rows.map RowPlan.label).Nodup

theorem validateZones_distinct {cfg : Limits} {codes names : List String} {total : ℕ}
    {raws : List Value} {zones : List ZonePlan}
    (h : validateZones cfg codes names total raws = .ok zones) :
    Distinct zones ∧ (∀ c ∈ codes, c ∉ zones.map ZonePlan.code) ∧
      ∀ n ∈ names, n ∉ zones.map ZonePlan.name := by
  induction raws generalizing codes names total zones with
  | nil =>
      cases h
      exact ⟨⟨List.nodup_nil, List.nodup_nil, fun _ h => absurd h List.not_mem_nil⟩,
        fun _ _ => List.not_mem_nil, fun _ _ => List.not_mem_nil⟩
  | cons z raws ih =>
      obtain ⟨_, _, h⟩ := ok_of_bind h
      obtain ⟨raw, _, h⟩ := ok_of_bind h
      obtain ⟨_, hcode, h⟩ := ok_of_bind h
      obtain ⟨name, _, h⟩ := ok_of_bind h
      obtain ⟨_, hname, h⟩ := ok_of_bind h
      obtain ⟨_, _, h⟩ := ok_of_bind h
      obtain ⟨⟨rows, later⟩, hrows, h⟩ := ok_of_bind h
      obtain ⟨rest, hrest, h⟩ := ok_of_bind h
      cases h
      obtain ⟨hdistinct, hcodes, hnames⟩ := ih hrest
      have hcodeNew := (Bool.and_eq_true _ _ ▸ check_ok hcode).2
      have hnameNew := check_ok hname
      rw [decide_eq_true_eq] at hcodeNew hnameNew
      refine ⟨⟨?_, ?_, ?_⟩, fun c hc => ?_, fun n hn => ?_⟩
      · exact List.nodup_cons.mpr ⟨hcodes _ List.mem_cons_self, hdistinct.codes⟩
      · exact List.nodup_cons.mpr ⟨hnames _ List.mem_cons_self, hdistinct.names⟩
      · rintro z' (_ | ⟨_, hz'⟩)
        · exact (validateRows_labels hrows).1
        · exact hdistinct.labels z' hz'
      · rw [List.map_cons, List.mem_cons, not_or]
        exact ⟨ne_of_mem_of_not_mem hc hcodeNew, hcodes c (List.mem_cons_of_mem _ hc)⟩
      · rw [List.map_cons, List.mem_cons, not_or]
        exact ⟨ne_of_mem_of_not_mem hn hnameNew, hnames n (List.mem_cons_of_mem _ hn)⟩

theorem validate_distinct {config body : Value} {plan : Plan} (h : validate config body = .ok plan) :
    Distinct plan.zones := by
  obtain ⟨_, _, h⟩ := ok_of_bind h
  obtain ⟨cfg, _, h⟩ := ok_of_bind h
  obtain ⟨_, _, h⟩ := ok_of_bind h
  obtain ⟨_, _, h⟩ := ok_of_bind h
  obtain ⟨_, _, h⟩ := ok_of_bind h
  obtain ⟨zones, hzones, h⟩ := ok_of_bind h
  cases h
  exact (validateZones_distinct hzones).1

/-! ## Labels of seats -/

theorem lpad3_toList (n : ℕ) : (lpad3 n).toList =
    List.replicate (3 - (Nat.toDigits 10 n).length) '0' ++ (Nat.toDigits 10 n).take 3 := by
  simp [lpad3, Nat.toString_eq_repr, Nat.toList_repr]

theorem lpad3_length (n : ℕ) : (lpad3 n).toList.length = 3 := by
  rw [lpad3_toList, List.length_append, List.length_replicate, List.length_take]
  omega

/-- Up to 999 a number can be read back from its three digits. -/
theorem lpad3_read {n : ℕ} (h : n ≤ 999) : Nat.ofDigitChars 10 (lpad3 n).toList 0 = n := by
  have hlength : (Nat.toDigits 10 n).length ≤ 3 :=
    (Nat.length_toDigits_le_iff (by decide) (by decide)).mpr (by omega)
  rw [lpad3_toList, Nat.ofDigitChars_append, Nat.ofDigitChars_replicate_zero, Nat.mul_zero,
    List.take_of_length_le hlength, Nat.ofDigitChars_ten_toDigits]

theorem seatLabel_injective {label label' : String} {m n : ℕ} (hm : m ≤ 999) (hn : n ≤ 999)
    (h : label ++ lpad3 m = label' ++ lpad3 n) : label = label' ∧ m = n := by
  have hchars := congrArg String.toList h
  rw [String.toList_append, String.toList_append] at hchars
  obtain ⟨hlabel, hdigits⟩ :=
    List.append_inj' hchars ((lpad3_length m).trans (lpad3_length n).symm)
  refine ⟨String.toList_inj.mp hlabel, ?_⟩
  rw [← lpad3_read hm, ← lpad3_read hn, hdigits]

/-- The thousandth seat of a row gets the label of its hundredth. -/
theorem lpad3_cut : lpad3 1000 = lpad3 100 := by decide +kernel

/-! ## The rows that are stored -/

section Rows

variable {vid : String} {zones : List (String × ZonePlan)}

/-- What depends on the zone, the row label and the number of the seats of a plan. -/
def keyed {κ : Type} (zones : List (String × ZonePlan)) (key : String → String → ℕ → κ) : List κ :=
  zones.flatMap fun z => z.2.rows.flatMap fun r =>
    (List.range r.seatCount).map fun k => key z.1 r.label (k + 1)

theorem map_seatRows {κ : Type} (f : Seat → κ) (key : String → String → ℕ → κ)
    (hf : ∀ zone i r k, f ⟨seatId zone (i + 1) (k + 1), vid, zone, r, k + 1, r ++ lpad3 (k + 1)⟩ =
      key zone r (k + 1)) :
    (seatRows vid zones).map f = keyed zones key := by
  unfold seatRows keyed
  rw [List.map_flatMap]
  apply List.flatMap_congr
  rintro ⟨zone, z⟩ _
  have hrow : ∀ i r, (rowSeats vid zone i r).map f =
      (List.range r.seatCount).map fun k => key zone r.label (k + 1) := by
    intro i r
    simp only [rowSeats, List.map_map, Function.comp_def, hf]
  calc (z.rows.mapIdx fun i r => rowSeats vid zone i r).flatten.map f
      = (z.rows.zipIdx.map fun r => (rowSeats vid zone r.2 r.1).map f).flatten := by
        rw [List.map_flatten, List.mapIdx_eq_zipIdx_map, List.map_map]
        rfl
    _ = ((z.rows.zipIdx.map Prod.fst).map fun r =>
          (List.range r.seatCount).map fun k => key zone r.label (k + 1)).flatten := by
        simp only [hrow, List.map_map, Function.comp_def]
    _ = _ := by
        rw [List.zipIdx_map_fst]
        rfl

/-- Keys that tell the places of the plan apart are distinct. -/
theorem keyed_nodup {κ : Type} {key : String → String → ℕ → κ}
    (hzones : (zones.map Prod.fst).Nodup)
    (hlabels : ∀ z ∈ zones, (z.2.rows.map RowPlan.label).Nodup)
    (hkey : ∀ z ∈ zones, ∀ r ∈ z.2.rows, ∀ k < r.seatCount,
      ∀ z' ∈ zones, ∀ r' ∈ z'.2.rows, ∀ k' < r'.seatCount,
        key z.1 r.label (k + 1) = key z'.1 r'.label (k' + 1) →
          z.1 = z'.1 ∧ r.label = r'.label ∧ k = k') :
    (keyed zones key).Nodup := by
  apply nodup_flatMap_of_key hzones
  · intro z hz
    apply nodup_flatMap_of_key (hlabels z hz)
    · intro r hr
      refine (List.nodup_range).map_on fun k hk k' hk' heq => ?_
      exact (hkey z hz r hr k (List.mem_range.mp hk) z hz r hr k' (List.mem_range.mp hk') heq).2.2
    · intro r hr r' hr' t ht ht'
      obtain ⟨k, hk, rfl⟩ := List.mem_map.mp ht
      obtain ⟨k', hk', heq⟩ := List.mem_map.mp ht'
      exact (hkey z hz r' hr' k' (List.mem_range.mp hk') z hz r hr k
        (List.mem_range.mp hk) heq).2.1.symm
  · intro z hz z' hz' t ht ht'
    obtain ⟨r, hr, ht⟩ := List.mem_flatMap.mp ht
    obtain ⟨r', hr', ht'⟩ := List.mem_flatMap.mp ht'
    obtain ⟨k, hk, rfl⟩ := List.mem_map.mp ht
    obtain ⟨k', hk', heq⟩ := List.mem_map.mp ht'
    exact (hkey z' hz' r' hr' k' (List.mem_range.mp hk') z hz r hr k
      (List.mem_range.mp hk) heq).1.symm

/-- The labels are unique within the zones exactly if no row has more than 999 seats. -/
theorem labels_nodup_iff (hzones : (zones.map Prod.fst).Nodup)
    (hlabels : ∀ z ∈ zones, (z.2.rows.map RowPlan.label).Nodup) :
    (keyed zones fun zone label n => (zone, label ++ lpad3 n)).Nodup ↔
      ∀ z ∈ zones, ∀ r ∈ z.2.rows, r.seatCount ≤ 999 := by
  constructor
  · intro h z hz r hr
    by_contra hmany
    -- The hundredth and the thousandth seat of the row.
    have hrow := (List.nodup_flatMap.mp ((List.nodup_flatMap.mp h).1 z hz)).1 r hr
    have hinj := List.inj_on_of_nodup_map hrow
    have hsame : (z.1, r.label ++ lpad3 (99 + 1)) = (z.1, r.label ++ lpad3 (999 + 1)) := by
      rw [lpad3_cut]
    have heq := hinj (List.mem_range.mpr (by omega : 99 < r.seatCount))
      (List.mem_range.mpr (by omega : 999 < r.seatCount)) hsame
    omega
  · intro hfit
    refine keyed_nodup hzones hlabels ?_
    intro z hz r hr k hk z' hz' r' hr' k' hk' heq
    have hle := hfit z hz r hr
    have hle' := hfit z' hz' r' hr'
    obtain ⟨hzone, hlabel⟩ := Prod.mk.inj heq
    obtain ⟨hrow, hnumber⟩ := seatLabel_injective (by omega) (by omega) hlabel
    exact ⟨hzone, hrow, by omega⟩

theorem positions_nodup (hzones : (zones.map Prod.fst).Nodup)
    (hlabels : ∀ z ∈ zones, (z.2.rows.map RowPlan.label).Nodup) :
    (keyed zones fun zone label n => (zone, label, n)).Nodup := by
  refine keyed_nodup hzones hlabels ?_
  intro z _ r _ k _ z' _ r' _ k' _ heq
  simp only [Prod.mk.injEq] at heq
  exact ⟨heq.1, heq.2.1, by omega⟩

/-- The unique keys of the seats hold exactly if no row has more than 999 seats. -/
theorem seatsUnique_iff (hzones : (zones.map Prod.fst).Nodup)
    (hlabels : ∀ z ∈ zones, (z.2.rows.map RowPlan.label).Nodup) :
    seatsUnique (seatRows vid zones) = true ↔
      ∀ z ∈ zones, ∀ r ∈ z.2.rows, r.seatCount ≤ 999 := by
  unfold seatsUnique
  rw [map_seatRows _ (fun zone label n => (zone, label, n)) fun _ _ _ _ => rfl,
    map_seatRows _ (fun zone label n => (zone, label ++ lpad3 n)) fun _ _ _ _ => rfl,
    Bool.and_eq_true, decide_eq_true_eq, decide_eq_true_eq,
    and_iff_right (positions_nodup hzones hlabels), labels_nodup_iff hzones hlabels]

theorem map_zoneRows {κ : Type} (f : VenueZone → κ) (key : ZonePlan → κ)
    (hf : ∀ i id z, f ⟨id, vid, z.code, z.name, i⟩ = key z) :
    (zoneRows vid zones).map f = (zones.map Prod.snd).map key := by
  calc (zoneRows vid zones).map f
      = (zones.zipIdx.map Prod.fst).map fun z => key z.2 := by
        simp [zoneRows, List.mapIdx_eq_zipIdx_map, Function.comp_def, hf, -List.zipIdx_map_fst]
    _ = (zones.map Prod.snd).map key := by
        rw [List.zipIdx_map_fst, List.map_map]
        rfl

theorem zonesUnique_zoneRows (h : Distinct (zones.map Prod.snd)) :
    zonesUnique (zoneRows vid zones) = true := by
  have horder : (zoneRows vid zones).map VenueZone.sortOrder = zones.zipIdx.map Prod.snd := by
    simp [zoneRows, List.mapIdx_eq_zipIdx_map, Function.comp_def, -List.zipIdx_map_snd]
  unfold zonesUnique
  rw [map_zoneRows _ ZonePlan.code fun _ _ _ => rfl, map_zoneRows _ ZonePlan.name fun _ _ _ => rfl,
    horder, List.zipIdx_map_snd, decide_eq_true h.codes, decide_eq_true h.names,
    decide_eq_true (List.nodup_range' ..)]
  rfl

theorem planZones_snd (uuid : ℕ → String) (plan : Plan) :
    (planZones uuid plan).map Prod.snd = plan.zones := by
  calc (planZones uuid plan).map Prod.snd = plan.zones.zipIdx.map Prod.fst := by
        simp [planZones, List.mapIdx_eq_zipIdx_map, Function.comp_def, -List.zipIdx_map_fst]
    _ = plan.zones := List.zipIdx_map_fst ..

theorem length_seatRows (uuid : ℕ → String) (plan : Plan) :
    (seatRows vid (planZones uuid plan)).length = expectedSeats plan := by
  have hplaces := congrArg List.length
    (@map_seatRows vid (planZones uuid plan) _ (fun _ => ()) (fun _ _ _ => ())
        fun _ _ _ _ => rfl)
  rw [List.length_map] at hplaces
  rw [hplaces, expectedSeats, ← planZones_snd uuid plan]
  simp [keyed, List.length_flatMap, Function.comp_def]

end Rows

/-! ## Saving -/

section Saving

variable {s : Catalog} {vid : String} {uuid : ℕ → String} {plan : Plan} {reset : Bool}

/-- The rows with the zones and seats of the plan. -/
def planted (s : Catalog) (uuid : ℕ → String) (vid : String) (plan : Plan) : Catalog :=
  { s with
    zones := s.zones ++ zoneRows vid (planZones uuid plan)
    seats := s.seats ++ seatRows vid (planZones uuid plan) }

theorem ok_then {ε α β : Type} (a : α) (next : α → Except ε β) : (.ok a >>= next) = next a := rfl

theorem serial_insertUnique {α : Type} (unique : Catalog → Bool) (write : Write) (result : α) :
    serial store (insertUnique unique write result) s =
      if unique s then .ok (result, write.apply s) else .error internalError := by
  simp only [insertUnique, serial]
  split
  · rfl
  · rfl

theorem serial_venue (h : s.present (.venue vid) = true) :
    ∃ view, serial store (venue vid) s = .ok (view, s) := by
  obtain ⟨v, hv, hid⟩ := List.any_eq_true.mp h
  have hmem : v ∈ s.venues.filter fun v => v.id = vid := List.mem_filter.mpr ⟨hv, hid⟩
  obtain ⟨first, hfirst⟩ := Option.ne_none_iff_exists'.mp
    (mt List.head?_eq_none_iff.mp (List.ne_nil_of_mem hmem))
  have hview : ∃ view, venueView s vid = some view := by
    rw [venueView, hfirst]
    exact ⟨_, rfl⟩
  obtain ⟨view, hview⟩ := hview
  refine ⟨view, ?_⟩
  unfold venue
  rw [serial_bind]
  simp only [Prog.query, Prog.exec, serial, hview, Prog.expect]
  rfl

/-- A plan is planted as a whole, or refused for its labels. -/
theorem serial_savePlan (hzones : venueZones s vid = []) (hseats : venueSeats s vid = [])
    (hvenue : s.present (.venue vid) = true)
    (hunique : zonesUnique (zoneRows vid (planZones uuid plan)) = true) :
    if seatsUnique (seatRows vid (planZones uuid plan)) then
      ∃ view, serial store (savePlan uuid vid plan reset) s =
        .ok (.plan view reset, planted s uuid vid plan)
    else serial store (savePlan uuid vid plan reset) s = .error internalError := by
  have hplant : serial store (insertZones vid (planZones uuid plan)) s =
      .ok ((), { s with zones := s.zones ++ zoneRows vid (planZones uuid plan) }) := by
    rw [insertZones, serial_insertUnique, hzones, List.nil_append, if_pos hunique]
    rfl
  have hfits : serial store (insertSeats vid (planZones uuid plan))
      { s with zones := s.zones ++ zoneRows vid (planZones uuid plan) } =
        if seatsUnique (seatRows vid (planZones uuid plan)) then
          .ok (expectedSeats plan, planted s uuid vid plan) else .error internalError := by
    have hempty : venueSeats { s with zones := s.zones ++ zoneRows vid (planZones uuid plan) } vid =
        [] := hseats
    rw [insertSeats, serial_insertUnique, hempty, List.nil_append, length_seatRows]
    rfl
  unfold savePlan
  simp only [serial_bind, hplant, ok_then, hfits]
  split
  · obtain ⟨view, hview⟩ := serial_venue (s := planted s uuid vid plan) hvenue
    refine ⟨view, ?_⟩
    simp only [ok_then, beq_self_eq_true, Prog.require, if_true, serial, hview]
    rfl
  · rfl

/-- Where a venue that can be saved stands before its plan is planted. -/
structure Cleared (s : Catalog) (vid : String) : Prop where
  zones : venueZones s vid = []
  seats : venueSeats s vid = []
  venue : s.present (.venue vid) = true

/-- The venue that a save is about. -/
def target (uuid : ℕ → String) (venueId : String) : String :=
  if venueId.isEmpty then newVenueId uuid else venueId

/-- A new venue, whose drawn id no row has, or one that exists and is not frozen. -/
def Savable (s : Catalog) (uuid : ℕ → String) (venueId : String) : Prop :=
  if venueId.isEmpty then
    venueZones s (newVenueId uuid) = [] ∧ venueSeats s (newVenueId uuid) = []
  else s.present (.venue venueId) = true ∧ frozen s venueId = false

theorem serial_saveNew {venueId : String} (hnew : venueId.isEmpty = true)
    (hzones : venueZones s (newVenueId uuid) = []) (hseats : venueSeats s (newVenueId uuid) = []) :
    ∃ s', Cleared s' (newVenueId uuid) ∧ serial store (save uuid venueId plan) s =
      serial store (savePlan uuid (newVenueId uuid) plan false) s' := by
  refine ⟨{ s with venues := s.venues ++ [⟨newVenueId uuid, plan.name, plan.city⟩] },
    ⟨hzones, hseats, ?_⟩, ?_⟩
  · refine List.any_eq_true.mpr ⟨_, List.mem_append_right _ List.mem_cons_self, ?_⟩
    exact decide_eq_true rfl
  · unfold save
    rw [if_pos hnew, serial_bind]
    rfl

theorem deleted_none {ρ : Type} [Guarded ρ Lock] [DecidableEq ρ] (table : List ρ)
    (p : ρ → Bool) : ((Edit.delete (table.filter p)).run table).filter p = [] := by
  rw [run_delete_filter, List.filter_filter, List.filter_eq_nil_iff]
  intro r _
  cases p r <;> simp

/-- The rows of an existing venue without its draft prices, its seats and its zones. -/
def swept (s : Catalog) (vid : String) : Catalog :=
  let s₁ := (Write.prices (.delete (draftPrices s vid))).apply s
  let s₂ := (Write.seats (.delete (venueSeats s₁ vid))).apply s₁
  let s₃ := (Write.zones (.delete (venueZones s₂ vid))).apply s₂
  (Write.prices (.delete (cascadedPrices s₂ vid))).apply s₃

theorem renamed_locks (plan : Plan) (v : Venue) :
    Guarded.locks { v with name := plan.name, city := plan.city } = Guarded.locks v := rfl

def renamed (s : Catalog) (vid : String) (plan : Plan) : Catalog :=
  (Write.venues (.set (s.venues.filter fun v => v.id = vid)
    (fun v => { v with name := plan.name, city := plan.city }) (renamed_locks plan))).apply s

theorem serial_saveOld {venueId : String} (hold : ¬venueId.isEmpty = true)
    (hvenue : s.present (.venue venueId) = true) (hfree : frozen s venueId = false) :
    ∃ reset, serial store (save uuid venueId plan) s =
      serial store (savePlan uuid venueId plan reset) (renamed (swept s venueId) venueId plan) := by
  refine ⟨decide ((draftPrices s venueId).length > 0), ?_⟩
  have hpresent : store.present (.venue venueId) s = true := hvenue
  unfold save
  rw [if_neg hold]
  simp only [serial_bind, lockVenue, serial, hpresent, if_true, ok_then, Prog.query, Prog.exec,
    hfree, Prog.require, Bool.not_false]
  rfl

theorem cleared_swept {venueId : String} (hvenue : s.present (.venue venueId) = true) :
    Cleared (renamed (swept s venueId) venueId plan) venueId := by
  refine ⟨deleted_none s.zones fun z => z.venueId = venueId,
    deleted_none s.seats fun r => r.venueId = venueId, ?_⟩
  obtain ⟨v, hv, hid⟩ := List.any_eq_true.mp hvenue
  have hrenamed := run_set_filter s.venues (fun v => decide (v.id = venueId))
    (fun v => { v with name := plan.name, city := plan.city }) fun _ => rfl
  have hvenues : (renamed (swept s venueId) venueId plan).venues =
      s.venues.map fun v => if decide (v.id = venueId) then
        { v with name := plan.name, city := plan.city } else v := hrenamed
  refine List.any_eq_true.mpr ⟨_, hvenues ▸ List.mem_map_of_mem hv, ?_⟩
  rw [if_pos hid]
  exact hid

/-- Saving a venue clears it and plants the plan. -/
theorem serial_save {venueId : String} (h : Savable s uuid venueId) :
    ∃ s' reset, Cleared s' (target uuid venueId) ∧ serial store (save uuid venueId plan) s =
      serial store (savePlan uuid (target uuid venueId) plan reset) s' := by
  unfold Savable at h
  unfold target
  split at h
  · rename_i hnew
    rw [if_pos hnew]
    obtain ⟨s', hcleared, hsave⟩ := serial_saveNew hnew h.1 h.2
    exact ⟨s', false, hcleared, hsave⟩
  · rename_i hold
    rw [if_neg hold]
    obtain ⟨reset, hsave⟩ := serial_saveOld hold h.1 h.2
    exact ⟨_, reset, cleared_swept h.1, hsave⟩

end Saving

/-! ## Completeness -/

def zoneCode (s : Catalog) (vid zone : String) : Option String :=
  ((venueZones s vid).find? fun z => z.id = zone).map VenueZone.code

/-- The code of the zone, the row and the number of each seat of a venue. -/
def places (s : Catalog) (vid : String) : List (Option String × String × ℕ) :=
  (venueSeats s vid).map fun r => (zoneCode s vid r.zoneId, r.rowNo, r.seatNo)

def Planned (plan : Plan) (place : Option String × String × ℕ) : Prop :=
  ∃ z ∈ plan.zones, place.1 = some z.code ∧ ∃ r ∈ z.rows, place.2.1 = r.label ∧
    1 ≤ place.2.2 ∧ place.2.2 ≤ r.seatCount

/-- The venue has one seat for each place of the plan and no other seat, the ids of its seats are
distinct, and no two seats of a zone share a label. -/
structure PlanStored (s : Catalog) (vid : String) (plan : Plan) : Prop where
  planned : ∀ place, Planned plan place → (places s vid).count place = 1
  others : ∀ place ∈ places s vid, Planned plan place
  ids : ((venueSeats s vid).map Seat.id).Nodup
  labels : ∀ r ∈ venueSeats s vid, ∀ r' ∈ venueSeats s vid, r.zoneId = r'.zoneId →
    r.seatLabel = r'.seatLabel → r.rowNo = r'.rowNo ∧ r.seatNo = r'.seatNo

/-- The save commits and leaves the venue complete. -/
def Stores (outcome : Except Failure (Reply × Catalog)) (vid : String) (plan : Plan) : Prop :=
  ∃ reply s', outcome = .ok (reply, s') ∧ PlanStored s' vid plan

section Completeness

variable {s : Catalog} {vid : String} {uuid : ℕ → String} {plan : Plan}

theorem planZones_nodup (huuid : Function.Injective uuid) (plan : Plan) :
    ((planZones uuid plan).map Prod.fst).Nodup := by
  have hids : (planZones uuid plan).map Prod.fst =
      (plan.zones.zipIdx.map Prod.snd).map (zoneId uuid) := by
    simp [planZones, List.mapIdx_eq_zipIdx_map, Function.comp_def, -List.zipIdx_map_snd]
  rw [hids, List.zipIdx_map_snd]
  refine (List.nodup_range' ..).map fun i j h => ?_
  have hchars := congrArg String.toList h
  simp only [zoneId, String.toList_append, List.append_cancel_left_eq, String.toList_inj] at hchars
  exact Nat.succ.inj (huuid hchars)

theorem mem_planZones {z : String × ZonePlan} (h : z ∈ planZones uuid plan) : z.2 ∈ plan.zones := by
  rw [← planZones_snd uuid plan]
  exact List.mem_map_of_mem h

theorem exists_planZones (uuid : ℕ → String) {z : ZonePlan} (h : z ∈ plan.zones) :
    ∃ zone, (zone, z) ∈ planZones uuid plan := by
  rw [← planZones_snd uuid plan] at h
  obtain ⟨⟨zone, _⟩, hz, rfl⟩ := List.mem_map.mp h
  exact ⟨zone, hz⟩

theorem venueZones_planted (hcleared : Cleared s vid) :
    venueZones (planted s uuid vid plan) vid = zoneRows vid (planZones uuid plan) := by
  have hkept : (zoneRows vid (planZones uuid plan)).filter (fun z => z.venueId = vid) =
      zoneRows vid (planZones uuid plan) :=
    List.filter_eq_self.mpr fun z hz => decide_eq_true (zoneRows_venue z hz)
  have hnone : s.zones.filter (fun z => z.venueId = vid) = [] := hcleared.zones
  unfold venueZones planted
  rw [List.filter_append, hnone, hkept, List.nil_append]

theorem venueSeats_planted (hcleared : Cleared s vid) :
    venueSeats (planted s uuid vid plan) vid = seatRows vid (planZones uuid plan) := by
  have hkept : (seatRows vid (planZones uuid plan)).filter (fun r => r.venueId = vid) =
      seatRows vid (planZones uuid plan) :=
    List.filter_eq_self.mpr fun r hr => decide_eq_true (mem_seatRows hr).1
  have hnone : s.seats.filter (fun r => r.venueId = vid) = [] := hcleared.seats
  unfold venueSeats planted
  rw [List.filter_append, hnone, hkept, List.nil_append]

theorem zoneCode_planted (hcleared : Cleared s vid) (huuid : Function.Injective uuid)
    {z : String × ZonePlan} (hz : z ∈ planZones uuid plan) :
    zoneCode (planted s uuid vid plan) vid z.1 = some z.2.code := by
  have hids : ((zoneRows vid (planZones uuid plan)).map VenueZone.id).Nodup := by
    rw [zoneRows_ids]
    exact planZones_nodup huuid plan
  obtain ⟨i, hi, hget⟩ := List.mem_iff_getElem.mp hz
  have hrow : (⟨z.1, vid, z.2.code, z.2.name, i⟩ : VenueZone) ∈
      zoneRows vid (planZones uuid plan) :=
    List.mem_mapIdx.mpr ⟨i, hi, by rw [hget]⟩
  have hsome : ((zoneRows vid (planZones uuid plan)).find? fun z' => z'.id = z.1).isSome :=
    List.find?_isSome.mpr ⟨_, hrow, decide_eq_true rfl⟩
  obtain ⟨found, hfound⟩ := Option.isSome_iff_exists.mp hsome
  have hid : found.id = z.1 := by simpa using List.find?_some hfound
  have hsame := eq_of_key hids (List.mem_of_find?_eq_some hfound) hrow hid
  unfold zoneCode
  rw [venueZones_planted hcleared, hfound, hsame]
  rfl

/-- The places of the planted seats are those of the plan. -/
theorem places_planted (hcleared : Cleared s vid) :
    places (planted s uuid vid plan) vid = keyed (planZones uuid plan) fun zone label n =>
      (zoneCode (planted s uuid vid plan) vid zone, label, n) := by
  unfold places
  rw [venueSeats_planted hcleared]
  exact map_seatRows _ _ fun _ _ _ _ => rfl

theorem seat_label {zones : List (String × ZonePlan)} {seat : Seat} (h : seat ∈ seatRows vid zones) :
    ∃ z ∈ zones, ∃ r ∈ z.2.rows, seat.seatNo ≤ r.seatCount ∧
      seat.seatLabel = seat.rowNo ++ lpad3 seat.seatNo := by
  obtain ⟨z, hz, hseat⟩ := List.mem_flatMap.mp h
  obtain ⟨seats, hseats, hseat⟩ := List.mem_flatten.mp hseat
  obtain ⟨i, hi, rfl⟩ := List.mem_mapIdx.mp hseats
  obtain ⟨k, hk, rfl⟩ := List.mem_map.mp hseat
  exact ⟨z, hz, z.2.rows[i], List.getElem_mem hi, List.mem_range.mp hk, rfl⟩

theorem mem_keyed {κ : Type} {zones : List (String × ZonePlan)} {key : String → String → ℕ → κ}
    {a : κ} : a ∈ keyed zones key ↔
      ∃ z ∈ zones, ∃ r ∈ z.2.rows, ∃ k < r.seatCount, key z.1 r.label (k + 1) = a := by
  simp [keyed, List.mem_flatMap, List.mem_map, List.mem_range]

theorem complete_planted (hdistinct : Distinct plan.zones) (huuid : Function.Injective uuid)
    (hcleared : Cleared s vid) (hfit : ∀ z ∈ plan.zones, ∀ r ∈ z.rows, r.seatCount ≤ 999) :
    PlanStored (planted s uuid vid plan) vid plan := by
  have hzones := planZones_nodup huuid plan
  have hlabels : ∀ z ∈ planZones uuid plan, (z.2.rows.map RowPlan.label).Nodup :=
    fun z hz => hdistinct.labels z.2 (mem_planZones hz)
  have hcode : ∀ {z}, z ∈ planZones uuid plan →
      zoneCode (planted s uuid vid plan) vid z.1 = some z.2.code :=
    fun hz => zoneCode_planted hcleared huuid hz
  have hcodes : ∀ z ∈ planZones uuid plan, ∀ z' ∈ planZones uuid plan,
      z.2.code = z'.2.code → z.1 = z'.1 := by
    have hnodup : ((planZones uuid plan).map fun z => z.2.code).Nodup := by
      have hmap := planZones_snd uuid plan ▸ hdistinct.codes
      rwa [List.map_map] at hmap
    exact fun z hz z' hz' h => congrArg Prod.fst (eq_of_key hnodup hz hz' h)
  constructor
  · rintro ⟨code, label, n⟩ ⟨z, hz, hcodeEq, r, hr, hlabel, hpos, hle⟩
    obtain ⟨zone, hmem⟩ := exists_planZones uuid hz
    rw [places_planted hcleared]
    apply List.count_eq_one_of_mem
    · refine keyed_nodup hzones hlabels ?_
      intro z hz r _ k _ z' hz' r' _ k' _ heq
      rw [hcode hz, hcode hz'] at heq
      simp only [Prod.mk.injEq, Option.some.injEq] at heq
      exact ⟨hcodes z hz z' hz' heq.1, heq.2.1, by omega⟩
    · refine mem_keyed.mpr ⟨_, hmem, r, hr, n - 1, by dsimp only at hle hpos; omega, ?_⟩
      dsimp only at hcodeEq hlabel hpos
      rw [hcode hmem, hcodeEq, hlabel, Nat.sub_add_cancel hpos]
  · intro place hplace
    rw [places_planted hcleared] at hplace
    obtain ⟨z, hz, r, hr, k, hk, rfl⟩ := mem_keyed.mp hplace
    exact ⟨z.2, mem_planZones hz, hcode hz, r, hr, rfl, Nat.le_add_left _ _, hk⟩
  · rw [venueSeats_planted hcleared]
    exact seatRows_nodup hzones
  · rw [venueSeats_planted hcleared]
    intro r hr r' hr' _ hsame
    have hseat : ∀ r ∈ seatRows vid (planZones uuid plan),
        r.seatNo ≤ 999 ∧ r.seatLabel = r.rowNo ++ lpad3 r.seatNo := by
      intro r hr
      obtain ⟨z, hz, p, hp, hle, hlabel⟩ := seat_label hr
      exact ⟨hle.trans (hfit z.2 (mem_planZones hz) p hp), hlabel⟩
    obtain ⟨hle, hlabel⟩ := hseat r hr
    obtain ⟨hle', hlabel'⟩ := hseat r' hr'
    rw [hlabel, hlabel'] at hsame
    exact seatLabel_injective hle hle' hsame

end Completeness

theorem stores_iff {plan : Plan} {s : Catalog} {uuid : ℕ → String} {venueId : String}
    (hdistinct : Distinct plan.zones) (huuid : Function.Injective uuid)
    (hsavable : Savable s uuid venueId) :
    Stores (serial store (save uuid venueId plan) s) (target uuid venueId) plan ↔
      ∀ z ∈ plan.zones, ∀ r ∈ z.rows, r.seatCount ≤ 999 := by
  obtain ⟨s', reset, hcleared, hsave⟩ := @serial_save _ _ plan _ hsavable
  have hzones := planZones_nodup huuid plan
  have hlabels : ∀ z ∈ planZones uuid plan, (z.2.rows.map RowPlan.label).Nodup :=
    fun z hz => hdistinct.labels z.2 (mem_planZones hz)
  have hunique : seatsUnique (seatRows (target uuid venueId) (planZones uuid plan)) = true ↔
      ∀ z ∈ plan.zones, ∀ r ∈ z.rows, r.seatCount ≤ 999 := by
    rw [seatsUnique_iff hzones hlabels]
    constructor
    · intro h z hz
      obtain ⟨zone, hmem⟩ := exists_planZones uuid hz
      exact h _ hmem
    · exact fun h z hz => h z.2 (mem_planZones hz)
  have hplan := @serial_savePlan _ _ _ plan reset hcleared.zones hcleared.seats hcleared.venue
      (zonesUnique_zoneRows ((planZones_snd uuid plan).symm ▸ hdistinct))
  rw [hsave, ← hunique]
  split at hplan
  · rename_i hfit
    obtain ⟨view, hview⟩ := hplan
    refine iff_of_true ⟨_, _, hview, ?_⟩ hfit
    exact complete_planted hdistinct huuid hcleared (hunique.mp hfit)
  · rename_i hbroken
    refine iff_of_false ?_ hbroken
    rintro ⟨reply, after, heq, _⟩
    rw [hplan] at heq
    cases heq

/-- What is accepted is stored complete exactly if no row has more than 999 seats. -/
theorem save_stores_iff {config body : Value} {plan : Plan} {s : Catalog} {uuid : ℕ → String}
    {venueId : String} (hvalid : validate config body = .ok plan)
    (huuid : Function.Injective uuid) (hsavable : Savable s uuid venueId) :
    Stores (serial store (save uuid venueId plan) s) (target uuid venueId) plan ↔
      ∀ z ∈ plan.zones, ∀ r ∈ z.rows, r.seatCount ≤ 999 :=
  stores_iff (validate_distinct hvalid) huuid hsavable

/-! ## A hall of one row -/

def wideConfig : Value := .object [("max_seats_per_row", .int 1000)]

def hallBody (seats : ℤ) : Value :=
  .object [("name", .string "Hall"), ("city", .string "Shanghai"), ("zones", .array [
    .object [("code", .string "a"), ("name", .string "Floor"), ("rows", .array [
      .object [("label", .string "A"), ("seatCount", .int seats)]])]])]

def hallPlan (seats : ℕ) : Plan := ⟨"Hall", "Shanghai", [⟨"A", "Floor", [⟨"A", seats⟩]⟩]⟩

def countingUuid (n : ℕ) : String := toString n

theorem countingUuid_injective : Function.Injective countingUuid :=
  fun _ _ h => LengthPrefix.nat_toString_injective h

theorem savable_empty (venueId : String) (h : venueId.isEmpty = true) :
    Savable Catalog.empty countingUuid venueId := by
  unfold Savable
  rw [if_pos h]
  exact ⟨rfl, rfl⟩

theorem hall_distinct (seats : ℕ) : Distinct (hallPlan seats).zones :=
  ⟨List.nodup_singleton _, List.nodup_singleton _, by simp [hallPlan]⟩

/-- A row of a thousand seats is accepted and not stored. -/
theorem save_stores_not : validate wideConfig (hallBody 1000) = .ok (hallPlan 1000) ∧
    ¬Stores (serial store (save countingUuid "" (hallPlan 1000)) Catalog.empty)
      (target countingUuid "") (hallPlan 1000) := by
  refine ⟨rfl, ?_⟩
  rw [stores_iff (hall_distinct 1000) countingUuid_injective (savable_empty "" rfl)]
  intro hfit
  have hrow := hfit _ List.mem_cons_self _ List.mem_cons_self
  exact absurd hrow (by decide)

theorem save_stores_three :
    Stores (serial store (save countingUuid "" (hallPlan 3)) Catalog.empty)
      (target countingUuid "") (hallPlan 3) := by
  refine (@save_stores_iff wideConfig (hallBody 3) _ _ _ _ rfl countingUuid_injective
      (savable_empty "" rfl)).mpr ?_
  simp

end Ticketing.Admin
