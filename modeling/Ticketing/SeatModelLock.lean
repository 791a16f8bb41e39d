import Ticketing.SeatModelInstall
import Ticketing.SeatModelCleanup
import Ticketing.AvailabilityReads

/-!
# The lock of an initialisation

Only acquiring and unlocking write the lock, and the installation that ends with deleting it. The
other scripts leave it alone, and reading a zone at most drops the model.
-/

namespace Ticketing.Availability

open Redis Script

/-- A key other than the lock. -/
def Key.OffLock : Key → Prop
  | .initLock => False
  | _ => True

/-- A key of the model itself. -/
def Key.Modelled : Key → Prop
  | .initLock => False
  | .hold _ => False
  | _ => True

theorem Key.Raw.offLock {key : Key} (h : key.Raw) : key.OffLock := by
  obtain ⟨seat, rfl⟩ := h
  trivial

theorem Key.Modelled.offLock {key : Key} (h : key.Modelled) : key.OffLock := by
  cases key with
  | initLock => exact h
  | _ => trivial

theorem Key.Modelled.derived {key : Key} (h : key.Modelled) : key.Derived := by
  rintro seat rfl
  exact h

section Frames

theorem modelled_invalidate : Writes Key.Modelled invalidate :=
  writes_bind (writes_del trivial) fun _ => writes_pure _

theorem modelled_increase (zone : Option String) (status : Option SeatStatus) (amount : ℤ) :
    Writes Key.Modelled (increase zone status amount) := by
  cases zone with
  | none => exact writes_raise _
  | some zone =>
      cases status with
      | none => exact writes_raise _
      | some status => exact writes_hincrby trivial

theorem modelled_summarychange (zone : Option String) (old new : Option SeatStatus) :
    Writes Key.Modelled (summarychange zone old new) :=
  writes_ite (writes_pure _) (writes_bind (modelled_increase _ _ _) fun _ => modelled_increase _ _ _)

theorem modelled_change (zone : Option String) (seat : String) (maxlen : ℕ) :
    Writes Key.Modelled (change zone seat maxlen) := by
  cases zone with
  | none => exact writes_raise _
  | some zone => exact writes_xadd trivial

theorem modelled_copyHold (seat : String) (raw : Option String) (ttl : ℤ) :
    Writes Key.Modelled (copyHold seat raw ttl) := by
  unfold copyHold
  split
  · exact writes_bind writes_now fun _ => writes_bind (writes_hset trivial) fun _ =>
      writes_zadd trivial
  · exact writes_bind (writes_hdel trivial) fun _ => writes_zrem trivial

theorem modelled_synchold (seat : String) (maxlen : ℕ) :
    Writes Key.Modelled (synchold seat maxlen) := by
  refine writes_bind writes_readKey fun _ => writes_bind writes_readKey fun _ =>
    writes_bind writes_readKey fun _ => writes_bind writes_readKey fun _ =>
      writes_bind writes_pttl fun _ => ?_
  exact writes_bind (modelled_copyHold _ _ _) fun _ => writes_bind (modelled_summarychange _ _ _)
    fun _ => writes_ite (modelled_change _ _ _) (writes_pure _)

/-- What writes only the model leaves the lock alone. -/
theorem offLock_of_modelled {α : Type} {script : Script Key α} (h : Writes Key.Modelled script) :
    Writes Key.OffLock script := writes_mono h fun _ => Key.Modelled.offLock

theorem modelled_checkModel (seats : List String) : Writes Key.Modelled (checkModel seats) := by
  have hdrop : Writes Key.Modelled (do invalidate; pure false) :=
    writes_bind modelled_invalidate fun _ => writes_pure _
  refine writes_bind readOnly_ready.writes fun isReady => ?_
  cases isReady
  · exact writes_pure _
  refine writes_bind readOnly_healthy.writes fun isHealthy => ?_
  cases isHealthy
  · exact hdrop
  refine writes_bind (writes_allM fun seat _ => (readOnly_validseat seat).writes) fun passed => ?_
  cases passed
  · exact hdrop
  · exact writes_pure _

theorem readOnly_preflight (seats : List String) : ReadOnly (preflight seats) := by
  induction seats with
  | nil => exact writes_pure _
  | cons seat seats ih =>
      refine writes_bind (readOnly_compatible _ _) fun passed => ?_
      cases passed
      · exact writes_pure _
      · exact writes_bind writes_readKey fun _ => writes_ite (writes_pure _) ih

theorem offLock_run (maxlen : ℕ) (call : Call) : Writes Key.OffLock (call.run maxlen) := by
  refine writes_bind (offLock_of_modelled (modelled_checkModel _)) fun modelReady =>
    writes_bind (readOnly_preflight _).writes fun refused => ?_
  cases refused with
  | some message => exact writes_pure _
  | none =>
      refine writes_bind (writes_mono call.writes_script fun _ => Key.Raw.offLock) fun _ => ?_
      exact writes_ite (writes_bind (writes_forEach fun seat _ =>
        offLock_of_modelled (modelled_synchold seat maxlen)) fun _ => writes_pure _) (writes_pure _)

theorem offLock_expireSeat (now maxlen : ℕ) (seat : String) :
    Writes Key.OffLock (expireSeat now maxlen seat) := by
  have hsync : Writes Key.OffLock (do
      synchold seat maxlen
      pure 1) :=
    writes_bind (offLock_of_modelled (modelled_synchold seat maxlen)) fun _ => writes_pure 1
  refine writes_bind writes_readKey fun copy => ?_
  cases copy.bind hold with
  | none => exact writes_bind (writes_zrem trivial) fun _ => writes_pure 0
  | some found =>
      refine writes_ite (writes_bind writes_readKey fun _ => writes_ite ?_ hsync) ?_
      · exact writes_bind (writes_del trivial) fun _ => hsync
      · exact writes_bind (writes_zadd trivial) fun _ => writes_pure 0

theorem offLock_expireSeats (now maxlen count : ℕ) (seats : List String) :
    Writes Key.OffLock (expireSeats now maxlen count seats) := by
  induction seats generalizing count with
  | nil => exact writes_pure _
  | cons seat seats ih => exact writes_bind (offLock_expireSeat now maxlen seat) fun _ => ih _

theorem modelled_rebuild : Writes Key.Modelled rebuild :=
  writes_bind modelled_invalidate fun _ => writes_pure _

theorem offLock_expire (limit maxlen : ℕ) : Writes Key.OffLock (expire limit maxlen) := by
  refine writes_bind readOnly_healthy.writes fun isHealthy => ?_
  cases isHealthy
  · exact offLock_of_modelled modelled_rebuild
  rw [if_pos rfl]
  refine writes_ite (writes_pure _) (writes_bind writes_now fun now =>
    writes_bind writes_readKey fun seats => ?_)
  refine writes_bind (writes_allM fun seat _ => (readOnly_cleanable seat).writes) fun passed => ?_
  cases passed
  · exact offLock_of_modelled modelled_rebuild
  · exact writes_bind (offLock_expireSeats _ _ _ _) fun _ =>
      writes_bind writes_readKey fun _ => writes_pure _

theorem modelled_apply (seat status version : String) (maxlen : ℕ) :
    Writes Key.Modelled (apply seat status version maxlen) := by
  have herror : Writes Key.Modelled (do
      invalidate
      pure (Reply.strings ["ERROR"])) := writes_bind modelled_invalidate fun _ => writes_pure _
  refine writes_bind readOnly_ready.writes fun isReady => ?_
  cases isReady
  · exact writes_bind writes_exist fun _ => writes_ite (writes_pure _) (writes_pure _)
  rw [if_pos rfl]
  cases formal (status ++ "|" ++ version) with
  | none => exact writes_pure _
  | some next =>
      refine writes_ite (writes_pure _) (writes_bind readOnly_healthy.writes fun isHealthy => ?_)
      cases isHealthy
      · exact herror
      refine writes_bind (readOnly_validseat seat).writes fun passed => ?_
      cases passed
      · exact herror
      refine writes_bind writes_readKey fun state => ?_
      cases state.bind formal with
      | none => exact writes_raise _
      | some old =>
          refine writes_ite (writes_pure _) (writes_bind writes_readKey fun _ =>
            writes_bind writes_readKey fun _ => writes_bind (modelled_summarychange _ _ _) fun _ => ?_)
          exact writes_bind (writes_hset trivial) fun _ =>
            writes_bind (modelled_change _ _ _) fun _ => writes_pure _

end Frames

section Install

variable {store : Store Key} {env : Env} {generation : String}

theorem modelled_deleteZone (zone : String) : Writes Key.Modelled (deleteZone zone) :=
  writes_bind (writes_del trivial) fun _ =>
    writes_bind (writes_del trivial) fun _ =>
      writes_bind (writes_del trivial) fun _ =>
        writes_pure _

theorem modelled_createZone (zone : String) : Writes Key.Modelled (createZone zone) :=
  writes_bind (modelled_deleteZone zone) fun _ =>
    writes_bind (writes_atKey trivial) fun _ =>
      writes_bind (writes_hset trivial) fun _ =>
        writes_xadd trivial

theorem modelled_createSeat (row : SeatRow) : Writes Key.Modelled (createSeat row) := by
  have hcount (live : Bool) : Writes Key.Modelled (do
      hincrby (.zoneSummary row.zone) "total" 1
      increase (some row.zone) (publicstatus (statusOfName row.status) live) 1) :=
    writes_bind (writes_hincrby trivial) fun _ =>
      modelled_increase _ _ _
  refine writes_bind (writes_hset trivial) fun _ =>
    writes_bind (writes_hset trivial) fun _ =>
      writes_bind (writes_atKey trivial) fun _ =>
        writes_bind writes_readKey fun raw => writes_bind writes_pttl fun ttl => ?_
  dsimp only
  cases raw.filter fun _ => decide (0 < ttl) with
  | none => exact hcount false
  | some raw =>
      exact writes_bind writes_now fun _ => writes_bind (writes_hset trivial) fun _ =>
        writes_bind (writes_zadd trivial) fun _ => hcount true

/-- The lock goes with the last write of an installation. -/
theorem install_lock (rows : List SeatRow) : Wp (install generation rows) env store
    (fun _ after => after .initLock = none) fun after => after .initLock = store .initLock := by
  have hstage {first : Script Key Unit} {next : Unit → Script Key Reply} {before : Store Key}
      {Q : Reply → Store Key → Prop} (hsame : before .initLock = store .initLock)
      (hwrites : Writes Key.Modelled first)
      (h : ∀ after : Store Key, after .initLock = store .initLock →
        Wp (next ()) env after Q fun after => after .initLock = store .initLock) :
      Wp (first >>= next) env before Q fun after => after .initLock = store .initLock := by
    refine wp_bind (wp_mono (wp_frame hwrites) ?_ fun after hafter => ?_)
    · intro _ after hafter
      exact h after ((hafter _ id).trans hsame)
    · exact (hafter _ id).trans hsame
  have hkeys : ∀ key ∈ derivedKeys, Writes Key.Modelled (deleteKey key) := by
    intro key hkey
    have hmodelled : key.Modelled := by
      cases key with
      | initLock => exact absurd hkey (by decide)
      | hold seat => exact absurd hkey (by simp [derivedKeys])
      | _ => trivial
    exact writes_bind (writes_del hmodelled) fun _ => writes_pure _
  refine wp_read writes_readKey rfl fun old _ => ?_
  refine hstage rfl (writes_forEach fun zone _ => modelled_deleteZone zone) fun _ hzones => ?_
  refine hstage hzones (writes_forEach hkeys) fun _ hdeleted => ?_
  refine hstage hdeleted (writes_forEach fun zone _ => modelled_createZone zone) fun _ hcreated => ?_
  refine hstage hcreated (writes_forEach fun row _ => modelled_createSeat row) fun _ hseats => ?_
  refine hstage hseats (writes_hset trivial) fun _ _ => ?_
  exact wp_bind (wp_bind (wp_del (wp_pure (wp_pure (Function.update_self _ _ _)))))

theorem init_lock (token : String) (rows : List SeatRow) : Wp (init token generation rows) env store
    (fun reply after => reply = .strings ["READY", generation] → after .initLock = none)
    fun after => after .initLock = store .initLock := by
  refine wp_read writes_readKey rfl fun lock _ => ?_
  by_cases htoken : lock ≠ some token
  · rw [if_pos htoken]
    exact wp_pure fun hready => absurd hready (by simp)
  rw [if_neg htoken]
  have hrow (row : SeatRow) : ReadOnly (checkRow row) := by
    refine writes_ite (writes_pure _) (writes_bind (readOnly_compatible _ _) fun passed => ?_)
    cases passed
    · exact writes_pure _
    · exact writes_bind writes_readKey fun _ => writes_ite (writes_pure _) (writes_pure _)
  have hrows (seen : List String) : ReadOnly (checkRows seen rows) := by
    induction rows generalizing seen with
    | nil => exact writes_pure _
    | cons row rows ih =>
        refine writes_ite (writes_pure _) (writes_bind (hrow row) fun message => ?_)
        cases message with
        | some message => exact writes_pure _
        | none => exact ih _
  refine wp_read (hrows []) rfl fun message _ => ?_
  cases message with
  | some message => exact wp_pure nofun
  | none =>
      refine wp_read (readOnly_compatible _ _) rfl fun passed _ => ?_
      cases passed
      · exact wp_pure nofun
      · exact wp_mono (install_lock rows) (fun _ _ hafter _ => hafter) fun _ hafter => hafter

end Install

section Read

theorem readOnly_readable (text : Option String) : ReadOnly (readable text) := by
  cases text with
  | none => exact writes_raise _
  | some text => exact writes_pure _

theorem readOnly_counterTexts (zone : String) (names : List String) :
    ReadOnly (counterTexts zone names) := by
  induction names with
  | nil => exact writes_pure _
  | cons name names ih =>
      exact writes_bind writes_readKey fun text => writes_bind (readOnly_readable text) fun _ =>
        writes_bind ih fun _ => writes_pure _

theorem readOnly_summaryTexts (zones : List String) : ReadOnly (summaryTexts zones) := by
  induction zones with
  | nil => exact writes_pure _
  | cons zone zones ih =>
      exact writes_bind (readOnly_counterTexts zone _) fun _ => writes_bind ih fun _ => writes_pure _

theorem readOnly_snapshotSelection (zone reset reason : String) :
    ReadOnly (snapshotSelection zone reset reason) := by
  refine writes_bind writes_readKey fun ids => writes_bind writes_readKey fun last => ?_
  cases last with
  | none => exact writes_raise _
  | some last => exact writes_pure _

theorem readOnly_cursorless (a b : String) : ReadOnly (cursorless a b) := by
  unfold cursorless
  split
  · exact writes_ite (writes_pure _) (writes_pure _)
  · exact writes_raise _

theorem readOnly_xrangeSince (key : Key) (since : String) (count : ℕ) :
    ReadOnly (xrangeSince key since count) := by
  unfold xrangeSince
  cases streamId since with
  | none => exact writes_raise _
  | some id => exact writes_ite writes_readKey (writes_raise _)

theorem readOnly_select (zone generation since : String) (limit : ℕ) (current : Option String) :
    ReadOnly (select zone generation since limit current) := by
  have hsnapshot (reset reason : String) : ReadOnly (some <$> snapshotSelection zone reset reason) :=
    writes_bind (readOnly_snapshotSelection zone reset reason) fun _ => writes_pure _
  refine writes_ite (hsnapshot _ _) (writes_bind writes_readKey fun first =>
    writes_ite (hsnapshot _ _) ?_)
  cases first with
  | nil => exact writes_pure _
  | cons entry entries =>
      exact writes_bind (readOnly_cursorless _ _) fun _ => writes_ite (hsnapshot _ _)
        (writes_bind (readOnly_xrangeSince _ _ _) fun _ => writes_pure _)

theorem readOnly_seatTexts (zone : String) (now : ℕ) (ids : List String) :
    ReadOnly (seatTexts zone now ids) := by
  induction ids with
  | nil => exact writes_pure _
  | cons id ids ih =>
      refine writes_bind (readOnly_validseat id) fun passed => ?_
      cases passed
      · exact writes_pure _
      refine writes_bind writes_readKey fun _ => writes_ite ?_ (writes_pure _)
      refine writes_bind writes_readKey fun state => writes_bind writes_readKey fun _ => ?_
      cases state.bind formal with
      | none => exact writes_raise _
      | some found =>
          refine writes_bind ih fun texts => ?_
          cases texts with
          | none => exact writes_pure _
          | some texts => exact writes_pure _

/-- Reading changes nothing, or it drops the model. -/
def Unread (store after : Store Key) : Prop :=
  after = store ∨ after = Function.update store .modelMeta none

theorem read_store (zone generation since : String) (limit : ℕ) (env : Env) (store : Store Key) :
    Wp (read zone generation since limit) env store (fun _ => Unread store) (Unread store) := by
  have hrebuild : Wp rebuild env store (fun _ => Unread store) (Unread store) :=
    wp_of_done (bind_of_done invalidate_done) (Or.inr rfl)
  have hsame : Unread store store := Or.inl rfl
  refine wp_read readOnly_healthy hsame fun isHealthy _ => ?_
  cases isHealthy
  · exact hrebuild
  rw [if_pos rfl]
  by_cases hlimit : limit = 0
  · rw [if_pos hlimit]
    exact wp_pure hsame
  rw [if_neg hlimit]
  refine wp_read writes_exist hsame fun found _ => ?_
  cases found
  · exact wp_pure hsame
  refine wp_read writes_readKey hsame fun current _ => ?_
  refine wp_read (readOnly_select _ _ _ _ _) hsame fun selection _ => ?_
  cases selection with
  | none => exact wp_pure hsame
  | some selection =>
      refine wp_read writes_readKey hsame fun zones _ => ?_
      refine wp_read (readOnly_summaryTexts zones) hsame fun _ _ => wp_bind (wp_now ?_)
      refine wp_read (readOnly_seatTexts _ _ _) hsame fun seats _ => ?_
      cases seats with
      | none => exact hrebuild
      | some seats =>
          exact wp_read (readOnly_readable current) hsame fun _ _ => wp_pure hsame

end Read

end Ticketing.Availability
