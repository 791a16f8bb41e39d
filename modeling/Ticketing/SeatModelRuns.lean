import Ticketing.SeatModelLock
import Ticketing.SeatModelChanges
import Ticketing.Library.Trace

/-!
# What the keys of a session stand for

Over all runs of the scripts the keys of a session stand for its raw holds, for a model or none, and
for the lock of an initialisation. Every script moves the keys as the session moves here.
-/

namespace Ticketing.Availability

open Redis Script Transition

structure InitLock where
  token : String
  deadline : ℕ
  deriving DecidableEq

def InitLock.entry (lock : InitLock) : Entry := ⟨.string lock.token, some lock.deadline⟩

structure Session where
  raw : Holds
  model : Option Model
  lock : Option InitLock

/-- The scripts that are sent to the keys of a session. -/
inductive SessionCall where
  | hold (call : Call)
  | expire (limit : ℕ)
  | apply (seat status version : String)
  | acquire (token : String) (lockMs : ℕ)
  | unlock (token : String)
  | init (token generation : String) (rows : List SeatRow)
  | read (zone generation since : String) (limit : ℕ)

namespace SessionCall

def script (maxlen : ℕ) : SessionCall → Script Key Reply
  | hold call => call.run maxlen
  | expire limit => Availability.expire limit maxlen
  | apply seat status version => Availability.apply seat status version maxlen
  | acquire token lockMs => Availability.acquire token lockMs
  | unlock token => Availability.unlock token
  | init token generation rows => Availability.init token generation rows
  | read zone generation since limit => Availability.read zone generation since limit

/-- The settings are positive, and no initialisation is sent without rows. -/
def Valid : SessionCall → Prop
  | hold call => call.Valid
  | expire limit => limit ≠ 0
  | acquire _ lockMs => lockMs ≠ 0
  | init _ _ rows => rows ≠ []
  | _ => True

end SessionCall

namespace Session

/-- The session at an instant: expired holds and locks are gone. -/
def visible (now : ℕ) (s : Session) : Session where
  raw := s.raw.visible now
  model := s.model
  lock := s.lock.filter fun lock => decide (now ≤ lock.deadline)

def afterHold (s : Session) (env : Env) (maxlen : ℕ) (call : Call) : Session where
  raw := call.effect env.now s.raw
  model := s.model.bind fun model =>
    if model.Known call.seats then
      some (model.syncAll env maxlen (call.effect env.now s.raw) call.seats)
    else none
  lock := s.lock

def drop (s : Session) : Session := { s with model := none }

/-- How a call may end: with a reply, or with none where it is refused, and the session then. -/
inductive Next (env : Env) (maxlen : ℕ) (s : Session) :
    SessionCall → Option Reply → Session → Prop where
  | hold {call : Call} {reply : Reply} (answers : call.Answers s.raw reply) :
      Next env maxlen s (.hold call) (some reply) (s.afterHold env maxlen call)
  | cleaned {limit : ℕ} {model : Model} {ids : List String} {count left : ℕ}
      (shown : s.model = some model) (fits : model.Fits)
      (expired : ∀ id ∈ ids, ∃ copy, model.hold id = some copy ∧ copy.deadline ≤ env.now)
      (clean : left = 0 → ∀ id copy, (cleanSeats env maxlen (model, s.raw) ids).1.hold id =
        some copy → env.now < copy.deadline) :
      Next env maxlen s (.expire limit) (some (.strings ["OK", toString count, toString left]))
        ⟨(cleanSeats env maxlen (model, s.raw) ids).2,
          some (cleanSeats env maxlen (model, s.raw) ids).1, s.lock⟩
  | unclean {limit : ℕ} (unfit : ∀ model, s.model = some model → ¬ model.Fits) :
      Next env maxlen s (.expire limit) (some (.strings ["REBUILD"])) s.drop
  | applied {model : Model} {id : String} {status : SeatStatus} {version : ℕ}
      (shown : s.model = some model) (known : model.Known [id]) :
      Next env maxlen s (.apply id (statusName status) (toString version))
        (some (.strings [if (model.seat id).version < version then "APPLIED"
          else "STALE_OR_DUPLICATE"]))
        { s with model := some (model.project env maxlen id status version) }
  | unknown {model : Model} {id status version : String} (shown : s.model = some model)
      (unknown : ¬ model.Known [id]) :
      Next env maxlen s (.apply id status version) (some (.strings ["ERROR"])) s.drop
  | invalid {id status version : String} (malformed : formal (status ++ "|" ++ version) = none)
      (shown : s.model.isSome) :
      Next env maxlen s (.apply id status version) (some (.error "invalid projection")) s
  | unready {id status version : String} (missing : s.model = none) :
      Next env maxlen s (.apply id status version)
        (some (.strings [if s.lock.isSome then "INITIALIZING" else "NO_MODEL"])) s
  | found {token : String} {lockMs : ℕ} (shown : s.model.isSome) :
      Next env maxlen s (.acquire token lockMs) (some (.strings ["READY"])) s
  | acquired {token : String} {lockMs : ℕ} (missing : s.model = none) :
      Next env maxlen s (.acquire token lockMs)
        (some (.strings [if s.lock.isSome then "WAIT" else "WINNER"]))
        { s with lock := some (s.lock.getD ⟨token, env.now + lockMs⟩) }
  | unlocked {token : String} :
      Next env maxlen s (.unlock token) (some (.strings ["OK"]))
        { s with lock := s.lock.filter fun lock => decide (lock.token ≠ token) }
  | refused {token generation : String} {rows : List SeatRow} {result : Option Reply} :
      Next env maxlen s (.init token generation rows) result s
  | failed {token generation : String} {rows : List SeatRow} :
      Next env maxlen s (.init token generation rows) none s.drop
  | installed {token generation : String} {rows : List SeatRow}
      (locked : s.lock.map InitLock.token = some token) (good : GoodRows rows) :
      Next env maxlen s (.init token generation rows) (some (.strings ["READY", generation]))
        ⟨s.raw, some (Model.ofRows generation env s.raw rows), none⟩
  | read {zone generation since : String} {limit : ℕ} {result : Option Reply} :
      Next env maxlen s (.read zone generation since limit) result s
  | unread {zone generation since : String} {limit : ℕ} {result : Option Reply} :
      Next env maxlen s (.read zone generation since limit) result s.drop

end Session

/-- A store that shows a model as scripts leave it. -/
structure Models (store : Store Key) (model : Model) : Prop where
  stored : Stored store model
  inhabited : model.Inhabited
  logged : model.Logged

/-- The keys stand for the session. -/
structure Refines (store : Store Key) (s : Session) : Prop where
  carries : Carries store s.raw
  models : ∀ model, s.model = some model → Models store model
  dropped : s.model = none → Dropped store
  lock : store .initLock = s.lock.map InitLock.entry

section Visible

variable {store : Store Key} {s : Session}

theorem Stored.visible {model : Model} (h : Stored store model) (now : ℕ) :
    Stored (store.visible now) model := by
  have hkept {τ : Type} {key : Key} {view : Slot → Option τ} {content : τ}
      (hkey : (store key).Shows view content) : store.visible now key = store key :=
    hkey.visible now
  intro key
  have hkey := h key
  cases key with
  | modelMeta =>
      obtain ⟨fields, hfields, hrest⟩ := hkey
      exact ⟨fields, by rw [hkept hfields]; exact hfields, hrest⟩
  | zones =>
      show (store.visible now .zones).Shows Slot.list model.zones
      rw [hkept hkey]
      exact hkey
  | seatZone =>
      show (store.visible now .seatZone).Shows Slot.fields _
      rw [hkept hkey]
      exact hkey
  | formal =>
      show (store.visible now .formal).Shows Slot.fields _
      rw [hkept hkey]
      exact hkey
  | holds =>
      show (store.visible now .holds).Shows Slot.fields _ ∧ _
      rw [hkept hkey.1]
      exact hkey
  | holdExpiry =>
      show (store.visible now .holdExpiry).Shows Slot.scores _
      rw [hkept hkey]
      exact hkey
  | zoneSeats zone =>
      intro hzone
      rw [hkept (hkey hzone)]
      exact hkey hzone
  | zoneSummary zone =>
      intro hzone
      obtain ⟨fields, hfields, hsummary⟩ := hkey hzone
      exact ⟨fields, by rw [hkept hfields]; exact hfields, hsummary⟩
  | zoneChanges zone =>
      intro hzone
      rw [hkept (hkey hzone).1]
      exact hkey hzone
  | initLock => trivial
  | hold seat => trivial

theorem visible_cases (now : ℕ) (store : Store Key) (key : Key) :
    store.visible now key = store key ∨ store.visible now key = none := by
  unfold Store.visible Slot.visible
  cases store key with
  | none => exact Or.inl rfl
  | some entry =>
      rw [Option.filter_some]
      split_ifs
      · exact Or.inl rfl
      · exact Or.inr rfl

theorem Dropped.visible (h : Dropped store) (now : ℕ) : Dropped (store.visible now) := by
  rcases visible_cases now store .modelMeta with hsame | hnone
  · exact h.of_eq hsame
  · exact dropped_of_missing hnone

theorem Refines.visible (h : Refines store s) (now : ℕ) :
    Refines (store.visible now) (s.visible now) where
  carries := h.carries.visible now
  models := fun model hmodel =>
    let shown := h.models model hmodel
    ⟨shown.stored.visible now, shown.inhabited, shown.logged⟩
  dropped := fun hnone => (h.dropped hnone).visible now
  lock := by
    show Slot.visible now (store .initLock) = _
    rw [h.lock]
    unfold Slot.visible Session.visible
    cases s.lock with
    | none => rfl
    | some lock =>
        rw [Option.map_some, Option.filter_some, Option.filter_some]
        show (if decide (now ≤ lock.deadline) = true then some lock.entry else none) = _
        split_ifs <;> rfl

end Visible

section Calls

variable {store after : Store Key} {s : Session} {env : Env} {maxlen : ℕ}

theorem wp_offLock {α : Type} {script : Script Key α} {Q : α → Store Key → Prop}
    {E : Store Key → Prop} (h : Wp script env store Q E) (hwrites : Writes Key.OffLock script) :
    Wp script env store (fun value after => Q value after ∧ after .initLock = store .initLock)
      fun after => E after ∧ after .initLock = store .initLock := by
  refine wp_mono (wp_and h (wp_frame hwrites)) ?_ ?_
  · rintro value after ⟨hq, hframe⟩
    exact ⟨hq, hframe _ id⟩
  · rintro after ⟨he, hframe⟩
    exact ⟨he, hframe _ id⟩

/-- Another model with the lock and the holds of the store. -/
theorem Refines.of_model {raw : Holds} {model : Model} (hcarries : Carries after raw)
    (hmodels : Models after model) (hlock : after .initLock = s.lock.map InitLock.entry) :
    Refines after ⟨raw, some model, s.lock⟩ where
  carries := hcarries
  models := by
    rintro _ ⟨rfl⟩
    exact hmodels
  dropped := nofun
  lock := hlock

theorem Refines.of_dropped {raw : Holds} (hcarries : Carries after raw) (hdropped : Dropped after)
    (hlock : after .initLock = s.lock.map InitLock.entry) : Refines after ⟨raw, none, s.lock⟩ where
  carries := hcarries
  models := nofun
  dropped := fun _ => hdropped
  lock := hlock

theorem Refines.drop (h : Refines store s) :
    Refines (Function.update store .modelMeta none) s.drop :=
  Refines.of_dropped (h.carries.of_eq fun seat =>
      Function.update_of_ne (show Key.hold seat ≠ .modelMeta from nofun) _ _)
    (dropped_of_missing (Function.update_self _ _ _))
    ((Function.update_of_ne (show Key.initLock ≠ .modelMeta from nofun) _ _).trans h.lock)

theorem hold_refines (h : Refines store s) {call : Call} (hvalid : call.Valid)
    (hmaxlen : maxlen ≠ 0) : Wp (call.run maxlen) env store
      (fun reply after => call.Answers s.raw reply ∧ Refines after (s.afterHold env maxlen call))
      fun _ => False := by
  have hdropped (hbind : s.model.bind (fun model => if model.Known call.seats then
        some (model.syncAll env maxlen (call.effect env.now s.raw) call.seats) else none) = none)
      (hrun : Wp (call.run maxlen) env store (fun reply after => call.Answers s.raw reply ∧
        Carries after (call.effect env.now s.raw) ∧ Dropped after) fun _ => False) :
      Wp (call.run maxlen) env store
        (fun reply after => call.Answers s.raw reply ∧ Refines after (s.afterHold env maxlen call))
        fun _ => False := by
    refine wp_mono (wp_offLock hrun (offLock_run maxlen call)) ?_ fun _ hfalse => hfalse.1
    rintro reply after ⟨⟨hanswers, hcarries, hafter⟩, hlock⟩
    refine ⟨hanswers, ?_⟩
    unfold Session.afterHold
    rw [hbind]
    exact Refines.of_dropped hcarries hafter (hlock.trans h.lock)
  cases hmodel : s.model with
  | none =>
      exact hdropped (by rw [hmodel]; rfl) (call.run_dropped (h.dropped hmodel) h.carries hvalid maxlen)
  | some model =>
      obtain ⟨hstored, hinhabited, hlogged⟩ := h.models model hmodel
      by_cases hknown : model.Known call.seats
      · refine wp_mono (wp_offLock (call.run_known hstored hinhabited h.carries hvalid hknown
          hmaxlen) (offLock_run maxlen call)) ?_ fun _ hfalse => hfalse.1
        rintro reply after ⟨⟨hanswers, hcarries, hafter⟩, hlock⟩
        refine ⟨hanswers, ?_⟩
        unfold Session.afterHold
        rw [hmodel, Option.bind_some, if_pos hknown]
        have hadvances := Model.advances_syncAll hknown.2 env maxlen (call.effect env.now s.raw)
        exact Refines.of_model hcarries ⟨hafter, hadvances.layout.inhabited hinhabited,
          hadvances.logged hlogged⟩ (hlock.trans h.lock)
      · exact hdropped (by rw [hmodel, Option.bind_some, if_neg hknown])
          (call.run_unknown hstored hinhabited h.carries hvalid hknown maxlen)

theorem expire_refines (h : Refines store s) {limit : ℕ} (hlimit : limit ≠ 0)
    (hmaxlen : maxlen ≠ 0) : Wp (expire limit maxlen) env store
      (fun reply after => ∃ t, s.Next env maxlen (.expire limit) (some reply) t ∧ Refines after t)
      fun _ => False := by
  cases hmodel : s.model with
  | none =>
      refine wp_of_done (expire_dropped (h.dropped hmodel) limit maxlen) ⟨_, .unclean ?_, h.drop⟩
      rw [hmodel]
      nofun
  | some model =>
      obtain ⟨hstored, hinhabited, hlogged⟩ := h.models model hmodel
      by_cases hfits : model.Fits
      · have hshown : Shown store (model, s.raw) := ⟨hstored, h.carries⟩
        refine wp_mono (wp_offLock (expire_known hshown hinhabited hfits hlimit hmaxlen)
          (offLock_expire limit maxlen)) ?_ fun _ hfalse => hfalse.1
        rintro reply after ⟨⟨ids, count, left, hexpired, hafter, rfl, hclean⟩, hlock⟩
        refine ⟨_, .cleaned hmodel hfits hexpired hclean, ?_⟩
        have hadvances := Model.advances_cleanSeats env maxlen (model, s.raw) ids
        exact Refines.of_model hafter.carries ⟨hafter.stored,
          hadvances.layout.inhabited hinhabited, hadvances.logged hlogged⟩ (hlock.trans h.lock)
      · refine wp_of_done (expire_unknown hstored hinhabited hfits limit maxlen)
          ⟨_, .unclean ?_, h.drop⟩
        rw [hmodel]
        rintro _ ⟨rfl⟩
        exact hfits

theorem apply_refines (h : Refines store s) (hmaxlen : maxlen ≠ 0) (id status version : String) :
    Wp (apply id status version maxlen) env store
      (fun reply after => ∃ t, s.Next env maxlen (.apply id status version) (some reply) t ∧
        Refines after t) fun _ => False := by
  cases hmodel : s.model with
  | none =>
      refine wp_of_done (apply_dropped (h.dropped hmodel) status version maxlen)
        ⟨s, ?_, h⟩
      have hlock : (store .initLock).isSome = s.lock.isSome := by
        rw [h.lock, Option.isSome_map]
      rw [hlock]
      exact .unready hmodel
  | some model =>
      obtain ⟨hstored, hinhabited, hlogged⟩ := h.models model hmodel
      cases hformal : formal (status ++ "|" ++ version) with
      | none =>
          refine wp_of_done (apply_invalid hstored hformal) ⟨s, .invalid hformal ?_, h⟩
          rw [hmodel]
          rfl
      | some next =>
          by_cases hknown : model.Known [id]
          · obtain ⟨rfl, -, n, rfl⟩ := formal_append hformal
            refine wp_mono (wp_and (apply_known hstored hinhabited hknown hmaxlen next.status n)
              (wp_frame (modelled_apply _ _ _ _))) ?_ fun _ hfalse => hfalse.1
            rintro reply after ⟨⟨hafter, rfl⟩, hframe⟩
            refine ⟨_, .applied hmodel hknown, ?_⟩
            have hadvances := Model.advances_project (hknown.2 id (List.mem_singleton_self id)) env
              maxlen next.status n
            exact Refines.of_model (h.carries.of_eq fun seat => hframe (.hold seat) not_false) ⟨hafter,
              hadvances.layout.inhabited hinhabited, hadvances.logged hlogged⟩
              ((hframe .initLock not_false).trans h.lock)
          · exact wp_of_done (apply_unknown hstored hinhabited hknown hmaxlen hformal)
              ⟨_, .unknown hmodel hknown, h.drop⟩

end Calls

section Lock

variable {store after : Store Key} {s : Session} {env : Env} {maxlen : ℕ}

/-- The lock is taken where there is none. -/
theorem setLock_done (hlock : store .initLock = s.lock.map InitLock.entry) {lockMs : ℕ}
    (hlockMs : lockMs ≠ 0) (token : String) : setNxPx .initLock token lockMs env store =
      .done s.lock.isNone (Function.update store .initLock
        (some (s.lock.getD ⟨token, env.now + lockMs⟩).entry)) := by
  refine atKey_ok ?_
  rw [hlock, if_neg hlockMs]
  cases s.lock <;> rfl

theorem Refines.locked (h : Refines store s) (hmodel : s.model = none) (lock : InitLock)
    (hafter : after .initLock = some lock.entry)
    (hdropped : Dropped after) (hholds : ∀ seat, after (.hold seat) = store (.hold seat)) :
    Refines after { s with lock := some lock } := by
  have hrefines : Refines after ⟨s.raw, none, some lock⟩ :=
    Refines.of_dropped (s := { s with lock := some lock }) (h.carries.of_eq hholds) hdropped hafter
  rw [← hmodel] at hrefines
  exact hrefines

theorem hash_of_kind {slot : Slot} (h : slot.kind = some .hash) :
    ∃ table, slot.hash = some table := by
  obtain ⟨⟨value, deadline⟩, rfl, hvalue⟩ := Option.map_eq_some_iff.mp h
  cases value with
  | hash table => exact ⟨table, rfl⟩
  | _ => cases hvalue

theorem acquire_refines (h : Refines store s) {lockMs : ℕ} (hlockMs : lockMs ≠ 0)
    (token : String) : Wp (acquire token lockMs) env store
      (fun reply after => ∃ t, s.Next env maxlen (.acquire token lockMs) (some reply) t ∧
        Refines after t) fun _ => False := by
  cases hmodel : s.model with
  | some model =>
      obtain ⟨fields, hfields, hready, -⟩ := (h.models model hmodel).stored .modelMeta
      have hkind := Slot.kind_of_field hfields.view (by rw [hready]; rfl)
      refine wp_bind (wp_typeOf ?_)
      rw [if_pos hkind]
      refine wp_bind (wp_hget hfields.view ?_)
      rw [if_pos hready]
      exact wp_pure ⟨s, .found (by rw [hmodel]; rfl), h⟩
  | none =>
      have hreply : (if s.lock.isNone then "WINNER" else "WAIT") =
          if s.lock.isSome then "WAIT" else "WINNER" := by
        cases s.lock <;> rfl
      have htake {before : Store Key} (hbefore : before .initLock = store .initLock)
          (hdropped : Dropped before)
          (hholds : ∀ seat, before (.hold seat) = store (.hold seat)) : Wp (do
            let won ← setNxPx .initLock token lockMs
            pure (Reply.strings [if won then "WINNER" else "WAIT"])) env before
          (fun reply after => ∃ t, s.Next env maxlen (.acquire token lockMs) (some reply) t ∧
            Refines after t) fun _ => False := by
        have hdone := @setLock_done before s env (hbefore.trans h.lock) lockMs hlockMs token
        refine wp_bind (wp_of_done hdone (wp_pure ⟨_, ?_, h.locked hmodel _
          (Function.update_self _ _ _) (hdropped.of_eq ?_) fun seat => ?_⟩))
        · rw [hreply]
          exact .acquired hmodel
        · exact Function.update_of_ne (show Key.modelMeta ≠ .initLock from nofun) _ _
        · rw [Function.update_of_ne (show Key.hold seat ≠ .initLock from nofun)]
          exact hholds seat
      have hdropped := h.dropped hmodel
      refine wp_bind (wp_typeOf ?_)
      by_cases hkind : (store .modelMeta).kind = some .hash
      · rw [if_pos hkind]
        obtain ⟨table, htable⟩ := hash_of_kind hkind
        have hflag : hget .modelMeta "ready" env store = .done (table.find "ready") store :=
          readKey_some htable
        refine wp_bind (wp_of_done hflag ?_)
        rw [if_neg]
        · exact htake rfl hdropped fun _ => rfl
        · -- otherwise the model would be ready
          intro hone
          have hready := hdropped env
          unfold ready at hready
          rw [bind_of_done (compatible_done (Or.inr hkind)), if_pos rfl, bind_of_done hflag, hone]
            at hready
          cases hready
      · rw [if_neg hkind]
        refine wp_bind (wp_of_done invalidate_done (htake ?_ (dropped_of_missing ?_) fun seat => ?_))
        · exact Function.update_of_ne (show Key.initLock ≠ .modelMeta from nofun) _ _
        · exact Function.update_self _ _ _
        · exact Function.update_of_ne (show Key.hold seat ≠ .modelMeta from nofun) _ _

/-- Only the lock of the session moves. -/
theorem Refines.of_lock (h : Refines store s) (lock : Option InitLock)
    (hlock : after .initLock = lock.map InitLock.entry)
    (hsame : ∀ key, key ≠ .initLock → after key = store key) : Refines after { s with lock } where
  carries := h.carries.of_eq fun seat => hsame (.hold seat) nofun
  models := fun model hmodel => by
    obtain ⟨hstored, hinhabited, hlogged⟩ := h.models model hmodel
    refine ⟨fun key => ?_, hinhabited, hlogged⟩
    by_cases hkey : key = .initLock
    · subst hkey
      trivial
    · rw [hsame key hkey]
      exact hstored key
  dropped := fun hnone => (h.dropped hnone).of_eq (hsame .modelMeta nofun)
  lock := hlock

theorem unlock_refines (h : Refines store s) (token : String) : Wp (unlock token) env store
    (fun reply after => ∃ t, s.Next env maxlen (.unlock token) (some reply) t ∧ Refines after t)
    fun _ => False := by
  have htext : (store .initLock).text = some (s.lock.map InitLock.token) := by
    rw [h.lock]
    cases s.lock <;> rfl
  refine wp_bind (wp_get htext ?_)
  by_cases htoken : s.lock.map InitLock.token = some token
  · rw [if_pos htoken]
    refine wp_bind (wp_bind (wp_del (wp_pure (wp_pure ⟨_, .unlocked, h.of_lock _ ?_ fun key hkey =>
      Function.update_of_ne hkey _ _⟩))))
    obtain ⟨lock, hlock, rfl⟩ := Option.map_eq_some_iff.mp htoken
    rw [Function.update_self, hlock, Option.filter_some, if_neg (by simp)]
    rfl
  · rw [if_neg htoken]
    refine wp_pure ⟨_, .unlocked, h.of_lock _ ?_ fun _ _ => rfl⟩
    rw [h.lock]
    cases hlock : s.lock with
    | none => rfl
    | some lock =>
        have hother : lock.token ≠ token := by
          rintro rfl
          exact htoken (by rw [hlock]; rfl)
        rw [Option.filter_some, if_pos (decide_eq_true hother)]

end Lock

section Rebuild

variable {store : Store Key} {s : Session} {env : Env} {maxlen : ℕ}

theorem init_refines (h : Refines store s) (token generation : String) {rows : List SeatRow}
    (hrows : rows ≠ []) : Wp (init token generation rows) env store
      (fun reply after => ∃ t, s.Next env maxlen (.init token generation rows) (some reply) t ∧
        Refines after t)
      fun after => ∃ t, s.Next env maxlen (.init token generation rows) none t ∧
        Refines after t := by
  refine wp_mono (wp_and (init_spec h.carries token generation rows) (init_lock token rows)) ?_ ?_
  · rintro reply after ⟨rfl | ⟨htext, hgood, rfl, hstored, hcarries⟩, hlock⟩
    · exact ⟨s, .refused, h⟩
    · have hlocked : s.lock.map InitLock.token = some token := by
        rw [h.lock] at htext
        cases hlock : s.lock with
        | none =>
            rw [hlock] at htext
            cases htext
        | some lock =>
            rw [hlock] at htext
            exact Option.some.inj htext
      refine ⟨_, .installed hlocked hgood, Refines.of_model (s := { s with lock := none }) hcarries
        ⟨hstored, inhabited_ofRows hgood hrows, Model.logged_ofRows _ _ _ _⟩ (hlock rfl)⟩
  · rintro after ⟨rfl | hunbuilt, hlock⟩
    · exact ⟨s, .refused, h⟩
    · exact ⟨_, .failed, Refines.of_dropped hunbuilt.carries (dropped_of_missing hunbuilt.missing)
        (hlock.trans h.lock)⟩

theorem read_refines (h : Refines store s) (zone generation since : String) (limit : ℕ) :
    Wp (read zone generation since limit) env store
      (fun reply after => ∃ t, s.Next env maxlen (.read zone generation since limit) (some reply) t ∧
        Refines after t)
      fun after => ∃ t, s.Next env maxlen (.read zone generation since limit) none t ∧
        Refines after t := by
  refine wp_mono (read_store zone generation since limit env store) ?_ ?_
  · rintro reply after (rfl | rfl)
    · exact ⟨s, .read, h⟩
    · exact ⟨_, .unread, h.drop⟩
  · rintro after (rfl | rfl)
    · exact ⟨s, .read, h⟩
    · exact ⟨_, .unread, h.drop⟩

/-- Every script moves the keys as the session moves. -/
theorem SessionCall.refines (h : Refines store s) {call : SessionCall} (hvalid : call.Valid)
    (hmaxlen : maxlen ≠ 0) : ∃ t, s.Next env maxlen call (call.script maxlen env store).value t ∧
      Refines (call.script maxlen env store).store t := by
  have hend {script : Script Key Reply} (hwp : Wp script env store
      (fun reply after => ∃ t, s.Next env maxlen call (some reply) t ∧ Refines after t)
      fun after => ∃ t, s.Next env maxlen call none t ∧ Refines after t) :
      ∃ t, s.Next env maxlen call (script env store).value t ∧
        Refines (script env store).store t := by
    cases hrun : script env store with
    | done reply after => exact wp_done hwp hrun
    | raised error after => exact wp_raised hwp hrun
  cases call with
  | hold call =>
      refine hend (wp_mono (hold_refines h hvalid hmaxlen) ?_ fun _ hfalse => hfalse.elim)
      rintro reply after ⟨hanswers, hafter⟩
      exact ⟨_, .hold hanswers, hafter⟩
  | expire limit =>
      exact hend (wp_mono (expire_refines h hvalid hmaxlen) (fun _ _ hq => hq)
        fun _ hfalse => hfalse.elim)
  | apply seat status version =>
      exact hend (wp_mono (apply_refines h hmaxlen seat status version) (fun _ _ hq => hq)
        fun _ hfalse => hfalse.elim)
  | acquire token lockMs =>
      exact hend (wp_mono (acquire_refines h hvalid token) (fun _ _ hq => hq)
        fun _ hfalse => hfalse.elim)
  | unlock token =>
      exact hend (wp_mono (unlock_refines h token) (fun _ _ hq => hq) fun _ hfalse => hfalse.elim)
  | init token generation rows => exact hend (init_refines h token generation hvalid)
  | read zone generation since limit => exact hend (read_refines h zone generation since limit)

end Rebuild

end Ticketing.Availability
