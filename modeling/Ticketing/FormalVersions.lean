import Ticketing.SessionRuns

/-!
# The formal states of a model

Scripts other than initialisations leave the formal states of a model alone, except for the one that
a projection carries, whose version is then beyond the version before. So between initialisations the
version of a seat never falls.
-/

namespace Ticketing.Availability

open Redis Script Transition

/-- The formal state of a seat and its version. -/
structure FormalSeat where
  status : SeatStatus
  version : ℕ
  deriving DecidableEq

def SeatState.formal (seat : SeatState) : FormalSeat := ⟨seat.status, seat.version⟩

theorem formal_ext {seat seat' : SeatState} (hstatus : seat.status = seat'.status)
    (hversion : seat.version = seat'.version) : seat.formal = seat'.formal := by
  unfold SeatState.formal
  rw [hstatus, hversion]

namespace Model

variable {model : Model}

theorem formal_cleanSeats (env : Env) (maxlen : ℕ) (s : Model × Holds) (ids : List String)
    (id : String) : ((cleanSeats env maxlen s ids).1.seat id).formal = (s.1.seat id).formal := by
  induction ids generalizing s with
  | nil => rfl
  | cons other ids ih =>
      obtain ⟨hstatus, hversion⟩ := cleanSeat_formal env maxlen s other id
      exact (ih _).trans (formal_ext hstatus hversion)

theorem formal_project_self (env : Env) (maxlen : ℕ) (id : String) (status : SeatStatus)
    (version : ℕ) : ((model.project env maxlen id status version).seat id).formal =
      if (model.seat id).version < version then ⟨status, version⟩ else (model.seat id).formal := by
  unfold project
  split_ifs
  · show (Function.update model.seat id _ id).formal = _
    rw [Function.update_self]
    rfl
  · rfl

theorem formal_project_of_ne {id other : String} (hother : other ≠ id) (env : Env) (maxlen : ℕ)
    (status : SeatStatus) (version : ℕ) :
    ((model.project env maxlen id status version).seat other).formal =
      (model.seat other).formal := by
  unfold project
  split_ifs
  · show (Function.update model.seat id _ other).formal = _
    rw [Function.update_of_ne hother]
  · rfl

end Model

/-- The seat has the formal state that it had, or the newer one of a projection. -/
def Projected (call : SessionCall) (id : String) (old new : FormalSeat) : Prop :=
  new = old ∨ old.version < new.version ∧
    call = .apply id (statusName new.status) (toString new.version)

/-- A script that installs a model. -/
def SessionCall.installs : SessionCall → Bool
  | init _ _ _ => true
  | _ => false

/-- A model after any other script is one from before, with at most one formal state projected. -/
theorem Session.Next.formal {env : Env} {maxlen : ℕ} {s t : Session} {call : SessionCall}
    {result : Option Reply} (hnext : s.Next env maxlen call result t)
    (hcall : call.installs = false) {model' : Model} (hmodel' : t.model = some model') :
    ∃ model, s.model = some model ∧ model.SameLayout model' ∧
      ∀ id, Projected call id (model.seat id).formal (model'.seat id).formal := by
  cases hnext with
  | hold answers =>
      obtain ⟨model, hmodel, hsync⟩ := Option.bind_eq_some_iff.mp hmodel'
      split_ifs at hsync
      obtain rfl := Option.some.inj hsync
      refine ⟨model, hmodel, Model.sameLayout_syncAll _ _ _ _, fun id => Or.inl ?_⟩
      obtain ⟨hstatus, hversion⟩ := Model.formal_syncAll env maxlen _ _ id
      exact formal_ext hstatus hversion
  | cleaned shown fits expired clean =>
      obtain rfl := Option.some.inj hmodel'
      exact ⟨_, shown, cleanSeats_layout env maxlen (_, s.raw) _,
        fun id => Or.inl (Model.formal_cleanSeats _ _ _ _ id)⟩
  | unclean unfit => cases hmodel'
  | @applied model id status version shown known =>
      obtain rfl := Option.some.inj hmodel'
      have hlayout :=
        (Model.advances_project (known.2 id (List.mem_singleton_self id)) env maxlen status
          version).layout
      refine ⟨model, shown, hlayout, fun other => ?_⟩
      by_cases hother : other = id
      · subst hother
        rw [Model.formal_project_self]
        split_ifs with hnewer
        · exact Or.inr ⟨hnewer, rfl⟩
        · exact Or.inl rfl
      · exact Or.inl (Model.formal_project_of_ne hother _ _ _ _)
  | unknown shown unknown => cases hmodel'
  | invalid malformed shown => exact ⟨model', hmodel', .refl _, fun _ => Or.inl rfl⟩
  | unready missing => exact ⟨model', hmodel', .refl _, fun _ => Or.inl rfl⟩
  | found shown => exact ⟨model', hmodel', .refl _, fun _ => Or.inl rfl⟩
  | acquired missing => exact ⟨model', hmodel', .refl _, fun _ => Or.inl rfl⟩
  | unlocked => exact ⟨model', hmodel', .refl _, fun _ => Or.inl rfl⟩
  | refused => cases hcall
  | failed => cases hcall
  | installed locked good => cases hcall
  | read => exact ⟨model', hmodel', .refl _, fun _ => Or.inl rfl⟩
  | unread => cases hmodel'

theorem Projected.version_le {call : SessionCall} {id : String} {old new : FormalSeat}
    (h : Projected call id old new) : old.version ≤ new.version := by
  rcases h with rfl | ⟨hnewer, -⟩
  · exact le_rfl
  · exact hnewer.le

/-- The version that the model has of a seat. -/
def versionIn (store : Store Key) (id : String) : Option ℕ :=
  ((fieldOf (store .formal) id).bind formal).bind fun found => natural found.version.toList

theorem versionIn_stored {store : Store Key} {model : Model} (h : Stored store model) (id : String) :
    versionIn store id = (model.find id).map SeatState.version := by
  unfold versionIn
  rw [fieldOf_shows (h .formal)]
  cases hfind : model.find id with
  | none => rfl
  | some seat =>
      rw [Option.map_some, Option.bind_some, formal_formalText, Option.bind_some, natural_toString]
      rfl

/-- The versions of a model with the same seats are no older. -/
theorem version_grows {model model' : Model} (hlayout : model.SameLayout model') {id : String}
    (hle : (model.seat id).version ≤ (model'.seat id).version) {version : ℕ}
    (hversion : (model.find id).map SeatState.version = some version) :
    ∃ version', (model'.find id).map SeatState.version = some version' ∧ version ≤ version' := by
  obtain ⟨seat, hseat, rfl⟩ := Option.map_eq_some_iff.mp hversion
  have hid : id ∈ model.ids := by
    by_contra hid
    rw [Model.find_of_notMem hid] at hseat
    cases hseat
  rw [Model.find_of_mem hid] at hseat
  obtain rfl := Option.some.inj hseat
  refine ⟨(model'.seat id).version, ?_, hle⟩
  rw [Model.find_of_mem (by rw [hlayout.ids]; exact hid)]
  rfl

def SessionEvent.installs : SessionEvent → Bool
  | .call _ script => script.installs
  | .lose => false

/-- A session whose model, if there is one, is an older one with the same seats. -/
structure Grown (old : Session) (k : Keyspace) (s : Session) : Prop where
  refines : Refines k.store s
  mirrors : s.Mirrors True k.now
  grown : ∀ model', s.model = some model' → ∃ model, old.model = some model ∧
    model.SameLayout model' ∧ ∀ id, (model.seat id).version ≤ (model'.seat id).version

theorem Grown.step {maxlen : ℕ} (hmaxlen : maxlen ≠ 0) {old s : Session} {k k' : Keyspace}
    {event : SessionEvent} (hevent : event.installs = false) (h : Grown old k s)
    (hstep : Keyspace.step maxlen event k k') : ∃ t, Grown old k' t := by
  cases event with
  | call env call =>
      obtain ⟨hnow, hvalid, rfl⟩ := hstep
      have hmirrors := h.mirrors.visible fun _ => hnow
      obtain ⟨t, hnext, hafter⟩ := SessionCall.refines (h.refines.visible env.now) hvalid hmaxlen
      refine ⟨t, hafter, hmirrors.next hnext, fun model'' hmodel'' => ?_⟩
      obtain ⟨model', hmodel', hlayout', hformal⟩ := hnext.formal hevent hmodel''
      obtain ⟨model, hmodel, hlayout, hversion⟩ := h.grown model' hmodel'
      exact ⟨model, hmodel, hlayout.trans hlayout',
        fun id => (hversion id).trans (hformal id).version_le⟩
  | lose =>
      obtain rfl := hstep
      exact ⟨⟨fun _ => none, none, none⟩,
        ⟨⟨fun _ => rfl, nofun⟩, nofun, fun _ => dropped_of_missing rfl, rfl⟩, Session.mirrors_none rfl,
        nofun⟩

/-- In every state that is reached, as long as no initialisation runs and the model stays ready, no
version of a seat falls. -/
theorem versions_never_fall {maxlen : ℕ} (hmaxlen : maxlen ≠ 0) {k k' k'' : Keyspace}
    {events events' : List SessionEvent} (hstart : Starts k.store)
    (hrun : Trace (Keyspace.step maxlen) k events k')
    (hmore : Trace (Keyspace.step maxlen) k' events' k'')
    (hevents : ∀ event ∈ events', event.installs = false) (hready : Ready k''.store) {id : String}
    {version : ℕ} (hversion : versionIn k'.store id = some version) :
    ∃ version', versionIn k''.store id = some version' ∧ version ≤ version' := by
  obtain ⟨s, hrefines, hmirrors⟩ := Keyspace.tracked_run hmaxlen hstart hrun
  have hgrown : ∃ t, Grown s k'' t :=
    hmore.preserves (I := fun k => ∃ t, Grown s k t) (P := fun event => event.installs = false)
      (fun _ _ _ hevent h hstep => by
        obtain ⟨t, ht⟩ := h
        exact ht.step hmaxlen hevent hstep) hevents
      ⟨s, hrefines, hmirrors, fun model hmodel => ⟨model, hmodel, .refl model, fun _ => le_rfl⟩⟩
  obtain ⟨t, ht⟩ := hgrown
  obtain ⟨model', hmodel', hstored', -, -⟩ := ht.refines.ready hready
  obtain ⟨model, hmodel, hlayout, hle⟩ := ht.grown model' hmodel'
  have hstored := (hrefines.models model hmodel).stored
  rw [versionIn_stored hstored] at hversion
  rw [versionIn_stored hstored']
  exact version_grows hlayout (hle id) hversion

/-- A newer version of the held seat is projected. -/
theorem versions_never_fall_heldSeat : ∃ version',
    versionIn (heldSeat.after 10 ⟨4, fun _ => 0⟩ (.apply "seat" "HELD" "7")).store "seat" =
      some version' ∧ 1 ≤ version' := by
  obtain ⟨events, hrun⟩ := reaches_heldSeat
  have hstep : Keyspace.step 10 (.call ⟨4, fun _ => 0⟩ (.apply "seat" "HELD" "7")) heldSeat
      (heldSeat.after 10 ⟨4, fun _ => 0⟩ (.apply "seat" "HELD" "7")) := ⟨by decide, trivial, rfl⟩
  refine versions_never_fall (by decide) starts_empty hrun (.single hstep) ?_
    (by unfold Ready; decide +kernel) (by decide +kernel)
  rintro event hevent
  obtain rfl := List.mem_singleton.mp hevent
  rfl

end Ticketing.Availability
