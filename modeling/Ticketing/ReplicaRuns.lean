import Ticketing.ZoneReplica
import Ticketing.FormalVersions

/-!
# Runs with a browser

A browser polls the zones of a session while all scripts run. After an answer with nothing more to
read it shows what a new snapshot would show, as long as no hold of the zone had expired without being
cleaned up when it was read.
-/

namespace Ticketing.Availability

open Redis Script Transition

theorem Session.Next.advances {env : Env} {maxlen : ℕ} {s t : Session} {call : SessionCall}
    {result : Option Reply} (hnext : s.Next env maxlen call result t)
    (hcall : call.installs = false) {model' : Model} (hmodel' : t.model = some model') :
    ∃ model, s.model = some model ∧ model.Advances model' := by
  cases hnext with
  | hold answers =>
      obtain ⟨model, hmodel, hsync⟩ := Option.bind_eq_some_iff.mp hmodel'
      split_ifs at hsync with hknown
      obtain rfl := Option.some.inj hsync
      exact ⟨model, hmodel, Model.advances_syncAll hknown.2 _ _ _⟩
  | cleaned shown fits expired clean =>
      obtain rfl := Option.some.inj hmodel'
      exact ⟨_, shown, Model.advances_cleanSeats env maxlen (_, s.raw) _⟩
  | @applied model id status version shown known =>
      obtain rfl := Option.some.inj hmodel'
      exact ⟨model, shown, Model.advances_project (known.2 id (List.mem_singleton_self id)) _ _ _ _⟩
  | unclean unfit => cases hmodel'
  | unknown shown unknown => cases hmodel'
  | unread => cases hmodel'
  | refused => cases hcall
  | failed => cases hcall
  | installed locked good => cases hcall
  | _ => exact ⟨model', hmodel', .refl model'⟩

/-- A browser with its settings. -/
structure Viewer where
  session : String
  own : String
  polling : SeatReadConfig
  maxlen : ℕ
  limit : ℕ
  maxlen_ne : maxlen ≠ 0

/-- The keys of a session and a browser that polls them. No generation is used twice. -/
structure Replica where
  keys : Keyspace
  generations : Finset String
  state : ZoneAvailabilityState

/-- The body that a browser gets; where the read is not in order, it gets none of the model. -/
def Viewer.answer (viewer : Viewer) (zone : String) : Option Reply → Option SyncBody
  | some (.strings ("OK" :: texts)) =>
      bodyOfTexts viewer.polling viewer.session zone viewer.own ("OK" :: texts)
  | _ => none

/-- No copy of a hold in the zone has expired. -/
def CopiesLive (store : Store Key) (now : ℕ) (zone : String) : Prop :=
  ∀ id ∈ membersOf (store (.zoneSeats zone)), ∀ copy,
    (fieldOf (store .holds) id).bind hold = some copy → now < copy.expiry

inductive ReplicaEvent where
  | script (env : Env) (call : SessionCall)
  | install (env : Env) (token generation : String) (rows : List SeatRow)
  | lose
  | poll (env : Env) (zone : String) (force : Bool)
  | degraded (response : SyncBody)
  | clear

namespace Replica

def readCall (viewer : Viewer) (r : Replica) (zone : String) (force : Bool) : SessionCall :=
  .read zone (r.state.request zone force).1 (r.state.request zone force).2 viewer.limit

def received (viewer : Viewer) (r : Replica) (env : Env) (zone : String) (force : Bool) :
    Option SyncBody :=
  viewer.answer zone (r.keys.run viewer.maxlen env (r.readCall viewer zone force)).value

/-- One poll of a zone; an answer that cannot be applied leaves the browser as it was. -/
def poll (viewer : Viewer) (r : Replica) (env : Env) (zone : String) (force : Bool) : Replica where
  keys := r.keys.after viewer.maxlen env (r.readCall viewer zone force)
  generations := r.generations
  state :=
    match r.received viewer env zone force with
    | some response =>
        if ZoneAvailabilityState.stalled (r.state.request zone force).2 response then r.state
        else (r.state.apply response).getD r.state
    | none => r.state

/-- With `strict`, the browser never reads a zone with a hold that has expired and is not cleaned
up. -/
def step (viewer : Viewer) (strict : Bool) : ReplicaEvent → Replica → Replica → Prop
  | .script env call, r, r' => call.Valid ∧ call.installs = false ∧
      r' = { r with keys := r.keys.after viewer.maxlen env call }
  | .install env token generation rows, r, r' => rows ≠ [] ∧
      generation ∉ r.generations ∧ generation ≠ "" ∧ r' = { r with
        keys := r.keys.after viewer.maxlen env (.init token generation rows)
        generations := insert generation r.generations }
  | .lose, r, r' => r' = { r with keys := ⟨fun _ => none, r.keys.now⟩ }
  | .poll env zone force, r, r' =>
      (strict = true → CopiesLive (r.keys.visible env) env.now zone) ∧
        r' = r.poll viewer env zone force
  | .degraded response, r, r' => response.generation = none ∧
      r' = { r with state := (r.state.apply response).getD r.state }
  | .clear, r, r' => r' = { r with state := { r.state with sync := fun _ => none } }

/-- The keys have no model, and nothing has been read. -/
structure Starts (r : Replica) : Prop where
  keys : Availability.Starts r.keys.store
  named : "" ∉ r.generations
  sync : ∀ zone, r.state.sync zone = none

/-- What the browser has read of the model that the keys stand for. -/
structure Informed (viewer : Viewer) (strict : Bool) (r : Replica) (s : Session) : Prop where
  named : "" ∉ r.generations
  used : ∀ model, s.model = some model → model.generation ∈ r.generations
  loaded : ∀ zone sync, r.state.sync zone = some sync → sync.loaded = true
  synced : ∀ zone sync generation, r.state.sync zone = some sync →
    sync.generation = some generation → generation ∈ r.generations
  follows : ∀ model zone sync, s.model = some model → zone ∈ model.zones →
    r.state.sync zone = some sync → sync.generation = some model.generation →
      ∃ cursor, sync.cursor = some (streamText cursor) ∧
        Follows strict viewer.own model r.state zone cursor

def Tracked (viewer : Viewer) (strict : Bool) (r : Replica) : Prop :=
  ∃ s, Refines r.keys.store s ∧ r.Informed viewer strict s

variable {viewer : Viewer} {strict : Bool} {r r' : Replica} {s t : Session} {env : Env}

theorem copiesLive_stored {store : Store Key} {model : Model} (h : Stored store model) {now : ℕ}
    {zone : String} (hzone : zone ∈ model.zones) (hlive : CopiesLive store now zone) :
    ∀ id ∈ model.zoneIds zone, ∀ held, model.hold id = some held → now < held.deadline := by
  intro id hid held hheld
  obtain ⟨hholds, howners⟩ := h .holds
  refine hlive id ?_ held.copy ?_
  · rw [membersOf_shows (h (.zoneSeats zone) hzone)]
    exact hid
  · rw [fieldOf_shows hholds, bind_hold (howners id), hheld]
    rfl

/-- The model moves on and the browser does not read. -/
theorem Informed.advance (h : r.Informed viewer strict s) {store : Store Key}
    (hrefines : Refines store s)
    (hmodel : ∀ model', t.model = some model' → ∃ model, s.model = some model ∧
      model.Advances model') (keys : Keyspace) :
    ({ r with keys } : Replica).Informed viewer strict t where
  named := h.named
  used := fun model' hmodel' => by
    obtain ⟨model, hold, hadvances⟩ := hmodel model' hmodel'
    rw [hadvances.layout.generation]
    exact h.used model hold
  loaded := h.loaded
  synced := h.synced
  follows := fun model' zone sync hmodel' hzone hsync hgeneration => by
    obtain ⟨model, hold, hadvances⟩ := hmodel model' hmodel'
    rw [hadvances.layout.generation] at hgeneration
    rw [hadvances.layout.zones] at hzone
    obtain ⟨cursor, hcursor, hfollows⟩ := h.follows model zone sync hold hzone hsync hgeneration
    have hsound := ((hrefines.models model hold).stored (.zoneChanges zone) hzone).2
    exact ⟨cursor, hcursor, hfollows.advance hadvances hsound⟩

theorem Informed.visible (h : r.Informed viewer strict s) (now : ℕ) :
    r.Informed viewer strict (s.visible now) := ⟨h.named, h.used, h.loaded, h.synced, h.follows⟩

/-- A new generation is one that the browser has not heard of. -/
theorem Informed.install (h : r.Informed viewer strict s) {token generation : String}
    {rows : List SeatRow} {result : Option Reply} {maxlen : ℕ}
    (hfresh : generation ∉ r.generations) (hnonempty : generation ≠ "")
    (hnext : s.Next env maxlen (.init token generation rows) result t) (keys : Keyspace) :
    ({ r with keys, generations := insert generation r.generations } : Replica).Informed viewer
      strict t := by
  have hsynced : ∀ zone sync known, r.state.sync zone = some sync →
      sync.generation = some known → known ∈ insert generation r.generations :=
    fun zone sync known hsync hknown => Finset.mem_insert_of_mem (h.synced zone sync known hsync hknown)
  have hnamed : "" ∉ insert generation r.generations := fun hmem =>
    (Finset.mem_insert.mp hmem).elim (fun hsame => hnonempty hsame.symm) h.named
  cases hnext with
  | refused => exact ⟨hnamed, fun model hmodel => Finset.mem_insert_of_mem (h.used model hmodel),
      h.loaded, hsynced, h.follows⟩
  | failed => exact ⟨hnamed, nofun, h.loaded, hsynced, nofun⟩
  | installed locked good =>
      refine ⟨hnamed, ?_, h.loaded, hsynced, ?_⟩
      · rintro _ ⟨rfl⟩
        rw [generation_ofRows]
        exact Finset.mem_insert_self _ _
      · rintro _ zone sync ⟨rfl⟩ - hsync hgeneration
        rw [generation_ofRows] at hgeneration
        exact absurd (h.synced zone sync generation hsync hgeneration) hfresh

/-- A body comes from a model, and from one of its zones it has a selection. -/
theorem received_known {zone : String} {force : Bool} {response : SyncBody}
    (hrefines : Refines (r.keys.visible env) s)
    (h : r.received viewer env zone force = some response) : ∃ model, s.model = some model ∧
      response.generation = some model.generation ∧ response.zone = zone ∧
        (zone ∈ model.zones →
          (r.keys.after viewer.maxlen env (r.readCall viewer zone force)).store =
            r.keys.visible env ∧ model.Fits ∧
          ∃ selection, model.Selects zone (r.state.request zone force).1
              (r.state.request zone force).2 viewer.limit selection ∧
            response = model.answer viewer.polling viewer.session zone viewer.own env.now
              selection) := by
  obtain ⟨texts, hvalue, hbody⟩ : ∃ texts,
      (r.keys.run viewer.maxlen env (r.readCall viewer zone force)).value =
        some (.strings ("OK" :: texts)) ∧
      bodyOfTexts viewer.polling viewer.session zone viewer.own ("OK" :: texts) = some response := by
    unfold received Viewer.answer at h
    split at h
    · rename_i texts hvalue
      exact ⟨texts, hvalue, h⟩
    · cases h
  obtain ⟨after, hrun⟩ : ∃ after, read zone (r.state.request zone force).1
      (r.state.request zone force).2 viewer.limit env (r.keys.visible env) =
        .done (.strings ("OK" :: texts)) after := by
    change (read zone (r.state.request zone force).1 (r.state.request zone force).2 viewer.limit env
      (r.keys.visible env)).value = _ at hvalue
    cases hscript : read zone (r.state.request zone force).1 (r.state.request zone force).2
        viewer.limit env (r.keys.visible env) with
    | done reply after =>
        rw [hscript] at hvalue
        exact ⟨after, by rw [Option.some.inj hvalue]⟩
    | raised error after =>
        rw [hscript] at hvalue
        cases hvalue
  cases hmodel : s.model with
  | none =>
      rw [read_dropped (hrefines.dropped hmodel)] at hrun
      injection hrun with hreply
      simp at hreply
  | some model =>
      have hmodels := hrefines.models model hmodel
      obtain ⟨mode, rest, rfl⟩ := wp_done (read_generation hmodels) hrun texts rfl
      obtain ⟨hgeneration, hzone⟩ := bodyOfTexts_generation hbody
      refine ⟨model, rfl, hgeneration, hzone, fun hlisted => ?_⟩
      obtain ⟨hafter, hfits, selection, hselects, htexts⟩ :=
        wp_done (read_known hmodels hlisted) hrun _ rfl
      refine ⟨?_, hfits, selection, hselects, ?_⟩
      · show (read zone _ _ viewer.limit env (r.keys.visible env)).store = _
        rw [hrun]
        exact hafter
      · rw [htexts, bodyOfTexts_replyTexts hmodels.stored] at hbody
        exact (Option.some.inj hbody).symm

/-- A browser that applies an answer of the zone. -/
theorem Informed.apply (h : r.Informed viewer strict s) (hrefines : Refines (r.keys.visible env) s)
    {zone : String} {force : Bool} {response : SyncBody}
    (hlive : strict = true → CopiesLive (r.keys.visible env) env.now zone)
    (hreceived : r.received viewer env zone force = some response)
    {state' : ZoneAvailabilityState} (happly : r.state.apply response = some state')
    (keys : Keyspace) : ({ r with keys, state := state' } : Replica).Informed viewer strict s := by
  obtain ⟨model, hmodel, hgeneration, rfl, hknown⟩ := received_known hrefines hreceived
  have happlies := ZoneAvailabilityState.applies happly
  have hsync (other : String) : state'.sync other = if other = response.zone then
      some ⟨true, response.generation, response.cursor, response.degraded⟩
      else r.state.sync other := by
    rw [happlies.sync]
    exact Function.update_apply _ _ _ _
  refine ⟨h.named, h.used, fun other sync hother => ?_, fun other sync generation hother hsome => ?_,
    fun model' other sync hmodel' hlisted hother hsome => ?_⟩
  · rw [hsync] at hother
    split_ifs at hother
    · obtain rfl := Option.some.inj hother
      rfl
    · exact h.loaded other sync hother
  · rw [hsync] at hother
    split_ifs at hother
    · obtain rfl := Option.some.inj hother
      obtain rfl := Option.some.inj (hgeneration.symm.trans hsome)
      exact h.used model hmodel
    · exact h.synced other sync generation hother hsome
  · obtain rfl := Option.some.inj (hmodel.symm.trans hmodel')
    rw [hsync] at hother
    split_ifs at hother with hsame
    · subst hsame
      obtain ⟨-, -, selection, hselects, hanswer⟩ := hknown hlisted
      have hstored := (hrefines.models model hmodel).stored
      rw [hanswer] at happlies
      obtain ⟨cursor, hcursor, hfollows, -⟩ := follows_of_answer hselects rfl
        (hstored (.zoneChanges response.zone) hlisted).2 happlies
        (fun sync hold hgeneration => h.follows model response.zone sync hmodel hlisted hold
          hgeneration)
        fun htrue => copiesLive_stored hstored hlisted (hlive htrue)
      obtain rfl := Option.some.inj hother
      refine ⟨cursor, ?_, hfollows⟩
      show response.cursor = _
      rw [hanswer, ← hcursor]
      rfl
    · obtain ⟨cursor, hcursor, hfollows⟩ := h.follows model other sync hmodel hlisted hother hsome
      exact ⟨cursor, hcursor, hfollows.other happlies hsame⟩

/-- An answer without a generation, as from the database. -/
theorem Informed.degraded (h : r.Informed viewer strict s) {response : SyncBody}
    (hnone : response.generation = none) {state' : ZoneAvailabilityState}
    (happly : r.state.apply response = some state') :
    ({ r with state := state' } : Replica).Informed viewer strict s := by
  have happlies := ZoneAvailabilityState.applies happly
  have hsync (other : String) : state'.sync other = if other = response.zone then
      some ⟨true, response.generation, response.cursor, response.degraded⟩
      else r.state.sync other := by
    rw [happlies.sync]
    exact Function.update_apply _ _ _ _
  refine ⟨h.named, h.used, fun other sync hother => ?_, fun other sync generation hother hsome => ?_,
    fun model other sync hmodel hlisted hother hsome => ?_⟩
  · rw [hsync] at hother
    split_ifs at hother
    · obtain rfl := Option.some.inj hother
      rfl
    · exact h.loaded other sync hother
  · rw [hsync] at hother
    split_ifs at hother
    · obtain rfl := Option.some.inj hother
      rw [hnone] at hsome
      cases hsome
    · exact h.synced other sync generation hother hsome
  · rw [hsync] at hother
    split_ifs at hother with hsame
    · obtain rfl := Option.some.inj hother
      rw [hnone] at hsome
      cases hsome
    · obtain ⟨cursor, hcursor, hfollows⟩ := h.follows model other sync hmodel hlisted hother hsome
      exact ⟨cursor, hcursor, hfollows.other happlies hsame⟩

theorem Informed.poll (h : r.Informed viewer strict s) (hrefines : Refines (r.keys.visible env) s)
    {zone : String} (hlive : strict = true → CopiesLive (r.keys.visible env) env.now zone)
    (force : Bool) : (r.poll viewer env zone force).Informed viewer strict s := by
  have hkept : ({ r with keys := r.keys.after viewer.maxlen env (r.readCall viewer zone force) } :
      Replica).Informed viewer strict s := ⟨h.named, h.used, h.loaded, h.synced, h.follows⟩
  unfold Replica.poll
  cases hreceived : r.received viewer env zone force with
  | none => exact hkept
  | some response =>
      dsimp only
      split_ifs with hstalled
      · exact hkept
      · cases happly : r.state.apply response with
        | none => exact hkept
        | some state' => exact h.apply hrefines hlive hreceived happly _

theorem Tracked.step (h : r.Tracked viewer strict) {event : ReplicaEvent}
    (hstep : step viewer strict event r r') : r'.Tracked viewer strict := by
  obtain ⟨s, hrefines, hinformed⟩ := h
  have hvisible (env : Env) := hrefines.visible env.now
  cases event with
  | script env call =>
      obtain ⟨hvalid, hcall, rfl⟩ := hstep
      obtain ⟨t, hnext, hafter⟩ := SessionCall.refines (hvisible env) hvalid viewer.maxlen_ne
      exact ⟨t, hafter, (hinformed.visible env.now).advance (hvisible env)
        (fun model' hmodel' => hnext.advances hcall hmodel') _⟩
  | install env token generation rows =>
      obtain ⟨hrows, hfresh, hnonempty, rfl⟩ := hstep
      obtain ⟨t, hnext, hafter⟩ := SessionCall.refines (hvisible env)
        (show (SessionCall.init token generation rows).Valid from hrows) viewer.maxlen_ne
      exact ⟨t, hafter, (hinformed.visible env.now).install hfresh hnonempty hnext _⟩
  | lose =>
      obtain rfl := hstep
      exact ⟨⟨fun _ => none, none, none⟩, ⟨⟨fun _ => rfl, nofun⟩, nofun,
        fun _ => dropped_of_missing rfl, rfl⟩, hinformed.named, nofun, hinformed.loaded,
        hinformed.synced, nofun⟩
  | poll env zone force =>
      obtain ⟨hlive, rfl⟩ := hstep
      have hpolled := (hinformed.visible env.now).poll (hvisible env) hlive force
      obtain ⟨t, hnext, hafter⟩ := SessionCall.refines (hvisible env)
        (show (r.readCall viewer zone force).Valid from trivial) viewer.maxlen_ne
      refine ⟨t, hafter, ?_⟩
      cases hnext with
      | read => exact hpolled
      | unread => exact ⟨hpolled.named, nofun, hpolled.loaded, hpolled.synced, nofun⟩
  | degraded response =>
      obtain ⟨hnone, rfl⟩ := hstep
      refine ⟨s, hrefines, ?_⟩
      cases happly : r.state.apply response with
      | none => exact hinformed
      | some state' => exact hinformed.degraded hnone happly
  | clear =>
      obtain rfl := hstep
      exact ⟨s, hrefines, hinformed.named, hinformed.used, nofun, nofun, nofun⟩

theorem tracked_run {events : List ReplicaEvent} (hstart : r.Starts)
    (hrun : Trace (step viewer strict) r events r') : r'.Tracked viewer strict := by
  refine hrun.invariant (I := fun r => r.Tracked viewer strict)
    (fun _ _ _ h hstep => h.step hstep) ?_
  obtain ⟨raw, hraw⟩ := hstart.keys.holds
  refine ⟨⟨raw, none, none⟩, ⟨hraw, nofun, fun _ => hstart.keys.dropped, hstart.keys.unlocked⟩,
    hstart.named, nofun, fun zone sync hsync => ?_, fun zone sync generation hsync => ?_, nofun⟩
  · rw [hstart.sync zone] at hsync
    cases hsync
  · rw [hstart.sync zone] at hsync
    cases hsync

theorem request_force (state : ZoneAvailabilityState) (zone : String) :
    state.request zone true = ("", "") := by
  unfold ZoneAvailabilityState.request
  split
  · exact if_pos (Or.inl rfl)
  · rfl

/-- A forced read answers with a snapshot. -/
theorem received_snapshot {zone : String} {response : SyncBody}
    (hrefines : Refines (r.keys.visible env) s) {model : Model} (hmodel : s.model = some model)
    (hzone : zone ∈ model.zones) (h : r.received viewer env zone true = some response) :
    ∃ ids : List String, (∀ id, id ∈ ids ↔ id ∈ model.zoneIds zone) ∧
      response.seats = ids.map fun id => ⟨id, model.display env.now viewer.own id⟩ := by
  obtain ⟨found, hfound, -, rfl, hknown⟩ := received_known hrefines h
  obtain rfl := Option.some.inj (hmodel.symm.trans hfound)
  obtain ⟨-, -, selection, hselects, hanswer⟩ := hknown hzone
  rw [request_force] at hselects
  rw [hanswer]
  cases hselects with
  | @snapshot ids reset reason hnodup hmembers => exact ⟨ids, hmembers, rfl⟩
  | delta known named found start kept => exact absurd rfl named

/-- After an answer with nothing more to read, a browser has the seats of a new snapshot, and what it
shows of a seat agrees with the snapshot. -/
def Answered (agrees : Option String → String → Prop) (viewer : Viewer) (r : Replica) (env : Env)
    (zone : String) (force : Bool) : Prop :=
  ∀ response state' fresh, r.received viewer env zone force = some response →
    response.hasMore = false → r.state.apply response = some state' →
    (r.poll viewer env zone force).received viewer env zone true = some fresh →
      (∀ id, id ∈ state'.members zone ↔ ∃ seat ∈ fresh.seats, seat.id = id) ∧
        ∀ seat ∈ fresh.seats, agrees (state'.statusBySeatId seat.id) seat.status

theorem Answered.imp {agrees agrees' : Option String → String → Prop} {zone : String} {force : Bool}
    (h : Answered agrees viewer r env zone force)
    (himp : ∀ status seat, agrees status seat → agrees' status seat) :
    Answered agrees' viewer r env zone force := by
  intro response state' fresh hreceived hend happly hfresh
  obtain ⟨hmembers, hseats⟩ := h response state' fresh hreceived hend happly hfresh
  exact ⟨hmembers, fun seat hseat => himp _ _ (hseats seat hseat)⟩

theorem Tracked.answered (h : r.Tracked viewer strict) {zone : String} (force : Bool)
    (hlive : CopiesLive (r.keys.visible env) env.now zone)
    {zones : List String} (hzones : (r.keys.visible env .zones).list = some zones)
    (hzone : zone ∈ zones) : Answered (fun status seat => status = some seat ∨
      strict = false ∧ status = some "AVAILABLE" ∧ seat = "HELD") viewer r env zone force := by
  intro response state' fresh hreceived hend happly hfresh
  obtain ⟨s, hrefines, hinformed⟩ := h
  have hvisible := hrefines.visible env.now
  obtain ⟨model, hmodel, -, rfl, hknown⟩ := received_known hvisible hreceived
  have hstored := (hvisible.models model hmodel).stored
  have hlist : zones = model.zones :=
    Option.some.inj (hzones.symm.trans (hstored .zones).view)
  rw [hlist] at hzone
  obtain ⟨hafter, -, selection, hselects, hanswer⟩ := hknown hzone
  have happlies := ZoneAvailabilityState.applies happly
  have hcopies := copiesLive_stored hstored hzone hlive
  rw [hanswer] at happlies hend
  obtain ⟨cursor, -, hfollows, hright⟩ := follows_of_answer hselects rfl
    (hstored (.zoneChanges response.zone) hzone).2 happlies
    (fun sync hsync hgeneration => hinformed.follows model response.zone sync hmodel hzone hsync
      hgeneration) fun _ => hcopies
  have hmore : selection.more ≠ "1" := of_decide_eq_false hend
  have hagain : Refines ((r.poll viewer env response.zone force).keys.visible env)
      ((s.visible env.now).visible env.now) := by
    have hsame : (r.poll viewer env response.zone force).keys.visible env =
        (r.keys.visible env).visible env.now := congrArg (Store.visible env.now) hafter
    rw [hsame]
    exact hvisible.visible env.now
  obtain ⟨ids, hids, hseats⟩ := received_snapshot hagain hmodel hzone hfresh
  rw [hseats]
  refine ⟨fun id => ?_, fun seat hseat => ?_⟩
  · rw [hfollows.members, ← hids]
    constructor
    · intro hid
      exact ⟨_, List.mem_map_of_mem hid, rfl⟩
    · rintro ⟨seat, hseat, rfl⟩
      obtain ⟨other, hother, rfl⟩ := List.mem_map.mp hseat
      exact hother
  · obtain ⟨id, hid, rfl⟩ := List.mem_map.mp hseat
    have hmem := (hids id).mp hid
    have hdisplay : model.display env.now viewer.own id = model.shownTo viewer.own id := by
      rcases display_cases model env.now viewer.own id with hsame | ⟨-, -, held, hheld, hover⟩
      · exact hsame
      · exact absurd (hcopies id hmem held hheld) (not_lt.mpr hover)
    show state'.statusBySeatId id = some (model.display env.now viewer.own id) ∨ strict = false ∧
      state'.statusBySeatId id = some "AVAILABLE" ∧ model.display env.now viewer.own id = "HELD"
    rw [hdisplay]
    exact hright hmore id hmem

/-- In every run in which a browser reads no hold that has expired, the browser converges: after an
answer with nothing more to read it shows what a new snapshot shows. -/
theorem replica_converges {events : List ReplicaEvent} (hstart : r.Starts)
    (hrun : Trace (step viewer true) r events r') {zone : String} (force : Bool)
    (hlive : CopiesLive (r'.keys.visible env) env.now zone)
    {zones : List String} (hzones : (r'.keys.visible env .zones).list = some zones)
    (hzone : zone ∈ zones) :
    Answered (fun status seat => status = some seat) viewer r' env zone force := by
  refine ((tracked_run hstart hrun).answered force hlive hzones hzone).imp fun status seat hseat =>
    hseat.resolve_right ?_
  rintro ⟨hstrict, -⟩
  cases hstrict

/-- In every run, the only seats that are shown wrongly are held ones that are shown as available. -/
theorem replica_drift {events : List ReplicaEvent} (hstart : r.Starts)
    (hrun : Trace (step viewer false) r events r') {zone : String} (force : Bool)
    (hlive : CopiesLive (r'.keys.visible env) env.now zone)
    {zones : List String} (hzones : (r'.keys.visible env .zones).list = some zones)
    (hzone : zone ∈ zones) : Answered (fun status seat => status = some seat ∨
      status = some "AVAILABLE" ∧ seat = "HELD") viewer r' env zone force :=
  ((tracked_run hstart hrun).answered force hlive hzones hzone).imp fun _ _ hseat =>
    hseat.imp_right And.right

section Example

def exampleViewer : Viewer := ⟨"session", "", {}, 10, 5, Nat.succ_ne_zero _⟩

/-- A browser of a session with one seat, before anything is read. -/
def unread : Replica := ⟨emptyKeys, ∅,
  ⟨[⟨"seat", "zone"⟩], fun _ => none, fun _ => none, [], List.nodup_singleton _⟩⟩

def modelled : Replica := { unread with
  keys := (emptyKeys.after 10 ⟨1, fun _ => 0⟩ (.acquire "token" 1000)).after 10 ⟨2, fun _ => 0⟩
    (.init "token" "generation" [⟨"seat", "AVAILABLE", "1", "zone"⟩])
  generations := insert "generation" ∅ }

/-- The browser reads the zone, and then the seat is held. -/
def overtaken : Replica :=
  let watching := modelled.poll exampleViewer ⟨3, fun _ => 0⟩ "zone" false
  { watching with
    keys := watching.keys.after 10 ⟨4, fun _ => 0⟩ (.hold (.ensure "checkout" 1 1000 ["seat"])) }

/-- What the browser gets next. -/
def heldAnswer : SyncBody := ⟨"session", "zone", "delta", some "generation",
  some (streamText (4 * 2 ^ 64)), false, false, false, [⟨"zone", 1, 0, 1, 0⟩], [⟨"seat", "HELD"⟩],
  2000⟩

theorem copiesLive_of_copy {store : Store Key} {now : ℕ} (copy : Option Hold)
    (hmembers : membersOf (store (.zoneSeats "zone")) = {"seat"})
    (hcopy : (fieldOf (store .holds) "seat").bind hold = copy)
    (hlive : copy.all fun found => decide (now < found.expiry)) : CopiesLive store now "zone" := by
  intro id hid found hfound
  rw [hmembers, Finset.mem_singleton] at hid
  subst hid
  rw [hcopy] at hfound
  rw [hfound] at hlive
  exact of_decide_eq_true hlive

theorem reaches_overtaken :
    ∃ events, Trace (step exampleViewer true) unread events overtaken := by
  refine ⟨[.script ⟨1, fun _ => 0⟩ (.acquire "token" 1000), .install ⟨2, fun _ => 0⟩ "token"
    "generation" [⟨"seat", "AVAILABLE", "1", "zone"⟩], .poll ⟨3, fun _ => 0⟩ "zone" false,
    .script ⟨4, fun _ => 0⟩ (.hold (.ensure "checkout" 1 1000 ["seat"]))],
    .cons ⟨Nat.succ_ne_zero _, rfl, rfl⟩ (.cons ⟨List.cons_ne_nil _ _, Finset.notMem_empty _,
      by decide, rfl⟩ (.cons ⟨fun _ => ?_, rfl⟩ (.cons ⟨⟨⟨by decide, by decide⟩, by decide⟩, rfl,
        rfl⟩ (.nil _))))⟩
  exact copiesLive_of_copy none (by decide +kernel) (by decide +kernel) rfl

/-- The browser shows the hold, as a new snapshot does. -/
theorem replica_converges_overtaken :
    overtaken.received exampleViewer ⟨5, fun _ => 0⟩ "zone" false = some heldAnswer ∧
      Answered (fun status seat => status = some seat) exampleViewer overtaken ⟨5, fun _ => 0⟩ "zone"
        false := by
  obtain ⟨events, hrun⟩ := reaches_overtaken
  exact ⟨by decide +kernel, replica_converges
    ⟨starts_empty, Finset.notMem_empty _, fun _ => rfl⟩ hrun false
    (copiesLive_of_copy (some ⟨"checkout", "1", 1004⟩) (by decide +kernel) (by decide +kernel) rfl)
    (show (overtaken.keys.visible ⟨5, fun _ => 0⟩ .zones).list = some ["zone"] by decide +kernel)
    (List.mem_singleton_self _)⟩

/-- The hold is over when the browser reads on, and its owner renews it before anybody cleans it
up. -/
def renewed : Replica :=
  let reading := { modelled.poll exampleViewer ⟨3, fun _ => 0⟩ "zone" false with
    keys := (modelled.poll exampleViewer ⟨3, fun _ => 0⟩ "zone" false).keys.after 10
      ⟨4, fun _ => 0⟩ (.hold (.ensure "checkout" 1 5 ["seat"])) }
  let read := reading.poll exampleViewer ⟨10, fun _ => 0⟩ "zone" false
  { read with
    keys := read.keys.after 10 ⟨11, fun _ => 0⟩ (.hold (.ensure "checkout" 1 1000 ["seat"])) }

/-- What the browser gets next: nothing has changed. -/
def unchanged : SyncBody := { heldAnswer with seats := [], pollAfterMs := 5000 }

theorem reaches_renewed :
    ∃ events, Trace (step exampleViewer false) unread events renewed := by
  refine ⟨[.script ⟨1, fun _ => 0⟩ (.acquire "token" 1000), .install ⟨2, fun _ => 0⟩ "token"
    "generation" [⟨"seat", "AVAILABLE", "1", "zone"⟩], .poll ⟨3, fun _ => 0⟩ "zone" false,
    .script ⟨4, fun _ => 0⟩ (.hold (.ensure "checkout" 1 5 ["seat"])),
    .poll ⟨10, fun _ => 0⟩ "zone" false,
    .script ⟨11, fun _ => 0⟩ (.hold (.ensure "checkout" 1 1000 ["seat"]))],
    .cons ⟨Nat.succ_ne_zero _, rfl, rfl⟩ (.cons ⟨List.cons_ne_nil _ _, Finset.notMem_empty _,
      by decide, rfl⟩ (.cons ⟨?_, rfl⟩ (.cons ⟨⟨⟨by decide, by decide⟩, by decide⟩, rfl, rfl⟩
        (.cons ⟨?_, rfl⟩ (.cons ⟨⟨⟨by decide, by decide⟩, by decide⟩, rfl, rfl⟩ (.nil _))))))⟩ <;>
  · intro hstrict
    cases hstrict

/-- The browser goes on showing the seat as available, while a new snapshot shows the hold. -/
theorem renewal_unseen : (∃ events, Trace (step exampleViewer false) unread events renewed) ∧
    CopiesLive (renewed.keys.visible ⟨12, fun _ => 0⟩) 12 "zone" ∧
    renewed.received exampleViewer ⟨12, fun _ => 0⟩ "zone" false = some unchanged ∧
    ¬ Answered (fun status seat => status = some seat) exampleViewer renewed ⟨12, fun _ => 0⟩ "zone"
      false := by
  have hreceived : renewed.received exampleViewer ⟨12, fun _ => 0⟩ "zone" false = some unchanged :=
    by decide +kernel
  refine ⟨reaches_renewed, copiesLive_of_copy (some ⟨"checkout", "1", 1011⟩) (by decide +kernel)
    (by decide +kernel) rfl, hreceived, fun hanswered => ?_⟩
  obtain ⟨state', happly, hstatus⟩ := Option.map_eq_some_iff.mp
    (show (renewed.state.apply unchanged).map (fun state => state.statusBySeatId "seat") =
      some (some "AVAILABLE") by decide +kernel)
  obtain ⟨fresh, hfresh, hseats⟩ := Option.map_eq_some_iff.mp
    (show ((renewed.poll exampleViewer ⟨12, fun _ => 0⟩ "zone" false).received exampleViewer
      ⟨12, fun _ => 0⟩ "zone" true).map SyncBody.seats = some [⟨"seat", "HELD"⟩] by decide +kernel)
  have hshown := (hanswered _ state' fresh hreceived rfl happly hfresh).2 ⟨"seat", "HELD"⟩
    (by rw [hseats]; exact List.mem_singleton_self _)
  rw [hstatus] at hshown
  exact absurd hshown (by decide)

/-- The seat that is shown as available is held. -/
theorem replica_drift_renewed : Answered (fun status seat => status = some seat ∨
    status = some "AVAILABLE" ∧ seat = "HELD") exampleViewer renewed ⟨12, fun _ => 0⟩ "zone"
      false := by
  obtain ⟨events, hrun⟩ := reaches_renewed
  exact replica_drift ⟨starts_empty, Finset.notMem_empty _, fun _ => rfl⟩ hrun false
    (copiesLive_of_copy (some ⟨"checkout", "1", 1011⟩) (by decide +kernel) (by decide +kernel) rfl)
    (show (renewed.keys.visible ⟨12, fun _ => 0⟩ .zones).list = some ["zone"] by decide +kernel)
    (List.mem_singleton_self _)

end Example

end Replica

end Ticketing.Availability
