import Ticketing.ProjectionProtocol

/-!
# Runs of the projection

A script that is sent leaves the model as it was, moves one of its seats to the state of an event, or
installs what was carried under the lock. So the model never gets ahead of the database, and no event
is lost: as long as no event of a seat is in the outbox, a ready model has the newest state.
-/

namespace Ticketing.Availability

open Redis Script

theorem Session.Next.lock {env : Env} {maxlen : ℕ} {s t : Session} {call : SessionCall}
    {result : Option Reply} (hnext : s.Next env maxlen call result t) {lock : InitLock}
    (hlock : t.lock = some lock) :
    s.lock = some lock ∨ ∃ lockMs, call = .acquire lock.token lockMs := by
  cases hnext with
  | @acquired token lockMs missing =>
      cases hheld : s.lock with
      | none =>
          have htaken : some (s.lock.getD ⟨token, env.now + lockMs⟩) = some lock := hlock
          rw [hheld] at htaken
          obtain rfl := Option.some.inj htaken
          exact Or.inr ⟨lockMs, rfl⟩
      | some held =>
          have htaken : some (s.lock.getD ⟨token, env.now + lockMs⟩) = some lock := hlock
          rw [hheld] at htaken
          exact Or.inl htaken
  | unlocked => exact Or.inl (Option.filter_eq_some_iff.mp hlock).1
  | installed locked good => cases hlock
  | _ => exact Or.inl hlock

section Snapshots

variable {layout : Layout} {generation : String} {env : Env} {raw : Holds}
  {seats : String → FormalSeat}

theorem mem_rows {row : SeatRow} : row ∈ layout.rows seats ↔ ∃ id zone, (id, zone) ∈ layout.seats ∧
    row = ⟨id, statusName (seats id).status, toString (seats id).version, zone⟩ := by
  unfold Layout.rows
  rw [List.mem_map]
  constructor
  · rintro ⟨⟨id, zone⟩, hentry, rfl⟩
    exact ⟨id, zone, hentry, rfl⟩
  · rintro ⟨id, zone, hentry, rfl⟩
    exact ⟨(id, zone), hentry, rfl⟩

theorem placed_rows (hgood : GoodRows (layout.rows seats)) :
    layout.Placed (Model.ofRows generation env raw (layout.rows seats)) := by
  intro id zone
  constructor
  · intro hentry
    obtain ⟨hid, hseat⟩ := @mem_ofRows env raw generation _ hgood _
      (mem_rows.mpr ⟨id, zone, hentry, rfl⟩)
    exact ⟨hid, by rw [hseat]; rfl⟩
  · rintro ⟨hid, rfl⟩
    obtain ⟨row, hrow, rfl, hstate⟩ := (find_ofRows hgood id _).mp (Model.find_of_mem hid)
    obtain ⟨id, zone, hentry, rfl⟩ := mem_rows.mp hrow
    rw [← hstate]
    exact hentry

theorem formal_rows (hgood : GoodRows (layout.rows seats)) {id : String}
    (hid : id ∈ (Model.ofRows generation env raw (layout.rows seats)).ids) :
    ((Model.ofRows generation env raw (layout.rows seats)).seat id).formal = seats id := by
  obtain ⟨row, hrow, rfl, hstate⟩ := (find_ofRows hgood id _).mp (Model.find_of_mem hid)
  obtain ⟨id, zone, hentry, rfl⟩ := mem_rows.mp hrow
  rw [← hstate]
  unfold SeatRow.state SeatState.formal
  dsimp only
  rw [statusOfName_statusName, natural_toString, Option.getD_some, Option.getD_some]

theorem Layout.Placed.mem {model : Model} (h : layout.Placed model) {id : String} :
    id ∈ model.ids ↔ id ∈ layout.ids := by
  constructor
  · intro hid
    exact List.mem_map_of_mem ((h id _).mpr ⟨hid, rfl⟩)
  · intro hid
    obtain ⟨⟨id, zone⟩, hentry, rfl⟩ := List.mem_map.mp hid
    exact ((h id zone).mp hentry).1

theorem Layout.Placed.of_sameLayout {model model' : Model} (h : layout.Placed model)
    (hlayout : model.SameLayout model') : layout.Placed model' := by
  intro id zone
  rw [hlayout.ids, hlayout.zone]
  exact h id zone

theorem rows_ne_nil : layout.rows seats ≠ [] := by
  unfold Layout.rows
  rw [Ne, List.map_eq_nil_iff]
  exact layout.nonempty

end Snapshots

namespace Projection

variable {timely : Prop} {p p' : Projection} {layout : Layout} {settings : AvailabilitySettings}
  {s t : Session} {env : Env} {maxlen : ℕ}

/-- A script of somebody who takes part. -/
inductive Sendable (layout : Layout) (p : Projection) : SessionCall → Prop where
  | outside {call : SessionCall} (outside : Outside call) : Sendable layout p call
  | acquire {token : String} {lockMs : ℕ} (positive : lockMs ≠ 0)
      (empty : ∀ seats, ¬ p.Carried token seats) : Sendable layout p (.acquire token lockMs)
  | install {token generation : String} {seats : String → FormalSeat}
      (carried : p.Carried token seats) :
      Sendable layout p (.init token generation (layout.rows seats))
  | unlock {token : String} : Sendable layout p (.unlock token)
  | apply {change : SeatChange} (pending : p.Pending change) :
      Sendable layout p (applyCall change)

theorem Sendable.valid {call : SessionCall} (h : Sendable layout p call) : call.Valid := by
  cases h with
  | outside houtside =>
      cases call with
      | hold call => exact houtside
      | expire limit => exact houtside
      | read zone generation since limit => trivial
      | _ => cases houtside
  | acquire hpositive hempty => exact hpositive
  | install hcarried => exact rows_ne_nil
  | unlock => trivial
  | apply hpending => trivial

theorem applyCall_inj {change : SeatChange} {id : String} {formal : FormalSeat}
    (h : applyCall change = .apply id (statusName formal.status) (toString formal.version)) :
    change.seat = id ∧ change.formal = formal := by
  obtain ⟨hseat, hstatus, hversion⟩ := SessionCall.apply.inj h
  have hname := congrArg statusOfName hstatus
  have hnumber := congrArg (fun text => natural text.toList) hversion
  rw [statusOfName_statusName, statusOfName_statusName] at hname
  rw [natural_toString, natural_toString] at hnumber
  refine ⟨hseat, ?_⟩
  cases hformal : change.formal with
  | mk status version =>
      rw [hformal] at hname hnumber
      cases formal
      obtain rfl := Option.some.inj hname
      obtain rfl := Option.some.inj hnumber
      rfl

/-- A seat of a model after a script, against the session before it. -/
theorem Sendable.model {call : SessionCall} (h : Sendable layout p call)
    {result : Option Reply} (hnext : s.Next env maxlen call result t) {model' : Model}
    (hmodel' : t.model = some model') :
    (∃ model, s.model = some model ∧ model.SameLayout model' ∧
      ∀ id, Projected call id (model.seat id).formal (model'.seat id).formal) ∨
    ∃ lock seats, s.lock = some lock ∧ p.Carried lock.token seats ∧
      layout.Placed model' ∧
      ∀ id ∈ model'.ids, (model'.seat id).formal = seats id := by
  cases h with
  | @install token generation seats hcarried =>
      cases hnext with
      | refused => exact Or.inl ⟨model', hmodel', .refl _, fun _ => Or.inl rfl⟩
      | failed => cases hmodel'
      | installed locked good =>
          obtain ⟨lock, hlock, rfl⟩ := Option.map_eq_some_iff.mp locked
          obtain rfl := Option.some.inj hmodel'
          exact Or.inr ⟨lock, seats, hlock, hcarried, placed_rows good,
            fun id hid => formal_rows good hid⟩
  | outside houtside =>
      refine Or.inl (hnext.formal ?_ hmodel')
      cases call with
      | init => cases houtside
      | _ => rfl
  | acquire hpositive hempty => exact Or.inl (hnext.formal rfl hmodel')
  | unlock => exact Or.inl (hnext.formal rfl hmodel')
  | apply hpending => exact Or.inl (hnext.formal rfl hmodel')

theorem Sendable.lock {call : SessionCall} (h : Sendable layout p call)
    {result : Option Reply} (hnext : s.Next env maxlen call result t) {lock : InitLock}
    (hlock : t.lock = some lock) : s.lock = some lock ∨ ∀ seats, ¬ p.Carried lock.token seats := by
  rcases hnext.lock hlock with hold | ⟨lockMs, rfl⟩
  · exact Or.inl hold
  · cases h with
    | outside houtside => cases houtside
    | acquire hpositive hempty => exact Or.inr hempty

theorem Covered.next {id : String} {version : ℕ} (h : p.Covered s id version)
    {call : SessionCall} (hcall : Sendable layout p call)
    {result : Option Reply} (hnext : s.Next env maxlen call result t) : p.Covered t id version where
  model := fun model' hmodel' hid => by
    rcases hcall.model hnext hmodel' with ⟨model, hmodel, hlayout, hformal⟩ |
      ⟨lock, seats, hlock, hcarried, -, hseats⟩
    · rw [hlayout.ids] at hid
      exact (h.model model hmodel hid).trans (hformal id).version_le
    · have hversion := h.snapshot lock hlock seats hcarried
      rw [← hseats id hid] at hversion
      exact hversion
  snapshot := fun lock hlock seats hcarried => by
    rcases hcall.lock hnext hlock with hold | hempty
    · exact h.snapshot lock hold seats hcarried
    · exact absurd hcarried (hempty seats)

/-- A script of somebody who takes part keeps the agreement. -/
theorem Agrees.call (h : Agrees layout p s) (hbooked : p.Booked) {call : SessionCall}
    (hcall : Sendable layout p call) {result : Option Reply}
    (hnext : s.Next env maxlen call result t) : Agrees layout p t where
  placed := fun model' hmodel' => by
    rcases hcall.model hnext hmodel' with ⟨model, hmodel, hlayout, -⟩ | ⟨_, _, -, -, hplaced, -⟩
    · exact (h.placed model hmodel).of_sameLayout hlayout
    · exact hplaced
  shown := fun model' hmodel' id hid => by
    rcases hcall.model hnext hmodel' with ⟨model, hmodel, hlayout, hformal⟩ |
      ⟨lock, seats, hlock, hcarried, -, hseats⟩
    · rw [hlayout.ids] at hid
      rcases hformal id with hsame | ⟨-, hprojected⟩
      · rw [hsame]
        exact h.shown model hmodel id hid
      · cases hcall with
        | outside houtside =>
            rw [hprojected] at houtside
            cases houtside
        | acquire hpositive hempty => cases hprojected
        | install hcarried => cases hprojected
        | unlock => cases hprojected
        | apply hpending =>
            obtain ⟨rfl, hchange⟩ := applyCall_inj hprojected
            rw [← hchange]
            exact hbooked.past _ hpending
    · rw [hseats id hid]
      exact hbooked.carried _ _ hcarried id
  removing := fun change hchange => (h.removing change hchange).next hcall hnext
  safe := fun id => (h.safe id).imp_right fun hcovered => hcovered.next hcall hnext

theorem Agrees.visible (h : Agrees layout p s) (now : ℕ) : Agrees layout p (s.visible now) := by
  have hvisible {id : String} {version : ℕ} (hcovered : p.Covered s id version) :
      p.Covered (s.visible now) id version :=
    ⟨hcovered.model, fun lock hlock => hcovered.snapshot lock (Option.filter_eq_some_iff.mp hlock).1⟩
  exact ⟨h.placed, h.shown, fun change hchange => hvisible (h.removing change hchange),
    fun id => (h.safe id).imp_right hvisible⟩

section Bookkeeping

theorem Covered.move {id : String} {version : ℕ} (h : p.Covered s id version)
    (hversion : version ≤ (p.seats id).version)
    (hcarried : ∀ token seats, p'.Carried token seats → p.Carried token seats ∨ seats = p.seats) :
    p'.Covered s id version where
  model := h.model
  snapshot := fun lock hlock seats hseats => by
    rcases hcarried lock.token seats hseats with hold | rfl
    · exact h.snapshot lock hlock seats hold
    · exact hversion

/-- The agreement with the same session when an event is removed only where its state is covered. -/
theorem Agrees.move (h : Agrees layout p s) (hbooked : p.Booked)
    (hpast : ∀ id formal, p.Past id formal → p'.Past id formal)
    (hcarried : ∀ token seats, p'.Carried token seats → p.Carried token seats ∨ seats = p.seats)
    (hremoving : ∀ change, p'.Removing change → p.Removing change ∨
      p.Pending change ∧ p.Covered s change.seat change.formal.version)
    (hqueued : ∀ id, p.Queued id → p'.Queued id ∨ p.Covered s id (p.seats id).version)
    (hseats : ∀ id, p'.seats id = p.seats id ∨ p'.Queued id) : Agrees layout p' s where
  placed := h.placed
  shown := fun model hmodel id hid => hpast id _ (h.shown model hmodel id hid)
  removing := fun change hchange => by
    have hcovered : p.Pending change ∧ p.Covered s change.seat change.formal.version :=
      (hremoving change hchange).elim (fun hold => ⟨hold.pending, h.removing change hold⟩) id
    exact hcovered.2.move (hbooked.past change hcovered.1).le hcarried
  safe := fun id => by
    rcases hseats id with hsame | hnew
    · rw [hsame]
      rcases h.safe id with hold | hcovered
      · exact (hqueued id hold).imp_right fun hcovered => hcovered.move le_rfl hcarried
      · exact Or.inr (hcovered.move le_rfl hcarried)
    · exact Or.inl hnew

theorem queued_of_rows (hseats : p'.seats = p.seats)
    (hrows : ∀ row ∈ p.outbox, ∃ row' ∈ p'.outbox, row'.change = row.change) {id : String}
    (h : p.Queued id) : p'.Queued id := by
  obtain ⟨row, hrow, hseat, hversion⟩ := h
  obtain ⟨row', hrow', hchange⟩ := hrows row hrow
  exact ⟨row', hrow', by rw [hchange]; exact hseat, by rw [hchange, hseats]; exact hversion⟩

/-- A statement removes the event that it is about, and no other. -/
theorem execute_rows (statement : Statement) {outbox : List OutboxRow} {row : OutboxRow}
    (hrow : row ∈ outbox) : (∃ row' ∈ statement.execute outbox, row'.change = row.change) ∨
      statement.remove = true ∧ row.change.id = statement.change.id := by
  unfold Statement.execute
  split_ifs with hremove
  · by_cases happlies : statement.applies row = true
    · exact Or.inr ⟨hremove, (of_decide_eq_true happlies).1⟩
    · refine Or.inl ⟨row, List.mem_filter.mpr ⟨hrow, ?_⟩, rfl⟩
      rw [Bool.eq_false_of_not_eq_true happlies]
      rfl
  · refine Or.inl ⟨_, List.mem_map_of_mem hrow, ?_⟩
    split_ifs <;> rfl

/-- When a statement that is due or sent runs, an event stays or its state is covered. -/
theorem Agrees.execute (h : Agrees layout p s) (hbooked : p.Booked) {statement : Statement}
    (hpending : p.Pending statement.change)
    (hremoving : statement.remove = true → p.Removing statement.change) {id : String}
    (hqueued : p.Queued id) (hseats : p'.seats = p.seats)
    (houtbox : p'.outbox = statement.execute p.outbox) :
    p'.Queued id ∨ p.Covered s id (p.seats id).version := by
  obtain ⟨row, hrow, hseat, hversion⟩ := hqueued
  rcases execute_rows statement hrow with ⟨row', hrow', hchange⟩ | ⟨hremove, hid⟩
  · refine Or.inl ⟨row', by rw [houtbox]; exact hrow', ?_, ?_⟩
    · rw [hchange]
      exact hseat
    · rw [hchange, hseats]
      exact hversion
  · have hsame := hbooked.unique _ _ (p.pending_outbox row hrow) hpending hid
    have hcovered := h.removing _ (hremoving hremove)
    rw [← hsame, hseat, hversion] at hcovered
    exact Or.inr hcovered

/-- An event is removed after an answer that shows its state, or that there is no model and no
initialisation. -/
theorem covered_of_reply (hmirrors : s.Mirrors timely env.now) {result : Option Reply}
    {change found : SeatChange} {rest : List SeatChange}
    (hnext : s.Next env maxlen (applyCall change) result t)
    (hreply : (roundAfter result change rest).finishing = some (found, true)) :
    p.Covered t change.seat change.formal.version := by
  have hdone : result = some (.strings ["APPLIED"]) ∨ result = some (.strings ["STALE_OR_DUPLICATE"]) ∨
      result = some (.strings ["NO_MODEL"]) := by
    by_contra hother
    unfold roundAfter at hreply
    rw [if_neg hother] at hreply
    split_ifs at hreply
    cases hreply
  generalize hcall : applyCall change = call at hnext
  cases hnext with
  | @applied model id status version shown known =>
      obtain ⟨rfl, hformal⟩ : change.seat = id ∧ change.formal = ⟨status, version⟩ :=
        applyCall_inj hcall
      refine ⟨?_, ?_⟩
      · rintro _ ⟨rfl⟩ -
        have hself := model.formal_project_self env maxlen change.seat status version
        rw [hformal]
        split_ifs at hself with hnewer
        · exact (congrArg FormalSeat.version hself).ge
        · exact (not_lt.mp hnewer).trans (congrArg FormalSeat.version hself).ge
      · intro lock hlock
        rw [show s.lock = none from hmirrors.unlocked (by rw [shown]; rfl)] at hlock
        cases hlock
  | unknown shown unknown => simp at hdone
  | invalid malformed shown => simp at hdone
  | unready missing =>
      refine ⟨fun model hmodel => ?_, fun lock hlock => ?_⟩
      · rw [missing] at hmodel
        cases hmodel
      · rw [hlock] at hdone
        simp at hdone
  | _ => cases hcall

end Bookkeeping

/-- The keys stand for a session that agrees with the database. -/
structure Synced (layout : Layout) (timely : Prop) (p : Projection) : Prop where
  booked : p.Booked
  claimed : p.Claimed
  agrees : ∃ s, Refines p.keys.store s ∧ s.Mirrors timely p.keys.now ∧ Agrees layout p s

section Steps

/-- The session before a script and after it. -/
theorem Synced.call (h : Synced layout timely p) (hlater : timely → p.keys.now ≤ env.now)
    {call : SessionCall} (hcall : Sendable layout p call) : ∃ s t : Session,
      s.Mirrors timely env.now ∧
      s.Next env settings.streamMaxlen call (p.keys.run settings.streamMaxlen env call).value t ∧
      Refines (p.keys.run settings.streamMaxlen env call).store t ∧ t.Mirrors timely env.now ∧
      Agrees layout p t := by
  obtain ⟨s, hrefines, hmirrors, hagrees⟩ := h.agrees
  have hmirrors' := hmirrors.visible hlater
  obtain ⟨t, hnext, hafter⟩ := SessionCall.refines (hrefines.visible env.now) hcall.valid
    settings.streamMaxlen_ne
  exact ⟨_, t, hmirrors', hnext, hafter, hmirrors'.next hnext,
    (hagrees.visible env.now).call h.booked hcall hnext⟩

theorem removing_of_parts {change : SeatChange} (h : p'.Removing change)
    (hrounds : ∀ token round, p'.rounds token = some round → round.finishing = some (change, true) →
      p.Removing change)
    (hstatements : ∀ statement ∈ p'.statements, statement.remove = true →
      p.Removing statement.change) : p.Removing change := by
  rcases h with ⟨token, round, hround, hfinishing⟩ | ⟨statement, hmem, rfl, hremove⟩
  · exact hrounds token round hround hfinishing
  · exact hstatements statement hmem hremove

theorem removing_round (p : Projection) (token : String) (round : Round)
    (hround : p.rounds token = some round) {change : SeatChange}
    (hfinishing : round.finishing = some (change, true)) : p.Removing change :=
  Or.inl ⟨token, round, hround, hfinishing⟩

theorem removing_statement (p : Projection) {statement : Statement} (h : statement ∈ p.statements)
    (hremove : statement.remove = true) : p.Removing statement.change :=
  Or.inr ⟨statement, h, rfl, hremove⟩

/-- One round is replaced by one that removes nothing. -/
theorem removing_setRound (p : Projection) {token : String} {round : Option Round}
    (h : ∀ after, round = some after → after.finishing = none) (other : String) (after : Round)
    (hafter : (p.setRound token round).rounds other = some after) {change : SeatChange}
    (hfinishing : after.finishing = some (change, true)) : p.Removing change := by
  rw [rounds_setRound] at hafter
  split_ifs at hafter
  · rw [h after hafter] at hfinishing
    cases hfinishing
  · exact p.removing_round other after hafter hfinishing

/-- The bookkeeping of a step over the same session. -/
theorem Moves.agrees (h : Agrees layout p s) (hbooked : p.Booked) (hmoves : Moves p p')
    (hremoving : ∀ change, p'.Removing change → p.Removing change ∨
      p.Pending change ∧ p.Covered s change.seat change.formal.version)
    (hqueued : ∀ id, p.Queued id → p'.Queued id ∨ p.Covered s id (p.seats id).version) :
    Agrees layout p' s := by
  refine h.move hbooked (fun id formal hpast => ?_) hmoves.carried hremoving hqueued fun id =>
    Or.inl (congrFun hmoves.seats id)
  obtain ⟨hle, heq⟩ := hpast
  rw [← hmoves.seats] at hle heq
  exact ⟨hle, heq⟩

theorem Agrees.update (h : Agrees layout p s) (hbooked : p.Booked) (seat : String)
    (status : SeatStatus) (event : ℕ) : Agrees layout (p.update seat status event) s := by
  by_cases hsame : (p.seats seat).status = status
  · have hself : p.update seat status event = p := if_pos hsame
    rw [hself]
    exact h
  have hupdate : p.update seat status event = { p with
      seats := Function.update p.seats seat ⟨status, (p.seats seat).version + 1⟩
      outbox := p.outbox ++ [⟨⟨event, seat, ⟨status, (p.seats seat).version + 1⟩⟩, none⟩]
      issued := insert event p.issued } := if_neg hsame
  have hnew : (p.update seat status event).Queued seat := by
    rw [hupdate]
    refine ⟨_, List.mem_append_right _ (List.mem_singleton_self _), rfl, ?_⟩
    show _ = (Function.update p.seats seat _ seat).version
    rw [Function.update_self]
  refine h.move hbooked (fun id formal hpast => hpast.update seat status event)
    (fun token seats hcarried => ?_) (fun change hchange => ?_) (fun id hqueued => Or.inl ?_)
    fun id => ?_
  · rw [hupdate] at hcarried
    exact Or.inl hcarried
  · rw [hupdate] at hchange
    exact Or.inl hchange
  · by_cases hid : id = seat
    · rw [hid]
      exact hnew
    · obtain ⟨row, hrow, hseat, hversion⟩ := hqueued
      rw [hupdate]
      refine ⟨row, List.mem_append_left _ hrow, hseat, ?_⟩
      show _ = (Function.update p.seats seat _ id).version
      rw [Function.update_of_ne hid]
      exact hversion
  · by_cases hid : id = seat
    · rw [hid]
      exact Or.inr hnew
    · rw [hupdate]
      exact Or.inl (Function.update_of_ne hid _ _)

theorem Agrees.empty : Agrees layout p ⟨fun _ => none, none, none⟩ where
  placed := nofun
  shown := nofun
  removing := fun _ _ => ⟨nofun, nofun⟩
  safe := fun _ => Or.inr ⟨nofun, nofun⟩

/-- A request that asks for the lock carries nothing yet. -/
theorem Synced.sendable_acquire (h : Synced layout timely p) {token : String}
    (hasking : p.requests token = some .acquiring) :
    Sendable layout p (.acquire token settings.initLockMs) := by
  refine .acquire settings.initLockMs_ne ?_
  rintro seats (hinstalling | ⟨generation, hcommand⟩)
  · rw [hasking] at hinstalling
    cases hinstalling
  · obtain ⟨-, hended⟩ := h.claimed.left token _ hcommand (Or.inr ⟨_, _, rfl⟩)
    rw [hasking] at hended
    cases hended

/-- What was left behind is sent by somebody who takes part. -/
theorem Synced.sendable_command (h : Synced layout timely p) {command : Command}
    (hcommand : command ∈ p.commands) : Sendable layout p (command.call layout settings) := by
  cases command with
  | acquire token =>
      refine .acquire settings.initLockMs_ne ?_
      rintro seats (hinstalling | ⟨generation, hinstall⟩)
      · obtain ⟨-, hended⟩ := h.claimed.left token _ hcommand (Or.inl rfl)
        rw [hended] at hinstalling
        cases hinstalling
      · exact h.claimed.single token generation seats hinstall hcommand
  | install token generation seats => exact .install (p.carried_of_command hcommand)
  | unlock token => exact .unlock
  | apply change => exact .apply (p.pending_apply hcommand)

theorem keys_afterInstall (p : Projection) (token generation : String) (reply : Option Reply) :
    (p.afterInstall token generation reply).keys = p.keys := by
  unfold afterInstall
  split_ifs <;> rfl

theorem parts_afterInstall (p : Projection) (token generation : String) (reply : Option Reply) :
    (p.afterInstall token generation reply).outbox = p.outbox ∧
      (p.afterInstall token generation reply).rounds = p.rounds ∧
      (p.afterInstall token generation reply).statements = p.statements := by
  unfold afterInstall
  split_ifs <;> exact ⟨rfl, rfl, rfl⟩

theorem Synced.step (h : Synced layout timely p) (hlater : timely → p.keys.now ≤ p'.keys.now)
    (hstep : Step layout settings p p') : Synced layout timely p' := by
  refine ⟨h.booked.step hstep, h.claimed.step hstep, ?_⟩
  have hupdate {seat : String} {status : SeatStatus} {event : ℕ} :
      ∃ s, Refines (p.update seat status event).keys.store s ∧
        s.Mirrors timely (p.update seat status event).keys.now ∧
        Agrees layout (p.update seat status event) s := by
    obtain ⟨s, hrefines, hmirrors, hagrees⟩ := h.agrees
    have hkeys : (p.update seat status event).keys = p.keys := by
      unfold Projection.update
      split_ifs <;> rfl
    rw [hkeys]
    exact ⟨s, hrefines, hmirrors, hagrees.update h.booked seat status event⟩
  rcases hstep.moves with ⟨seat, status, event, -, rfl⟩ | hmoves
  · exact hupdate
  have hkept {s : Session} (hagrees : Agrees layout p s)
      (hremoving : ∀ change, p'.Removing change → p.Removing change)
      (hrows : ∀ row ∈ p.outbox, ∃ row' ∈ p'.outbox, row'.change = row.change) :
      Agrees layout p' s :=
    hmoves.agrees hagrees h.booked (fun change hchange => Or.inl (hremoving change hchange))
      fun id hqueued => Or.inl (queued_of_rows hmoves.seats hrows hqueued)
  have hsame : ∀ row ∈ p.outbox, ∃ row' ∈ p.outbox, row'.change = row.change :=
    fun row hrow => ⟨row, hrow, rfl⟩
  obtain ⟨s, hrefines, hmirrors, hagrees⟩ := h.agrees
  cases hstep with
  | update listed fresh => exact hupdate
  | lease fresh free =>
      refine ⟨s, hrefines, hmirrors, hkept hagrees (fun change hchange => removing_of_parts hchange
        (fun other after hafter => p.removing_setRound ?_ other after hafter)
        fun _ => p.removing_statement) fun row hrow => ⟨_, List.mem_map_of_mem hrow, ?_⟩⟩
      · rintro after ⟨rfl⟩
        rfl
      · split_ifs <;> rfl
  | @project token change rest env leased =>
      have hpending := p.pending_event leased List.mem_cons_self
      obtain ⟨s, t, hlive, hnext, hafter, hmirrors', hagrees'⟩ := h.call hlater (.apply hpending)
      refine ⟨t, hafter, hmirrors', hmoves.agrees hagrees' h.booked (fun found hfound => ?_)
        fun id hqueued => Or.inl (queued_of_rows rfl hsame hqueued)⟩
      rcases hfound with ⟨other, after, hround, hfinishing⟩ | hstatement
      · rw [rounds_setRound] at hround
        split_ifs at hround
        · obtain rfl := Option.some.inj hround
          obtain rfl := roundAfter_finishing hfinishing
          exact Or.inr ⟨hpending, covered_of_reply hlive hnext hfinishing⟩
        · exact Or.inl (p.removing_round other after hround hfinishing)
      · exact Or.inl (Or.inr hstatement)
  | unanswered leased =>
      refine ⟨s, hrefines, hmirrors, hkept hagrees (fun change hchange => removing_of_parts hchange
        (fun other after hafter => p.removing_setRound ?_ other after hafter)
        fun _ => p.removing_statement) hsame⟩
      rintro after ⟨rfl⟩
      rfl
  | @finish token change remove events due =>
      refine ⟨s, hrefines, hmirrors, hmoves.agrees hagrees h.booked (fun found hfound =>
        Or.inl (removing_of_parts hfound (fun other after hafter =>
          p.removing_setRound ?_ other after hafter) fun _ => p.removing_statement))
        fun id hqueued =>
          hagrees.execute h.booked (p.pending_finishing due) (fun hremove => ?_) hqueued rfl rfl⟩
      · rintro after ⟨rfl⟩
        rfl
      · obtain rfl : remove = true := hremove
        exact p.removing_round token _ due rfl
  | @unfinished token change remove events due =>
      refine ⟨s, hrefines, hmirrors, hkept hagrees (fun found hfound => removing_of_parts hfound
        (fun other after hafter => p.removing_setRound ?_ other after hafter)
        fun statement hstatement hremove => ?_) hsame⟩
      · rintro after ⟨rfl⟩
        rfl
      · rcases List.mem_cons.mp hstatement with rfl | hold
        · obtain rfl : remove = true := hremove
          exact p.removing_round token _ due rfl
        · exact p.removing_statement hold hremove
  | @execute front back statement sent =>
      have hmem : ∀ other, other ∈ front ++ back → other ∈ p.statements := by
        intro other hother
        rw [sent]
        rcases List.mem_append.mp hother with hfront | hback
        · exact List.mem_append_left _ hfront
        · exact List.mem_append_right _ (List.mem_cons_of_mem _ hback)
      have hsent : statement ∈ p.statements := by
        rw [sent]
        exact List.mem_append_right _ List.mem_cons_self
      exact ⟨s, hrefines, hmirrors, hmoves.agrees hagrees h.booked (fun found hfound =>
        Or.inl (removing_of_parts hfound
          (fun token round hround hfinishing => p.removing_round token round hround hfinishing)
          fun other hother => p.removing_statement (hmem other hother)))
        fun id hqueued => hagrees.execute h.booked (p.pending_statement hsent)
          (p.removing_statement hsent) hqueued rfl rfl⟩
  | stop =>
      refine ⟨s, hrefines, hmirrors, hkept hagrees (fun change hchange => removing_of_parts hchange
        (fun other after hafter => p.removing_setRound ?_ other after hafter)
        fun _ => p.removing_statement) hsame⟩
      nofun
  | request fresh => exact ⟨s, hrefines, hmirrors, hkept hagrees (fun _ hchange => hchange) hsame⟩
  | acquire asking =>
      obtain ⟨-, t, -, -, hafter, hmirrors', hagrees'⟩ := h.call hlater (h.sendable_acquire asking)
      exact ⟨t, hafter, hmirrors', hkept hagrees' (fun _ hchange => hchange) hsame⟩
  | read won => exact ⟨s, hrefines, hmirrors, hkept hagrees (fun _ hchange => hchange) hsame⟩
  | @install token generation seats env loaded =>
      rw [keys_afterInstall] at hlater
      obtain ⟨-, t, -, -, hafter, hmirrors', hagrees'⟩ := h.call hlater
        (.install (Or.inl loaded) : Sendable layout p (.init token generation (layout.rows seats)))
      obtain ⟨houtbox, hrounds, hstatements⟩ := parts_afterInstall
        (p.call settings env (.init token generation (layout.rows seats))) token generation
        (p.keys.run settings.streamMaxlen env (.init token generation (layout.rows seats))).value
      refine ⟨t, ?_, ?_, hkept hagrees' (fun change hchange => ?_) ?_⟩
      · rw [keys_afterInstall]
        exact hafter
      · rw [keys_afterInstall]
        exact hmirrors'
      · unfold Removing at hchange
        rw [hrounds, hstatements] at hchange
        exact hchange
      · rw [houtbox]
        exact hsame
  | leave asking left => exact ⟨s, hrefines, hmirrors, hkept hagrees (fun _ hchange => hchange) hsame⟩
  | @deliver front back command env sent =>
      have hsent : command ∈ p.commands := by
        rw [sent]
        exact List.mem_append_right _ List.mem_cons_self
      obtain ⟨-, t, -, -, hafter, hmirrors', hagrees'⟩ := h.call hlater (h.sendable_command hsent)
      exact ⟨t, hafter, hmirrors', hkept hagrees' (fun _ hchange => hchange) hsame⟩
  | outside houtside =>
      obtain ⟨-, t, -, -, hafter, hmirrors', hagrees'⟩ := h.call hlater (.outside houtside)
      exact ⟨t, hafter, hmirrors', hkept hagrees' (fun _ hchange => hchange) hsame⟩
  | lose =>
      exact ⟨⟨fun _ => none, none, none⟩, ⟨⟨fun _ => rfl, nofun⟩, nofun, fun _ =>
        dropped_of_missing rfl, rfl⟩, Session.mirrors_none rfl, .empty⟩

end Steps

section Runs

/-- What the steps make of a state. -/
def Reaches (layout : Layout) (settings : AvailabilitySettings) : Projection → Projection → Prop :=
  Relation.ReflTransGen (Step layout settings)

/-- The same while the clock of the keys does not go back. -/
def ReachesInTime (layout : Layout) (settings : AvailabilitySettings) :
    Projection → Projection → Prop :=
  Relation.ReflTransGen fun p p' => p.keys.now ≤ p'.keys.now ∧ Step layout settings p p'

theorem ReachesInTime.refl : ReachesInTime layout settings p p := Relation.ReflTransGen.refl

theorem ReachesInTime.next {p'' : Projection} (h : ReachesInTime layout settings p p')
    (hstep : Step layout settings p' p'') (hlater : p'.keys.now ≤ p''.keys.now) :
    ReachesInTime layout settings p p'' := h.tail ⟨hlater, hstep⟩

theorem ReachesInTime.reaches (h : ReachesInTime layout settings p p') :
    Reaches layout settings p p' := by
  induction h with
  | refl => exact .refl
  | tail _ hstep ih => exact ih.tail hstep.2

/-- The same while the model stays ready. -/
def StaysReady (layout : Layout) (settings : AvailabilitySettings) :
    Projection → Projection → Prop :=
  Relation.ReflTransGen fun p p' =>
    Step layout settings p p' ∧ Ready p.keys.store ∧ Ready p'.keys.store

theorem Starts.idle (h : p.Starts) : (∀ change, ¬ p.Pending change) ∧
    ∀ token seats, ¬ p.Carried token seats := by
  refine ⟨?_, ?_⟩
  · rintro change (⟨row, hrow, -⟩ | ⟨token, round, hround, -⟩ | ⟨statement, hmem, -⟩ | hcommand)
    · rw [h.outbox] at hrow
      cases hrow
    · rw [h.rounds token] at hround
      cases hround
    · rw [h.statements] at hmem
      cases hmem
    · rw [h.commands] at hcommand
      cases hcommand
  · rintro token seats (hrequest | ⟨generation, hcommand⟩)
    · rw [h.requests token] at hrequest
      cases hrequest
    · rw [h.commands] at hcommand
      cases hcommand

theorem Starts.synced (h : p.Starts) : Synced layout timely p := by
  obtain ⟨hpending, hcarried⟩ := h.idle
  obtain ⟨raw, hraw⟩ := h.keys.holds
  refine ⟨⟨fun change hchange => absurd hchange (hpending change),
    fun change hchange => absurd hchange (hpending change),
    fun change _ hchange => absurd hchange (hpending change),
    fun token seats hseats => absurd hseats (hcarried token seats)⟩, ⟨fun token htoken =>
    absurd (h.requests token) htoken, fun token command hcommand => ?_,
    fun token generation seats hcommand => absurd (p.carried_of_command hcommand)
      (hcarried token seats)⟩, ⟨raw, none, none⟩,
    ⟨hraw, nofun, fun _ => h.keys.dropped, h.keys.unlocked⟩, Session.mirrors_none rfl, nofun, nofun,
    fun _ _ => ⟨nofun, nofun⟩, fun _ => Or.inr ⟨nofun, nofun⟩⟩
  rw [h.commands] at hcommand
  cases hcommand

theorem Synced.reaches (h : Synced layout False p) (hrun : Reaches layout settings p p') :
    Synced layout False p' := by
  induction hrun with
  | refl => exact h
  | tail _ hstep ih => exact ih.step False.elim hstep

theorem Synced.reachesInTime (h : Synced layout True p)
    (hrun : ReachesInTime layout settings p p') : Synced layout True p' := by
  induction hrun with
  | refl => exact h
  | tail _ hstep ih => exact ih.step (fun _ => hstep.1) hstep.2

/-- In every state that is reached, what a ready model has of a seat is not ahead of the database,
and it is the state in the database unless the outbox has the event of that state. -/
theorem no_update_lost (hstart : p.Starts) (hrun : Reaches layout settings p p')
    (hready : Ready p'.keys.store) {id : String} (hid : id ∈ layout.ids) :
    ∃ formal : FormalSeat, fieldOf (p'.keys.store .formal) id =
        some (statusName formal.status ++ "|" ++ toString formal.version) ∧
      formal.version ≤ (p'.seats id).version ∧
      (formal = p'.seats id ∨
        ∃ row ∈ p'.outbox, row.change.seat = id ∧ row.change.formal = p'.seats id) := by
  have hsynced := hstart.synced.reaches hrun
  obtain ⟨s, hrefines, -, hagrees⟩ := hsynced.agrees
  obtain ⟨model, hmodel, hmodels⟩ := hrefines.ready hready
  have hmem := (hagrees.placed model hmodel).mem.mpr hid
  have hpast := hagrees.shown model hmodel id hmem
  refine ⟨(model.seat id).formal, ?_, hpast.le, ?_⟩
  · rw [fieldOf_shows (hmodels.stored .formal), Model.find_of_mem hmem]
    rfl
  rcases hagrees.safe id with ⟨row, hrow, hseat, hversion⟩ | hcovered
  · refine Or.inr ⟨row, hrow, hseat, ?_⟩
    have hevent := (hsynced.booked.past row.change (p'.pending_outbox row hrow)).eq
    rw [hseat] at hevent
    exact hevent hversion
  · exact Or.inl (hpast.eq (hpast.le.antisymm (hcovered.model model hmodel hmem)))

/-- What a step does to the keys: nothing, a script of somebody who takes part, or their loss. -/
theorem Synced.keys_cases (h : Synced layout timely p) (hstep : Step layout settings p p') :
    p'.keys = p.keys ∨ p'.keys = ⟨fun _ => none, p.keys.now⟩ ∨ ∃ env call, Sendable layout p call ∧
      p'.keys = p.keys.after settings.streamMaxlen env call := by
  cases hstep with
  | @update seat status id listed fresh =>
      refine Or.inl ?_
      unfold Projection.update
      split_ifs <;> rfl
  | project leased =>
      exact Or.inr (Or.inr ⟨_, _, .apply (p.pending_event leased List.mem_cons_self), rfl⟩)
  | acquire asking => exact Or.inr (Or.inr ⟨_, _, h.sendable_acquire asking, rfl⟩)
  | install loaded =>
      exact Or.inr (Or.inr ⟨_, _, .install (Or.inl loaded), keys_afterInstall _ _ _ _⟩)
  | deliver sent =>
      refine Or.inr (Or.inr ⟨_, _, h.sendable_command ?_, rfl⟩)
      rw [sent]
      exact List.mem_append_right _ List.mem_cons_self
  | outside houtside => exact Or.inr (Or.inr ⟨_, _, .outside houtside, rfl⟩)
  | lose => exact Or.inr (Or.inl rfl)
  | _ => exact Or.inl rfl

/-- While a model is ready nobody has the lock, so no script replaces it by an older one. -/
theorem Synced.version_le (h : Synced layout timely p) {call : SessionCall}
    (hcall : Sendable layout p call) (hready : Ready p.keys.store)
    (hready' : Ready (p.keys.after settings.streamMaxlen env call).store) {id : String} {version : ℕ}
    (hversion : versionIn p.keys.store id = some version) :
    ∃ version', versionIn (p.keys.after settings.streamMaxlen env call).store id = some version' ∧
      version ≤ version' := by
  obtain ⟨s, hrefines, hmirrors, -⟩ := h.agrees
  obtain ⟨t, hnext, hafter⟩ := SessionCall.refines (hrefines.visible env.now) hcall.valid
    settings.streamMaxlen_ne
  obtain ⟨model, hmodel, hstored, -, -⟩ := hrefines.ready hready
  obtain ⟨model', hmodel', hmodels'⟩ := hafter.ready hready'
  have hstored' : Stored (p.keys.after settings.streamMaxlen env call).store model' := hmodels'.stored
  rw [versionIn_stored hstored] at hversion
  rw [versionIn_stored hstored']
  rcases hcall.model hnext hmodel' with ⟨found, hfound, hlayout, hformal⟩ | ⟨lock, seats, hlock, -⟩
  · obtain rfl := Option.some.inj (hfound.symm.trans hmodel)
    exact version_grows hlayout (hformal id).version_le hversion
  · have hunlocked : s.lock = none := hmirrors.unlocked (by rw [hmodel]; rfl)
    rw [(Option.filter_eq_some_iff.mp hlock).1] at hunlocked
    cases hunlocked

theorem StaysReady.synced (h : StaysReady layout settings p p') (hsynced : Synced layout False p) :
    Synced layout False p' := by
  induction h with
  | refl => exact hsynced
  | tail _ hstep ih => exact ih.step False.elim hstep.1

/-- As long as the model stays ready, no version of a seat falls. -/
theorem StaysReady.version_le (h : StaysReady layout settings p p') (hsynced : Synced layout False p)
    {id : String} {version : ℕ} (hversion : versionIn p.keys.store id = some version) :
    ∃ version', versionIn p'.keys.store id = some version' ∧ version ≤ version' := by
  induction h with
  | refl => exact ⟨version, hversion, le_rfl⟩
  | @tail q q' hrun hstep ih =>
      obtain ⟨before, hbefore, hle⟩ := ih
      have hq := StaysReady.synced hrun hsynced
      rcases hq.keys_cases hstep.1 with hkeys | hkeys | ⟨env, call, hcall, hkeys⟩
      · rw [hkeys]
        exact ⟨before, hbefore, hle⟩
      · have hready := hstep.2.2
        rw [hkeys] at hready
        cases hready
      · have hready := hstep.2.2
        rw [hkeys] at hready ⊢
        obtain ⟨after, hafter, hgrown⟩ := hq.version_le hcall hstep.2.1 hready hbefore
        exact ⟨after, hafter, hle.trans hgrown⟩

/-- In every state that is reached, a ready model without events in the outbox has the states in the
database; while it stays ready no version falls; and versions are compared as numbers. -/
theorem projection_exact (hstart : p.Starts) (hrun : Reaches layout settings p p') :
    (Ready p'.keys.store → p'.outbox = [] → ∀ id ∈ layout.ids, fieldOf (p'.keys.store .formal) id =
      some (statusName (p'.seats id).status ++ "|" ++ toString (p'.seats id).version)) ∧
    (∀ p'', StaysReady layout settings p' p'' → ∀ id version,
      versionIn p'.keys.store id = some version →
        ∃ version', versionIn p''.keys.store id = some version' ∧ version ≤ version') ∧
    ∀ m n : ℕ, greater (toString m) (toString n) = decide (n < m) := by
  refine ⟨fun hready hdrained id hid => ?_, fun p'' hstays id version hversion =>
    hstays.version_le (hstart.synced.reaches hrun) hversion, greater_toString⟩
  obtain ⟨formal, hformal, -, rfl | ⟨row, hrow, -⟩⟩ := no_update_lost hstart hrun hready hid
  · exact hformal
  · rw [hdrained] at hrow
    cases hrow

end Runs

section Example

theorem requests_setRequest (p : Projection) (token : String) (request : Option Request) :
    (p.setRequest token request).requests token = request := Function.update_self _ _ _

def oneSeat : Layout := ⟨[("seat", "zone")], List.nodup_singleton _, List.cons_ne_nil _ _⟩

def exampleSettings : AvailabilitySettings := ⟨10, 1000, by decide, by decide⟩

def idle : Projection :=
  ⟨fun _ => ⟨.available, 1⟩, [], ∅, fun _ => none, [], fun _ => none, ∅, [], emptyKeys⟩

theorem starts_idle : idle.Starts :=
  ⟨starts_empty, rfl, fun _ => rfl, rfl, fun _ => rfl, rfl⟩

/-- A request has the lock. -/
def locked : Projection :=
  let asking := { idle.setRequest "token" (some .acquiring) with tokens := {"token"} }
  (asking.call exampleSettings ⟨1, fun _ => 0⟩ (.acquire "token" 1000)).setRequest "token"
    (some .initializing)

/-- The seat is held after the request has read it, and before the request installs what it has
read. -/
def overtaken : Projection :=
  let loaded := locked.setRequest "token" (some (.installing locked.seats))
  ((loaded.update "seat" .held 0).call exampleSettings ⟨2, fun _ => 0⟩
    (.init "token" "generation" (oneSeat.rows locked.seats))).setRequest "token" (some .acquiring)

/-- A worker has applied the event and removed it. -/
def projected : Projection :=
  let leased := overtaken.lease "lease" {0} 30
  let applied := (leased.call exampleSettings ⟨3, fun _ => 0⟩
    (applyCall ⟨0, "seat", ⟨.held, 2⟩⟩)).setRound "lease" (some ⟨[], some (⟨0, "seat", ⟨.held, 2⟩⟩, true)⟩)
  { applied.setRound "lease" (some ⟨[], none⟩) with
    outbox := Statement.execute ⟨⟨0, "seat", ⟨.held, 2⟩⟩, true, "lease"⟩ applied.outbox }

theorem reaches_locked : ReachesInTime oneSeat exampleSettings idle locked := by
  have hrequest : Step oneSeat exampleSettings idle
      { idle.setRequest "token" (some .acquiring) with tokens := {"token"} } :=
    .request (Finset.notMem_empty _)
  have hacquire := @Step.acquire oneSeat exampleSettings
    { idle.setRequest "token" (some .acquiring) with tokens := {"token"} } "token" ⟨1, fun _ => 0⟩
    (requests_setRequest idle "token" (some .acquiring))
  rw [if_pos (by decide +kernel)] at hacquire
  exact (ReachesInTime.refl.next hrequest le_rfl).next hacquire (by decide)

theorem reaches_overtaken : ReachesInTime oneSeat exampleSettings idle overtaken := by
  have hread : Step oneSeat exampleSettings locked
      (locked.setRequest "token" (some (.installing locked.seats))) :=
    .read (requests_setRequest _ _ _)
  have hupdate : Step oneSeat exampleSettings
      (locked.setRequest "token" (some (.installing locked.seats)))
      ((locked.setRequest "token" (some (.installing locked.seats))).update "seat" .held 0) :=
    .update (List.mem_singleton_self _) (Finset.notMem_empty _)
  have hloaded : ((locked.setRequest "token" (some (.installing locked.seats))).update "seat"
      .held 0).requests "token" = some (.installing locked.seats) := by
    unfold Projection.update
    rw [if_neg (by decide)]
    exact requests_setRequest locked "token" (some (.installing locked.seats))
  have hinstall := @Step.install oneSeat exampleSettings _ "token" "generation" locked.seats
    ⟨2, fun _ => 0⟩ hloaded
  unfold afterInstall at hinstall
  rw [if_pos (Or.inl (by decide +kernel))] at hinstall
  exact ((reaches_locked.next hread le_rfl).next hupdate (by decide +kernel)).next hinstall
    (by decide +kernel)

theorem reaches_projected : ReachesInTime oneSeat exampleSettings idle projected := by
  have hrows : overtaken.outbox = [⟨⟨0, "seat", ⟨.held, 2⟩⟩, none⟩] := by decide +kernel
  have hlease : Step oneSeat exampleSettings overtaken (overtaken.lease "lease" {0} 30) := by
    refine @Step.lease _ _ _ _ _ 0 _ (by decide +kernel) ?_
    rintro row hrow -
    rw [hrows] at hrow
    obtain rfl := List.mem_singleton.mp hrow
    nofun
  have hproject := @Step.project oneSeat exampleSettings (overtaken.lease "lease" {0} 30) "lease"
    ⟨0, "seat", ⟨.held, 2⟩⟩ [] ⟨3, fun _ => 0⟩ (by decide +kernel)
  unfold roundAfter at hproject
  rw [if_pos (Or.inl (by decide +kernel))] at hproject
  have hfinish := @Step.finish oneSeat exampleSettings
    (((overtaken.lease "lease" {0} 30).call exampleSettings ⟨3, fun _ => 0⟩
      (applyCall ⟨0, "seat", ⟨.held, 2⟩⟩)).setRound "lease"
        (some ⟨[], some (⟨0, "seat", ⟨.held, 2⟩⟩, true)⟩)) "lease" ⟨0, "seat", ⟨.held, 2⟩⟩ true []
    ((rounds_setRound _ _ _ _).trans (if_pos rfl))
  exact ((reaches_overtaken.next hlease le_rfl).next hproject (by decide +kernel)).next hfinish
    le_rfl

/-- No event is left, so the model has the newer state, and a read later does not take it back. -/
theorem projection_exact_projected : fieldOf (projected.keys.store .formal) "seat" =
      some (statusName (projected.seats "seat").status ++ "|" ++
        toString (projected.seats "seat").version) ∧
    ∃ version', versionIn (projected.call exampleSettings ⟨4, fun _ => 0⟩
      (.read "zone" "" "" 10)).keys.store "seat" = some version' ∧ 2 ≤ version' := by
  have hexact := projection_exact starts_idle reaches_projected.reaches
  have hread : StaysReady oneSeat exampleSettings projected
      (projected.call exampleSettings ⟨4, fun _ => 0⟩ (.read "zone" "" "" 10)) :=
    .single ⟨.outside trivial, by unfold Ready; decide +kernel, by unfold Ready; decide +kernel⟩
  exact ⟨hexact.1 (by unfold Ready; decide +kernel) (by decide +kernel) "seat"
    (List.mem_singleton_self _), hexact.2.1 _ hread "seat" 2 (by decide +kernel)⟩

end Example

end Projection

end Ticketing.Availability
