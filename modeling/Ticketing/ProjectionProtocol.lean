import Ticketing.ProjectionWorker
import Mathlib.Logic.Relation

/-!
# A ready model without events agrees with the database

Every seat has an event in the outbox for its newest state, or that state is covered: a ready model
has it, and so has every snapshot that could still be installed under the lock that is held. An event
is removed only when its state is covered, and what is covered stays covered.
-/

namespace Ticketing.Availability

open Redis Script

namespace Projection

/-- An event that somebody may still apply or remove. -/
def Pending (p : Projection) (change : SeatChange) : Prop :=
  (∃ row ∈ p.outbox, row.change = change) ∨
    (∃ token round, p.rounds token = some round ∧
      (change ∈ round.events ∨ ∃ remove, round.finishing = some (change, remove))) ∨
    (∃ statement ∈ p.statements, statement.change = change) ∨ Command.apply change ∈ p.commands

/-- An event that is about to be removed. -/
def Removing (p : Projection) (change : SeatChange) : Prop :=
  (∃ token round, p.rounds token = some round ∧ round.finishing = some (change, true)) ∨
    ∃ statement ∈ p.statements, statement.change = change ∧ statement.remove = true

/-- A snapshot that may still be installed under this token. -/
def Carried (p : Projection) (token : String) (seats : String → FormalSeat) : Prop :=
  p.requests token = some (.installing seats) ∨
    ∃ generation, Command.install token generation seats ∈ p.commands

/-- A state that the seat has or had. -/
structure Past (p : Projection) (id : String) (formal : FormalSeat) : Prop where
  le : formal.version ≤ (p.seats id).version
  eq : formal.version = (p.seats id).version → formal = p.seats id

/-- The events and the snapshots are of states that seats have or had. -/
structure Booked (p : Projection) : Prop where
  past : ∀ change, p.Pending change → p.Past change.seat change.formal
  issued : ∀ change, p.Pending change → change.id ∈ p.issued
  unique : ∀ change change', p.Pending change → p.Pending change' → change.id = change'.id →
    change = change'
  carried : ∀ token seats, p.Carried token seats → ∀ id, p.Past id (seats id)

/-- A command that takes the lock under this token, or needs it. -/
def Command.Claims (token : String) (command : Command) : Prop :=
  command = .acquire token ∨ ∃ generation seats, command = .install token generation seats

/-- A request that leaves such a command behind has ended, and its token is not used again. -/
structure Claimed (p : Projection) : Prop where
  known : ∀ token, p.requests token ≠ none → token ∈ p.tokens
  left : ∀ token, ∀ command ∈ p.commands, Command.Claims token command →
    token ∈ p.tokens ∧ p.requests token = none
  single : ∀ token generation seats, Command.install token generation seats ∈ p.commands →
    Command.acquire token ∉ p.commands

/-- What is installed or could be has this version of the seat, or a newer one. -/
structure Covered (p : Projection) (s : Session) (id : String) (version : ℕ) : Prop where
  model : ∀ model, s.model = some model → id ∈ model.ids → version ≤ (model.seat id).version
  snapshot : ∀ lock, s.lock = some lock → ∀ seats, p.Carried lock.token seats →
    version ≤ (seats id).version

/-- The outbox still has the newest event of the seat. -/
def Queued (p : Projection) (id : String) : Prop :=
  ∃ row ∈ p.outbox, row.change.seat = id ∧ row.change.formal.version = (p.seats id).version

structure Agrees (layout : Layout) (p : Projection) (s : Session) : Prop where
  placed : ∀ model, s.model = some model → layout.Placed model
  shown : ∀ model, s.model = some model → ∀ id ∈ model.ids, p.Past id (model.seat id).formal
  removing : ∀ change, p.Removing change → p.Covered s change.seat change.formal.version
  safe : ∀ id, p.Queued id ∨ p.Covered s id (p.seats id).version

variable {p p' : Projection} {layout : Layout} {s t : Session}

theorem Removing.pending {change : SeatChange} (h : p.Removing change) : p.Pending change := by
  rcases h with ⟨token, round, hround, hfinishing⟩ | ⟨statement, hmem, hchange, -⟩
  · exact Or.inr (Or.inl ⟨token, round, hround, Or.inr ⟨true, hfinishing⟩⟩)
  · exact Or.inr (Or.inr (Or.inl ⟨statement, hmem, hchange⟩))

section Database

theorem past_self (p : Projection) (id : String) : p.Past id (p.seats id) := ⟨le_rfl, fun _ => rfl⟩

/-- What is past stays past as the seats move on. -/
theorem Past.update {id : String} {formal : FormalSeat} (h : p.Past id formal) (seat : String)
    (status : SeatStatus) (event : ℕ) : (p.update seat status event).Past id formal := by
  unfold Projection.update
  split_ifs
  · exact h
  · by_cases hid : id = seat
    · subst hid
      refine ⟨?_, fun heq => ?_⟩
      · show _ ≤ (Function.update p.seats id _ id).version
        rw [Function.update_self]
        exact h.le.trans (Nat.le_succ _)
      · have hself : formal.version = (Function.update p.seats id _ id).version := heq
        rw [Function.update_self] at hself
        exact absurd h.le (by rw [hself]; exact Nat.not_succ_le_self _)
    · have hsame : Function.update p.seats seat ⟨status, (p.seats seat).version + 1⟩ id =
          p.seats id := Function.update_of_ne hid _ _
      refine ⟨?_, fun heq => ?_⟩
      · show _ ≤ (Function.update p.seats seat _ id).version
        rw [hsame]
        exact h.le
      · have hother : formal.version = (Function.update p.seats seat _ id).version := heq
        rw [hsame] at hother
        show formal = Function.update p.seats seat _ id
        rw [hsame]
        exact h.eq hother

/-- Less is under way over the same seats, or a new snapshot of them. -/
theorem Booked.of_pending (h : p.Booked) (hseats : p'.seats = p.seats)
    (hissued : p'.issued = p.issued)
    (hpending : ∀ change, p'.Pending change → p.Pending change)
    (hcarried : ∀ token seats, p'.Carried token seats → p.Carried token seats ∨ seats = p.seats) :
    p'.Booked := by
  have hpast {id : String} {formal : FormalSeat} (hold : p.Past id formal) : p'.Past id formal := by
    obtain ⟨hle, heq⟩ := hold
    rw [← hseats] at hle heq
    exact ⟨hle, heq⟩
  refine ⟨fun change hchange => hpast (h.past change (hpending change hchange)),
    fun change hchange => ?_, fun change change' hchange hchange' => h.unique change change'
      (hpending change hchange) (hpending change' hchange'), fun token seats hcarries id => ?_⟩
  · rw [hissued]
    exact h.issued change (hpending change hchange)
  · rcases hcarried token seats hcarries with hold | rfl
    · exact hpast (h.carried token seats hold id)
    · exact hpast (past_self p id)

theorem pending_update {seat : String} {status : SeatStatus} {event : ℕ} {change : SeatChange}
    (h : (p.update seat status event).Pending change) : p.Pending change ∨
      (p.seats seat).status ≠ status ∧
        change = ⟨event, seat, ⟨status, (p.seats seat).version + 1⟩⟩ := by
  unfold Projection.update at h
  split_ifs at h with hsame
  · exact Or.inl h
  · rcases h with ⟨row, hrow, rfl⟩ | hrest
    · rcases List.mem_append.mp hrow with hold | hnew
      · exact Or.inl (Or.inl ⟨row, hold, rfl⟩)
      · obtain rfl := List.mem_singleton.mp hnew
        exact Or.inr ⟨hsame, rfl⟩
    · exact Or.inl (Or.inr hrest)

theorem Booked.update (h : p.Booked) {seat : String} {event : ℕ} (hfresh : event ∉ p.issued)
    (status : SeatStatus) : (p.update seat status event).Booked := by
  by_cases hsame : (p.seats seat).status = status
  · have hself : p.update seat status event = p := if_pos hsame
    rw [hself]
    exact h
  have hupdate : p.update seat status event = { p with
      seats := Function.update p.seats seat ⟨status, (p.seats seat).version + 1⟩
      outbox := p.outbox ++ [⟨⟨event, seat, ⟨status, (p.seats seat).version + 1⟩⟩, none⟩]
      issued := insert event p.issued } := if_neg hsame
  refine ⟨fun change hchange => ?_, fun change hchange => ?_, fun change change' hchange hchange'
    heq => ?_, fun token seats hcarried id => ?_⟩
  · rcases pending_update hchange with hold | ⟨-, rfl⟩
    · exact (h.past change hold).update seat status event
    · have hseat : (p.update seat status event).seats seat =
          ⟨status, (p.seats seat).version + 1⟩ := by
        rw [hupdate]
        exact Function.update_self _ _ _
      exact ⟨by rw [hseat], fun _ => hseat.symm⟩
  · rw [hupdate]
    rcases pending_update hchange with hold | ⟨-, rfl⟩
    · exact Finset.mem_insert_of_mem (h.issued change hold)
    · exact Finset.mem_insert_self _ _
  · rcases pending_update hchange with hold | ⟨-, rfl⟩ <;>
      rcases pending_update hchange' with hold' | ⟨-, rfl⟩
    · exact h.unique change change' hold hold' heq
    · exact absurd (h.issued change hold) (by rw [heq]; exact hfresh)
    · exact absurd (h.issued change' hold') (by rw [← heq]; exact hfresh)
    · rfl
  · have hold : p.Carried token seats := by
      rw [hupdate] at hcarried
      exact hcarried
    exact (h.carried token seats hold id).update seat status event

end Database

section Bookkeeping

variable {settings : AvailabilitySettings}

theorem pending_event (p : Projection) {token : String} {round : Round} {change : SeatChange}
    (hround : p.rounds token = some round) (hchange : change ∈ round.events) : p.Pending change :=
  Or.inr (Or.inl ⟨token, round, hround, Or.inl hchange⟩)

theorem pending_finishing (p : Projection) {token : String} {events : List SeatChange}
    {change : SeatChange} {remove : Bool} (hround : p.rounds token = some ⟨events, some (change, remove)⟩) :
    p.Pending change := Or.inr (Or.inl ⟨token, _, hround, Or.inr ⟨remove, rfl⟩⟩)

theorem pending_statement (p : Projection) {statement : Statement} (h : statement ∈ p.statements) :
    p.Pending statement.change := Or.inr (Or.inr (Or.inl ⟨statement, h, rfl⟩))

theorem pending_apply (p : Projection) {change : SeatChange}
    (h : Command.apply change ∈ p.commands) : p.Pending change := Or.inr (Or.inr (Or.inr h))

/-- What is pending afterwards was pending before, part by part. -/
theorem pending_of_parts {change : SeatChange} (h : p'.Pending change)
    (houtbox : ∀ row ∈ p'.outbox, p.Pending row.change)
    (hrounds : ∀ token round, p'.rounds token = some round → ∀ change,
      (change ∈ round.events ∨ ∃ remove, round.finishing = some (change, remove)) →
      p.Pending change)
    (hstatements : ∀ statement ∈ p'.statements, p.Pending statement.change)
    (hcommands : ∀ change, Command.apply change ∈ p'.commands → p.Pending change) :
    p.Pending change := by
  rcases h with ⟨row, hrow, rfl⟩ | ⟨token, round, hround, hchange⟩ | ⟨statement, hmem, rfl⟩ |
    hcommand
  · exact houtbox row hrow
  · exact hrounds token round hround change hchange
  · exact hstatements statement hmem
  · exact hcommands change hcommand

theorem pending_rows (p : Projection) {outbox : List OutboxRow}
    (h : ∀ row ∈ outbox, ∃ row' ∈ p.outbox, row'.change = row.change) :
    ∀ row ∈ outbox, p.Pending row.change := fun row hrow => Or.inl (h row hrow)

theorem pending_outbox (p : Projection) : ∀ row ∈ p.outbox, p.Pending row.change :=
  fun row hrow => Or.inl ⟨row, hrow, rfl⟩

theorem pending_rounds (p : Projection) (token : String) (round : Round)
    (hround : p.rounds token = some round) (change : SeatChange)
    (hchange : change ∈ round.events ∨ ∃ remove, round.finishing = some (change, remove)) :
    p.Pending change := Or.inr (Or.inl ⟨token, round, hround, hchange⟩)

theorem rounds_setRound (p : Projection) (token : String) (round : Option Round) (other : String) :
    (p.setRound token round).rounds other = if other = token then round else p.rounds other :=
  Function.update_apply _ _ _ _

/-- The events of one round are replaced. -/
theorem pending_setRound (p : Projection) {token : String} {round : Option Round}
    (h : ∀ after, round = some after → ∀ change,
      (change ∈ after.events ∨ ∃ remove, after.finishing = some (change, remove)) →
      p.Pending change) (other : String) (after : Round)
    (hafter : (p.setRound token round).rounds other = some after) (change : SeatChange)
    (hchange : change ∈ after.events ∨ ∃ remove, after.finishing = some (change, remove)) :
    p.Pending change := by
  rw [rounds_setRound] at hafter
  split_ifs at hafter
  · exact h after hafter change hchange
  · exact p.pending_rounds other after hafter change hchange

theorem execute_change (statement : Statement) (outbox : List OutboxRow) :
    ∀ row ∈ statement.execute outbox, ∃ row' ∈ outbox, row'.change = row.change := by
  intro row hrow
  unfold Statement.execute at hrow
  split_ifs at hrow
  · exact ⟨row, (List.mem_filter.mp hrow).1, rfl⟩
  · obtain ⟨old, hold, rfl⟩ := List.mem_map.mp hrow
    refine ⟨old, hold, ?_⟩
    split_ifs <;> rfl

theorem roundAfter_events (reply : Option Reply) (change : SeatChange) (rest : List SeatChange) :
    (roundAfter reply change rest).events = rest := by
  unfold roundAfter
  split_ifs <;> rfl

theorem roundAfter_finishing {reply : Option Reply} {change found : SeatChange}
    {rest : List SeatChange} {remove : Bool}
    (h : (roundAfter reply change rest).finishing = some (found, remove)) : found = change := by
  unfold roundAfter at h
  split_ifs at h
  · exact (congrArg Prod.fst (Option.some.inj h)).symm
  · exact (congrArg Prod.fst (Option.some.inj h)).symm

/-- Nothing changes among the requests, and their commands are from before. -/
theorem carried_of_requests {token : String} {seats : String → FormalSeat}
    (h : p'.Carried token seats) (hrequests : p'.requests = p.requests)
    (hcommands : ∀ command ∈ p'.commands, command ∈ p.commands ∨ ∃ change, command = .apply change) :
    p.Carried token seats := by
  rcases h with hrequest | ⟨generation, hcommand⟩
  · exact Or.inl (by rw [← hrequests]; exact hrequest)
  · rcases hcommands _ hcommand with hold | ⟨change, hchange⟩
    · exact Or.inr ⟨generation, hold⟩
    · cases hchange

/-- The stage of one request is replaced. -/
theorem carried_setRequest {token other : String} {seats : String → FormalSeat}
    {request : Option Request} (h : p'.Carried other seats)
    (hrequests : p'.requests = Function.update p.requests token request)
    (hrequest : ∀ seats, request = some (.installing seats) → seats = p.seats)
    (hcommands : ∀ other generation seats, Command.install other generation seats ∈ p'.commands →
      p.Carried other seats) : p.Carried other seats ∨ seats = p.seats := by
  rcases h with hinstalling | ⟨generation, hcommand⟩
  · rw [hrequests] at hinstalling
    by_cases hother : other = token
    · subst hother
      rw [Function.update_self] at hinstalling
      exact Or.inr (hrequest seats hinstalling)
    · rw [Function.update_of_ne hother] at hinstalling
      exact Or.inl (Or.inl hinstalling)
  · exact Or.inl (hcommands other generation seats hcommand)

/-- The seats stay, and nothing is pending or carried that was not, other than the seats now. -/
structure Moves (p p' : Projection) : Prop where
  seats : p'.seats = p.seats
  issued : p'.issued = p.issued
  pending : ∀ change, p'.Pending change → p.Pending change
  carried : ∀ token seats, p'.Carried token seats → p.Carried token seats ∨ seats = p.seats

theorem carried_of_command (p : Projection) {token generation : String} {seats : String → FormalSeat}
    (h : Command.install token generation seats ∈ p.commands) : p.Carried token seats :=
  Or.inr ⟨generation, h⟩

theorem moves_afterInstall (p : Projection) (token generation : String) (reply : Option Reply) :
    Moves p (p.afterInstall token generation reply) := by
  unfold afterInstall
  split_ifs
  · exact ⟨rfl, rfl, fun _ h => h, fun _ _ h => carried_setRequest h rfl nofun
      fun _ _ _ => p.carried_of_command⟩
  · refine ⟨rfl, rfl, fun _ h => pending_of_parts h p.pending_outbox p.pending_rounds
      (fun _ => p.pending_statement) fun change hchange => ?_, fun _ _ h => carried_setRequest h rfl nofun
      fun other generation seats hcommand => ?_⟩
    · rcases List.mem_cons.mp hchange with hnew | hold
      · cases hnew
      · exact p.pending_apply hold
    · rcases List.mem_cons.mp hcommand with hnew | hold
      · cases hnew
      · exact p.carried_of_command hold

theorem moves_leave {token generation : String} {request : Request} {sent : List Command}
    (hasking : p.requests token = some request) (hleft : sent.Sublist (request.sent token generation)) :
    Moves p { p.setRequest token none with commands := sent ++ p.commands } := by
  refine ⟨rfl, rfl, fun _ h => pending_of_parts h p.pending_outbox p.pending_rounds
    (fun _ => p.pending_statement) fun change hchange => ?_, fun _ _ h => carried_setRequest h rfl nofun
    fun other generation' seats hcommand => ?_⟩
  · rcases List.mem_append.mp hchange with hnew | hold
    · have hsent := hleft.subset hnew
      cases request <;> simp [Request.sent] at hsent
    · exact p.pending_apply hold
  · rcases List.mem_append.mp hcommand with hnew | hold
    · have hsent := hleft.subset hnew
      cases request with
      | acquiring => simp [Request.sent] at hsent
      | initializing => simp [Request.sent] at hsent
      | installing loaded =>
          obtain ⟨rfl, rfl, rfl⟩ : other = token ∧ generation' = generation ∧ seats = loaded := by
            simpa [Request.sent] using hsent
          exact Or.inl hasking
    · exact p.carried_of_command hold

theorem Step.moves (h : Step layout settings p p') :
    (∃ seat status event, event ∉ p.issued ∧ p' = p.update seat status event) ∨ Moves p p' := by
  cases h with
  | @update seat status event listed fresh => exact Or.inl ⟨seat, status, event, fresh, rfl⟩
  | @lease token ids time leaseUntil fresh free =>
      refine Or.inr ⟨rfl, rfl, fun _ h => pending_of_parts h (p.pending_rows fun row hrow => ?_)
        (p.pending_setRound ?_) (fun _ => p.pending_statement) fun _ => p.pending_apply,
        fun _ _ => Or.inl⟩
      · obtain ⟨old, hold, rfl⟩ := List.mem_map.mp hrow
        refine ⟨old, hold, ?_⟩
        split_ifs <;> rfl
      · rintro after hafter change hchange
        obtain rfl := Option.some.inj hafter
        rcases hchange with hmem | ⟨remove, hfinishing⟩
        · obtain ⟨row, hrow, rfl⟩ := List.mem_map.mp hmem
          exact p.pending_outbox row (List.mem_filter.mp hrow).1
        · cases hfinishing
  | @project token change rest env leased =>
      refine Or.inr ⟨rfl, rfl, fun _ h => pending_of_parts h p.pending_outbox (p.pending_setRound ?_)
        (fun _ => p.pending_statement) fun _ => p.pending_apply, fun _ _ => Or.inl⟩
      rintro after hafter found hfound
      obtain rfl := Option.some.inj hafter
      rcases hfound with hmem | ⟨remove, hfinishing⟩
      · rw [roundAfter_events] at hmem
        exact p.pending_event leased (List.mem_cons_of_mem _ hmem)
      · obtain rfl := roundAfter_finishing hfinishing
        exact p.pending_event leased List.mem_cons_self
  | @unanswered token change rest leased =>
      refine Or.inr ⟨rfl, rfl, fun _ h => pending_of_parts h p.pending_outbox (p.pending_setRound ?_)
        (fun _ => p.pending_statement) fun found hfound => ?_, fun _ _ hcarried =>
        Or.inl (carried_of_requests hcarried rfl fun command hcommand => ?_)⟩
      · rintro after hafter found hfound
        obtain rfl := Option.some.inj hafter
        rcases hfound with hmem | ⟨remove, hfinishing⟩
        · exact p.pending_event leased (List.mem_cons_of_mem _ hmem)
        · cases hfinishing
      · rcases List.mem_cons.mp hfound with hnew | hold
        · obtain rfl := Command.apply.inj hnew
          exact p.pending_event leased List.mem_cons_self
        · exact p.pending_apply hold
      · rcases List.mem_cons.mp hcommand with rfl | hold
        · exact Or.inr ⟨change, rfl⟩
        · exact Or.inl hold
  | @finish token change remove events due =>
      refine Or.inr ⟨rfl, rfl, fun _ h => pending_of_parts h (p.pending_rows (execute_change _ _))
        (p.pending_setRound ?_) (fun _ => p.pending_statement) fun _ => p.pending_apply,
        fun _ _ => Or.inl⟩
      rintro after hafter found (hmem | ⟨remove, hfinishing⟩)
      · obtain rfl := Option.some.inj hafter
        exact p.pending_event due hmem
      · obtain rfl := Option.some.inj hafter
        cases hfinishing
  | @unfinished token change remove events due =>
      refine Or.inr ⟨rfl, rfl, fun _ h => pending_of_parts h p.pending_outbox (p.pending_setRound ?_)
        (fun statement hstatement => ?_) fun _ => p.pending_apply, fun _ _ => Or.inl⟩
      · rintro after hafter found (hmem | ⟨remove, hfinishing⟩)
        · obtain rfl := Option.some.inj hafter
          exact p.pending_event due hmem
        · obtain rfl := Option.some.inj hafter
          cases hfinishing
      · rcases List.mem_cons.mp hstatement with rfl | hold
        · exact p.pending_finishing due
        · exact p.pending_statement hold
  | @execute front back statement sent =>
      refine Or.inr ⟨rfl, rfl, fun _ h => pending_of_parts h (p.pending_rows (execute_change _ _))
        p.pending_rounds (fun other hother => p.pending_statement ?_) fun _ => p.pending_apply,
        fun _ _ => Or.inl⟩
      rw [sent]
      rcases List.mem_append.mp hother with hfront | hback
      · exact List.mem_append_left _ hfront
      · exact List.mem_append_right _ (List.mem_cons_of_mem _ hback)
  | @stop token =>
      exact Or.inr ⟨rfl, rfl, fun _ h => pending_of_parts h p.pending_outbox (p.pending_setRound nofun)
        (fun _ => p.pending_statement) fun _ => p.pending_apply, fun _ _ => Or.inl⟩
  | request fresh =>
      exact Or.inr ⟨rfl, rfl, fun _ h => h,
        fun _ _ h => carried_setRequest h rfl nofun fun _ _ _ => p.carried_of_command⟩
  | acquire asking =>
      refine Or.inr ⟨rfl, rfl, fun _ h => h,
        fun _ _ h => carried_setRequest h rfl (fun seats hseats => ?_) fun _ _ _ => p.carried_of_command⟩
      have hrequest := Option.some.inj hseats
      split_ifs at hrequest
  | read won =>
      refine Or.inr ⟨rfl, rfl, fun _ h => h,
        fun _ _ h => carried_setRequest h rfl (fun seats hseats => ?_) fun _ _ _ => p.carried_of_command⟩
      exact (Request.installing.inj (Option.some.inj hseats)).symm
  | install loaded =>
      obtain ⟨hseats, hissued, hpending, hcarried⟩ := moves_afterInstall (p.call settings _ _) _ _ _
      exact Or.inr ⟨hseats, hissued, hpending, hcarried⟩
  | leave asking left => exact Or.inr (moves_leave asking left)
  | @deliver front back command env sent =>
      have hsub : ∀ other ∈ front ++ back, other ∈ p.commands := by
        intro other hother
        rw [sent]
        rcases List.mem_append.mp hother with hfront | hback
        · exact List.mem_append_left _ hfront
        · exact List.mem_append_right _ (List.mem_cons_of_mem _ hback)
      exact Or.inr ⟨rfl, rfl, fun _ h => pending_of_parts h p.pending_outbox p.pending_rounds
        (fun _ => p.pending_statement) fun _ hchange => p.pending_apply (hsub _ hchange),
        fun _ _ hcarried => Or.inl (carried_of_requests hcarried rfl
          fun other hother => Or.inl (hsub other hother))⟩
  | outside outside => exact Or.inr ⟨rfl, rfl, fun _ h => h, fun _ _ => Or.inl⟩
  | lose => exact Or.inr ⟨rfl, rfl, fun _ h => h, fun _ _ => Or.inl⟩

theorem Booked.step (h : p.Booked) (hstep : Step layout settings p p') : p'.Booked := by
  rcases hstep.moves with ⟨seat, status, event, hfresh, rfl⟩ | hmoves
  · exact h.update hfresh status
  · exact h.of_pending hmoves.seats hmoves.issued hmoves.pending hmoves.carried

end Bookkeeping

section Tokens

variable {settings : AvailabilitySettings}

theorem Claimed.of_commands (h : p.Claimed) (htokens : p'.tokens = p.tokens)
    (hrequests : p'.requests = p.requests)
    (hcommands : ∀ token, ∀ command ∈ p'.commands, Command.Claims token command →
      command ∈ p.commands) : p'.Claimed where
  known := by
    rw [htokens, hrequests]
    exact h.known
  left := fun token command hcommand hclaims => by
    rw [htokens, hrequests]
    exact h.left token command (hcommands token command hcommand hclaims) hclaims
  single := fun token generation seats hinstall hacquire =>
    h.single token generation seats (hcommands token _ hinstall (Or.inr ⟨_, _, rfl⟩))
      (hcommands token _ hacquire (Or.inl rfl))

/-- A request that is there goes on, or another one comes. -/
theorem Claimed.of_request (h : p.Claimed) {token : String} {request : Option Request}
    (htoken : token ∉ p.tokens ∨ p.requests token ≠ none)
    (htokens : p'.tokens = insert token p.tokens)
    (hrequests : p'.requests = Function.update p.requests token request)
    (hcommands : ∀ other, ∀ command ∈ p'.commands, Command.Claims other command →
      command ∈ p.commands) : p'.Claimed where
  known := fun other hother => by
    rw [htokens]
    by_cases hsame : other = token
    · rw [hsame]
      exact Finset.mem_insert_self _ _
    · rw [hrequests, Function.update_of_ne hsame] at hother
      exact Finset.mem_insert_of_mem (h.known other hother)
  left := fun other command hcommand hclaims => by
    obtain ⟨hused, hended⟩ := h.left other command (hcommands other command hcommand hclaims) hclaims
    have hother : other ≠ token := by
      rintro rfl
      rcases htoken with hfresh | hpresent
      · exact hfresh hused
      · exact hpresent hended
    rw [htokens, hrequests, Function.update_of_ne hother]
    exact ⟨Finset.mem_insert_of_mem hused, hended⟩
  single := fun other generation seats hinstall hacquire =>
    h.single other generation seats (hcommands other _ hinstall (Or.inr ⟨_, _, rfl⟩))
      (hcommands other _ hacquire (Or.inl rfl))

theorem Claimed.afterInstall (h : p.Claimed) {token : String} (hpresent : p.requests token ≠ none)
    (generation : String) (reply : Option Reply) :
    (p.afterInstall token generation reply).Claimed := by
  have hinsert : insert token p.tokens = p.tokens := Finset.insert_eq_of_mem (h.known token hpresent)
  unfold Projection.afterInstall
  split_ifs
  · exact h.of_request (Or.inr hpresent) hinsert.symm rfl fun _ _ hcommand _ => hcommand
  · refine h.of_request (Or.inr hpresent) hinsert.symm rfl fun other command hcommand hclaims => ?_
    rcases List.mem_cons.mp hcommand with rfl | hold
    · rcases hclaims with hacquire | ⟨generation', seats, hinstall⟩
      · cases hacquire
      · cases hinstall
    · exact hold

/-- A request leaves at most one command that needs its token. -/
theorem Claimed.leave (h : p.Claimed) {token generation : String} {request : Request}
    {sent : List Command} (hasking : p.requests token = some request)
    (hleft : sent.Sublist (request.sent token generation)) :
    ({ p.setRequest token none with commands := sent ++ p.commands } : Projection).Claimed := by
  have hpresent : p.requests token ≠ none := by
    rw [hasking]
    nofun
  have hsent {other : String} {command : Command} (hcommand : command ∈ sent)
      (hclaims : Command.Claims other command) : other = token ∧
        (command = .acquire token ∧ request = .acquiring ∨
          ∃ generation seats, command = .install token generation seats ∧
            request = .installing seats) := by
    have hmem := hleft.subset hcommand
    cases request with
    | acquiring =>
        obtain rfl : command = .acquire token := by simpa [Request.sent] using hmem
        rcases hclaims with hacquire | ⟨generation', seats, hinstall⟩
        · exact ⟨(Command.acquire.inj hacquire).symm, Or.inl ⟨rfl, rfl⟩⟩
        · cases hinstall
    | initializing =>
        obtain rfl : command = .unlock token := by simpa [Request.sent] using hmem
        rcases hclaims with hacquire | ⟨generation', seats, hinstall⟩
        · cases hacquire
        · cases hinstall
    | installing loaded =>
        have hcases : command = .install token generation loaded ∨ command = .unlock token := by
          simpa [Request.sent] using hmem
        rcases hcases with rfl | rfl
        · rcases hclaims with hacquire | ⟨generation', seats, hinstall⟩
          · cases hacquire
          · exact ⟨(Command.install.inj hinstall).1.symm, Or.inr ⟨generation, loaded, rfl, rfl⟩⟩
        · rcases hclaims with hacquire | ⟨generation', seats, hinstall⟩
          · cases hacquire
          · cases hinstall
  have hold {command : Command} (hcommand : command ∈ p.commands)
      (hclaims : Command.Claims token command) : False :=
    hpresent (h.left token command hcommand hclaims).2
  refine ⟨fun other hother => ?_, fun other command hcommand hclaims => ?_,
    fun other generation' seats hinstall hacquire => ?_⟩
  · by_cases hsame : other = token
    · subst hsame
      exact absurd (Function.update_self _ _ _) hother
    · rw [show (p.setRequest token none).requests other = p.requests other from
        Function.update_of_ne hsame _ _] at hother
      exact h.known other hother
  · rcases List.mem_append.mp hcommand with hnew | hbefore
    · obtain ⟨rfl, -⟩ := hsent hnew hclaims
      exact ⟨h.known other hpresent, Function.update_self _ _ _⟩
    · obtain ⟨hused, hended⟩ := h.left other command hbefore hclaims
      have hother : other ≠ token := by
        rintro rfl
        exact hpresent hended
      exact ⟨hused, (Function.update_of_ne hother _ _).trans hended⟩
  · have hclaimed : Command.Claims other (.install other generation' seats) := Or.inr ⟨_, _, rfl⟩
    have hclaims : Command.Claims other (.acquire other) := Or.inl rfl
    rcases List.mem_append.mp hinstall with hnew | hbefore <;>
      rcases List.mem_append.mp hacquire with hnew' | hbefore'
    · obtain ⟨rfl, ⟨hcommand, -⟩ | ⟨_, loaded, -, hrequest⟩⟩ := hsent hnew hclaimed
      · cases hcommand
      · obtain ⟨-, ⟨-, hrequest'⟩ | ⟨_, _, hcommand, -⟩⟩ := hsent hnew' hclaims
        · rw [hrequest] at hrequest'
          cases hrequest'
        · cases hcommand
    · obtain ⟨rfl, -⟩ := hsent hnew hclaimed
      exact hold hbefore' hclaims
    · obtain ⟨rfl, -⟩ := hsent hnew' hclaims
      exact hold hbefore hclaimed
    · exact h.single other generation' seats hbefore hbefore'

theorem Claimed.step (h : p.Claimed) (hstep : Step layout settings p p') : p'.Claimed := by
  have hkeep {token : String} (hpresent : p.requests token ≠ none) :
      p.tokens = insert token p.tokens := (Finset.insert_eq_of_mem (h.known token hpresent)).symm
  cases hstep with
  | @update seat status event listed fresh =>
      unfold Projection.update
      split_ifs
      · exact h
      · exact h.of_commands rfl rfl fun _ _ hcommand _ => hcommand
  | @lease token ids time leaseUntil fresh free =>
      refine ⟨fun other hother => Finset.mem_insert_of_mem (h.known other hother),
        fun other command hcommand hclaims => ?_, h.single⟩
      obtain ⟨hused, hended⟩ := h.left other command hcommand hclaims
      exact ⟨Finset.mem_insert_of_mem hused, hended⟩
  | unanswered leased =>
      refine h.of_commands rfl rfl fun token command hcommand hclaims => ?_
      rcases List.mem_cons.mp hcommand with rfl | hold
      · rcases hclaims with hacquire | ⟨generation, seats, hinstall⟩
        · cases hacquire
        · cases hinstall
      · exact hold
  | request fresh => exact h.of_request (Or.inl fresh) rfl rfl fun _ _ hcommand _ => hcommand
  | acquire asking =>
      have hpresent := fun hnone => Option.some_ne_none _ (asking.symm.trans hnone)
      exact h.of_request (Or.inr hpresent) (hkeep hpresent) rfl fun _ _ hcommand _ => hcommand
  | read won =>
      have hpresent := fun hnone => Option.some_ne_none _ (won.symm.trans hnone)
      exact h.of_request (Or.inr hpresent) (hkeep hpresent) rfl fun _ _ hcommand _ => hcommand
  | @install token generation seats env loaded =>
      have hcalled : (p.call settings env (.init token generation (layout.rows seats))).Claimed :=
        h.of_commands rfl rfl fun _ _ hcommand _ => hcommand
      exact hcalled.afterInstall
        (fun hnone => Option.some_ne_none _ (loaded.symm.trans hnone)) _ _
  | leave asking left => exact h.leave asking left
  | @deliver front back command env sent =>
      refine h.of_commands rfl rfl fun token other hother _ => ?_
      rw [sent]
      rcases List.mem_append.mp hother with hfront | hback
      · exact List.mem_append_left _ hfront
      · exact List.mem_append_right _ (List.mem_cons_of_mem _ hback)
  | _ => exact h.of_commands rfl rfl fun _ _ hcommand _ => hcommand

end Tokens

end Projection

end Ticketing.Availability
