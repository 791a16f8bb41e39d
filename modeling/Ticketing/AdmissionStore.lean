import Ticketing.WaitingMoves

/-!
# The keys of all generations of an event

The runtime key names the policy in force and is shared by all generations; the other eight keys
belong to one generation. An instance passes the keys of the generation in its own snapshot of the
policy, so calls under snapshots of different generations meet at the runtime key only.
-/

namespace Ticketing.Admission

open Relational Expiring

/-- What a synchronisation stores of a policy, and what every other call is compared with. -/
def Policy.stamp (p : Policy) : Runtime := ⟨p.generation, p.version, p.mode⟩

structure Store where
  runtime : Key Runtime
  rooms : String → Room

/-- A call of an instance; a pause marker names its generation only. -/
inductive Message where
  | call (policy : Policy) (op : Op)
  | pause (generation : String)

def Message.generation : Message → String
  | call policy _ => policy.generation
  | pause generation => generation

def Message.request : Message → Request
  | call policy op => .call policy op
  | pause _ => .pause

structure Delivery where
  time : ℕ
  message : Message

def Delivery.event (d : Delivery) : Event := ⟨d.time, d.message.request⟩

namespace Store

def empty : Store := ⟨none, fun _ => Room.empty⟩

/-- The nine keys of a generation. -/
def keys (s : Store) (generation : String) : Room :=
  { s.rooms generation with runtime := s.runtime }

def put (s : Store) (generation : String) (room : Room) : Store :=
  ⟨room.runtime, Function.update s.rooms generation room⟩

def handle (s : Store) (d : Delivery) : Outcome := (s.keys d.message.generation).handle d.event

def after (s : Store) (d : Delivery) : Store := s.put d.message.generation (s.handle d).room

theorem keys_put_self (s : Store) (generation : String) (room : Room) :
    (s.put generation room).keys generation = room := by
  simp only [put, keys, Function.update_self]

theorem keys_put_of_ne (s : Store) {generation other : String} (room : Room)
    (h : other ≠ generation) :
    (s.put generation room).keys other = { s.keys other with runtime := room.runtime } := by
  simp only [put, keys, Function.update_of_ne h]

theorem keys_after_self (s : Store) (d : Delivery) :
    (s.after d).keys d.message.generation = (s.handle d).room := s.keys_put_self _ _

/-- A call for another generation changes the runtime key at most. -/
theorem keys_after_of_ne (s : Store) {d : Delivery} {generation : String}
    (h : generation ≠ d.message.generation) :
    (s.after d).keys generation = { s.keys generation with runtime := (s.after d).runtime } :=
  s.keys_put_of_ne _ h

theorem runtime_after (s : Store) (d : Delivery) :
    (s.after d).runtime = (s.handle d).room.runtime := rfl

end Store

def storeAfter (deliveries : List Delivery) : Store := deliveries.foldl Store.after Store.empty

theorem storeAfter_append_singleton (deliveries : List Delivery) (d : Delivery) :
    storeAfter (deliveries ++ [d]) = (storeAfter deliveries).after d := by
  unfold storeAfter
  rw [List.foldl_append, List.foldl_cons, List.foldl_nil]

/-- The outcome of a call is that of its script on the keys still there. -/
theorem Store.handle_call (s : Store) {d : Delivery} {p : Policy} {op : Op}
    (h : d.message = .call p op) :
    s.handle d = ((s.keys p.generation).visible d.time).script p d.time op := by
  unfold Store.handle Delivery.event
  rw [h]
  rfl

theorem Store.handle_pause (s : Store) {d : Delivery} {generation : String}
    (h : d.message = .pause generation) :
    s.handle d = ((s.keys generation).visible d.time).markPause d.time := by
  unfold Store.handle Delivery.event
  rw [h]
  rfl

namespace Room

/-- The member is present or active, so a reply may give it a place. -/
def Seats (room : Room) (m : String) : Prop :=
  (room.presence.zscore m).isSome ∨ (room.active.zscore m).isSome

variable {room : Room} {p : Policy} {now : ℕ}

theorem seats_of_stand {next : Room} {m : String}
    (h : next.stand m = room.stand m ∨ next.stand m = Place.outside.stand) (hm : next.Seats m) :
    room.Seats m := by
  have hseats : (next.stand m).presence.isSome ∨ (next.stand m).active.isSome := hm
  cases h with
  | inl hsame =>
      rw [hsame] at hseats
      exact hseats
  | inr hgone =>
      rw [hgone] at hseats
      rcases hseats with hnone | hnone <;> cases hnone

theorem seats_touch {m : String} (h : (room.touch p now).Seats m) : room.Seats m := by
  obtain hsame | hgone := stand_touch room p now
  · exact seats_of_stand (Or.inl (hsame m)) h
  · exact seats_of_stand (Or.inr (hgone m)) h

theorem seats_remove {id m : String} (h : (room.remove id).Seats m) : room.Seats m := by
  apply seats_of_stand _ h
  rw [stand_remove]
  split_ifs
  · exact Or.inr rfl
  · exact Or.inl rfl

theorem zscore_visible {k : Key (SortedSet String)} {m : String}
    (h : ((k.visible now).zscore m).isSome) : (k.zscore m).isSome := by
  unfold Key.visible at h
  cases k with
  | none => exact h
  | some cell =>
      rw [Option.filter_some] at h
      split_ifs at h
      · exact h
      · cases h

theorem seats_visible {m : String} (h : (room.visible now).Seats m) : room.Seats m := by
  cases h with
  | inl hpresent => exact Or.inl (zscore_visible hpresent)
  | inr hactive => exact Or.inr (zscore_visible hactive)

/-- Only a member that is seated has a place. -/
theorem seats_of_state {m : String} {n : ℕ} (h : (room.state p now m).position = some n) :
    room.Seats m := by
  unfold state at h
  dsimp only at h
  split_ifs at h with hended hactive hpresent
  · cases h
  · apply Or.inr
    cases hscore : room.active.zscore m with
    | some score => rfl
    | none =>
        rw [hscore] at hactive
        exact absurd hactive (Nat.not_lt_zero now)
  · apply Or.inl
    cases hscore : room.presence.zscore m with
    | some score => rfl
    | none =>
        rw [hscore] at hpresent
        exact absurd hpresent (Nat.not_lt_zero now)
  · cases h

theorem candidate_seated {id : String} {rest : Room} (h : room.candidate = some (id, rest)) :
    rest.presence = room.presence ∧ rest.active = room.active := by
  unfold candidate at h
  split at h
  · cases h
    exact ⟨rfl, rfl⟩
  · split at h
    · cases h
      exact ⟨rfl, rfl⟩
    · cases h

/-- A release seats nobody new: who is admitted was present. -/
theorem seats_draw (p : Policy) (now turns tokens : ℕ) {m : String}
    (h : (draw p now turns tokens room).room.Seats m) : room.Seats m := by
  induction turns generalizing tokens room with
  | zero => exact h
  | succ turns ih =>
      unfold draw at h
      split_ifs at h with hstop
      · exact h
      · split at h
        · exact h
        · rename_i id rest hcandidate
          obtain ⟨hpresence, hactive⟩ := candidate_seated hcandidate
          have hrest : ∀ {m}, rest.Seats m → room.Seats m := by
            intro m hm
            unfold Seats at hm
            rw [hpresence, hactive] at hm
            exact hm
          split_ifs at h with hpresent
          · have hactivated : (rest.activate p now id).Seats m := ih _ h
            unfold Seats activate at hactivated
            dsimp only at hactivated
            rw [Key.zscore_zrem, Key.zscore_zadd] at hactivated
            by_cases hm : m = id
            · apply hrest
              apply Or.inl
              rw [hm]
              cases hscore : rest.presence.zscore id with
              | some score => rfl
              | none =>
                  rw [hscore] at hpresent
                  exact absurd hpresent (Nat.not_lt_zero now)
            · rw [if_neg hm, if_neg hm] at hactivated
              exact hrest hactivated
          · exact hrest (seats_remove (ih _ h))

theorem seats_tick {m : String} (h : (room.tick p now).room.Seats m) : room.Seats m := by
  have hclean : (room.cleanup p now).1.Seats m → room.Seats m :=
    seats_of_stand (stand_cleanup room p now m)
  cases hreason : (room.cleanup p now).1.pauseReason p now with
  | some reason =>
      obtain ⟨reply, htick⟩ := tick_of_paused hreason
      rw [htick] at h
      exact hclean (seats_touch h)
  | none =>
      obtain ⟨tokens, bucket, -, hroom⟩ := tick_of_open hreason
      rw [hroom] at h
      have hdrawn : (draw p now p.batch tokens (room.cleanup p now).1).room.Seats m := seats_touch h
      exact hclean (seats_draw p now p.batch tokens hdrawn)

/-- Who is seated after a join was seated before or is the member that joins. -/
theorem seats_join {member : String} {score : ℕ} {m : String}
    (h : (room.join p now member score).room.Seats m) : room.Seats m ∨ m = member := by
  have henter : ∀ {next : Room}, (∀ m, next.Seats m → room.Seats m) →
      ((next.enter p now member).touch p now).Seats m → room.Seats m ∨ m = member := by
    intro next hnext hm
    have hentered : (next.enter p now member).Seats m := seats_touch hm
    unfold Seats enter at hentered
    dsimp only at hentered
    rw [Key.zscore_zadd] at hentered
    by_cases heq : m = member
    · exact Or.inr heq
    · rw [if_neg heq] at hentered
      exact Or.inl (hnext m hentered)
  unfold join at h
  dsimp only at h
  split_ifs at h
  · exact Or.inl h
  · exact Or.inl h
  · exact Or.inl h
  · exact Or.inl h
  · exact henter (fun m hm => @seats_remove _ member _ hm) h
  · exact Or.inl (seats_remove h)
  · exact Or.inl (@seats_remove _ member _ h)
  · exact henter (fun m hm => @seats_remove _ member _ hm) h

theorem seats_beat {member : String} {m : String}
    (h : (room.beat p now member).room.Seats m) : room.Seats m := by
  unfold beat at h
  dsimp only at h
  split_ifs at h with hstate hearly
  · exact h
  · exact h
  · have hrenewed := seats_touch h
    by_cases hm : m = member
    · -- a heartbeat renews only what is there
      rw [hm]
      cases hposition : (room.state p now member).position with
      | some n => exact seats_of_state hposition
      | none =>
          exfalso
          unfold state at hstate hposition
          dsimp only at hstate hposition
          split_ifs at hstate hposition
          · exact hstate (Or.inr rfl)
          · cases hposition
          · split at hposition
            · cases hposition
            · rename_i hnone
              rw [hnone] at hstate
              exact hstate (Or.inl rfl)
          · exact hstate (Or.inl rfl)
    · have hsame : (room.renew p now member
          (decide (now < (room.active.zscore member).getD 0))).stand m = room.stand m := by
        rw [stand_renew, if_neg hm]
      exact seats_of_stand (Or.inl hsame) hrenewed

theorem seats_script {op : Op} {m : String} (h : (room.script p now op).room.Seats m) :
    room.Seats m ∨ ∃ score, op = .join m score := by
  have hguarded : ∀ {out : Outcome} {P : Prop}, (out.room.Seats m → room.Seats m ∨ P) →
      (room.guarded p now out).room.Seats m → room.Seats m ∨ P := by
    intro out P hout hm
    unfold guarded at hm
    split_ifs at hm
    · exact Or.inl hm
    · exact Or.inl hm
    · exact hout hm
  unfold script at h
  split_ifs at h with hvalid
  · exact Or.inl h
  · cases op with
    | sync bootstrap =>
        apply Or.inl
        dsimp only at h
        unfold sync at h
        dsimp only at h
        split_ifs at h
        · exact h
        · exact h
        · exact h
        · exact seats_touch h
    | status member => exact hguarded Or.inl h
    | leave member => exact hguarded (fun hm => Or.inl (seats_remove hm)) h
    | join member score =>
        refine hguarded (fun hm => (seats_join hm).imp_right ?_) h
        rintro rfl
        exact ⟨score, rfl⟩
    | heartbeat member => exact hguarded (fun hm => Or.inl (seats_beat hm)) h
    | tick => exact hguarded (fun hm => Or.inl (seats_tick hm)) h

end Room

/-- Who is seated in a generation joined under it. -/
theorem joined_of_seats (deliveries : List Delivery) (generation m : String)
    (h : ((storeAfter deliveries).keys generation).Seats m) : ∃ e ∈ deliveries, ∃ q score,
      e.message = .call q (.join m score) ∧ q.generation = generation := by
  induction deliveries using List.reverseRecOn with
  | nil => rcases h with hnone | hnone <;> cases hnone
  | append_singleton deliveries d ih =>
      have hearlier : ((storeAfter deliveries).keys generation).Seats m → ∃ e ∈ deliveries ++ [d],
          ∃ q score, e.message = .call q (.join m score) ∧ q.generation = generation := by
        intro hm
        obtain ⟨e, he, hjoin⟩ := ih hm
        exact ⟨e, List.mem_append_left _ he, hjoin⟩
      rw [storeAfter_append_singleton] at h
      by_cases hown : generation = d.message.generation
      · rw [hown, Store.keys_after_self] at h
        cases hmessage : d.message with
        | pause g =>
            rw [Store.handle_pause _ hmessage] at h
            apply hearlier
            rw [hown, hmessage]
            apply Room.seats_visible
            unfold Room.markPause at h
            split_ifs at h
            · exact h
            · exact h
        | call p op =>
            have hgeneration : generation = p.generation := by rw [hown, hmessage]; rfl
            rw [Store.handle_call _ hmessage] at h
            obtain hbefore | ⟨score, rfl⟩ := Room.seats_script h
            · apply hearlier
              rw [hgeneration]
              exact Room.seats_visible hbefore
            · exact ⟨d, by simp, p, score, hmessage, hgeneration.symm⟩
      · rw [Store.keys_after_of_ne _ hown] at h
        exact hearlier h

/-- A place in a reply goes back to a join in the same generation, perhaps the call itself. -/
theorem joined_of_position (before : List Delivery) {d : Delivery} {p : Policy} {op : Op} {m : String}
    {n : ℕ} (hcall : d.message = .call p op) (hop : op.member = some m)
    (h : ((storeAfter before).handle d).reply.position = some n) : ∃ e ∈ before ++ [d], ∃ q score,
      e.message = .call q (.join m score) ∧ q.generation = p.generation := by
  rw [Store.handle_call _ hcall] at h
  have hstate := Room.state_of_reply hop h
  rw [← hstate] at h
  have hgeneration : d.message.generation = p.generation := by rw [hcall]; rfl
  apply joined_of_seats (before ++ [d]) p.generation m
  rw [storeAfter_append_singleton, ← hgeneration, Store.keys_after_self, Store.handle_call _ hcall]
  exact Room.seats_of_state h

end Ticketing.Admission
