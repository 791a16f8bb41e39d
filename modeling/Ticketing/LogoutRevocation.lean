import Ticketing.AuthEffects

/-!
# A logout ends the session for later calls

After the revocation the database authenticates the token no more. What can
still do so is a reply from before the revocation: its late write to the cache,
or a group of read-only calls that waits for it. Without these every later
read-only call is refused.
-/

namespace Ticketing

open Relational

namespace AuthSystem

open AuthDb

/-- Nothing is in flight, and the session tokens are unique. -/
structure Initial (sys : AuthSystem) : Prop where
  tokens : ∀ sid sid' row row', sys.db.sessions.find sid = some row →
    sys.db.sessions.find sid' = some row' → row.tokenHash = row'.tokenHash → sid = sid'
  writes : sys.writes = []
  calls : sys.calls.rows = []
  pending : sys.pending.rows = []
  logouts : sys.logouts.rows = []

theorem Initial.sound {sys : AuthSystem} (h : Initial sys) : Sound sys := by
  have hcalls := Table.find_of_rows_nil h.calls
  have hpending := Table.find_of_rows_nil h.pending
  have hlogouts := Table.find_of_rows_nil h.logouts
  refine ⟨⟨h.tokens, ?_, ?_⟩, ⟨?_, ?_, ?_⟩, ⟨?_, ?_⟩⟩ <;> simp [hcalls, hpending, hlogouts]

/-- Some leader of the group has a reply that found the session. -/
def carries (sys : AuthSystem) (process : ℕ) (tokenHash : String) : Bool :=
  sys.calls.rows.any fun entry => entry.2.leads && decide (entry.2.process = process) &&
    decide (entry.2.tokenHash = tokenHash) && entry.2.phase.positive

/-- The step that goes wrong after a delete: a write of the token reaches the cache, or a new
read-only call joins a group whose leader still has a reply that found the session. -/
def stale (before : Table ℕ AuthCall) (tokenHash : String) (sys : AuthSystem) :
    AuthEvent → Bool
  | .write index _ =>
      match sys.writes[index]? with
      | some (.put written _ _) => decide (written = tokenHash)
      | _ => false
  | .handle id _ _ =>
      (before.find id).isNone && (sys.calls.find id).any fun call =>
        decide (call.tokenHash = tokenHash) && !call.strict && !call.phase.finished &&
          (sys.pending.find (call.process, tokenHash)).isSome &&
          sys.carries call.process tokenHash
  | _ => false

/-- A run without a stale step. -/
def runClean (config : AuthConfig) (sha256Hex : String → String) (before : Table ℕ AuthCall)
    (tokenHash : String) (events : List AuthEvent) (sys : AuthSystem) : Option AuthSystem :=
  events.foldlM (fun sys event =>
    if stale before tokenHash sys event then none else step config sha256Hex sys event) sys

/-- Every read-only call with the token that is not among those before is refused. -/
def Refuses (before : Table ℕ AuthCall) (tokenHash : String) (sys : AuthSystem) : Prop :=
  ∀ id call result, before.find id = none → sys.calls.find id = some call →
    call.readOnly = true → call.tokenHash = tokenHash → call.phase = .answered result →
      result.outcome ≠ .authenticated

/-- The session is revoked, the cache has no entry of it, and no new call waits for a reply that
found it. -/
structure Sealed (before : Table ℕ AuthCall) (tokenHash : String) (sys : AuthSystem) : Prop where
  rows : ∀ sid row, sys.db.sessions.find sid = some row → row.tokenHash = tokenHash →
    row.revokedAt.isSome = true
  cache : sys.cache.find tokenHash = none
  refuses : Refuses before tokenHash sys
  reads : ∀ id call record, before.find id = none → sys.calls.find id = some call →
    call.strict = false → call.tokenHash = tokenHash → call.phase ≠ .read (.hit record)
  groups : ∀ process group id, sys.pending.find (process, tokenHash) = some group → id ∈ group →
    before.find id = none → ∀ leaderId leader, sys.calls.find leaderId = some leader →
      leader.leads = true → leader.process = process → leader.tokenHash = tokenHash →
      leader.phase.positive = false

section Seal

variable {config : AuthConfig} {sha256Hex : String → String} {sys sys' : AuthSystem}
  {event : AuthEvent} {id : ℕ} {before : Table ℕ AuthCall} {tokenHash : String}

/-- No statement finds the session of a revoked token. -/
theorem progress_negative {call : AuthCall} {phase phase' : AuthPhase} {db : AuthDb}
    (h : Progress config sys event id call phase phase' db) (hs : Sealed before tokenHash sys)
    (htoken : call.tokenHash = tokenHash)
    (howned : ∀ sid, phase.carried = some sid → sys.db.Owned sid call.tokenHash) :
    phase'.positive = false := by
  cases h with
  | read => rfl
  | unread => rfl
  | validating => rfl
  | loading => rfl
  | @validated record now lag =>
      cases hrole : UserSessionRepository.isActive sys.db record.sessionId call.tokenHash now with
      | none => rfl
      | some role =>
          obtain ⟨row, hrow, hsame, hopen⟩ := UserSessionRepository.isActive_owned hrole
          have hrevoked := hs.rows _ row hrow (hsame.trans htoken)
          rw [hopen] at hrevoked
          cases hrevoked
  | loaded now lag =>
      cases hrecord : UserSessionRepository.findActiveByTokenHash sys.db call.tokenHash now with
      | none => rfl
      | some record =>
          obtain ⟨row, hrow, hsame, hopen⟩ := UserSessionRepository.findActive_owned hrecord
          have hrevoked := hs.rows _ row hrow (hsame.trans htoken)
          rw [hopen] at hrevoked
          cases hrevoked
  | @touched sessionId now lag =>
      cases hrecord : (UserSessionRepository.touch sys.db sessionId config.idleTimeoutSeconds
          now lag).1 with
      | none => rfl
      | some record =>
          obtain ⟨-, row, hrow, hopen⟩ := UserSessionRepository.touch_owned hrecord
          obtain ⟨row', hrow', hsame⟩ := howned sessionId rfl
          rw [hrow] at hrow'
          cases hrow'
          have hrevoked := hs.rows _ row hrow (hsame.trans htoken)
          rw [hopen] at hrevoked
          cases hrevoked
  | touching => rfl

/-- A cache without an entry of the token gives a call nothing to trust. -/
theorem progress_miss {call : AuthCall} {phase phase' : AuthPhase} {db : AuthDb}
    (h : Progress config sys event id call phase phase' db) (hs : Sealed before tokenHash sys)
    (htoken : call.tokenHash = tokenHash) (record : AuthSessionRecord) :
    phase' ≠ .read (.hit record) := by
  cases h with
  | read now =>
      unfold AuthSessionCache.get
      rw [htoken, hs.cache]
      simp
  | _ => simp

theorem cache_of_effect (h : Effect config sys event sys') (hs : Sealed before tokenHash sys)
    (hclean : stale before tokenHash sys event = false) : sys'.cache.find tokenHash = none := by
  cases h with
  | @completed id call result writes found =>
      obtain ⟨-, -, hcache⟩ := complete_rows (sys.send writes) id call result
      rw [hcache]
      exact hs.cache
  | @wrote index command now sent written =>
      cases command with
      | put other record ttl =>
          have hne : tokenHash ≠ other := by
            rintro rfl
            rw [written] at hclean
            simp [stale, sent] at hclean
          show (sys.cache.set other _).find tokenHash = none
          rw [Table.find_set_of_ne _ _ hne]
          exact hs.cache
      | remove other =>
          show (sys.cache.erase other).find tokenHash = none
          rw [Table.find_erase, hs.cache, ite_self]
  | @deleted id logout row found phase =>
      show (sys.cache.erase logout.tokenHash).find tokenHash = none
      rw [Table.find_erase, hs.cache, ite_self]
  | _ => exact hs.cache

theorem Sealed.step (hs : Sealed before tokenHash sys) (hsound : Sound sys)
    (h : Effect config sys event sys') (hclean : stale before tokenHash sys event = false) :
    Sealed before tokenHash sys' := by
  constructor
  case rows =>
    intro sid row hrow htoken
    obtain ⟨old, hold, hsame, hrevoked⟩ := (effect_kept h).cases hrow
    exact hrevoked (hs.rows sid old hold (hsame.symm.trans htoken))
  case cache => exact cache_of_effect h hs hclean
  case refuses =>
    intro id call result hnew hcall hreadOnly htoken hphase
    cases turned_of_effect h hcall with
    | kept found => exact hs.refuses id call result hnew found hreadOnly htoken hphase
    | started fresh leads phase =>
        rcases phase with hbefore | hbefore
        · rw [hbefore] at hphase
          cases hphase
        · rw [hbefore] at hphase
          cases hphase
          simp
    | progressed found progress =>
        cases hphase
        have hopen := progress_not_finished progress
        cases hopen
    | @answered old leader leaderId answer found leads inFlow earned handled grouped =>
        cases hphase
        intro hauthenticated
        obtain ⟨hpositive, -⟩ := earned hauthenticated
        rcases grouped with ⟨hlone, rfl⟩ | ⟨hleads, group, hgroup, hid⟩
        · rw [found] at leads
          cases leads
          have hplain := hsound.plain id old found (by
            unfold AuthCall.strict
            rw [show old.readOnly = true from hreadOnly, hlone]
            rfl)
          rw [hplain] at inFlow
          cases inFlow
        · obtain ⟨member, hmember, hkey, -⟩ := hsound.members _ group id hgroup hid
          rw [found] at hmember
          cases hmember
          obtain ⟨hprocess, hsame⟩ := Prod.mk.inj hkey
          have hleader : leader.tokenHash = tokenHash := hsame.symm.trans htoken
          rw [hleader] at hgroup
          have hno := hs.groups leader.process group id hgroup hid hnew leaderId leader leads
            hleads rfl hleader
          rw [hno] at hpositive
          cases hpositive
    | @trusted old record found lone phase =>
        exact absurd phase (hs.reads id old record hnew found lone htoken)
    | refused found lone outcome =>
        cases hphase
        exact outcome
    | joined => cases hphase
    | led => cases hphase
  case reads =>
    intro id call record hnew hcall hlone htoken hphase
    cases turned_of_effect h hcall with
    | kept found => exact hs.reads id call record hnew found hlone htoken hphase
    | started fresh leads phase =>
        rcases phase with hbefore | hbefore
        · rw [hbefore] at hphase
          cases hphase
        · rw [hbefore] at hphase
          cases hphase
    | @progressed old phase found progress =>
        have hmiss := progress_miss progress hs htoken record
        exact hmiss hphase
    | answered => cases hphase
    | trusted => cases hphase
    | refused => cases hphase
    | joined => cases hphase
    | led => cases hphase
  case groups =>
    intro process group id hgroup hid hnew leaderId leader hleader hleads hprocess htoken
    cases turned_of_effect h hleader with
    | kept found =>
        have hbefore : ∀ old, sys.pending.find (process, tokenHash) = some old → id ∈ old →
            leader.phase.positive = false := fun old hold hin =>
          hs.groups process old id hold hin hnew leaderId leader found hleads hprocess htoken
        cases grouped_of_effect h hgroup with
        | kept pending => exact hbefore group pending hid
        | @joined id' call old found' lone phase handled same pending members =>
            rw [members, List.mem_append, List.mem_singleton] at hid
            rcases hid with hin | rfl
            · exact hbefore old pending hin
            -- The call that joins now saw no leader with such a reply.
            · obtain ⟨result, hresult⟩ := phase
              obtain ⟨now, permit, hevent⟩ := handled
              obtain ⟨hsame, hcallToken⟩ := Prod.mk.inj same
              have hcarries : sys.carries call.process tokenHash = false := by
                rw [hevent] at hclean
                simpa [stale, hnew, found', hcallToken, lone, hresult, hsame, pending,
                  AuthPhase.finished] using hclean
              unfold carries at hcarries
              rw [List.any_eq_false] at hcarries
              have hrow := hcarries (leaderId, leader) ((Table.find_eq_some _ _ _).mp found)
              simpa [hleads, hprocess, hsame, htoken] using hrow
        | led found' lone same pending members =>
            cases hfinished : leader.phase.finished with
            | false =>
                obtain ⟨old, hold, -⟩ := hsound.leading leaderId leader found hleads hfinished
                rw [hprocess, htoken, pending] at hold
                cases hold
            | true =>
                unfold AuthPhase.finished at hfinished
                split at hfinished
                · rename_i hphase
                  rw [hphase]
                  rfl
                · cases hfinished
    | started fresh leads phase =>
        rw [leads] at hleads
        cases hleads
    | @progressed old phase found progress =>
        exact progress_negative progress hs htoken fun sid => hsound.owned leaderId old sid found
    | answered => rfl
    | trusted => rfl
    | refused => rfl
    | joined => rfl
    | led => rfl

/-- Right after its delete the token is sealed. -/
theorem sealed_of_delete {id : ℕ} {logout : Logout} (hsound : Sound sys)
    (hlogout : sys.logouts.find id = some logout) (h : sys.delete id = some sys') :
    Sealed sys'.calls logout.tokenHash sys' := by
  unfold delete at h
  rw [hlogout] at h
  simp only [Option.bind_eq_bind, Option.bind_some] at h
  split at h
  case h_2 => cases h
  rename_i found hphase
  cases h
  obtain ⟨owner, howner, htoken⟩ := hsound.logouts id logout hlogout
  have hrevoked := hsound.revoked id logout owner hlogout (by rw [hphase]; rfl) howner
  constructor
  case rows =>
    intro sid row hrow hsame
    have hid := hsound.unique sid logout.sessionId row owner hrow howner (hsame.trans htoken.symm)
    rw [hid] at hrow
    have heq := hrow.symm.trans howner
    cases heq
    exact hrevoked
  case cache =>
    show (sys.cache.erase logout.tokenHash).find logout.tokenHash = none
    rw [Table.find_erase, if_pos rfl]
  case refuses =>
    intro j call result hnew hcall
    rw [hnew] at hcall
    cases hcall
  case reads =>
    intro j call record hnew hcall
    rw [hnew] at hcall
    cases hcall
  case groups =>
    intro process group j hgroup hj hnew
    obtain ⟨call, hcall, -⟩ := hsound.members _ group j hgroup hj
    have hfound : sys.calls.find j = none := hnew
    rw [hcall] at hfound
    cases hfound

theorem Sealed.runClean {later : List AuthEvent} : ∀ {sys sys' : AuthSystem}, Sound sys →
    Sealed before tokenHash sys →
    AuthSystem.runClean config sha256Hex before tokenHash later sys = some sys' →
      Sealed before tokenHash sys' := by
  induction later with
  | nil =>
      intro sys sys' _ hs h
      cases h
      exact hs
  | cons event later ih =>
      intro sys sys' hsound hs h
      unfold AuthSystem.runClean at h
      rw [List.foldlM_cons] at h
      obtain ⟨next, hnext, hrest⟩ := Option.bind_eq_some_iff.mp h
      split_ifs at hnext with hclean
      have hno : stale before tokenHash sys event = false := by simpa using hclean
      exact ih (hsound.step hnext) (hs.step hsound (step_effect hnext) hno) hrest

end Seal

/-- From any state of the stores, after any calls and logouts, a logout's delete is applied: in
every later run without a stale step, each read-only call of its token that starts then is
refused. -/
theorem logout_revokes (config : AuthConfig) (sha256Hex : String → String)
    (events later : List AuthEvent) (initial sys deleted final : AuthSystem) (id : ℕ)
    (logout : Logout) (hinitial : Initial initial)
    (hrun : AuthSystem.run config sha256Hex events initial = some sys)
    (hlogout : sys.logouts.find id = some logout)
    (hdelete : AuthSystem.step config sha256Hex sys (.delete id) = some deleted)
    (hlater : runClean config sha256Hex deleted.calls logout.tokenHash later deleted =
      some final) :
    Refuses deleted.calls logout.tokenHash final := by
  have hsound := hinitial.sound.run hrun
  have hsealed : Sealed deleted.calls logout.tokenHash deleted :=
    sealed_of_delete hsound hlogout hdelete
  exact (hsealed.runClean (hsound.step hdelete) hlater).refuses

def answer (call : AuthCall) : Option AuthenticateResult :=
  match call.phase with
  | .answered result => some result
  | _ => none

theorem answer_eq_some {call : AuthCall} {result : AuthenticateResult}
    (h : answer call = some result) : call.phase = .answered result := by
  unfold answer at h
  split at h
  · rename_i hphase
    cases h
    exact hphase
  · cases h

/-- A session of a customer, seen at its creation 1000 seconds after the epoch. -/
def oneSession (tokenHash : String) : AuthSystem where
  db :=
    { sessions := ⟨[("SES-1", ⟨"U-1", tokenHash, 1000000000, 1000000000, 87400000000,
        605800000000, none⟩)], List.nodup_singleton _⟩
      users := ⟨[("U-1", ⟨"buyer", "Buyer", "CUSTOMER", true⟩)], List.nodup_singleton _⟩ }
  cache := Table.empty
  writes := []
  calls := Table.empty
  pending := Table.empty
  logouts := Table.empty

theorem oneSession_initial (tokenHash : String) : Initial (oneSession tokenHash) where
  tokens := by
    intro sid sid' row row' hrow hrow' _
    have hkey : ∀ {sid row}, (oneSession tokenHash).db.sessions.find sid = some row →
        sid = "SES-1" := by
      intro sid row hrow
      rw [Table.find_eq_some] at hrow
      exact (Prod.mk.inj (List.mem_singleton.mp hrow)).1
    rw [hkey hrow, hkey hrow']
  writes := rfl
  calls := rfl
  pending := rfl
  logouts := rfl

/-- The limits of the deployed configuration. -/
def deployed : AuthConfig := ⟨86400, 604800, 300, 300⟩

def zeroToken : String := "0000000000000000000000000000000000000000000000000000000000000000"

/-- The SHA-256 of the token. -/
def zeroTokenHash : String := "60e05bd1b195af2f94112fa7197a5c88289058840ce7c6df9693756bc6250f55"

/-- The first call signs in, fills the cache and logs out; the delete is on its way. -/
def signedOut (lookups : List AuthEvent) : List AuthEvent :=
  [.authenticate 1 0 zeroToken, .serve 1 1010000000, .handle 1 1010000000 true,
    .serve 1 1010000000, .handle 1 1010000000 true, .write 0 1010000000] ++ lookups ++
  [.logout 1 1, .revoke 1 1010000000, .handleRevoked 1]

/-- A read-only call from its start to its answer from the cache or the database. -/
def readOnlyCall (replies : ℕ) : List AuthEvent :=
  .authenticateReadOnly 3 0 zeroToken ::
    (List.replicate replies [AuthEvent.serve 3 1010000000, .handle 3 1010000000 true]).flatten

theorem logout_revokes_readOnlyCall : ∃ sys deleted final logout call,
    AuthSystem.run deployed (fun _ => zeroTokenHash) (signedOut []) (oneSession zeroTokenHash) =
      some sys ∧ sys.logouts.find 1 = some logout ∧
    AuthSystem.step deployed (fun _ => zeroTokenHash) sys (.delete 1) = some deleted ∧
    runClean deployed (fun _ => zeroTokenHash) deleted.calls logout.tokenHash (readOnlyCall 3)
      deleted = some final ∧ final.calls.find 3 = some call ∧
    call.phase = .answered { outcome := .unauthenticated } ∧
    Refuses deleted.calls logout.tokenHash final := by
  have hrun : (do
      let sys ← AuthSystem.run deployed (fun _ => zeroTokenHash) (signedOut [])
        (oneSession zeroTokenHash)
      let logout ← sys.logouts.find 1
      let deleted ← AuthSystem.step deployed (fun _ => zeroTokenHash) sys (.delete 1)
      let final ← runClean deployed (fun _ => zeroTokenHash) deleted.calls logout.tokenHash
        (readOnlyCall 3) deleted
      let call ← final.calls.find 3
      return call.phase) = some (.answered { outcome := .unauthenticated }) := by
    decide +kernel
  simp only [Option.bind_eq_bind, Option.bind_eq_some_iff, Option.pure_def,
    Option.some.injEq] at hrun
  obtain ⟨sys, hsys, logout, hlogout, deleted, hdeleted, final, hfinal, call, hcall, hphase⟩ := hrun
  exact ⟨sys, deleted, final, logout, call, hsys, hlogout, hdeleted, hfinal, hcall, hphase,
    logout_revokes deployed (fun _ => zeroTokenHash) (signedOut []) (readOnlyCall 3)
      (oneSession zeroTokenHash) sys deleted final 1 logout (oneSession_initial _) hsys hlogout
      hdeleted hfinal⟩

/-- A second lookup has read the session when the logout revokes it, and writes the cache after
the delete. -/
def lateLookup : List AuthEvent :=
  [.authenticate 2 0 zeroToken, .serve 2 1010000000, .handle 2 1010000000 true,
    .serve 2 1010000000]

def lateWrite : List AuthEvent := [.handle 2 1010000000 true, .write 0 1010000000]

theorem late_write_revives_session :
    ¬ ∀ (config : AuthConfig) (sha256Hex : String → String) (events later : List AuthEvent)
      (initial sys deleted final : AuthSystem) (id : ℕ) (logout : Logout), Initial initial →
      AuthSystem.run config sha256Hex events initial = some sys →
      sys.logouts.find id = some logout →
      AuthSystem.step config sha256Hex sys (.delete id) = some deleted →
      AuthSystem.run config sha256Hex later deleted = some final →
      Refuses deleted.calls logout.tokenHash final := by
  intro hclaim
  have hrun : (do
      let sys ← AuthSystem.run deployed (fun _ => zeroTokenHash) (signedOut lateLookup)
        (oneSession zeroTokenHash)
      let logout ← sys.logouts.find 1
      let deleted ← AuthSystem.step deployed (fun _ => zeroTokenHash) sys (.delete 1)
      let final ← AuthSystem.run deployed (fun _ => zeroTokenHash) (lateWrite ++ readOnlyCall 1)
        deleted
      let call ← final.calls.find 3
      let result ← answer call
      return (decide (call.tokenHash = logout.tokenHash) && call.readOnly &&
          (deleted.calls.find 3).isNone, result.outcome)) = some (true, .authenticated) := by
    decide +kernel
  simp only [Option.bind_eq_bind, Option.bind_eq_some_iff, Option.pure_def, Option.some.injEq,
    Prod.mk.injEq, Bool.and_eq_true, decide_eq_true_eq, Option.isNone_iff_eq_none] at hrun
  obtain ⟨sys, hsys, logout, hlogout, deleted, hdeleted, final, hfinal, call, hcall, result,
    hanswer, ⟨⟨htoken, hreadOnly⟩, hnew⟩, houtcome⟩ := hrun
  have hanswered := answer_eq_some hanswer
  exact hclaim deployed (fun _ => zeroTokenHash) (signedOut lateLookup)
    (lateWrite ++ readOnlyCall 1) (oneSession zeroTokenHash) sys deleted final 1 logout
    (oneSession_initial _) hsys hlogout hdeleted hfinal 3 call result hnew hcall hreadOnly htoken
    hanswered houtcome

end AuthSystem
end Ticketing
