import Ticketing.Library.Trace
import Mathlib.Logic.Function.Basic
import Mathlib.Data.List.Basic
import Mathlib.Tactic

/-!
# The identity of a browser

Logins and logouts change the cookie of the browser one after the other. An operation counter tells
which call may still change the current user, and the epoch a request was sent in tells whether its
401 still concerns the current identity.
-/

namespace Ticketing.Browser

open Transition

structure CurrentUser where
  id : String
  username : String
  displayName : String
  role : String
  deriving DecidableEq

/-- A request on its way. The last field only records whether a login was pending then. -/
structure Request where
  epoch : ℕ
  cookie : Option CurrentUser
  duringLogin : Bool

inductive MeStage where
  | waiting
  | settled
  | sent (request : Request)
  | answered (user : Option CurrentUser)

def MeStage.Unsent : MeStage → Prop
  | .waiting | .settled => True
  | _ => False

structure MeCall where
  revision : ℕ
  stage : MeStage

/-- A login that failed or was discarded is followed by a logout. -/
inductive LoginStage where
  | queued
  | sent
  | cleanup (user : Option CurrentUser)

inductive Mutation where
  | login (revision : ℕ) (stage : LoginStage)
  | logout (sent : Bool)

/-- The head of `mutations` runs; `logins` have run and their callers are about to resume. -/
structure Tab where
  cookie : Option CurrentUser
  currentUser : Option CurrentUser
  authLoading : Bool
  initialized : Bool
  operation : ℕ
  pendingLogin : Option ℕ
  authenticationEpoch : ℕ
  mutations : List Mutation
  logins : List (ℕ × Option CurrentUser)
  reads : ℕ → Option MeCall
  requests : ℕ → Option Request
  next : ℕ

inductive Answer where
  | ok
  | unauthenticated
  | failed

inductive Action where
  | login (aborted : Bool)
  | abort (revision : ℕ)
  | logout
  | sendMutation
  | answerLogin (answer : Option CurrentUser)
  | answerLogout (accepted : Bool)
  | finishLogin (revision : ℕ)
  | refreshMe
  | settle (id : ℕ)
  | sendMe (id : ℕ)
  | answerMe (id : ℕ) (answer : Answer)
  | finishMe (id : ℕ)
  | send
  | answer (id : ℕ) (answer : Answer)

namespace Tab

def opened (cookie : Option CurrentUser) : Tab where
  cookie := cookie
  currentUser := none
  authLoading := false
  initialized := false
  operation := 0
  pendingLogin := none
  authenticationEpoch := 0
  mutations := []
  logins := []
  reads := fun _ => none
  requests := fun _ => none
  next := 0

def beginOperation (tab : Tab) : Tab :=
  { tab with
    operation := tab.operation + 1
    authenticationEpoch := tab.authenticationEpoch + 1 }

def clearAuth (tab : Tab) : Tab :=
  { tab.beginOperation with
    pendingLogin := none
    currentUser := none
    initialized := true
    authLoading := false }

def login (tab : Tab) (aborted : Bool) : Tab :=
  let begun : Tab :=
    { tab.beginOperation with
      pendingLogin := some (tab.operation + 1)
      currentUser := none
      initialized := false
      authLoading := true }
  if aborted then begun.clearAuth
  else { begun with mutations := tab.mutations ++ [.login (tab.operation + 1) .queued] }

def abort (tab : Tab) (revision : ℕ) : Tab :=
  if tab.operation = revision ∧ tab.pendingLogin = some revision then tab.clearAuth else tab

def logout (tab : Tab) : Tab :=
  { tab.clearAuth with mutations := tab.mutations ++ [.logout false] }

def sendMutation (tab : Tab) : Tab :=
  match tab.mutations with
  | .login revision .queued :: later =>
      { tab with mutations := .login revision .sent :: later }
  | .logout false :: later => { tab with mutations := .logout true :: later }
  | _ => tab

/-- A successful login sets the cookie, whether or not its call is still the current one. -/
def answerLogin (tab : Tab) (answer : Option CurrentUser) : Tab :=
  match tab.mutations, answer with
  | .login revision .sent :: later, some user =>
      if tab.operation = revision then
        { tab with
          cookie := some user
          mutations := later
          logins := (revision, some user) :: tab.logins }
      else
        { tab with
          cookie := some user
          mutations := .login revision (.cleanup (some user)) :: later }
  | .login revision .sent :: later, none =>
      { tab with mutations := .login revision (.cleanup none) :: later }
  | _, _ => tab

def answerLogout (tab : Tab) (accepted : Bool) : Tab :=
  match tab.mutations with
  | .login revision (.cleanup user) :: later =>
      { tab with
        cookie := if accepted then none else tab.cookie
        mutations := later
        logins := (revision, if accepted then user else none) :: tab.logins }
  | .logout true :: later =>
      { tab with
        cookie := if accepted then none else tab.cookie
        mutations := later }
  | _ => tab

/-- The rest of `login` after its request, for the answer or the error it ended with. -/
def finishLogin (tab : Tab) (revision : ℕ) : Tab :=
  match tab.logins.lookup revision with
  | none => tab
  | some result =>
      let resumed : Tab :=
        { tab with logins := tab.logins.filter fun entry => decide (entry.1 ≠ revision) }
      if tab.operation = revision then
        { resumed with
          currentUser := result.or tab.currentUser
          initialized := true
          pendingLogin := none
          authLoading := false }
      else resumed

def refreshMe (tab : Tab) : Tab :=
  if tab.pendingLogin.isSome then tab
  else
    { tab with
      authLoading := true
      reads := Function.update tab.reads tab.next (some ⟨tab.operation, .waiting⟩)
      next := tab.next + 1 }

def setRead (tab : Tab) (id : ℕ) (call : Option MeCall) : Tab :=
  { tab with reads := Function.update tab.reads id call }

/-- What the interceptors keep of a request that is sent now. -/
def tagged (tab : Tab) : Request :=
  ⟨tab.authenticationEpoch, tab.cookie, tab.pendingLogin.isSome⟩

/-- The interceptor of a 401. -/
def rejected (tab : Tab) (request : Request) : Tab :=
  if request.epoch = tab.authenticationEpoch then tab.clearAuth else tab

/-- All mutations have been seen to end. -/
def settle (tab : Tab) (id : ℕ) : Tab :=
  match tab.reads id, tab.mutations with
  | some ⟨revision, .waiting⟩, [] => tab.setRead id (some ⟨revision, .settled⟩)
  | _, _ => tab

def sendMe (tab : Tab) (id : ℕ) : Tab :=
  match tab.reads id with
  | some ⟨revision, .settled⟩ => tab.setRead id (some ⟨revision, .sent tab.tagged⟩)
  | _ => tab

/-- The server knows the user from the cookie that the request carried. -/
def answerMe (tab : Tab) (id : ℕ) (answer : Answer) : Tab :=
  match tab.reads id with
  | some ⟨revision, .sent request⟩ =>
      match answer, request.cookie with
      | .ok, some user => tab.setRead id (some ⟨revision, .answered (some user)⟩)
      | .ok, none => tab
      | .unauthenticated, _ =>
          (tab.rejected request).setRead id (some ⟨revision, .answered none⟩)
      | .failed, _ => tab.setRead id (some ⟨revision, .answered none⟩)
  | _ => tab

def finishMe (tab : Tab) (id : ℕ) : Tab :=
  match tab.reads id with
  | some ⟨revision, .answered user⟩ =>
      let resumed := tab.setRead id none
      if tab.operation = revision then
        match user with
        | some user =>
            { resumed with
              currentUser := some user
              initialized := true
              authLoading := false }
        | none => resumed.clearAuth
      else resumed
  | _ => tab

def send (tab : Tab) : Tab :=
  { tab with
    requests := Function.update tab.requests tab.next (some tab.tagged)
    next := tab.next + 1 }

def answer (tab : Tab) (id : ℕ) (answer : Answer) : Tab :=
  match tab.requests id with
  | none => tab
  | some request =>
      let answered : Tab := { tab with requests := Function.update tab.requests id none }
      match answer with
      | .unauthenticated => answered.rejected request
      | _ => answered

def after (tab : Tab) : Action → Tab
  | .login aborted => tab.login aborted
  | .abort revision => tab.abort revision
  | .logout => tab.logout
  | .sendMutation => tab.sendMutation
  | .answerLogin answer => tab.answerLogin answer
  | .answerLogout accepted => tab.answerLogout accepted
  | .finishLogin revision => tab.finishLogin revision
  | .refreshMe => tab.refreshMe
  | .settle id => tab.settle id
  | .sendMe id => tab.sendMe id
  | .answerMe id answer => tab.answerMe id answer
  | .finishMe id => tab.finishMe id
  | .send => tab.send
  | .answer id answer => tab.answer id answer

/-! ## What holds at any time -/

/-- What a read has seen is still so, as long as it may be used. -/
def Seen (tab : Tab) : MeStage → Prop
  | .waiting => True
  | .settled => tab.mutations = []
  | .sent request => tab.mutations = [] ∧ request.cookie = tab.cookie
  | .answered user => tab.mutations = [] ∧ ∀ u, user = some u → tab.cookie = some u

/-- A request of the current epoch was sent during the login that is pending. -/
def Recorded (tab : Tab) (request : Request) : Prop :=
  request.epoch ≤ tab.operation ∧
    (request.epoch = tab.operation → tab.pendingLogin.isSome = true → request.duringLogin = true)

structure Sound (tab : Tab) : Prop where
  epoch : tab.authenticationEpoch = tab.operation
  pending : ∀ r, tab.pendingLogin = some r → r = tab.operation
  identified : ∀ u, tab.currentUser = some u → tab.cookie = some u ∧ tab.mutations = []
  queued : ∀ before later r stage, tab.mutations = before ++ .login r stage :: later →
    r ≤ tab.operation ∧ (r = tab.operation → later = [] ∧ tab.pendingLogin = some r ∧
      ∀ u, stage ≠ .cleanup (some u))
  resuming : ∀ r result, (r, result) ∈ tab.logins → r ≤ tab.operation ∧
    (r = tab.operation → tab.mutations = [] ∧ tab.pendingLogin = some r ∧
      ∀ u, result = some u → tab.cookie = some u)
  reading : ∀ id call, tab.reads id = some call → call.revision ≤ tab.operation ∧
    (call.revision = tab.operation → tab.pendingLogin = none ∧ tab.Seen call.stage) ∧
      ∀ request, call.stage = .sent request → tab.Recorded request
  sent : ∀ id request, tab.requests id = some request → tab.Recorded request
  issued : ∀ id, tab.next ≤ id → tab.reads id = none ∧ tab.requests id = none

theorem sound_opened (cookie : Option CurrentUser) : (opened cookie).Sound where
  epoch := rfl
  pending _ h := by cases h
  identified _ h := by cases h
  queued before later r stage h := by
    cases before <;> cases h
  resuming _ _ h := by cases h
  reading _ _ h := by cases h
  sent _ _ h := by cases h
  issued _ _ := ⟨rfl, rfl⟩

variable {tab : Tab}

theorem Recorded.begun {request : Request} (h : tab.Recorded request) {tab' : Tab}
    (hnext : tab'.operation = tab.operation + 1) : tab'.Recorded request := by
  have hle := h.1
  refine ⟨by omega, fun heq => ?_⟩
  omega

theorem Seen.waiting_of_queue {stage : MeStage} (h : tab.Seen stage) (hbusy : tab.mutations ≠ [])
    (tab' : Tab) : tab'.Seen stage := by
  cases stage with
  | waiting => trivial
  | settled => exact absurd h hbusy
  | sent request => exact absurd h.1 hbusy
  | answered user => exact absurd h.1 hbusy

/-- A begun operation leaves nothing current but the login that it queues. -/
theorem Sound.begun (h : tab.Sound) {tab' : Tab} (hoperation : tab'.operation = tab.operation + 1)
    (hepoch : tab'.authenticationEpoch = tab.authenticationEpoch + 1)
    (huser : tab'.currentUser = none)
    (hpending : ∀ r, tab'.pendingLogin = some r → r = tab.operation + 1)
    (hlogins : tab'.logins = tab.logins) (hreads : tab'.reads = tab.reads)
    (hrequests : tab'.requests = tab.requests) (hnext : tab'.next = tab.next)
    (hqueued : ∀ before later r stage, tab'.mutations = before ++ .login r stage :: later →
      (∃ rest, tab.mutations = before ++ .login r stage :: rest) ∨
        (later = [] ∧ r = tab.operation + 1 ∧ stage = .queued ∧ tab'.pendingLogin = some r)) :
    tab'.Sound where
  epoch := by rw [hepoch, hoperation, h.epoch]
  pending r hr := (hpending r hr).trans hoperation.symm
  identified u hu := by
    rw [huser] at hu
    cases hu
  queued before later r stage hsplit := by
    obtain ⟨rest, hold⟩ | ⟨hlast, hr, hstage, hnew⟩ := hqueued before later r stage hsplit
    · have hle := (h.queued before rest r stage hold).1
      refine ⟨by omega, fun heq => ?_⟩
      omega
    · refine ⟨by omega, fun _ => ⟨hlast, hnew, fun u hu => ?_⟩⟩
      rw [hstage] at hu
      cases hu
  resuming r result hin := by
    have hle := (h.resuming r result (hlogins ▸ hin)).1
    refine ⟨by omega, fun heq => ?_⟩
    omega
  reading id call hcall := by
    obtain ⟨hle, -, hsent⟩ := h.reading id call (hreads ▸ hcall)
    refine ⟨by omega, fun heq => ?_, fun request hstage => (hsent request hstage).begun hoperation⟩
    omega
  sent id request hrequest := (h.sent id request (hrequests ▸ hrequest)).begun hoperation
  issued id hid := by
    rw [hreads, hrequests]
    exact h.issued id (hnext ▸ hid)

theorem Sound.clearAuth (h : tab.Sound) : tab.clearAuth.Sound :=
  h.begun rfl rfl rfl (fun _ hr => by cases hr) rfl rfl rfl rfl
    fun _ later _ _ hsplit => Or.inl ⟨later, hsplit⟩

/-- Where a mutation stands once another one is queued. -/
theorem split_queued {queue before later : List Mutation} {mutation queued : Mutation}
    (h : queue ++ [queued] = before ++ mutation :: later) :
    (∃ rest, queue = before ++ mutation :: rest) ∨ (later = [] ∧ mutation = queued) := by
  obtain rfl | ⟨rest, last, rfl⟩ := later.eq_nil_or_concat
  · exact Or.inr ⟨rfl, (List.singleton_inj.mp (List.append_inj' h rfl).2).symm⟩
  · rw [List.concat_eq_append, ← List.cons_append, ← List.append_assoc] at h
    exact Or.inl ⟨rest, (List.append_inj' h rfl).1⟩

theorem Sound.login (h : tab.Sound) (aborted : Bool) : (tab.login aborted).Sound := by
  unfold Tab.login
  have hopen : ∀ r, some (tab.operation + 1) = some r → r = tab.operation + 1 :=
    fun r hr => (Option.some.inj hr).symm
  cases aborted with
  | true =>
      refine Sound.clearAuth ?_
      exact h.begun rfl rfl rfl hopen rfl rfl rfl rfl
        fun _ later _ _ hsplit => Or.inl ⟨later, hsplit⟩
  | false =>
      refine h.begun rfl rfl rfl hopen rfl rfl rfl rfl fun before later r stage hsplit => ?_
      obtain hold | ⟨hlast, hnew⟩ := split_queued hsplit
      · exact Or.inl hold
      · cases hnew
        exact Or.inr ⟨hlast, rfl, rfl, rfl⟩

theorem Sound.logout (h : tab.Sound) : tab.logout.Sound := by
  refine h.begun rfl rfl rfl (fun _ hr => by cases hr) rfl rfl rfl rfl
    fun before later r stage hsplit => ?_
  obtain hold | ⟨-, hnew⟩ := split_queued hsplit
  · exact Or.inl hold
  · cases hnew

theorem Sound.abort (h : tab.Sound) (revision : ℕ) : (tab.abort revision).Sound := by
  unfold Tab.abort
  split_ifs
  · exact h.clearAuth
  · exact h

theorem Sound.rejected (h : tab.Sound) (request : Request) : (tab.rejected request).Sound := by
  unfold Tab.rejected
  split_ifs
  · exact h.clearAuth
  · exact h

/-- While mutations run, nobody is identified: they may move on and change the cookie. -/
theorem Sound.moved (h : tab.Sound) {tab' : Tab} (hbusy : tab.mutations ≠ [])
    (hoperation : tab'.operation = tab.operation)
    (hepoch : tab'.authenticationEpoch = tab.authenticationEpoch)
    (huser : tab'.currentUser = tab.currentUser) (hpending : tab'.pendingLogin = tab.pendingLogin)
    (hreads : tab'.reads = tab.reads) (hrequests : tab'.requests = tab.requests)
    (hnext : tab'.next = tab.next)
    (hqueued : ∀ before later r stage, tab'.mutations = before ++ .login r stage :: later →
      r ≤ tab.operation ∧ (r = tab.operation → later = [] ∧ tab.pendingLogin = some r ∧
        ∀ u, stage ≠ .cleanup (some u)))
    (hlogins : ∀ r result, (r, result) ∈ tab'.logins → (r, result) ∈ tab.logins ∨
      (r ≤ tab.operation ∧ (r = tab.operation → tab'.mutations = [] ∧ tab.pendingLogin = some r ∧
        ∀ u, result = some u → tab'.cookie = some u))) : tab'.Sound where
  epoch := by rw [hepoch, hoperation, h.epoch]
  pending r hr := hoperation ▸ h.pending r (hpending ▸ hr)
  identified u hu := absurd (h.identified u (huser ▸ hu)).2 hbusy
  queued before later r stage hsplit := by
    rw [hoperation, hpending]
    exact hqueued before later r stage hsplit
  resuming r result hin := by
    rw [hoperation, hpending]
    obtain hold | hnew := hlogins r result hin
    · obtain ⟨hle, hcurrent⟩ := h.resuming r result hold
      exact ⟨hle, fun heq => absurd (hcurrent heq).1 hbusy⟩
    · exact hnew
  reading id call hcall := by
    obtain ⟨hle, hcurrent, hsent⟩ := h.reading id call (hreads ▸ hcall)
    unfold Recorded
    rw [hoperation, hpending]
    exact ⟨hle, fun heq => ⟨(hcurrent heq).1, (hcurrent heq).2.waiting_of_queue hbusy tab'⟩, hsent⟩
  sent id request hrequest := by
    unfold Recorded
    rw [hoperation, hpending]
    exact h.sent id request (hrequests ▸ hrequest)
  issued id hid := by
    rw [hreads, hrequests]
    exact h.issued id (hnext ▸ hid)

/-- What is known of the queue behind its head, whatever the head becomes. -/
theorem Sound.queued_tail (h : tab.Sound) {head : Mutation} {later : List Mutation}
    (hmutations : tab.mutations = head :: later) (before rest : List Mutation) (r : ℕ)
    (stage : LoginStage) (hsplit : later = before ++ .login r stage :: rest) :
    r ≤ tab.operation ∧ (r = tab.operation → rest = [] ∧ tab.pendingLogin = some r ∧
      ∀ u, stage ≠ .cleanup (some u)) :=
  h.queued (head :: before) rest r stage (by rw [hmutations, hsplit]; rfl)

theorem Sound.queued_head (h : tab.Sound) {revision : ℕ} {stage stage' : LoginStage}
    {later : List Mutation} (hmutations : tab.mutations = .login revision stage :: later)
    (hstage : revision = tab.operation → ∀ u, stage' ≠ .cleanup (some u))
    (before rest : List Mutation) (r : ℕ) (found : LoginStage)
    (hsplit : .login revision stage' :: later = before ++ .login r found :: rest) :
    r ≤ tab.operation ∧ (r = tab.operation → rest = [] ∧ tab.pendingLogin = some r ∧
      ∀ u, found ≠ .cleanup (some u)) := by
  cases before with
  | nil =>
      cases hsplit
      obtain ⟨hle, hcurrent⟩ := h.queued [] later revision stage hmutations
      exact ⟨hle, fun heq => ⟨(hcurrent heq).1, (hcurrent heq).2.1, hstage heq⟩⟩
  | cons first before =>
      obtain ⟨-, hrest⟩ := List.cons.inj hsplit
      exact h.queued_tail hmutations before rest r found hrest

theorem Sound.sendMutation (h : tab.Sound) : tab.sendMutation.Sound := by
  unfold Tab.sendMutation
  split
  · rename_i revision later hmutations
    refine h.moved (hmutations ▸ List.cons_ne_nil _ _) rfl rfl rfl rfl rfl rfl rfl ?_
      fun r result hin => Or.inl hin
    exact h.queued_head hmutations fun _ u hu => by cases hu
  · rename_i later hmutations
    refine h.moved (hmutations ▸ List.cons_ne_nil _ _) rfl rfl rfl rfl rfl rfl rfl ?_
      fun r result hin => Or.inl hin
    intro before rest r stage hsplit
    cases before with
    | nil => cases hsplit
    | cons first before =>
        exact h.queued_tail hmutations before rest r stage (List.cons.inj hsplit).2
  · exact h

theorem Sound.answerLogin (h : tab.Sound) (answer : Option CurrentUser) :
    (tab.answerLogin answer).Sound := by
  unfold Tab.answerLogin
  split
  · rename_i revision later user hmutations
    have hbusy : tab.mutations ≠ [] := hmutations ▸ List.cons_ne_nil _ _
    split_ifs with hcurrent
    · -- The login is current, so nothing was queued behind it.
      obtain ⟨hle, hlast⟩ := h.queued [] later revision .sent hmutations
      refine h.moved hbusy rfl rfl rfl rfl rfl rfl rfl (h.queued_tail hmutations) fun r result hin => ?_
      obtain hnew | hold := List.mem_cons.mp hin
      · cases hnew
        refine Or.inr ⟨hle, fun heq => ⟨(hlast heq).1, (hlast heq).2.1, fun u hu => ?_⟩⟩
        exact hu
      · exact Or.inl hold
    · refine h.moved hbusy rfl rfl rfl rfl rfl rfl rfl ?_ fun r result hin => Or.inl hin
      exact h.queued_head hmutations fun heq => absurd heq.symm hcurrent
  · rename_i revision later hmutations
    refine h.moved (hmutations ▸ List.cons_ne_nil _ _) rfl rfl rfl rfl rfl rfl rfl ?_
      fun r result hin => Or.inl hin
    exact h.queued_head hmutations fun _ u hu => by cases hu
  · exact h

theorem Sound.answerLogout (h : tab.Sound) (accepted : Bool) : (tab.answerLogout accepted).Sound := by
  unfold Tab.answerLogout
  split
  · rename_i revision user later hmutations
    obtain ⟨hle, hlast⟩ := h.queued [] later revision (.cleanup user) hmutations
    refine h.moved (hmutations ▸ List.cons_ne_nil _ _) rfl rfl rfl rfl rfl rfl rfl
      (h.queued_tail hmutations) fun r result hin => ?_
    obtain hnew | hold := List.mem_cons.mp hin
    · cases hnew
      refine Or.inr ⟨hle, fun heq => ⟨(hlast heq).1, (hlast heq).2.1, fun u hu => ?_⟩⟩
      -- Only a login that was discarded is cleaned up with a user to return.
      cases accepted with
      | true => exact absurd (congrArg LoginStage.cleanup hu) ((hlast heq).2.2 u)
      | false => cases hu
    · exact Or.inl hold
  · rename_i later hmutations
    exact h.moved (hmutations ▸ List.cons_ne_nil _ _) rfl rfl rfl rfl rfl rfl rfl
      (h.queued_tail hmutations) fun r result hin => Or.inl hin
  · exact h

theorem Sound.read_issued (h : tab.Sound) {id : ℕ} {call : MeCall} (hread : tab.reads id = some call) :
    id < tab.next := by
  by_contra hid
  rw [(h.issued id (Nat.not_lt.mp hid)).1] at hread
  cases hread

theorem Sound.setRead_next (h : tab.Sound) (id : ℕ) (call : Option MeCall) {next : ℕ}
    (hid : id < next) (hnext : tab.next ≤ next)
    (hcall : ∀ new, call = some new → new.revision ≤ tab.operation ∧
      (new.revision = tab.operation → tab.pendingLogin = none ∧ tab.Seen new.stage) ∧
        ∀ request, new.stage = .sent request → tab.Recorded request) :
    ({ tab.setRead id call with next := next } : Tab).Sound where
  epoch := h.epoch
  pending := h.pending
  identified := h.identified
  queued := h.queued
  resuming := h.resuming
  reading j new hnew := by
    unfold Tab.setRead at hnew
    dsimp only at hnew
    by_cases hj : j = id
    · rw [hj, Function.update_self] at hnew
      exact hcall new hnew
    · rw [Function.update_of_ne hj] at hnew
      exact h.reading j new hnew
  sent := h.sent
  issued j hj := by
    obtain ⟨hread, hrequest⟩ := h.issued j (hnext.trans hj)
    refine ⟨?_, hrequest⟩
    unfold Tab.setRead
    dsimp only at hj ⊢
    rw [Function.update_of_ne (by omega), hread]

theorem Sound.setRead (h : tab.Sound) (id : ℕ) (call : Option MeCall) (hid : id < tab.next)
    (hcall : ∀ new, call = some new → new.revision ≤ tab.operation ∧
      (new.revision = tab.operation → tab.pendingLogin = none ∧ tab.Seen new.stage) ∧
        ∀ request, new.stage = .sent request → tab.Recorded request) :
    (tab.setRead id call).Sound := h.setRead_next id call hid le_rfl hcall

theorem recorded_tagged (h : tab.Sound) : tab.Recorded tab.tagged :=
  ⟨h.epoch.le, fun _ hpending => hpending⟩

theorem Sound.finishLogin (h : tab.Sound) (revision : ℕ) : (tab.finishLogin revision).Sound := by
  unfold Tab.finishLogin
  cases hlookup : tab.logins.lookup revision with
  | none => exact h
  | some result =>
      have hin : (revision, result) ∈ tab.logins := by
        obtain ⟨earlier, later, hsplit, -⟩ := List.lookup_eq_some_iff.mp hlookup
        rw [hsplit]
        exact List.mem_append_right _ List.mem_cons_self
      have hkept : ∀ {entry}, entry ∈ tab.logins.filter (fun e => decide (e.1 ≠ revision)) →
          entry ∈ tab.logins ∧ entry.1 ≠ revision := fun hmem =>
        ⟨List.mem_of_mem_filter hmem, of_decide_eq_true (List.mem_filter.mp hmem).2⟩
      dsimp only
      split_ifs with hcurrent
      · obtain ⟨hidle, hpending, hcookie⟩ := (h.resuming revision result hin).2 hcurrent.symm
        refine ⟨h.epoch, fun _ hr => (by cases hr), ?_, ?_, ?_, ?_, ?_, h.issued⟩
        · intro u hu
          cases result with
          | none => exact h.identified u hu
          | some user => exact ⟨hcookie u hu, hidle⟩
        · intro before later r stage hsplit
          dsimp only at hsplit
          rw [hidle] at hsplit
          cases before <;> cases hsplit
        · intro r result' hmem
          obtain ⟨hold, hne⟩ := hkept hmem
          exact ⟨(h.resuming r result' hold).1, fun heq => absurd (heq.trans hcurrent) hne⟩
        · intro id call hcall
          obtain ⟨hle, hseen, hsent⟩ := h.reading id call hcall
          refine ⟨hle, fun heq => ⟨rfl, ?_⟩, fun request hstage =>
            ⟨(hsent request hstage).1, fun _ hnone => by cases hnone⟩⟩
          rw [(hseen heq).1] at hpending
          cases hpending
        · exact fun id request hrequest =>
            ⟨(h.sent id request hrequest).1, fun _ hnone => by cases hnone⟩
      · exact ⟨h.epoch, h.pending, h.identified, h.queued,
          fun r result' hmem => h.resuming r result' (hkept hmem).1, h.reading, h.sent, h.issued⟩

theorem Sound.refreshMe (h : tab.Sound) : tab.refreshMe.Sound := by
  unfold Tab.refreshMe
  split_ifs with hpending
  · exact h
  · have hnone : tab.pendingLogin = none := Option.not_isSome_iff_eq_none.mp hpending
    have hcalled := h.setRead_next tab.next (some ⟨tab.operation, .waiting⟩)
      (Nat.lt_succ_self tab.next) (Nat.le_succ _) fun call hcall => by
        cases hcall
        exact ⟨le_rfl, fun _ => ⟨hnone, trivial⟩, fun request hstage => by cases hstage⟩
    exact ⟨hcalled.epoch, hcalled.pending, hcalled.identified, hcalled.queued, hcalled.resuming,
      hcalled.reading, hcalled.sent, hcalled.issued⟩

theorem Sound.settle (h : tab.Sound) (id : ℕ) : (tab.settle id).Sound := by
  unfold Tab.settle
  split
  · rename_i revision hread hidle
    obtain ⟨hle, hcurrent, -⟩ := h.reading id _ hread
    refine h.setRead id _ (h.read_issued hread) fun call hcall => ?_
    cases hcall
    exact ⟨hle, fun heq => ⟨(hcurrent heq).1, hidle⟩, fun request hstage => by cases hstage⟩
  · exact h

theorem Sound.sendMe (h : tab.Sound) (id : ℕ) : (tab.sendMe id).Sound := by
  unfold Tab.sendMe
  split
  · rename_i revision hread
    obtain ⟨hle, hcurrent, -⟩ := h.reading id _ hread
    refine h.setRead id _ (h.read_issued hread) fun call hcall => ?_
    cases hcall
    refine ⟨hle, fun heq => ⟨(hcurrent heq).1, (hcurrent heq).2, rfl⟩, fun request hstage => ?_⟩
    cases hstage
    exact recorded_tagged h
  · exact h

/-- A rejection either concerns nothing or leaves no call current. -/
theorem rejected_cases (tab : Tab) (request : Request) : tab.rejected request = tab ∨
    (request.epoch = tab.authenticationEpoch ∧ tab.rejected request = tab.clearAuth) := by
  unfold Tab.rejected
  split_ifs with hepoch
  · exact Or.inr ⟨hepoch, rfl⟩
  · exact Or.inl rfl

theorem Sound.answerMe (h : tab.Sound) (id : ℕ) (answer : Answer) :
    (tab.answerMe id answer).Sound := by
  unfold Tab.answerMe
  split
  · rename_i revision request hread
    obtain ⟨hle, hcurrent, -⟩ := h.reading id _ hread
    have hnone : ∀ call, some (⟨revision, .answered none⟩ : MeCall) = some call →
        call.revision ≤ tab.operation ∧
          (call.revision = tab.operation → tab.pendingLogin = none ∧ tab.Seen call.stage) ∧
            ∀ request, call.stage = .sent request → tab.Recorded request := by
      intro call hcall
      cases hcall
      exact ⟨hle, fun heq => ⟨(hcurrent heq).1, (hcurrent heq).2.1, fun u hu => by cases hu⟩,
        fun request hstage => by cases hstage⟩
    split
    · rename_i user hcookie
      refine h.setRead id _ (h.read_issued hread) fun call hcall => ?_
      cases hcall
      refine ⟨hle, fun heq => ?_, fun request hstage => by cases hstage⟩
      obtain ⟨hpending, hidle, hsame⟩ := hcurrent heq
      exact ⟨hpending, hidle, fun u hu => by rw [← hsame, hcookie, hu]⟩
    · exact h
    · have hid : id < (tab.rejected request).next := by
        obtain hsame | ⟨-, hcleared⟩ := rejected_cases tab request
        · rw [hsame]
          exact h.read_issued hread
        · rw [hcleared]
          exact h.read_issued hread
      refine (h.rejected request).setRead id _ hid fun call hcall => ?_
      obtain hsame | ⟨-, hcleared⟩ := rejected_cases tab request
      · rw [hsame]
        exact hnone call hcall
      · rw [hcleared]
        cases hcall
        refine ⟨hle.trans (Nat.le_succ _), fun heq => ?_, fun request hstage => by cases hstage⟩
        exact absurd heq (Nat.lt_succ_of_le hle).ne
    · exact h.setRead id _ (h.read_issued hread) hnone
  · exact h

theorem Sound.finishMe (h : tab.Sound) (id : ℕ) : (tab.finishMe id).Sound := by
  unfold Tab.finishMe
  split
  · rename_i revision user hread
    have hresumed := h.setRead id none (h.read_issued hread) fun call hcall => by cases hcall
    dsimp only
    split_ifs with hcurrent
    · obtain ⟨-, hidle, hcookie⟩ := ((h.reading id _ hread).2.1 hcurrent.symm)
      split
      · rename_i found
        exact ⟨hresumed.epoch, hresumed.pending,
          fun u hu => ⟨(hcookie found rfl).trans (hu ▸ rfl), hidle⟩, hresumed.queued,
          hresumed.resuming, hresumed.reading, hresumed.sent, hresumed.issued⟩
      · exact hresumed.clearAuth
    · exact hresumed
  · exact h

theorem Sound.send (h : tab.Sound) : tab.send.Sound := by
  refine ⟨h.epoch, h.pending, h.identified, h.queued, h.resuming, h.reading, ?_, ?_⟩
  · intro id request hrequest
    unfold Tab.send at hrequest
    dsimp only at hrequest
    by_cases hid : id = tab.next
    · have hrecorded := recorded_tagged h
      rw [hid, Function.update_self] at hrequest
      cases hrequest
      exact hrecorded
    · rw [Function.update_of_ne hid] at hrequest
      exact h.sent id request hrequest
  · intro id hid
    have hlt : tab.next < id := hid
    obtain ⟨hread, hrequest⟩ := h.issued id hlt.le
    refine ⟨hread, ?_⟩
    unfold Tab.send
    dsimp only
    rw [Function.update_of_ne hlt.ne', hrequest]

theorem Sound.answered (h : tab.Sound) (id : ℕ) :
    ({ tab with requests := Function.update tab.requests id none } : Tab).Sound := by
  refine ⟨h.epoch, h.pending, h.identified, h.queued, h.resuming, h.reading, ?_, ?_⟩
  · intro j request hrequest
    dsimp only at hrequest
    by_cases hj : j = id
    · rw [hj, Function.update_self] at hrequest
      cases hrequest
    · rw [Function.update_of_ne hj] at hrequest
      exact h.sent j request hrequest
  · intro j hj
    obtain ⟨hread, hrequest⟩ := h.issued j hj
    refine ⟨hread, ?_⟩
    dsimp only
    by_cases hid : j = id
    · rw [hid, Function.update_self]
    · rw [Function.update_of_ne hid, hrequest]

theorem Sound.answer (h : tab.Sound) (id : ℕ) (answer : Answer) : (tab.answer id answer).Sound := by
  unfold Tab.answer
  split
  · exact h
  · rename_i request hrequest
    dsimp only
    split
    · exact (h.answered id).rejected request
    · exact h.answered id

theorem Sound.after (h : tab.Sound) (action : Action) : (tab.after action).Sound := by
  cases action with
  | login aborted => exact h.login aborted
  | abort revision => exact h.abort revision
  | logout => exact h.logout
  | sendMutation => exact h.sendMutation
  | answerLogin answer => exact h.answerLogin answer
  | answerLogout accepted => exact h.answerLogout accepted
  | finishLogin revision => exact h.finishLogin revision
  | refreshMe => exact h.refreshMe
  | settle id => exact h.settle id
  | sendMe id => exact h.sendMe id
  | answerMe id answer => exact h.answerMe id answer
  | finishMe id => exact h.finishMe id
  | send => exact h.send
  | answer id answer => exact h.answer id answer

/-! ## What requests that were sent before can still do -/

/-- Requests keep what they were tagged with, and their ids are not used again. -/
structure Continues (tab later : Tab) : Prop where
  operation : tab.operation ≤ later.operation
  next : tab.next ≤ later.next
  requests : ∀ id < tab.next, ∀ request, later.requests id = some request →
    tab.requests id = some request
  reads : ∀ id < tab.next, ∀ call, later.reads id = some call →
    ∃ old, tab.reads id = some old ∧ old.revision = call.revision ∧
      (old.stage = call.stage ∨ old.stage.Unsent ∨ ∃ user, call.stage = .answered user)

theorem Continues.refl (tab : Tab) : tab.Continues tab where
  operation := le_rfl
  next := le_rfl
  requests _ _ _ h := h
  reads _ _ call h := ⟨call, h, rfl, Or.inl rfl⟩

theorem Continues.trans {middle later : Tab} (h : tab.Continues middle)
    (h' : middle.Continues later) : tab.Continues later where
  operation := h.operation.trans h'.operation
  next := h.next.trans h'.next
  requests id hid request hrequest :=
    h.requests id hid request (h'.requests id (hid.trans_le h.next) request hrequest)
  reads id hid call hcall := by
    obtain ⟨mid, hmid, hrevision, hstage⟩ := h'.reads id (hid.trans_le h.next) call hcall
    obtain ⟨old, hold, hrevision', hstage'⟩ := h.reads id hid mid hmid
    refine ⟨old, hold, hrevision'.trans hrevision, ?_⟩
    obtain hsame | hunsent | ⟨user, hanswered⟩ := hstage'
    · rw [hsame]
      exact hstage
    · exact Or.inr (Or.inl hunsent)
    · obtain hsame | hunsent | hdone := hstage
      · exact Or.inr (Or.inr ⟨user, hsame ▸ hanswered⟩)
      · rw [hanswered] at hunsent
        exact hunsent.elim
      · exact Or.inr (Or.inr hdone)

theorem continues_clearAuth (tab : Tab) : tab.Continues tab.clearAuth where
  operation := Nat.le_succ _
  next := le_rfl
  requests _ _ _ h := h
  reads _ _ call h := ⟨call, h, rfl, Or.inl rfl⟩

theorem continues_of_same {later : Tab} (hoperation : tab.operation ≤ later.operation)
    (hnext : tab.next ≤ later.next) (hreads : later.reads = tab.reads)
    (hrequests : later.requests = tab.requests) : tab.Continues later where
  operation := hoperation
  next := hnext
  requests _ _ _ h := hrequests ▸ h
  reads _ _ call h := ⟨call, hreads ▸ h, rfl, Or.inl rfl⟩

theorem continues_rejected (tab : Tab) (request : Request) : tab.Continues (tab.rejected request) := by
  obtain hsame | ⟨-, hcleared⟩ := rejected_cases tab request
  · rw [hsame]
    exact .refl tab
  · rw [hcleared]
    exact continues_clearAuth tab

theorem continues_setRead {id : ℕ} {old : MeCall} (hread : tab.reads id = some old)
    {call : Option MeCall} (hcall : ∀ new, call = some new → old.revision = new.revision ∧
      (old.stage.Unsent ∨ ∃ user, new.stage = .answered user)) :
    tab.Continues (tab.setRead id call) where
  operation := le_rfl
  next := le_rfl
  requests _ _ _ h := h
  reads j _ new hnew := by
    unfold Tab.setRead at hnew
    dsimp only at hnew
    by_cases hj : j = id
    · rw [hj, Function.update_self] at hnew
      obtain ⟨hrevision, hstage⟩ := hcall new hnew
      exact ⟨old, hj ▸ hread, hrevision, Or.inr hstage⟩
    · rw [Function.update_of_ne hj] at hnew
      exact ⟨new, hnew, rfl, Or.inl rfl⟩

theorem continues_requests (tab : Tab) (id next : ℕ) (request : Option Request)
    (hnext : tab.next ≤ next) (h : request = none ∨ tab.next ≤ id) :
    tab.Continues
      { tab with requests := Function.update tab.requests id request, next := next } where
  operation := le_rfl
  next := hnext
  requests j hj found hfound := by
    dsimp only at hfound
    by_cases hid : j = id
    · rw [hid, Function.update_self] at hfound
      obtain rfl | hle := h
      · cases hfound
      · omega
    · rwa [Function.update_of_ne hid] at hfound
  reads _ _ call h := ⟨call, h, rfl, Or.inl rfl⟩

theorem continues_answerMe (tab : Tab) (id : ℕ) (answer : Answer) :
    tab.Continues (tab.answerMe id answer) := by
  unfold Tab.answerMe
  split
  · rename_i revision request hread
    have hanswered : ∀ user new, some (⟨revision, .answered user⟩ : MeCall) = some new →
        revision = new.revision ∧ ((MeStage.sent request).Unsent ∨
          ∃ user, new.stage = .answered user) := by
      intro user new hnew
      cases hnew
      exact ⟨rfl, Or.inr ⟨user, rfl⟩⟩
    split
    · exact continues_setRead hread (hanswered _)
    · exact .refl tab
    · have hread' : (tab.rejected request).reads id = some ⟨revision, .sent request⟩ := by
        obtain hsame | ⟨-, hcleared⟩ := rejected_cases tab request
        · rw [hsame, hread]
        · rw [hcleared]
          exact hread
      exact (continues_rejected tab request).trans (continues_setRead hread' (hanswered none))
    · exact continues_setRead hread (hanswered none)
  · exact .refl tab

theorem continues_finishMe (tab : Tab) (id : ℕ) : tab.Continues (tab.finishMe id) := by
  unfold Tab.finishMe
  split
  · rename_i revision user hread
    have hresumed : tab.Continues (tab.setRead id none) :=
      continues_setRead hread fun new hnew => by cases hnew
    dsimp only
    split_ifs
    · split
      · exact ⟨hresumed.operation, hresumed.next, hresumed.requests, hresumed.reads⟩
      · exact hresumed.trans (continues_clearAuth _)
    · exact hresumed
  · exact .refl tab

theorem continues_after (tab : Tab) (action : Action) : tab.Continues (tab.after action) := by
  cases action with
  | login aborted =>
      unfold after Tab.login
      cases aborted with
      | true => exact continues_of_same (Nat.le_add_right _ 2) le_rfl rfl rfl
      | false => exact continues_of_same (Nat.le_succ _) le_rfl rfl rfl
  | abort revision =>
      unfold after Tab.abort
      dsimp only
      split_ifs
      · exact continues_clearAuth tab
      · exact .refl tab
  | logout => exact continues_of_same (Nat.le_succ _) le_rfl rfl rfl
  | sendMutation =>
      unfold after Tab.sendMutation
      dsimp only
      split <;> exact continues_of_same le_rfl le_rfl rfl rfl
  | answerLogin answer =>
      unfold after Tab.answerLogin
      dsimp only
      split
      · split_ifs <;> exact continues_of_same le_rfl le_rfl rfl rfl
      · exact continues_of_same le_rfl le_rfl rfl rfl
      · exact .refl tab
  | answerLogout accepted =>
      unfold after Tab.answerLogout
      dsimp only
      split <;> exact continues_of_same le_rfl le_rfl rfl rfl
  | finishLogin revision =>
      unfold after Tab.finishLogin
      dsimp only
      split
      · exact .refl tab
      · split_ifs <;> exact continues_of_same le_rfl le_rfl rfl rfl
  | refreshMe =>
      unfold after Tab.refreshMe
      dsimp only
      split_ifs
      · exact .refl tab
      · refine ⟨le_rfl, Nat.le_succ _, fun _ _ _ h => h, fun id hid call hcall => ?_⟩
        dsimp only at hcall
        rw [Function.update_of_ne hid.ne] at hcall
        exact ⟨call, hcall, rfl, Or.inl rfl⟩
  | settle id =>
      unfold after Tab.settle
      dsimp only
      split
      · rename_i revision hread hidle
        exact continues_setRead hread fun new hnew => by
          cases hnew
          exact ⟨rfl, Or.inl trivial⟩
      · exact .refl tab
  | sendMe id =>
      unfold after Tab.sendMe
      dsimp only
      split
      · rename_i revision hread
        exact continues_setRead hread fun new hnew => by
          cases hnew
          exact ⟨rfl, Or.inl trivial⟩
      · exact .refl tab
  | answerMe id answer => exact continues_answerMe tab id answer
  | finishMe id => exact continues_finishMe tab id
  | send => exact continues_requests tab tab.next (tab.next + 1) _ (Nat.le_succ _) (Or.inr le_rfl)
  | answer id answer =>
      unfold after Tab.answer
      dsimp only
      have hanswered := continues_requests tab id tab.next none le_rfl (Or.inl rfl)
      split
      · exact .refl tab
      · split
        · exact hanswered.trans (continues_rejected _ _)
        · exact hanswered

/-- The response belongs to a request that is on its way or has just been answered. -/
def InFlight (tab : Tab) : Action → Prop
  | .answerLogin _ => ∃ revision later, tab.mutations = .login revision .sent :: later
  | .answerLogout _ => (∃ later, tab.mutations = .logout true :: later) ∨
      ∃ revision user later, tab.mutations = .login revision (.cleanup user) :: later
  | .answerMe id _ => ∃ revision request, tab.reads id = some ⟨revision, .sent request⟩
  | .finishMe id => ∃ call, tab.reads id = some call ∧ ¬call.stage.Unsent
  | .answer id _ => ∃ request, tab.requests id = some request
  | _ => False

/-- The login is the current one and its call returns this user. -/
def Completes (tab : Tab) (revision : ℕ) (user : CurrentUser) : Prop :=
  tab.operation = revision ∧ tab.logins.lookup revision = some (some user)

/-- A 401 to a request that was sent while a login was pending, with no operation begun since,
finds nobody identified. -/
def Spares (tab : Tab) (request : Request) : Prop :=
  request.duringLogin = true → request.epoch = tab.authenticationEpoch → tab.currentUser = none

def Heeds (tab : Tab) : Action → Prop
  | .answer id .unauthenticated => ∀ request, tab.requests id = some request → tab.Spares request
  | .answerMe id .unauthenticated =>
      ∀ revision request, tab.reads id = some ⟨revision, .sent request⟩ → tab.Spares request
  | _ => True

theorem currentUser_rejected {request : Request} (h : tab.Spares request)
    (hduring : request.epoch = tab.authenticationEpoch → request.duringLogin = true) :
    (tab.rejected request).currentUser = tab.currentUser := by
  obtain hsame | ⟨hepoch, hcleared⟩ := rejected_cases tab request
  · rw [hsame]
  · rw [hcleared, h (hduring hepoch) hepoch]
    rfl

/-- Before a login completes, the requests of its epoch have been sent during it. -/
theorem duringLogin_of_recorded {later : Tab} (hlater : later.Sound)
    (hcontinues : tab.Continues later) (hpending : tab.pendingLogin.isSome = true)
    {request : Request} (h : tab.Recorded request)
    (hepoch : request.epoch = later.authenticationEpoch) : request.duringLogin = true := by
  have hle := h.1
  have hgrows := hcontinues.operation
  have hnow := hlater.epoch
  exact h.2 (by omega) hpending

/-- What was on its way while a login was pending changes nobody's identity any more. -/
theorem currentUser_stale {later : Tab} (h : tab.Sound) (hlater : later.Sound)
    (hcontinues : tab.Continues later) (hpending : tab.pendingLogin.isSome = true)
    {response : Action} (hflight : tab.InFlight response) (hheeds : later.Heeds response) :
    (later.after response).currentUser = later.currentUser := by
  cases response with
  | answerLogin answer =>
      unfold after answerLogin
      dsimp only
      split
      · split_ifs <;> rfl
      · rfl
      · rfl
  | answerLogout accepted =>
      unfold after answerLogout
      dsimp only
      split <;> rfl
  | answerMe id answer =>
      obtain ⟨revision, request, hsent⟩ := hflight
      unfold after answerMe
      dsimp only
      split
      · rename_i revision' request' hread
        obtain ⟨old, hold, -, hstage⟩ :=
          hcontinues.reads id (h.read_issued hsent) _ hread
        cases hsent.symm.trans hold
        have hsame : request = request' := by
          obtain hsame | hunsent | ⟨user, hanswered⟩ := hstage
          · exact MeStage.sent.inj hsame
          · exact hunsent.elim
          · cases hanswered
        have hrecorded := (h.reading id _ hsent).2.2 request rfl
        split
        · rfl
        · rfl
        · refine currentUser_rejected (hheeds revision' request' hread) ?_
          rw [← hsame]
          exact duringLogin_of_recorded hlater hcontinues hpending hrecorded
        · rfl
      · rfl
  | finishMe id =>
      obtain ⟨call, hcall, -⟩ := hflight
      unfold after finishMe
      dsimp only
      split
      · rename_i revision user hread
        obtain ⟨old, hold, hrevision, -⟩ := hcontinues.reads id (h.read_issued hcall) _ hread
        -- The read began before the login, which began an operation since.
        obtain ⟨hle, hcurrent, -⟩ := h.reading id old hold
        have hbegun : later.operation ≠ revision := by
          intro heq
          have hgrows := hcontinues.operation
          have hrev : old.revision = revision := hrevision
          rw [(hcurrent (by omega)).1] at hpending
          cases hpending
        rw [if_neg hbegun]
        rfl
      · rfl
  | answer id answer =>
      obtain ⟨request, hsent⟩ := hflight
      have hissued : id < tab.next := by
        by_contra hid
        rw [(h.issued id (Nat.not_lt.mp hid)).2] at hsent
        cases hsent
      unfold after Tab.answer
      dsimp only
      split
      · rfl
      · rename_i request' hrequest
        have hsame := hcontinues.requests id hissued request' hrequest
        have hrecorded := h.sent id request' hsame
        split
        · refine @currentUser_rejected { later with requests := Function.update later.requests id none }
            request' (hheeds request' hrequest) ?_
          exact duringLogin_of_recorded hlater hcontinues hpending hrecorded
        · rfl
  | login aborted => exact hflight.elim
  | abort revision => exact hflight.elim
  | logout => exact hflight.elim
  | sendMutation => exact hflight.elim
  | finishLogin revision => exact hflight.elim
  | refreshMe => exact hflight.elim
  | settle id => exact hflight.elim
  | sendMe id => exact hflight.elim
  | send => exact hflight.elim

end Tab

def Step (action : Action) (tab tab' : Tab) : Prop := tab' = tab.after action

/-- A step that meets the condition on stale 401s. -/
def HeedingStep (action : Action) (tab tab' : Tab) : Prop :=
  tab.Heeds action ∧ Step action tab tab'

theorem sound_run {cookie : Option CurrentUser} {actions : List Action} {tab : Tab}
    (h : Trace Step (Tab.opened cookie) actions tab) : tab.Sound :=
  h.invariant (fun action _ _ hsound hstep => by
    rw [hstep]
    exact hsound.after action) (Tab.sound_opened cookie)

theorem HeedingStep.steps {tab tab' : Tab} {actions : List Action}
    (h : Trace HeedingStep tab actions tab') : Trace Step tab actions tab' := by
  induction h with
  | nil tab => exact .nil tab
  | cons head _ ih => exact .cons head.2 ih

theorem continues_run {tab tab' : Tab} {actions : List Action} (h : Trace Step tab actions tab') :
    tab.Continues tab' :=
  h.relates Tab.Continues.refl fun action tab _ _ hstep hrest => by
    rw [hstep] at hrest
    exact (tab.continues_after action).trans hrest

/-- The current user is nobody or the user of the cookie. A response to a request that was sent
before a login completed does not change who is identified, as long as no 401 to a request sent
while a login was pending finds an identity of the same epoch. -/
theorem browser_identity (cookie : Option CurrentUser) :
    (∀ actions tab, Trace Step (Tab.opened cookie) actions tab →
      tab.currentUser = none ∨ tab.currentUser = tab.cookie) ∧
    (∀ before tab revision user between later response last,
      Trace HeedingStep (Tab.opened cookie) before tab → tab.Completes revision user →
        Trace HeedingStep (tab.after (.finishLogin revision)) between later →
          tab.InFlight response → HeedingStep response later last →
            (tab.after (.finishLogin revision)).currentUser = some user ∧
              last.currentUser = later.currentUser) := by
  constructor
  · intro actions tab hrun
    cases huser : tab.currentUser with
    | none => exact Or.inl rfl
    | some user => exact Or.inr ((sound_run hrun).identified user huser).1.symm
  · intro before tab revision user between later response last hbefore hcompletes hbetween hflight
      hlast
    have hrun := (HeedingStep.steps hbefore).append
      (.cons (a := .finishLogin revision) rfl (HeedingStep.steps hbetween))
    have hsound := sound_run (HeedingStep.steps hbefore)
    obtain ⟨hcurrent, hlookup⟩ := hcompletes
    have hpending : tab.pendingLogin = some revision := by
      obtain ⟨earlier, rest, hsplit, -⟩ := List.lookup_eq_some_iff.mp hlookup
      have hin : (revision, some user) ∈ tab.logins := by
        rw [hsplit]
        exact List.mem_append_right _ List.mem_cons_self
      exact ((hsound.resuming revision (some user) hin).2 hcurrent.symm).2.1
    have hcontinues := (tab.continues_after (.finishLogin revision)).trans
      (continues_run (HeedingStep.steps hbetween))
    obtain ⟨hheeds, rfl⟩ := hlast
    refine ⟨?_, Tab.currentUser_stale hsound (sound_run hrun) hcontinues (by rw [hpending]; rfl)
      hflight hheeds⟩
    unfold Tab.after Tab.finishLogin
    dsimp only
    rw [hlookup]
    dsimp only
    rw [if_pos hcurrent]
    rfl

theorem run (tab : Tab) (actions : List Action) : Trace Step tab actions (actions.foldl Tab.after tab) := by
  induction actions generalizing tab with
  | nil => exact .nil tab
  | cons action actions ih => exact .cons rfl (ih _)

def buyer : CurrentUser := ⟨"U-1", "buyer", "Buyer", "CUSTOMER"⟩

/-- A login that is answered, with other requests before it and during it. -/
def loginAround (before during : List Action) : List Action :=
  before ++ [.login false, .sendMutation] ++ during ++ [.answerLogin (some buyer)]

theorem browser_identity_lateRejection :
    let tab := (loginAround [.send] []).foldl Tab.after (Tab.opened none)
    let later := tab.after (.finishLogin 1)
    later.currentUser = some buyer ∧
      (later.after (.answer 0 .unauthenticated)).currentUser = later.currentUser := by
  have hheeds : ∀ actions : List Action, (∀ action ∈ actions, ∀ tab : Tab, tab.Heeds action) →
      ∀ tab, Trace HeedingStep tab actions (actions.foldl Tab.after tab) := by
    intro actions hall
    induction actions with
    | nil => exact fun tab => .nil tab
    | cons action actions ih =>
        exact fun tab => .cons ⟨hall action List.mem_cons_self tab, rfl⟩
          (ih (fun next hin => hall next (List.mem_cons_of_mem action hin)) _)
  refine (browser_identity none).2 (loginAround [.send] []) _ 1 buyer [] _ (.answer 0 .unauthenticated)
    _ (hheeds _ ?_ _) ⟨rfl, rfl⟩ (.nil _) ⟨⟨0, none, false⟩, rfl⟩ ⟨?_, rfl⟩
  · simp [loginAround, Tab.Heeds]
  · intro request hrequest hduring
    cases hrequest
    cases hduring

theorem rejection_ends_login : ¬∀ before tab revision user between later response last,
    Trace Step (Tab.opened none) before tab → tab.Completes revision user →
      Trace Step (tab.after (.finishLogin revision)) between later →
        tab.InFlight response → Step response later last →
          last.currentUser = later.currentUser := by
  intro h
  have hkept := h (loginAround [] [.send]) _ 1 buyer [] _ (.answer 0 .unauthenticated) _
    (run _ _) ⟨rfl, rfl⟩ (.nil _) ⟨⟨1, none, true⟩, rfl⟩ rfl
  cases hkept

end Ticketing.Browser
