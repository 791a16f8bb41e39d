/-!
# Transactions that read what is committed

A transaction runs statement by statement. Each statement reads the rows committed by then and
the transaction's own writes, which nobody else sees before it commits; rows that it locks stay
locked until it ends. Where every statement reads and writes nothing but what the locks held by
then guard, each commit takes the committed rows to what the whole transaction, run alone at
that moment, makes of them.
-/

namespace ReadCommitted

variable {σ ω Λ ε α β γ δ J I : Type}

/-! ## Programs of transactions -/

inductive Prog (σ ω Λ ε α : Type) where
  | commit (result : α)
  | rollback (error : ε)
  /-- `SELECT .. FOR UPDATE` of one row, and the error when there is no such row. -/
  | lock (row : Λ) (missing : ε) (rest : Prog σ ω Λ ε α)
  /-- One statement: what it writes and how the program goes on, given the rows it reads. -/
  | stmt (writes : σ → List ω) (rest : σ → Prog σ ω Λ ε α)

namespace Prog

def bind : Prog σ ω Λ ε α → (α → Prog σ ω Λ ε β) → Prog σ ω Λ ε β
  | .commit result, k => k result
  | .rollback error, _ => .rollback error
  | .lock row missing rest, k => .lock row missing (rest.bind k)
  | .stmt writes rest, k => .stmt writes fun s => (rest s).bind k

instance : Monad (Prog σ ω Λ ε) where
  pure := .commit
  bind := Prog.bind

/-- A statement with its writes and its result, both from the rows it reads. -/
def exec (writes : σ → List ω) (result : σ → α) : Prog σ ω Λ ε α :=
  .stmt writes fun s => .commit (result s)

def query (f : σ → α) : Prog σ ω Λ ε α := exec (fun _ => []) f

def require (b : Bool) (error : ε) : Prog σ ω Λ ε Unit :=
  if b then .commit () else .rollback error

def expect (error : ε) : Option α → Prog σ ω Λ ε α
  | some a => .commit a
  | none => .rollback error

def digest (f : α → δ) (p : Prog σ ω Λ ε α) : Prog σ ω Λ ε δ := p.bind fun a => .commit (f a)

theorem bind_assoc (p : Prog σ ω Λ ε α) (k : α → Prog σ ω Λ ε β) (k' : β → Prog σ ω Λ ε γ) :
    (p.bind k).bind k' = p.bind fun a => (k a).bind k' := by
  induction p with
  | commit result => rfl
  | rollback error => rfl
  | lock row missing rest ih => rw [bind, bind, bind, ih]
  | stmt writes rest ih =>
      rw [bind, bind, bind]
      exact congrArg _ (funext ih)

theorem digest_bind (f : β → δ) (p : Prog σ ω Λ ε α) (k : α → Prog σ ω Λ ε β) :
    (p.bind k).digest f = p.bind fun a => (k a).digest f :=
  bind_assoc p k _

end Prog

/-! ## The store and its isolation -/

/-- How a write changes the rows, and which rows that can be locked exist. -/
structure Store (σ ω Λ : Type) where
  apply : ω → σ → σ
  present : Λ → σ → Bool

def Store.applyAll (d : Store σ ω Λ) (writes : List ω) (s : σ) : σ :=
  writes.foldl (fun s w => d.apply w s) s

/-- What each lock guards: the states that agree on it from one to a later one, the writes that
touch it, and the states in which a transaction may find the rows. -/
structure Isolation (d : Store σ ω Λ) where
  Agree : Λ → σ → σ → Prop
  Touches : ω → Λ → Prop
  Sound : σ → Prop
  agree_refl : ∀ l s, Agree l s s
  agree_trans : ∀ {l s t u}, Agree l s t → Agree l t u → Agree l s u
  agree_apply : ∀ {l s t} w, Agree l s t → Agree l (d.apply w s) (d.apply w t)
  untouched : ∀ {l w} s, ¬Touches w l → Agree l s (d.apply w s)
  agree_present : ∀ {l s t}, Agree l s t → d.present l s = true → d.present l t = true

section Rules

variable {d : Store σ ω Λ} (iso : Isolation d)

namespace Isolation

def AgreeOn (held : List Λ) (s t : σ) : Prop := ∀ l ∈ held, iso.Agree l s t

theorem agree_applyAll {l : Λ} (writes : List ω) {s t : σ} (h : iso.Agree l s t) :
    iso.Agree l (d.applyAll writes s) (d.applyAll writes t) := by
  induction writes generalizing s t with
  | nil => exact h
  | cons w writes ih => exact ih (iso.agree_apply w h)

theorem untouched_applyAll {l : Λ} {writes : List ω} (h : ∀ w ∈ writes, ¬iso.Touches w l)
    (s : σ) : iso.Agree l s (d.applyAll writes s) := by
  induction writes generalizing s with
  | nil => exact iso.agree_refl l s
  | cons w writes ih =>
      have hhead := iso.untouched s (h w List.mem_cons_self)
      exact iso.agree_trans hhead (ih (fun w' hw' => h w' (List.mem_cons_of_mem _ hw')) _)

/-- Every statement on the program's path from a state reads and writes under the locks held by
then, the state is sound at each, and where the program commits the last condition holds. -/
def Covered (held : List Λ) : Prog σ ω Λ ε α → σ → (α → List Λ → σ → Prop) → Prop
  | .commit result, s, post => post result held s
  | .rollback _, _, _ => True
  | .lock row _ rest, s, post => d.present row s = true → Covered (row :: held) rest s post
  | .stmt writes rest, s, post =>
      iso.Sound s ∧
      (∀ t, iso.Sound t → iso.AgreeOn held s t → writes t = writes s ∧ rest t = rest s) ∧
      (∀ w ∈ writes s, ∀ l, iso.Touches w l → l ∈ held) ∧
      Covered held (rest s) (d.applyAll (writes s) s) post

theorem covered_bind {held : List Λ} {p : Prog σ ω Λ ε α} {k : α → Prog σ ω Λ ε β} {s : σ}
    {post : β → List Λ → σ → Prop}
    (h : iso.Covered held p s fun a held' s' => iso.Covered held' (k a) s' post) :
    iso.Covered held (p.bind k) s post := by
  induction p generalizing held s with
  | commit result => exact h
  | rollback error => trivial
  | lock row missing rest ih => exact fun hpresent => ih (h hpresent)
  | stmt writes rest ih =>
      obtain ⟨hsound, hreads, htouches, hrest⟩ := h
      refine ⟨hsound, fun t ht hagree => ?_, htouches, ih _ hrest⟩
      obtain ⟨hwrites, hnext⟩ := hreads t ht hagree
      exact ⟨hwrites, congrArg (fun q => q.bind k) hnext⟩

theorem covered_query {held : List Λ} {g : σ → α} {k : α → Prog σ ω Λ ε β} {s : σ}
    {post : β → List Λ → σ → Prop} (hsound : iso.Sound s)
    (hreads : ∀ t, iso.Sound t → iso.AgreeOn held s t → k (g t) = k (g s))
    (h : iso.Covered held (k (g s)) s post) :
    iso.Covered held ((Prog.query g).bind k) s post :=
  ⟨hsound, fun t ht hagree => ⟨rfl, hreads t ht hagree⟩, fun _ hw => (List.not_mem_nil hw).elim, h⟩

theorem covered_require {held : List Λ} {b : Bool} {error : ε} {k : Unit → Prog σ ω Λ ε β}
    {s : σ} {post : β → List Λ → σ → Prop} (h : b = true → iso.Covered held (k ()) s post) :
    iso.Covered held ((Prog.require b error).bind k) s post := by
  cases b with
  | false => trivial
  | true => exact h rfl

theorem covered_expect {held : List Λ} {a : Option α} {error : ε} {k : α → Prog σ ω Λ ε β}
    {s : σ} {post : β → List Λ → σ → Prop}
    (h : ∀ x, a = some x → iso.Covered held (k x) s post) :
    iso.Covered held ((Prog.expect error a).bind k) s post := by
  cases a with
  | none => trivial
  | some x => exact h x rfl

theorem covered_exec {held : List Λ} {writes : σ → List ω} {g : σ → α} {s : σ}
    {post : α → List Λ → σ → Prop} (hsound : iso.Sound s)
    (hreads : ∀ t, iso.Sound t → iso.AgreeOn held s t → writes t = writes s ∧ g t = g s)
    (htouches : ∀ w ∈ writes s, ∀ l, iso.Touches w l → l ∈ held)
    (h : post (g s) held (d.applyAll (writes s) s)) :
    iso.Covered held (Prog.exec writes g : Prog σ ω Λ ε α) s post :=
  ⟨hsound, fun t ht hagree => ⟨(hreads t ht hagree).1, congrArg _ (hreads t ht hagree).2⟩,
    htouches, h⟩

/-- A program up to a digest of its result. -/
theorem covered_digest {held : List Λ} {p : Prog σ ω Λ ε α} {f : α → δ} {s : σ}
    {post : δ → List Λ → σ → Prop} (h : iso.Covered held p s fun a => post (f a)) :
    iso.Covered held (p.digest f) s post := iso.covered_bind h

theorem covered_mono {held : List Λ} {p : Prog σ ω Λ ε α} {s : σ}
    {post post' : α → List Λ → σ → Prop} (h : iso.Covered held p s post)
    (himp : ∀ a held' s', post a held' s' → post' a held' s') : iso.Covered held p s post' := by
  induction p generalizing held s with
  | commit result => exact himp _ _ _ h
  | rollback error => trivial
  | lock row missing rest ih => exact fun hpresent => ih (h hpresent)
  | stmt writes rest ih =>
      obtain ⟨hsound, hreads, htouches, hrest⟩ := h
      exact ⟨hsound, hreads, htouches, ih _ hrest⟩

end Isolation

/-! ## One transaction after the other -/

/-- A whole transaction on rows that nobody else changes. -/
def serial (d : Store σ ω Λ) : Prog σ ω Λ ε α → σ → Except ε (α × σ)
  | .commit result, s => .ok (result, s)
  | .rollback error, _ => .error error
  | .lock row missing rest, s => if d.present row s then serial d rest s else .error missing
  | .stmt writes rest, s => serial d (rest s) (d.applyAll (writes s) s)

theorem serial_bind (d : Store σ ω Λ) (p : Prog σ ω Λ ε α) (k : α → Prog σ ω Λ ε β) (s : σ) :
    serial d (p >>= k) s = serial d p s >>= fun r => serial d (k r.1) r.2 := by
  induction p generalizing s with
  | commit result => rfl
  | rollback error => rfl
  | lock row missing rest ih =>
      by_cases hpresent : d.present row s = true
      · rw [serial, if_pos hpresent, ← ih]
        change serial d (.lock row missing (rest >>= k)) s = _
        rw [serial, if_pos hpresent]
      · rw [serial, if_neg hpresent]
        change serial d (.lock row missing (rest >>= k)) s = _
        rw [serial, if_neg hpresent]
        rfl
  | stmt writes rest ih => exact ih _ _

theorem Isolation.Covered.serial {held : List Λ} {p : Prog σ ω Λ ε α} {s : σ}
    {post : α → List Λ → σ → Prop} (h : iso.Covered held p s post) {result : α} {s' : σ}
    (hrun : ReadCommitted.serial d p s = .ok (result, s')) : ∃ held', post result held' s' := by
  induction p generalizing held s with
  | commit a =>
      cases hrun
      exact ⟨held, h⟩
  | rollback error => cases hrun
  | lock row missing rest ih =>
      by_cases hpresent : d.present row s = true
      · rw [ReadCommitted.serial, if_pos hpresent] at hrun
        exact ih (h hpresent) hrun
      · rw [ReadCommitted.serial, if_neg hpresent] at hrun
        cases hrun
  | stmt writes rest ih => exact ih _ h.2.2.2 hrun

/-- How far a program has come on the rows committed now: what it holds, what it has written
and what is left of it. -/
inductive Reaches (d : Store σ ω Λ) (s : σ) (held₀ : List Λ) (p : Prog σ ω Λ ε α) :
    List Λ → List ω → Prog σ ω Λ ε α → Prop where
  | start : Reaches d s held₀ p held₀ [] p
  | lock {held : List Λ} {pending : List ω} {row : Λ} {missing : ε} {rest : Prog σ ω Λ ε α}
      (before : Reaches d s held₀ p held pending (.lock row missing rest))
      (present : d.present row (d.applyAll pending s) = true) :
      Reaches d s held₀ p (row :: held) pending rest
  | stmt {held : List Λ} {pending : List ω} {writes : σ → List ω}
      {rest : σ → Prog σ ω Λ ε α} (before : Reaches d s held₀ p held pending (.stmt writes rest)) :
      Reaches d s held₀ p held (pending ++ writes (d.applyAll pending s))
        (rest (d.applyAll pending s))

theorem applyAll_append (d : Store σ ω Λ) (writes later : List ω) (s : σ) :
    d.applyAll (writes ++ later) s = d.applyAll later (d.applyAll writes s) := by
  simp [Store.applyAll]

namespace Reaches

variable {held₀ held : List Λ} {p q : Prog σ ω Λ ε α} {pending : List ω} {s t : σ}
  {post : α → List Λ → σ → Prop}

theorem covered (h : Reaches d s held₀ p held pending q) (hcov : iso.Covered held₀ p s post) :
    iso.Covered held q (d.applyAll pending s) post := by
  induction h with
  | start => exact hcov
  | lock before present ih => exact ih present
  | stmt before ih =>
      rw [applyAll_append]
      exact ih.2.2.2

theorem touches (h : Reaches d s held₀ p held pending q) (hcov : iso.Covered held₀ p s post) :
    ∀ w ∈ pending, ∀ l, iso.Touches w l → l ∈ held := by
  induction h with
  | start => exact fun w hw => by cases hw
  | lock before present ih => exact fun w hw l hl => List.mem_cons_of_mem _ (ih w hw l hl)
  | stmt before ih =>
      intro w hw l hl
      rcases List.mem_append.mp hw with hold | hnew
      · exact ih w hold l hl
      · exact (before.covered iso hcov).2.2.1 w hnew l hl

/-- Commits of others that leave alone what a transaction holds leave it where it is. -/
theorem stable {post' : α → List Λ → σ → Prop} (h : Reaches d s held₀ p held pending q)
    (hcov : iso.Covered held₀ p s post) (hcov' : iso.Covered held₀ p t post')
    (hagree : iso.AgreeOn held s t) : Reaches d t held₀ p held pending q := by
  induction h with
  | start => exact .start
  | lock before present ih =>
      have hbefore := ih fun l hl => hagree l (List.mem_cons_of_mem _ hl)
      have hrow := hagree _ List.mem_cons_self
      exact .lock hbefore (iso.agree_present (iso.agree_applyAll _ hrow) present)
  | stmt before ih =>
      have hbefore := ih hagree
      obtain ⟨hwrites, hrest⟩ := (before.covered iso hcov).2.1 _ (hbefore.covered iso hcov').1
        fun l hl => iso.agree_applyAll _ (hagree l hl)
      rw [← hwrites, ← hrest]
      exact .stmt hbefore

theorem serial (h : Reaches d s held₀ p held pending q) :
    ReadCommitted.serial d p s = ReadCommitted.serial d q (d.applyAll pending s) := by
  induction h with
  | start => rfl
  | lock before present ih => rw [ih, ReadCommitted.serial, if_pos present]
  | stmt before ih => rw [ih, ReadCommitted.serial, applyAll_append]

end Reaches
end Rules

/-! ## Many transactions at once -/

/-- What is asked of the store: the program of each job, the ids it draws for new rows, those of
these rows that can be locked, and which ids occur in the store. -/
structure Workload (σ ω Λ ε α J I : Type) where
  program : J → Prog σ ω Λ ε α
  ids : J → List I
  births : J → List Λ
  occurs : I → σ → Bool

def Workload.Fresh (w : Workload σ ω Λ ε α J I) (job : J) (s : σ) : Prop :=
  (w.ids job).Nodup ∧ ∀ x ∈ w.ids job, w.occurs x s = false

instance [DecidableEq I] (w : Workload σ ω Λ ε α J I) (job : J) (s : σ) :
    Decidable (w.Fresh job s) :=
  inferInstanceAs (Decidable (_ ∧ _))

/-- A transaction that has not ended; it holds the rows it has locked and those it inserts. -/
structure Open (σ ω Λ ε α J : Type) where
  job : J
  held : List Λ
  pending : List ω
  rest : Prog σ ω Λ ε α

structure Sys (σ ω Λ ε α J : Type) where
  committed : σ
  txs : List (Option (Open σ ω Λ ε α J))

inductive Act (J : Type) where
  | begin (job : J)
  | advance (i : Nat)
  | commit (i : Nat)
  | abort (i : Nat)

namespace Sys

def open? (s : Sys σ ω Λ ε α J) (i : Nat) : Option (Open σ ω Λ ε α J) := s.txs[i]?.join

def put (s : Sys σ ω Λ ε α J) (i : Nat) (tx : Option (Open σ ω Λ ε α J)) : Sys σ ω Λ ε α J :=
  { s with txs := s.txs.set i tx }

def push (s : Sys σ ω Λ ε α J) (tx : Open σ ω Λ ε α J) : Sys σ ω Λ ε α J :=
  { s with txs := s.txs ++ [some tx] }

/-- No other transaction satisfies the condition. -/
def Others (s : Sys σ ω Λ ε α J) (i : Nat) (p : Open σ ω Λ ε α J → Prop) : Prop :=
  ∀ k < s.txs.length, k ≠ i → ∀ tx ∈ s.open? k, p tx

instance (s : Sys σ ω Λ ε α J) (i : Nat) (p : Open σ ω Λ ε α J → Prop) [DecidablePred p] :
    Decidable (s.Others i p) :=
  inferInstanceAs (Decidable (∀ k < s.txs.length, k ≠ i → ∀ tx ∈ s.open? k, p tx))

def start (w : Workload σ ω Λ ε α J I) (job : J) : Open σ ω Λ ε α J :=
  { job, held := w.births job, pending := [], rest := w.program job }

/-- Drawn ids are new: neither the committed rows nor the transactions under way have them. -/
def Admits (w : Workload σ ω Λ ε α J I) (s : Sys σ ω Λ ε α J) (job : J) : Prop :=
  w.Fresh job s.committed ∧
  s.Others s.txs.length fun tx =>
    (∀ x ∈ w.ids job, x ∉ w.ids tx.job) ∧ ∀ l ∈ w.births job, l ∉ tx.held

instance [DecidableEq I] [DecidableEq Λ] (w : Workload σ ω Λ ε α J I) (s : Sys σ ω Λ ε α J)
    (job : J) : Decidable (s.Admits w job) := by
  unfold Admits
  infer_instance

/-- One step of one transaction. Locking a row that another one holds has to wait; locking a row
that is not there rolls the transaction back, and a transaction may be rolled back at any time. -/
def step [DecidableEq I] [DecidableEq Λ] (d : Store σ ω Λ) (w : Workload σ ω Λ ε α J I)
    (s : Sys σ ω Λ ε α J) : Act J → Option (Sys σ ω Λ ε α J)
  | .begin job => if s.Admits w job then some (s.push (start w job)) else none
  | .advance i =>
      (s.open? i).bind fun tx =>
        let view := d.applyAll tx.pending s.committed
        match tx.rest with
        | .lock row _ rest =>
            if d.present row view then
              if s.Others i fun other => row ∉ other.held then
                some (s.put i (some { tx with held := row :: tx.held, rest := rest }))
              else none
            else some (s.put i none)
        | .stmt writes rest =>
            some (s.put i (some { tx with pending := tx.pending ++ writes view, rest := rest view }))
        | _ => none
  | .commit i =>
      (s.open? i).bind fun tx =>
        match tx.rest with
        | .commit _ => some { s.put i none with committed := d.applyAll tx.pending s.committed }
        | _ => none
  | .abort i => (s.open? i).map fun _ => s.put i none

def run [DecidableEq I] [DecidableEq Λ] (d : Store σ ω Λ) (w : Workload σ ω Λ ε α J I) :
    Sys σ ω Λ ε α J → List (Act J) → Option (Sys σ ω Λ ε α J)
  | s, [] => some s
  | s, act :: acts => (s.step d w act).bind fun s' => run d w s' acts

end Sys

section Machine

variable {d : Store σ ω Λ} {w : Workload σ ω Λ ε α J I} {s s' : Sys σ ω Λ ε α J}

theorem open?_put_self {i : Nat} {o : Open σ ω Λ ε α J} (h : s.open? i = some o)
    (tx : Option (Open σ ω Λ ε α J)) : (s.put i tx).open? i = tx := by
  have hi : i < s.txs.length := by
    rw [Sys.open?, Option.join_eq_some_iff, List.getElem?_eq_some_iff] at h
    exact h.1
  simp [Sys.open?, Sys.put, List.getElem?_set_self hi]

theorem open?_put_ne {i k : Nat} (h : k ≠ i) (tx : Option (Open σ ω Λ ε α J)) :
    (s.put i tx).open? k = s.open? k := by
  simp [Sys.open?, Sys.put, List.getElem?_set_ne (Ne.symm h)]

theorem open?_push {k : Nat} {tx o : Open σ ω Λ ε α J} (h : (s.push tx).open? k = some o) :
    s.open? k = some o ∨ k = s.txs.length ∧ o = tx := by
  rw [Sys.open?, Sys.push, List.getElem?_append] at h
  by_cases hk : k < s.txs.length
  · rw [if_pos hk] at h
    exact .inl h
  · rw [if_neg hk] at h
    cases hd : k - s.txs.length with
    | zero =>
        rw [hd] at h
        cases h
        exact .inr ⟨by omega, rfl⟩
    | succ m =>
        rw [hd] at h
        simp at h

theorem lt_of_open? {k : Nat} {o : Open σ ω Λ ε α J} (h : s.open? k = some o) :
    k < s.txs.length := by
  rw [Sys.open?, Option.join_eq_some_iff, List.getElem?_eq_some_iff] at h
  exact h.1

theorem open?_dropped {i k : Nat} {tx o : Open σ ω Λ ε α J} (htx : s.open? i = some tx)
    (ho : (s.put i none).open? k = some o) : k ≠ i ∧ s.open? k = some o := by
  by_cases hk : k = i
  · subst hk
    rw [open?_put_self htx] at ho
    cases ho
  · rw [open?_put_ne hk] at ho
    exact ⟨hk, ho⟩

theorem open?_of_drop {i k : Nat} {o : Open σ ω Λ ε α J} (ho : (s.put i none).open? k = some o) :
    s.open? k = some o := by
  by_cases hi : ∃ tx, s.open? i = some tx
  · exact (open?_dropped hi.choose_spec ho).2
  · by_cases hk : k = i
    · subst hk
      rw [Sys.open?, Sys.put, List.getElem?_set] at ho
      split at ho
      · split at ho <;> cases ho
      · rename_i hself
        exact absurd rfl hself
    · rwa [open?_put_ne hk] at ho

theorem Sys.Others.of_open? {i k : Nat} {p : Open σ ω Λ ε α J → Prop} (h : s.Others i p)
    (hne : k ≠ i) {o : Open σ ω Λ ε α J} (ho : s.open? k = some o) : p o :=
  h k (lt_of_open? ho) hne o ho

variable [DecidableEq I] [DecidableEq Λ]

/-- All that one step can do. -/
theorem step_cases {act : Act J} (h : s.step d w act = some s') :
    (∃ job, act = .begin job ∧ s.Admits w job ∧ s' = s.push (Sys.start w job)) ∨
    (∃ i tx row missing rest, act = .advance i ∧ s.open? i = some tx ∧
      tx.rest = .lock row missing rest ∧
      d.present row (d.applyAll tx.pending s.committed) = true ∧
      (s.Others i fun other => row ∉ other.held) ∧
      s' = s.put i (some { tx with held := row :: tx.held, rest := rest })) ∨
    (∃ i tx writes rest, act = .advance i ∧ s.open? i = some tx ∧ tx.rest = .stmt writes rest ∧
      s' = s.put i (some { tx with
        pending := tx.pending ++ writes (d.applyAll tx.pending s.committed)
        rest := rest (d.applyAll tx.pending s.committed) })) ∨
    (∃ i tx result, act = .commit i ∧ s.open? i = some tx ∧ tx.rest = .commit result ∧
      s' = { s.put i none with committed := d.applyAll tx.pending s.committed }) ∨
    (∃ i, (act = .advance i ∨ act = .abort i) ∧ s' = s.put i none) := by
  cases act with
  | begin job =>
      rw [Sys.step] at h
      split at h
      · rename_i hadmits
        cases h
        exact .inl ⟨job, rfl, hadmits, rfl⟩
      · cases h
  | advance i =>
      obtain ⟨tx, htx, h⟩ := Option.bind_eq_some_iff.mp h
      cases hrest : tx.rest with
      | commit result => simp [hrest] at h
      | rollback error => simp [hrest] at h
      | lock row missing rest =>
          simp only [hrest] at h
          split at h
          · rename_i hpresent
            split at h
            · rename_i hothers
              cases h
              exact .inr (.inl ⟨i, tx, row, missing, rest, rfl, htx, hrest, hpresent, hothers, rfl⟩)
            · cases h
          · cases h
            exact .inr (.inr (.inr (.inr ⟨i, .inl rfl, rfl⟩)))
      | stmt writes rest =>
          simp only [hrest] at h
          cases h
          exact .inr (.inr (.inl ⟨i, tx, writes, rest, rfl, htx, hrest, rfl⟩))
  | commit i =>
      obtain ⟨tx, htx, h⟩ := Option.bind_eq_some_iff.mp h
      cases hrest : tx.rest with
      | commit result =>
          simp only [hrest] at h
          cases h
          exact .inr (.inr (.inr (.inl ⟨i, tx, result, rfl, htx, hrest, rfl⟩)))
      | rollback error => simp [hrest] at h
      | lock row missing rest => simp [hrest] at h
      | stmt writes rest => simp [hrest] at h
  | abort i =>
      obtain ⟨tx, htx, h⟩ := Option.map_eq_some_iff.mp h
      exact .inr (.inr (.inr (.inr ⟨i, .inr rfl, h.symm⟩)))

/-- A step that begins no transaction leaves those that stay open about their jobs. -/
theorem open_of_step {act : Act J} (h : s.step d w act = some s')
    (hbegin : ∀ job, act ≠ .begin job) {k : Nat} {tx : Open σ ω Λ ε α J}
    (htx : s'.open? k = some tx) : ∃ before, s.open? k = some before ∧ before.job = tx.job := by
  have hput : ∀ {i : Nat} {o new : Open σ ω Λ ε α J}, s.open? i = some o → new.job = o.job →
      (s.put i (some new)).open? k = some tx →
      ∃ before, s.open? k = some before ∧ before.job = tx.job := by
    intro i o new ho hjob hnew
    by_cases hk : k = i
    · subst hk
      rw [open?_put_self ho] at hnew
      cases hnew
      exact ⟨o, ho, hjob.symm⟩
    · rw [open?_put_ne hk] at hnew
      exact ⟨tx, hnew, rfl⟩
  rcases step_cases h with ⟨job, hact, _⟩ | ⟨i, o, row, missing, rest, _, ho, _, _, _, rfl⟩ |
    ⟨i, o, writes, rest, _, ho, _, rfl⟩ | ⟨i, o, result, _, ho, _, rfl⟩ | ⟨i, _, rfl⟩
  · exact absurd hact (hbegin job)
  · exact hput ho (by rfl) htx
  · exact hput ho (by rfl) htx
  · exact ⟨tx, (open?_dropped ho htx).2, rfl⟩
  · exact ⟨tx, open?_of_drop htx, rfl⟩

/-- Only a commit changes the committed rows. -/
theorem committed_of_step {act : Act J} (h : s.step d w act = some s')
    (hcommit : ∀ i, act ≠ .commit i) : s'.committed = s.committed := by
  rcases step_cases h with ⟨job, _, _, rfl⟩ | ⟨i, o, row, missing, rest, _, ho, _, _, _, rfl⟩ |
    ⟨i, o, writes, rest, _, ho, _, rfl⟩ | ⟨i, o, result, hact, _⟩ | ⟨i, _, rfl⟩
  · rfl
  · rfl
  · rfl
  · exact absurd hact (hcommit i)
  · rfl

theorem begin_step {job : J} (h : s.step d w (.begin job) = some s') :
    s' = s.push (Sys.start w job) := by
  rw [Sys.step] at h
  split at h
  · exact (Option.some.inj h).symm
  · cases h

theorem abort_step {i : Nat} (h : s.step d w (.abort i) = some s') : s' = s.put i none := by
  obtain ⟨tx, htx, h⟩ := Option.map_eq_some_iff.mp h
  exact h.symm

theorem commit_step {i : Nat} {tx : Open σ ω Λ ε α J} (htx : s.open? i = some tx) {result : α}
    (hrest : tx.rest = .commit result) (h : s.step d w (.commit i) = some s') :
    s' = { s.put i none with committed := d.applyAll tx.pending s.committed } := by
  obtain ⟨tx', htx', h⟩ := Option.bind_eq_some_iff.mp h
  obtain rfl := Option.some.inj (htx.symm.trans htx')
  rw [hrest] at h
  exact (Option.some.inj h).symm

end Machine

/-! ## Every commit is a whole transaction -/

/-- A workload whose transactions keep to the locks, with the states in which they may start and
what each comes to, up to a digest of its result. -/
structure Discipline {d : Store σ ω Λ} (iso : Isolation d) (w : Workload σ ω Λ ε α J I)
    (f : α → δ) where
  Inv : σ → Prop
  Post : J → σ → δ → σ → Prop
  covered : ∀ job s, Inv s → w.Fresh job s →
    iso.Covered (w.births job) ((w.program job).digest f) s fun result _ s' =>
      (Inv s' ∧ ∀ x, w.occurs x s = false → x ∉ w.ids job → w.occurs x s' = false) ∧
      Post job s result s'

section Disciplined

variable {d : Store σ ω Λ} {iso : Isolation d} {w : Workload σ ω Λ ε α J I} {f : α → δ}
  (c : Discipline iso w f) {s s' : Sys σ ω Λ ε α J}

namespace Discipline

/-- The rows are those of a state in which transactions may start, every open transaction is
where it would be by now on the rows committed now, and no two share a lock or an id. -/
structure Good (s : Sys σ ω Λ ε α J) : Prop where
  inv : c.Inv s.committed
  reach : ∀ i tx, s.open? i = some tx → Reaches d s.committed (w.births tx.job)
    ((w.program tx.job).digest f) tx.held tx.pending (tx.rest.digest f)
  fresh : ∀ i tx, s.open? i = some tx → w.Fresh tx.job s.committed
  apart : ∀ i k tx other, i ≠ k → s.open? i = some tx → s.open? k = some other →
    (∀ l ∈ tx.held, l ∉ other.held) ∧ ∀ x ∈ w.ids tx.job, x ∉ w.ids other.job

theorem good_start (s : σ) (h : c.Inv s) : c.Good (J := J) (α := α) (ε := ε) ⟨s, []⟩ where
  inv := h
  reach i tx htx := by cases htx
  fresh i tx htx := by cases htx
  apart i k tx other _ htx := by cases htx

variable {c}

theorem good_push (h : c.Good s) {job : J} (hadmits : s.Admits w job) :
    c.Good (s.push (Sys.start w job)) where
  inv := h.inv
  reach i tx htx := by
    rcases open?_push htx with hold | ⟨_, rfl⟩
    · exact h.reach i tx hold
    · exact .start
  fresh i tx htx := by
    rcases open?_push htx with hold | ⟨_, rfl⟩
    · exact h.fresh i tx hold
    · exact hadmits.1
  apart i k tx other hne htx hother := by
    have hne' : ∀ {m o}, s.open? m = some o → m ≠ s.txs.length :=
      fun ho => Nat.ne_of_lt (lt_of_open? ho)
    rcases open?_push htx with hold | ⟨rfl, rfl⟩ <;>
      rcases open?_push hother with hold' | ⟨rfl, rfl⟩
    · exact h.apart i k tx other hne hold hold'
    · obtain ⟨hids, hbirths⟩ := hadmits.2.of_open? (hne' hold) hold
      exact ⟨fun l hl hbirth => hbirths l hbirth hl, fun x hx hnew => hids x hnew hx⟩
    · obtain ⟨hids, hbirths⟩ := hadmits.2.of_open? (hne' hold') hold'
      exact ⟨hbirths, hids⟩
    · exact absurd rfl hne

/-- A transaction that goes on, holding rows that no other one holds. -/
theorem good_put (h : c.Good s) {i : Nat} {tx tx' : Open σ ω Λ ε α J}
    (htx : s.open? i = some tx) (hjob : tx'.job = tx.job)
    (hreach : Reaches d s.committed (w.births tx'.job) ((w.program tx'.job).digest f) tx'.held
      tx'.pending (tx'.rest.digest f))
    (hheld : ∀ k other, k ≠ i → s.open? k = some other → ∀ l ∈ tx'.held, l ∉ other.held) :
    c.Good (s.put i (some tx')) where
  inv := h.inv
  reach k o ho := by
    by_cases hk : k = i
    · subst hk
      rw [open?_put_self htx] at ho
      cases ho
      exact hreach
    · rw [open?_put_ne hk] at ho
      exact h.reach k o ho
  fresh k o ho := by
    by_cases hk : k = i
    · subst hk
      rw [open?_put_self htx] at ho
      cases ho
      rw [hjob]
      exact h.fresh k tx htx
    · rw [open?_put_ne hk] at ho
      exact h.fresh k o ho
  apart k m o other hne ho hother := by
    by_cases hk : k = i <;> by_cases hm : m = i
    · exact absurd (hk.trans hm.symm) hne
    · subst hk
      rw [open?_put_self htx] at ho
      rw [open?_put_ne hm] at hother
      cases ho
      rw [hjob]
      exact ⟨hheld m other hm hother, (h.apart k m tx other hne htx hother).2⟩
    · subst hm
      rw [open?_put_ne hk] at ho
      rw [open?_put_self htx] at hother
      cases hother
      rw [hjob]
      exact ⟨fun l hl hnew => hheld k o hk ho l hnew hl, (h.apart k m o tx hne ho htx).2⟩
    · rw [open?_put_ne hk] at ho
      rw [open?_put_ne hm] at hother
      exact h.apart k m o other hne ho hother

theorem good_drop (h : c.Good s) (i : Nat) : c.Good (s.put i none) :=
  ⟨h.inv, fun k o ho => h.reach k o (open?_of_drop ho), fun k o ho => h.fresh k o (open?_of_drop ho),
    fun k m o other hne ho hother =>
      h.apart k m o other hne (open?_of_drop ho) (open?_of_drop hother)⟩

/-- What a transaction that is about to commit comes to, on the rows committed now. -/
theorem committing (h : c.Good s) {i : Nat} {tx : Open σ ω Λ ε α J} (htx : s.open? i = some tx)
    {result : α} (hrest : tx.rest = .commit result) :
    serial d ((w.program tx.job).digest f) s.committed =
      .ok (f result, d.applyAll tx.pending s.committed) := by
  have hreach := h.reach i tx htx
  rw [hrest] at hreach
  exact hreach.serial

theorem good_commit (h : c.Good s) {i : Nat} {tx : Open σ ω Λ ε α J}
    (htx : s.open? i = some tx) {result : α} (hrest : tx.rest = .commit result) :
    c.Good { s.put i none with committed := d.applyAll tx.pending s.committed } := by
  have hcov := c.covered tx.job s.committed h.inv (h.fresh i tx htx)
  obtain ⟨_, ⟨hinv, hids⟩, _⟩ := hcov.serial iso (committing h htx hrest)
  have hopen : ∀ {k o}, ({ s.put i none with
      committed := d.applyAll tx.pending s.committed } : Sys σ ω Λ ε α J).open? k = some o →
      k ≠ i ∧ s.open? k = some o := fun ho => open?_dropped htx ho
  have hfresh : ∀ k o, k ≠ i → s.open? k = some o →
      w.Fresh o.job (d.applyAll tx.pending s.committed) := by
    intro k o hk ho
    obtain ⟨hnodup, habsent⟩ := h.fresh k o ho
    exact ⟨hnodup, fun x hx => hids x (habsent x hx) ((h.apart k i o tx hk ho htx).2 x hx)⟩
  constructor
  · exact hinv
  · intro k o ho
    obtain ⟨hk, ho⟩ := hopen ho
    have hagree : iso.AgreeOn o.held s.committed (d.applyAll tx.pending s.committed) := by
      intro l hl
      apply iso.untouched_applyAll
      intro write hwrite htouch
      have hheld := (h.reach i tx htx).touches iso hcov write hwrite l htouch
      exact (h.apart k i o tx hk ho htx).1 l hl hheld
    exact (h.reach k o ho).stable iso (c.covered o.job s.committed h.inv (h.fresh k o ho))
      (c.covered o.job _ hinv (hfresh k o hk ho)) hagree
  · intro k o ho
    exact hfresh k o (hopen ho).1 (hopen ho).2
  · intro k m o other hne ho hother
    exact h.apart k m o other hne (hopen ho).2 (hopen hother).2

variable [DecidableEq I] [DecidableEq Λ]

theorem good_step (h : c.Good s) {act : Act J} (hstep : s.step d w act = some s') : c.Good s' := by
  rcases step_cases hstep with ⟨job, rfl, hadmits, rfl⟩ |
    ⟨i, tx, row, missing, rest, rfl, htx, hrest, hpresent, hothers, rfl⟩ |
    ⟨i, tx, writes, rest, rfl, htx, hrest, rfl⟩ | ⟨i, tx, result, rfl, htx, hrest, rfl⟩ |
    ⟨i, _, rfl⟩
  · exact good_push h hadmits
  · have hreach := h.reach i tx htx
    rw [hrest] at hreach
    apply good_put h htx
    · rfl
    · exact .lock hreach hpresent
    · intro k other hk hother l hl
      rcases List.mem_cons.mp hl with rfl | hl
      · exact hothers.of_open? hk hother
      · exact (h.apart i k tx other (Ne.symm hk) htx hother).1 l hl
  · have hreach := h.reach i tx htx
    rw [hrest] at hreach
    apply good_put h htx
    · rfl
    · exact .stmt hreach
    · exact fun k other hk hother => (h.apart i k tx other (Ne.symm hk) htx hother).1
  · exact good_commit h htx hrest
  · exact good_drop h i

theorem good_run (h : c.Good s) {acts : List (Act J)} (hrun : s.run d w acts = some s') :
    c.Good s' := by
  induction acts generalizing s with
  | nil =>
      cases hrun
      exact h
  | cons act acts ih =>
      obtain ⟨s₁, hstep, hrest⟩ := Option.bind_eq_some_iff.mp hrun
      exact ih (good_step h hstep) hrest

/-- The committed rows move only by whole transactions, run alone at the moment they commit. -/
theorem step_committed (h : c.Good s) {act : Act J} (hstep : s.step d w act = some s') :
    s'.committed = s.committed ∨
    ∃ i tx result, act = .commit i ∧ s.open? i = some tx ∧ tx.rest = .commit result ∧
      serial d ((w.program tx.job).digest f) s.committed = .ok (f result, s'.committed) ∧
      c.Post tx.job s.committed (f result) s'.committed := by
  rcases step_cases hstep with ⟨job, rfl, hadmits, rfl⟩ |
    ⟨i, tx, row, missing, rest, rfl, htx, hrest, hpresent, hothers, rfl⟩ |
    ⟨i, tx, writes, rest, rfl, htx, hrest, rfl⟩ | ⟨i, tx, result, rfl, htx, hrest, rfl⟩ |
    ⟨i, _, rfl⟩
  · exact .inl rfl
  · exact .inl rfl
  · exact .inl rfl
  · have hserial := committing h htx hrest
    obtain ⟨_, _, hpost⟩ :=
      (c.covered tx.job s.committed h.inv (h.fresh i tx htx)).serial iso hserial
    exact .inr ⟨i, tx, result, rfl, htx, hrest, hserial, hpost⟩
  · exact .inl rfl

/-- A reflexive and transitive relation that every transaction keeps is kept by every run. -/
theorem run_relates (h : c.Good s) {R : σ → σ → Prop} (hrefl : ∀ t, R t t)
    (htrans : ∀ t u v, R t u → R u v → R t v)
    (hpost : ∀ job t r u, c.Inv t → c.Post job t r u → R t u) {acts : List (Act J)}
    (hrun : s.run d w acts = some s') : R s.committed s'.committed := by
  induction acts generalizing s with
  | nil =>
      cases hrun
      exact hrefl _
  | cons act acts ih =>
      obtain ⟨s₁, hstep, hrest⟩ := Option.bind_eq_some_iff.mp hrun
      have htail := ih (good_step h hstep) hrest
      rcases step_committed h hstep with hsame | ⟨i, tx, result, _, _, _, _, hp⟩
      · rwa [hsame] at htail
      · exact htrans _ _ _ (hpost tx.job _ _ _ h.inv hp) htail

end Discipline
end Disciplined

/-! ## One lock that guards everything -/

section Exclusive

variable {d : Store σ ω Unit} {w : Workload σ ω Unit ε α J I} {s s' : Sys σ ω Unit ε α J}

def exclusive (d : Store σ ω Unit) : Isolation d where
  Agree _ := Eq
  Touches _ _ := True
  Sound _ := True
  agree_refl _ _ := rfl
  agree_trans := Eq.trans
  agree_apply w h := congrArg (d.apply w) h
  untouched _ h := absurd trivial h
  agree_present h hpresent := h ▸ hpresent

/-- Under the lock every program keeps to it. -/
theorem covered_exclusive {held : List Unit} (hheld : () ∈ held) (p : Prog σ ω Unit ε α) (s : σ) :
    (exclusive d).Covered held p s fun _ _ _ => True := by
  induction p generalizing held s with
  | commit result => trivial
  | rollback error => trivial
  | lock row missing rest ih => exact fun _ => ih (List.mem_cons_of_mem _ hheld) s
  | stmt writes rest ih =>
      refine ⟨trivial, fun t _ hagree => ?_, fun _ _ _ _ => hheld, ih _ hheld _⟩
      obtain rfl := hagree () hheld
      exact ⟨rfl, rfl⟩

/-- The program takes the lock before its first statement. -/
def Prog.LocksFirst : Prog σ ω Unit ε α → Prop
  | .stmt _ _ => False
  | _ => True

theorem covered_locksFirst {p : Prog σ ω Unit ε α} (h : p.LocksFirst) (s : σ) :
    (exclusive d).Covered [] p s fun _ _ _ => True := by
  cases p with
  | commit result => trivial
  | rollback error => trivial
  | lock row missing rest => exact fun _ => covered_exclusive List.mem_cons_self rest s
  | stmt writes rest => exact h.elim

theorem serial_digest (d : Store σ ω Λ) (f : α → δ) (p : Prog σ ω Λ ε α) (s : σ) :
    serial d (p.digest f) s = (serial d p s).map fun r => (f r.1, r.2) := by
  have hbind := serial_bind d p (fun a => Prog.commit (f a)) s
  show serial d (p >>= fun a => Prog.commit (f a)) s = _
  rw [hbind]
  cases serial d p s <;> rfl

def exclusiveDiscipline (d : Store σ ω Unit) (w : Workload σ ω Unit ε α J I)
    (hids : ∀ job, w.births job = []) (hlocks : ∀ job, (w.program job).LocksFirst)
    (hoccurs : ∀ x s, w.occurs x s = false) : Discipline (exclusive d) w (id : α → α) where
  Inv _ := True
  Post _ _ _ _ := True
  covered job s _ _ := by
    rw [hids job]
    refine (exclusive d).covered_digest ((exclusive d).covered_mono (covered_locksFirst (hlocks job) s)
      fun _ _ _ _ => ⟨⟨trivial, fun x _ _ => hoccurs x _⟩, trivial⟩)

variable {hids : ∀ job, w.births job = []} {hlocks : ∀ job, (w.program job).LocksFirst}
  {hoccurs : ∀ x s, w.occurs x s = false}

/-- A transaction that commits has run as if it were alone. -/
theorem serial_of_commit (h : (exclusiveDiscipline d w hids hlocks hoccurs).Good s) {i : Nat}
    {tx : Open σ ω Unit ε α J} (htx : s.open? i = some tx) {result : α}
    (hrest : tx.rest = .commit result) :
    serial d (w.program tx.job) s.committed = .ok (result, d.applyAll tx.pending s.committed) := by
  have hserial := Discipline.committing h htx hrest
  rw [serial_digest] at hserial
  cases hrun : serial d (w.program tx.job) s.committed with
  | error e =>
      rw [hrun] at hserial
      cases hserial
  | ok r =>
      rw [hrun] at hserial
      obtain ⟨hresult, hstore⟩ := Prod.mk.inj (Except.ok.inj hserial)
      exact congrArg Except.ok (Prod.ext hresult hstore)

end Exclusive

end ReadCommitted
