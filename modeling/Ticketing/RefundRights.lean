import Ticketing.PaymentLedger

/-!
# Refunds and the rights of an order

Workers race for a refund under a lease that may lapse while one of them is
still asking the provider. Whatever the order of their transactions, a refund
ends once, a buyer's rights end with it in the same transaction, and an order
never gives back more than it took.
-/

namespace Ticketing

open Relational Transition

/-- Every refund gives back the order total of a payment that succeeded. -/
def Db.RefundsSound (db : Db) : Prop :=
  ∀ f refund, db.ledger.refunds.find f = some refund → ∃ row order,
    db.ledger.attempts.find refund.paymentAttemptId = some row ∧
      row.orderId = refund.orderId ∧ row.status = .succeeded ∧
      (refund.source = .buyer → row.acceptedAt.isSome) ∧
      db.inventory.orders.find refund.orderId = some order ∧ refund.amount = order.totalAmount

theorem Db.Fresh.refundsSound {db : Db} (h : db.Fresh) : db.RefundsSound := by
  intro f refund hrefund
  rw [Table.find_of_rows_nil h.refunds] at hrefund
  cases hrefund

section Steps

variable {db db' : Db}

/-- No effect takes an order away or changes its total. -/
theorem order_effect {a : Action} (heffect : Effect a db db') {o : String} {order : OrderRow}
    (horder : db.inventory.orders.find o = some order) :
    ∃ order', db'.inventory.orders.find o = some order' ∧
      order'.totalAmount = order.totalAmount := by
  have hkept : db'.inventory = db.inventory → ∃ order',
      db'.inventory.orders.find o = some order' ∧ order'.totalAmount = order.totalAmount :=
    fun h => ⟨order, by rw [h]; exact horder, rfl⟩
  have hsettles : ∀ {kind : Settlement} {id : String} {x y : OrderRow},
      Settles kind id x y db.inventory db'.inventory → ∃ order',
        db'.inventory.orders.find o = some order' ∧ order'.totalAmount = order.totalAmount := by
    intro kind id x y h
    by_cases hid : o = id
    · subst hid
      have hx : x = order := Option.some.inj (h.orders.found.symm.trans horder)
      subst hx
      exact ⟨y, h.orders.find_self, h.continues.totalAmount⟩
    · exact ⟨order, by rw [h.orders.find_of_ne hid]; exact horder, rfl⟩
  cases heffect with
  | reserve inventory _ => exact ⟨order, inventory.orders.find_old horder, rfl⟩
  | start inventory => exact hkept inventory
  | timeOut inventory => exact hkept inventory
  | accept inventory => exact hsettles inventory
  | decline inventory => exact hkept inventory
  | capture inventory => exact hkept inventory
  | close _ inventory => exact hsettles inventory
  | requestRefund inventory => exact hkept inventory
  | settleRefund inventory => exact hkept inventory
  | revoke inventory => exact hsettles inventory
  | sync inventory => exact hkept inventory

/-- A refund that is new with an effect is sound, but for the order of a buyer's request. -/
theorem refundsSound_effect {a : Action} (hb : db.Balanced) (hs : db.RefundsSound)
    (heffect : Effect a db db')
    (hbelongs : ∀ f refund, db'.ledger.refunds.find f = some refund →
      db.ledger.refunds.find f = none → refund.source = .buyer →
        ∃ row, db.ledger.attempts.find refund.paymentAttemptId = some row ∧
          row.orderId = refund.orderId) : db'.RefundsSound := by
  have hold : ∀ f refund refund', db.ledger.refunds.find f = some refund →
      refund.Continues refund' → ∃ row order,
        db'.ledger.attempts.find refund'.paymentAttemptId = some row ∧
          row.orderId = refund'.orderId ∧ row.status = .succeeded ∧
          (refund'.source = .buyer → row.acceptedAt.isSome) ∧
          db'.inventory.orders.find refund'.orderId = some order ∧
            refund'.amount = order.totalAmount := by
    intro f refund refund' hrefund hcont
    obtain ⟨row, order, hrow, hid, hsucceeded, haccepted, horder, hamount⟩ := hs f refund hrefund
    obtain ⟨row', hrow', hsucceeded', hid', haccepted'⟩ := succeeded_effect heffect hrow hsucceeded
    obtain ⟨order', horder', htotal⟩ := order_effect heffect horder
    refine ⟨row', order', ?_, ?_, hsucceeded', ?_, ?_, ?_⟩
    · rw [hcont.paymentAttemptId]
      exact hrow'
    · rw [hid', hid, hcont.orderId]
    · rw [hcont.source, haccepted']
      exact haccepted
    · rw [hcont.orderId]
      exact horder'
    · rw [hcont.amount, hamount, htotal]
  have hkept : db'.ledger.refunds = db.ledger.refunds → db'.RefundsSound := by
    intro h f refund hrefund
    rw [h] at hrefund
    exact hold f refund refund hrefund (RefundRow.Continues.refl refund)
  have hreplaced : ∀ {id : String} {x y : RefundRow}, x.Continues y →
      db.ledger.refunds.Replaced id x y db'.ledger.refunds → db'.RefundsSound := by
    intro id x y hcont h f refund hrefund
    by_cases hid : f = id
    · subst hid
      have hy : y = refund := Option.some.inj (h.find_self.symm.trans hrefund)
      subst hy
      exact hold f x y h.found hcont
    · rw [h.find_of_ne hid] at hrefund
      exact hold f refund refund hrefund (RefundRow.Continues.refl refund)
  cases heffect with
  | reserve _ ledger => exact hkept (by rw [ledger])
  | start _ refunds => exact hkept refunds
  | timeOut _ refunds => exact hkept refunds
  | accept _ refunds => exact hkept refunds
  | decline _ refunds => exact hkept refunds
  | close _ _ ledger => exact hkept (by rw [ledger])
  | settleRefund _ _ _ continues refunds => exact hreplaced continues refunds
  | revoke _ _ _ _ _ continues refunds => exact hreplaced continues refunds
  | capture inventory order_found refunds unsettled succeeded unaccepted continues attempts =>
      rcases refunds.result with ⟨id, new, hsystem, hattempt, horderId, hamount, -, hinserted⟩ |
        ⟨hsame, -⟩
      · intro f refund hrefund
        rcases hinserted.cases hrefund with ⟨-, rfl⟩ | hfound
        · refine ⟨_, _, ?_, ?_, succeeded, ?_, ?_, hamount⟩
          · rw [hattempt]
            exact attempts.find_self
          · rw [horderId, continues.orderId]
          · intro hbuyer
            rw [hsystem] at hbuyer
            cases hbuyer
          · rw [inventory, horderId]
            exact order_found
        · exact hold f refund refund hfound (RefundRow.Continues.refl refund)
      · exact hkept hsame
  | requestRefund inventory attempts attempt_found accepted order_found amount buyer single
      refunds =>
      intro f refund hrefund
      rcases refunds.cases hrefund with ⟨rfl, rfl⟩ | hfound
      · obtain ⟨row, hrow, hid⟩ := hbelongs f refund hrefund refunds.fresh buyer
        refine ⟨row, _, ?_, hid, ?_, ?_, ?_, amount⟩
        · rw [attempts]
          exact hrow
        · rw [attempt_found] at hrow
          cases hrow
          exact hb.succeeded _ _ attempt_found accepted
        · intro _
          rw [attempt_found] at hrow
          cases hrow
          exact accepted
        · rw [inventory]
          exact order_found
      · exact hold f refund refund hfound (RefundRow.Continues.refl refund)
  | sync _ _ refunds =>
      intro f refund hrefund
      obtain ⟨row, hrow, hsynced⟩ := rowsRelate_find refunds hrefund
      exact hold f row refund hrow hsynced.toContinues

/-- Only a buyer's request writes a buyer refund. -/
theorem buyer_refund_requested {a : Action} (heffect : Effect a db db') {f : String}
    {refund : RefundRow} (hnew : db.ledger.refunds.find f = none)
    (hrefund : db'.ledger.refunds.find f = some refund) (hbuyer : refund.source = .buyer) :
    a = .requestRefund f := by
  have hkept : db'.ledger.refunds = db.ledger.refunds → a = .requestRefund f := by
    intro h
    rw [h, hnew] at hrefund
    cases hrefund
  have hreplaced : ∀ {id : String} {x y : RefundRow},
      db.ledger.refunds.Replaced id x y db'.ledger.refunds → a = .requestRefund f := by
    intro id x y h
    have hid : f ≠ id := by
      rintro rfl
      rw [h.found] at hnew
      cases hnew
    rw [h.find_of_ne hid, hnew] at hrefund
    cases hrefund
  cases heffect with
  | reserve _ ledger => exact hkept (by rw [ledger])
  | start _ refunds => exact hkept refunds
  | timeOut _ refunds => exact hkept refunds
  | accept _ refunds => exact hkept refunds
  | decline _ refunds => exact hkept refunds
  | close _ _ ledger => exact hkept (by rw [ledger])
  | settleRefund _ _ _ _ refunds => exact hreplaced refunds
  | revoke _ _ _ _ _ _ refunds => exact hreplaced refunds
  | capture _ _ refunds =>
      rcases refunds.result with ⟨id, new, hsystem, -, -, -, -, hinserted⟩ | ⟨hsame, -⟩
      · rcases hinserted.cases hrefund with ⟨-, rfl⟩ | hfound
        · rw [hsystem] at hbuyer
          cases hbuyer
        · rw [hnew] at hfound
          cases hfound
      · exact hkept hsame
  | requestRefund _ _ _ _ _ _ _ _ refunds =>
      rcases refunds.cases hrefund with ⟨rfl, -⟩ | hfound
      · rfl
      · rw [hnew] at hfound
        cases hfound
  | sync _ _ refunds =>
      obtain ⟨row, hrow, -⟩ := rowsRelate_find refunds hrefund
      rw [hnew] at hrow
      cases hrow

/-- An effect keeps the status of a refund, or it is the completion of a PROCESSING one. -/
theorem refund_status_effect {a : Action} (heffect : Effect a db db') {f : String}
    {refund : RefundRow} (hrefund : db.ledger.refunds.find f = some refund) :
    (∃ refund', db'.ledger.refunds.find f = some refund' ∧ refund'.status = refund.status) ∨
      (refund.status = .processing ∧ (a = .settleRefund f ∨ ∃ orderId, a = .revoke orderId)) := by
  have hkept : db'.ledger.refunds.find f = some refund → (∃ refund',
      db'.ledger.refunds.find f = some refund' ∧ refund'.status = refund.status) ∨
        (refund.status = .processing ∧ (a = .settleRefund f ∨ ∃ orderId, a = .revoke orderId)) :=
    fun h => Or.inl ⟨refund, h, rfl⟩
  cases heffect with
  | reserve _ ledger => exact hkept (by rw [ledger]; exact hrefund)
  | start _ refunds => exact hkept (by rw [refunds]; exact hrefund)
  | timeOut _ refunds => exact hkept (by rw [refunds]; exact hrefund)
  | accept _ refunds => exact hkept (by rw [refunds]; exact hrefund)
  | decline _ refunds => exact hkept (by rw [refunds]; exact hrefund)
  | close _ _ ledger => exact hkept (by rw [ledger]; exact hrefund)
  | requestRefund _ _ _ _ _ _ _ _ refunds => exact hkept (refunds.find_old hrefund)
  | @settleRefund _ _ id _ _ _ _ processing _ refunds =>
      by_cases hid : f = id
      · subst hid
        cases refunds.found.symm.trans hrefund
        exact Or.inr ⟨processing, Or.inl rfl⟩
      · exact hkept (by rw [refunds.find_of_ne hid]; exact hrefund)
  | @revoke _ _ id _ _ _ _ _ _ _ processing _ _ refunds =>
      by_cases hid : f = id
      · subst hid
        cases refunds.found.symm.trans hrefund
        exact Or.inr ⟨processing, Or.inr ⟨_, rfl⟩⟩
      · exact hkept (by rw [refunds.find_of_ne hid]; exact hrefund)
  | capture _ _ refunds =>
      rcases refunds.result with ⟨id, new, -, -, -, -, -, hinserted⟩ | ⟨hsame, -⟩
      · exact hkept (hinserted.find_old hrefund)
      · exact hkept (by rw [hsame]; exact hrefund)
  | sync _ _ refunds =>
      obtain ⟨refund', hrefund', hsynced⟩ := rowsRelate_find_old refunds hrefund
      exact Or.inl ⟨refund', hrefund', hsynced.status⟩

end Steps

/-- The effects of requests and completions of refunds. -/
def Action.refunding : Action → Bool
  | .requestRefund _ | .settleRefund _ | .revoke _ => true
  | _ => false

theorem Transaction.not_refunding {tx : Transaction} {a : Action} (h : tx.Allows a)
    (hrequest : ∀ state, tx ≠ .requestRefund state)
    (hcomplete : ∀ f snapshot clock, tx ≠ .completeRefund f snapshot clock) :
    a.refunding = false := by
  cases tx with
  | requestRefund state => exact absurd rfl (hrequest state)
  | completeRefund f snapshot clock => exact absurd rfl (hcomplete f snapshot clock)
  | startPayment state => rcases h with ⟨k, rfl⟩ | rfl <;> rfl
  | cancel => rcases h with ⟨-, rfl⟩ | rfl | ⟨k, rfl⟩ <;> rfl
  | expireForWorker => rcases h with ⟨-, rfl⟩ | rfl | ⟨k, rfl⟩ <;> rfl
  | completePayment => rcases h with ⟨-, rfl | rfl⟩ | ⟨-, rfl⟩ | rfl | ⟨k, rfl⟩ <;> rfl
  | completeProviderPayment => rcases h with ⟨-, rfl | rfl⟩ | ⟨-, rfl⟩ | rfl | ⟨k, rfl⟩ <;> rfl
  | _ => cases h; rfl

theorem Transaction.allows_requestRefund {tx : Transaction} {f : String}
    (h : tx.Allows (.requestRefund f)) : ∃ state, tx = .requestRefund state := by
  by_contra! hrequest
  by_cases hcomplete : ∀ f snapshot clock, tx ≠ .completeRefund f snapshot clock
  · have hno := tx.not_refunding h hrequest hcomplete
    cases hno
  · push Not at hcomplete
    obtain ⟨g, snapshot, clock, rfl⟩ := hcomplete
    rcases h with h | h <;> cases h

section Transactions

open RefundLifecycle (Completes complete_completes)

variable {db : Db}

theorem balanced_apply (tx : Transaction) (hone : PaymentRepository.OneProcessing db.ledger.attempts)
    (hb : db.Balanced) :
    PaymentRepository.OneProcessing (tx.apply db).ledger.attempts ∧ (tx.apply db).Balanced :=
  applyAll_invariant (I := Db.Balanced) (fun _ _ _ hb he => balanced_effect hb he) [tx] hone hb

theorem refundsSound_apply (tx : Transaction)
    (hone : PaymentRepository.OneProcessing db.ledger.attempts) (hb : db.Balanced)
    (hs : db.RefundsSound) : (tx.apply db).RefundsSound := by
  by_cases hrequest : ∃ state, tx = .requestRefund state
  · obtain ⟨state, rfl⟩ := hrequest
    show ((RefundService.request state db).after db).RefundsSound
    cases hresult : RefundService.request state db with
    | rollback out => exact hs
    | commit out db' =>
        rcases RefundService.request_commit hresult with rfl | heffect
        · exact hs
        refine refundsSound_effect hb hs heffect ?_
        intro f refund hrefund hnew _
        rw [TransactionResult.after_commit] at hrefund
        rcases RefundService.request_created hresult with rfl | ⟨_, created, _, hcreate, rfl⟩
        · rw [hnew] at hrefund
          cases hrefund
        · obtain ⟨_, row, -, -, -, hrow, hid, -, -, hinserted⟩ :=
            RefundService.create_inserted hcreate
          rcases hinserted.cases hrefund with ⟨-, rfl⟩ | hfound
          · exact ⟨row, hrow, hid⟩
          · rw [hnew] at hfound
            cases hfound
  · obtain ⟨actions, htrace, hallows⟩ := tx.apply_runs hone
    refine (htrace.preserves (I := fun db => db.Balanced ∧ db.RefundsSound) (P := tx.Allows)
      ?_ hallows ⟨hb, hs⟩).2
    rintro a s t hallowed ⟨hbalanced, hsound⟩ heffect
    refine ⟨balanced_effect hbalanced heffect, refundsSound_effect hbalanced hsound heffect ?_⟩
    intro f refund hrefund hnew hbuyer
    rw [buyer_refund_requested heffect hnew hrefund hbuyer] at hallowed
    exact absurd (Transaction.allows_requestRefund hallowed) hrequest

theorem refundsSound_reachable (txs : List Transaction)
    (hone : PaymentRepository.OneProcessing db.ledger.attempts) (hb : db.Balanced)
    (hs : db.RefundsSound) : (applyAll txs db).RefundsSound := by
  induction txs generalizing db with
  | nil => exact hs
  | cons tx txs ih =>
      obtain ⟨hone', hb'⟩ := balanced_apply tx hone hb
      exact ih hone' hb' (refundsSound_apply tx hone hb hs)

/-- Only the completion of a refund ends it. -/
theorem completes_of_ended (tx : Transaction)
    (hone : PaymentRepository.OneProcessing db.ledger.attempts) {f : String}
    {refund refund' : RefundRow} (hrefund : db.ledger.refunds.find f = some refund)
    (hprocessing : refund.status = .processing)
    (hrefund' : (tx.apply db).ledger.refunds.find f = some refund')
    (hended : refund'.status ≠ .processing) :
    ∃ snapshot clock, tx = .completeRefund f snapshot clock ∧
      Completes f snapshot refund refund' db (tx.apply db) := by
  have hsame : (tx.apply db).ledger.refunds.find f ≠ some refund := by
    intro hfound
    rw [hfound] at hrefund'
    cases hrefund'
    exact hended hprocessing
  by_cases hcomplete : ∃ g snapshot clock, tx = .completeRefund g snapshot clock
  · obtain ⟨g, snapshot, clock, rfl⟩ := hcomplete
    change ((RefundLifecycle.complete g snapshot clock db).after db).ledger.refunds.find f ≠ _ at hsame
    change ((RefundLifecycle.complete g snapshot clock db).after db).ledger.refunds.find f = _
      at hrefund'
    cases hresult : RefundLifecycle.complete g snapshot clock db with
    | rollback out =>
        rw [hresult] at hsame
        exact absurd hrefund hsame
    | commit out db' =>
        rw [hresult] at hsame hrefund'
        obtain ⟨row, row', hcompletes⟩ := complete_completes hresult
        have hid : f = g := by
          by_contra hne
          exact hsame ((hcompletes.refunds.find_of_ne hne).trans hrefund)
        subst hid
        have hrow : row = refund := Option.some.inj (hcompletes.refunds.found.symm.trans hrefund)
        have hrow' : row' = refund' :=
          Option.some.inj (hcompletes.refunds.find_self.symm.trans hrefund')
        subst hrow hrow'
        refine ⟨snapshot, clock, rfl, ?_⟩
        show Completes f snapshot row row' db
          ((RefundLifecycle.complete f snapshot clock db).after db)
        rw [hresult]
        exact hcompletes
  · obtain ⟨actions, htrace, hallows⟩ := tx.apply_runs hone
    have hstays : ∃ found, (tx.apply db).ledger.refunds.find f = some found ∧
        found.status = .processing := by
      refine htrace.preserves (P := tx.Allows) (I := fun s => ∃ found,
        s.ledger.refunds.find f = some found ∧ found.status = .processing) ?_ hallows
        ⟨refund, hrefund, hprocessing⟩
      rintro a s t hallowed ⟨found, hfound, hstatus⟩ heffect
      rcases refund_status_effect heffect hfound with ⟨found', hfound', hstatus'⟩ | ⟨-, hlabel⟩
      · exact ⟨found', hfound', hstatus'.trans hstatus⟩
      · exfalso
        by_cases hrequest : ∃ state, tx = .requestRefund state
        · obtain ⟨state, rfl⟩ := hrequest
          rcases hlabel with rfl | ⟨orderId, rfl⟩ <;> cases hallowed
        · push Not at hcomplete hrequest
          have hno := tx.not_refunding hallowed hrequest hcomplete
          rcases hlabel with rfl | ⟨orderId, rfl⟩ <;> cases hno
    obtain ⟨found, hfound, hstatus⟩ := hstays
    rw [hrefund'] at hfound
    cases hfound
    exact absurd hstatus hended

theorem ended_refund_later (txs : List Transaction)
    (hone : PaymentRepository.OneProcessing db.ledger.attempts) {f : String} {refund : RefundRow}
    (hrefund : db.ledger.refunds.find f = some refund) (hended : refund.status ≠ .processing) :
    ∃ refund', (applyAll txs db).ledger.refunds.find f = some refund' ∧
      refund'.status = refund.status := by
  refine (applyAll_invariant (I := fun s => ∃ refund', s.ledger.refunds.find f = some refund' ∧
    refund'.status = refund.status) ?_ txs hone ⟨refund, hrefund, rfl⟩).2
  rintro a s t ⟨found, hfound, hstatus⟩ heffect
  rcases refund_status_effect heffect hfound with ⟨found', hfound', hstatus'⟩ | ⟨hprocessing, -⟩
  · exact ⟨found', hfound', hstatus'.trans hstatus⟩
  · exact absurd (hstatus.symm.trans hprocessing) hended

theorem stale_completion (f : String) (snapshot : RefundTerminalSnapshot)
    (clock : RefundLifecycle.Clock)
    (hstale : ∀ refund, db.ledger.refunds.find f = some refund →
      refund.leaseToken ≠ some snapshot.leaseToken) :
    Transaction.apply (.completeRefund f snapshot clock) db = db := by
  show (RefundLifecycle.complete f snapshot clock db).after db = db
  cases hresult : RefundLifecycle.complete f snapshot clock db with
  | rollback out => rfl
  | commit out db' =>
      obtain ⟨row, row', hcompletes⟩ := complete_completes hresult
      exact absurd hcompletes.leased (hstale row hcompletes.refunds.found)

end Transactions

namespace Ledger

/-- The refunds of an order that have not failed. -/
def openRefunds (ledger : Ledger) (orderId : String) : List (String × RefundRow) :=
  ledger.refunds.select fun _ refund => decide (refund.orderId = orderId) &&
    decide (refund.status ≠ .failed)

/-- What an order has given back or is giving back. -/
def refunded (ledger : Ledger) (orderId : String) : ℕ :=
  ((ledger.openRefunds orderId).map fun entry => entry.2.amount).sum

def succeeded (ledger : Ledger) (orderId : String) : ℕ :=
  ledger.attempts.count fun _ row => decide (row.orderId = orderId) &&
    decide (row.status = .succeeded)

end Ledger

/-- The refunds of an order are at most one for each payment that succeeded. -/
theorem Db.Balanced.openRefunds_le {db : Db} (hb : db.Balanced) (hs : db.RefundsSound)
    (orderId : String) :
    (db.ledger.openRefunds orderId).length ≤ db.ledger.succeeded orderId := by
  have hfound : ∀ entry ∈ db.ledger.openRefunds orderId,
      db.ledger.refunds.find entry.1 = some entry.2 ∧ entry.2.orderId = orderId := by
    intro entry hentry
    obtain ⟨hrefund, hcond⟩ := (db.ledger.refunds.mem_select _ entry.1 entry.2).mp hentry
    exact ⟨hrefund, of_decide_eq_true (Bool.and_eq_true_iff.mp hcond).1⟩
  have hnodup : ((db.ledger.openRefunds orderId).map fun entry =>
      entry.2.paymentAttemptId).Nodup := by
    have hkeys : ((db.ledger.openRefunds orderId).map Prod.fst).Nodup :=
      db.ledger.refunds.nodup.sublist (List.filter_sublist.map Prod.fst)
    refine List.Nodup.map_on ?_ (List.Nodup.of_map _ hkeys)
    intro entry hentry other hother hsame
    have hid : entry.1 = other.1 := hb.refundedOnce entry.1 other.1 entry.2 other.2
      (hfound entry hentry).1 (hfound other hother).1 hsame
    exact List.inj_on_of_nodup_map hkeys hentry hother hid
  have hsub : ((db.ledger.openRefunds orderId).map fun entry => entry.2.paymentAttemptId) ⊆
      (db.ledger.attempts.select fun _ row => decide (row.orderId = orderId) &&
        decide (row.status = .succeeded)).map Prod.fst := by
    intro attemptId hmem
    obtain ⟨entry, hentry, rfl⟩ := List.mem_map.mp hmem
    obtain ⟨hrefund, hid⟩ := hfound entry hentry
    obtain ⟨row, _, hrow, hrowId, hsucceeded, -⟩ := hs entry.1 entry.2 hrefund
    refine List.mem_map.mpr ⟨(entry.2.paymentAttemptId, row),
      (db.ledger.attempts.mem_select _ _ row).mpr ⟨hrow, ?_⟩, rfl⟩
    simp [hrowId, hid, hsucceeded]
  have hlength := (List.subperm_of_subset hnodup hsub).length_le
  rw [List.length_map, List.length_map] at hlength
  exact hlength

theorem Db.Balanced.refunded_le {db : Db} (hb : db.Balanced) (hs : db.RefundsSound)
    {orderId : String} {order : OrderRow}
    (horder : db.inventory.orders.find orderId = some order) :
    db.ledger.refunded orderId ≤ order.totalAmount * db.ledger.succeeded orderId := by
  have hamounts : ∀ amount ∈ (db.ledger.openRefunds orderId).map fun entry => entry.2.amount,
      amount = order.totalAmount := by
    intro amount hmem
    obtain ⟨entry, hentry, rfl⟩ := List.mem_map.mp hmem
    obtain ⟨hrefund, hcond⟩ := (db.ledger.refunds.mem_select _ entry.1 entry.2).mp hentry
    have hid : entry.2.orderId = orderId := of_decide_eq_true (Bool.and_eq_true_iff.mp hcond).1
    obtain ⟨_, found, -, -, -, -, hfound, hamount⟩ := hs entry.1 entry.2 hrefund
    rw [hid, horder] at hfound
    cases hfound
    exact hamount
  calc db.ledger.refunded orderId
      = (db.ledger.openRefunds orderId).length * order.totalAmount := by
        unfold Ledger.refunded
        rw [List.sum_eq_card_nsmul _ _ hamounts, List.length_map, smul_eq_mul]
    _ ≤ db.ledger.succeeded orderId * order.totalAmount :=
        Nat.mul_le_mul_right _ (hb.openRefunds_le hs orderId)
    _ = order.totalAmount * db.ledger.succeeded orderId := Nat.mul_comm _ _

open RefundLifecycle (Completes)

/-- What holds of the refunds in a state, and of every transaction from it. -/
structure Db.RefundsFenced (db : Db) : Prop where
  oneBuyer : ∀ f g refund refund', db.ledger.refunds.find f = some refund →
    db.ledger.refunds.find g = some refund' → refund.source = .buyer → refund'.source = .buyer →
      refund.orderId = refund'.orderId → f = g
  endsOnce : ∀ f refund txs, db.ledger.refunds.find f = some refund →
    refund.status ≠ .processing → ∃ refund',
      (applyAll txs db).ledger.refunds.find f = some refund' ∧ refund'.status = refund.status
  completes : ∀ f refund refund' tx, db.ledger.refunds.find f = some refund →
    refund.status = .processing → (Transaction.apply tx db).ledger.refunds.find f = some refund' →
      refund'.status ≠ .processing → ∃ snapshot clock, tx = .completeRefund f snapshot clock ∧
        Completes f snapshot refund refund' db (tx.apply db)
  fenced : ∀ f snapshot clock, (∀ refund, db.ledger.refunds.find f = some refund →
    refund.leaseToken ≠ some snapshot.leaseToken) →
      Transaction.apply (.completeRefund f snapshot clock) db = db
  bounded : ∀ orderId order, db.inventory.orders.find orderId = some order →
    db.ledger.refunded orderId ≤ order.totalAmount * db.ledger.succeeded orderId

/-- In every state the transactions reach, refunds end once, with the rights, under the lease. -/
theorem refunds_fenced (txs : List Transaction) (db : Db) (h : db.Fresh) :
    (applyAll txs db).RefundsFenced := by
  obtain ⟨hone, hb⟩ := balanced_reachable txs h
  have hs := refundsSound_reachable txs h.oneProcessing h.balanced h.refundsSound
  constructor
  case oneBuyer =>
    intro f g refund refund' hrefund hrefund' hbuyer hbuyer' hid
    obtain ⟨row, _, hrow, hrowId, -, haccepted, -⟩ := hs f refund hrefund
    obtain ⟨row', _, hrow', hrowId', -, haccepted', -⟩ := hs g refund' hrefund'
    have hattempt := hb.acceptedOnce _ _ row row' hrow hrow' (haccepted hbuyer)
      (haccepted' hbuyer') ((hrowId.trans hid).trans hrowId'.symm)
    exact hb.refundedOnce f g refund refund' hrefund hrefund' hattempt
  case endsOnce =>
    intro f refund later hrefund hended
    exact ended_refund_later later hone hrefund hended
  case completes =>
    intro f refund refund' tx hrefund hprocessing hrefund' hended
    exact completes_of_ended tx hone hrefund hprocessing hrefund' hended
  case fenced => exact fun f snapshot clock hstale => stale_completion f snapshot clock hstale
  case bounded => exact fun orderId order horder => hb.refunded_le hs horder

/-- The seat is paid for and its refund requested and claimed. -/
def claimedRefund : List Transaction :=
  [reserveSingleSeat "1" "1" "key", startSingleSeat "1" 20,
    .recordProviderPayment "PAY-1" "pi_1" "processing" "" 25,
    .completePayment "TKT-1" "PAY-1" true (.at 30) "1",
    .requestRefund ⟨"TKT-1", "buyer", "1", ⟨40, 40, 40⟩⟩,
    .claimRefunds 10 60000000 "worker-1" (fun _ => false) 50]

/-- The provider's success for that refund, as a worker under the lease reports it. -/
def refundSucceeded (leaseToken : String) : RefundTerminalSnapshot where
  orderId := "TKT-1"
  paymentAttemptId := "PAY-1"
  refund :=
    { provider := "stripe"
      providerRefundId := "re_1"
      providerStatus := "succeeded"
      mappedState := .succeeded
      terminal := true
      providerPaymentId := "pi_1"
      localRefundId := "RFD-1"
      orderId := "TKT-1"
      currency := "usd"
      amount := 500 }
  leaseToken := leaseToken

/-- The worker that holds the lease gives the seat back; one whose lease was taken over does not. -/
theorem refunds_fenced_singleSeat :
    (applyAll claimedRefund singleSeat).RefundsFenced ∧
      ((Transaction.apply (.completeRefund "RFD-1" (refundSucceeded "worker-1") ⟨60, 60⟩)
        (applyAll claimedRefund singleSeat)).inventory.seats.find "seat").map
          SessionSeatRow.status = some .available ∧
      ((Transaction.apply (.completeRefund "RFD-1" (refundSucceeded "worker-0") ⟨60, 60⟩)
        (applyAll claimedRefund singleSeat)).inventory.seats.find "seat").map
          SessionSeatRow.status = some .sold := by
  refine ⟨refunds_fenced claimedRefund singleSeat singleSeat_fresh, ?_, ?_⟩
  · decide +kernel
  · decide +kernel

end Ticketing
