import Ticketing.StripeRefunds

/-!
# The refund scan never refunds twice

A page that is well formed is read as a list of refunds. What the scan does with
the pages depends on the refunds with the local id alone: none creates the
refund, one is recovered, and a second one is a conflict.
-/

namespace Ticketing

open JsonCpp AsyncCalls

namespace StripePaymentProvider

/-- A well-formed page of the list. -/
structure RefundPage where
  refunds : List Value
  hasMore : Bool

def Listed (candidate : Value) : Prop := (candidate.field "metadata").isObject = true

instance (candidate : Value) : Decidable (Listed candidate) := instDecidableEqBool _ _

def pageOf (json : Value) : Option RefundPage :=
  match json.field "data", json.field "has_more" with
  | .array items, .bool hasMore =>
      if items.length ≤ 100 ∧ ∀ candidate ∈ items, Listed candidate then some ⟨items, hasMore⟩
      else none
  | _, _ => none

def refundPage (response : ProviderResponse) : Option RefundPage :=
  (jsonBody response).bind pageOf

/-- The refund carries the local id of the request. -/
def carries (input : CreateRefundRequest) (candidate : Value) : Bool :=
  ((candidate.field "metadata").field "local_refund_id").isText input.refundId

/-- The refunds of the pages that carry the local id. -/
def carriers (input : CreateRefundRequest) (pages : List RefundPage) : List Value :=
  (pages.flatMap RefundPage.refunds).filter (carries input)

section Settle

variable (input : CreateRefundRequest)

/-- What the mapping makes of a refund. -/
def mappedRefund (candidate : Value) : ProviderResult ProviderRefund :=
  match mapRefund candidate input with
  | .ok result => result
  | .error _ => refundError "STRIPE_INVALID_REFUND"

/-- What the refunds with the local id lead to: an error, or at most one refund found. -/
def settle (found : Option ProviderRefund) :
    List Value → Except (ProviderResult ProviderRefund) (Option ProviderRefund)
  | [] => .ok found
  | candidate :: rest =>
      if found.isSome = true then .error (refundError "STRIPE_MULTIPLE_REFUND_CONFLICT")
      else
        match (mappedRefund input candidate).value with
        | none => .error (mappedRefund input candidate)
        | some refund => settle (some refund) rest

variable {input}

theorem mapRefund_eq_mapped (candidate : Value) :
    mapRefund candidate input = .ok (mappedRefund input candidate) := by
  obtain ⟨result, hresult, -⟩ := mapRefund_eq candidate input
  simp only [mappedRefund, hresult]

theorem mapped_cases (candidate : Value) : Failed (mappedRefund input candidate) ∨
    ∃ refund, mappedRefund input candidate = { outcome := .success, value := some refund } ∧
      Reports refund candidate input := by
  obtain ⟨result, hresult, hcases⟩ := mapRefund_eq candidate input
  simpa only [mappedRefund, hresult] using hcases

theorem failed_of_value_none {candidate : Value}
    (h : (mappedRefund input candidate).value = none) : Failed (mappedRefund input candidate) := by
  rcases @mapped_cases input candidate with hfailed | ⟨refund, hrefund, -⟩
  · exact hfailed
  · rw [hrefund] at h
    cases h

theorem reports_of_value {candidate : Value} {refund : ProviderRefund}
    (h : (mappedRefund input candidate).value = some refund) : Reports refund candidate input := by
  rcases @mapped_cases input candidate with hfailed | ⟨found, hfound, hreports⟩
  · rw [hfailed.value] at h
    cases h
  · rw [hfound] at h
    cases h
    exact hreports

theorem settle_append (found : Option ProviderRefund) (xs ys : List Value) :
    settle input found (xs ++ ys) = (settle input found xs).bind fun found => settle input found ys := by
  induction xs generalizing found with
  | nil => rfl
  | cons x xs ih =>
      simp only [List.cons_append, settle]
      split_ifs
      · rfl
      · cases (mappedRefund input x).value with
        | none => rfl
        | some refund => exact ih (some refund)

theorem settle_error {found : Option ProviderRefund} {xs : List Value}
    {result : ProviderResult ProviderRefund} (h : settle input found xs = .error result) :
    Failed result := by
  induction xs generalizing found with
  | nil => cases h
  | cons x xs ih =>
      simp only [settle] at h
      split_ifs at h
      · cases h
        exact failed_refundError _
      · cases hvalue : (mappedRefund input x).value with
        | none =>
            rw [hvalue] at h
            cases h
            exact failed_of_value_none hvalue
        | some refund =>
            rw [hvalue] at h
            exact ih h

/-- A refund that was found stays the only one. -/
theorem settle_some {refund : ProviderRefund} {found : Option ProviderRefund} {xs : List Value}
    (h : settle input (some refund) xs = .ok found) : xs = [] ∧ found = some refund := by
  cases xs with
  | nil =>
      cases h
      exact ⟨rfl, rfl⟩
  | cons x xs => cases h

theorem settle_none {found : Option ProviderRefund} {xs : List Value}
    (h : settle input none xs = .ok found) : (xs = [] ∧ found = none) ∨
      ∃ candidate refund, xs = [candidate] ∧ found = some refund ∧
        Reports refund candidate input := by
  cases xs with
  | nil =>
      cases h
      exact Or.inl ⟨rfl, rfl⟩
  | cons x xs =>
      right
      simp only [settle, Option.isSome_none, Bool.false_eq_true, if_false] at h
      cases hvalue : (mappedRefund input x).value with
      | none =>
          rw [hvalue] at h
          cases h
      | some refund =>
          rw [hvalue] at h
          obtain ⟨rfl, rfl⟩ := settle_some h
          exact ⟨x, refund, rfl, rfl, reports_of_value hvalue⟩

/-- A second refund with the local id is a conflict once the first one is a match. -/
theorem settle_two (first second : Value) (rest : List Value) :
    settle input none (first :: second :: rest) =
      .error (if (mappedRefund input first).value.isSome = true
        then refundError "STRIPE_MULTIPLE_REFUND_CONFLICT" else mappedRefund input first) := by
  simp only [settle, Option.isSome_none, Bool.false_eq_true, if_false]
  cases (mappedRefund input first).value with
  | none => rfl
  | some refund => rfl

end Settle

section Page

variable {input : CreateRefundRequest}

theorem isObject_of_field {v : Value} {key : String} (h : v.field key ≠ .null) :
    v.isObject = true := by
  cases v with
  | object => rfl
  | _ => exact absurd rfl h

theorem Listed.isObject {candidate : Value} (h : Listed candidate) : candidate.isObject = true := by
  apply isObject_of_field (show candidate.field "metadata" ≠ .null from ?_)
  intro hnull
  rw [Listed, hnull] at h
  cases h

theorem scanCandidates_listed {found : Option ProviderRefund} {candidate : Value}
    {rest : List Value} (h : Listed candidate) :
    scanCandidates input found (candidate :: rest) =
      if carries input candidate = true then
        if found.isSome = true then .ok (.error (refundError "STRIPE_MULTIPLE_REFUND_CONFLICT"))
        else
          match (mappedRefund input candidate).value with
          | none => .ok (.error (mappedRefund input candidate))
          | some refund => scanCandidates input (some refund) rest
      else scanCandidates input found rest := by
  have hobject := h.isObject
  have hmetadata : (candidate.field "metadata").isObject = true := h
  rw [scanCandidates]
  simp only [hobject, hmetadata, Bool.true_eq_false, if_false, Value.get_eq_field, ok_bind,
    textEquals_eq, mapRefund_eq_mapped]
  rfl

theorem scanCandidates_unlisted {found : Option ProviderRefund} {candidate : Value}
    {rest : List Value} (h : ¬ Listed candidate) :
    scanCandidates input found (candidate :: rest) =
      .ok (.error (refundError "STRIPE_INVALID_JSON")) := by
  rw [scanCandidates]
  cases hobject : candidate.isObject with
  | false => rfl
  | true =>
      have hmetadata : (candidate.field "metadata").isObject = false :=
        Bool.eq_false_of_not_eq_true h
      simp only [Bool.true_eq_false, if_false, Value.get_eq_field hobject, ok_bind, hmetadata,
        if_true]
      rfl

/-- The loop over a page looks at the refunds with the local id only. -/
theorem scanCandidates_of_listed {items : List Value} (h : ∀ candidate ∈ items, Listed candidate)
    (found : Option ProviderRefund) :
    scanCandidates input found items = .ok (settle input found (items.filter (carries input))) := by
  induction items generalizing found with
  | nil => rfl
  | cons candidate rest ih =>
      rw [List.forall_mem_cons] at h
      rw [scanCandidates_listed h.1]
      by_cases hcarries : carries input candidate = true
      · rw [if_pos hcarries, List.filter_cons_of_pos hcarries]
        simp only [settle]
        by_cases hfound : found.isSome = true
        · rw [if_pos hfound, if_pos hfound]
        · rw [if_neg hfound, if_neg hfound]
          cases (mappedRefund input candidate).value with
          | none => rfl
          | some refund => exact ih h.2 (some refund)
      · rw [if_neg hcarries, List.filter_cons_of_neg hcarries]
        exact ih h.2 found

/-- An entry that is not a refund ends the call, if nothing before it does. -/
theorem scanCandidates_of_not_listed {items : List Value}
    (h : ¬ ∀ candidate ∈ items, Listed candidate) (found : Option ProviderRefund) :
    ∃ result, scanCandidates input found items = .ok (.error result) ∧ Failed result := by
  induction items generalizing found with
  | nil => exact absurd (by simp) h
  | cons candidate rest ih =>
      by_cases hlisted : Listed candidate
      · have hrest : ¬ ∀ candidate ∈ rest, Listed candidate :=
          fun hrest => h (List.forall_mem_cons.mpr ⟨hlisted, hrest⟩)
        rw [scanCandidates_listed hlisted]
        split_ifs with hcarries hfound
        · exact ⟨_, rfl, failed_refundError _⟩
        · cases hvalue : (mappedRefund input candidate).value with
          | none => exact ⟨_, rfl, failed_of_value_none hvalue⟩
          | some refund => exact ih hrest (some refund)
        · exact ih hrest found
      · exact ⟨_, scanCandidates_unlisted hlisted, failed_refundError _⟩

theorem pageOf_eq_some {json : Value} {page : RefundPage} (h : pageOf json = some page) :
    json.isObject = true ∧ json.field "data" = .array page.refunds ∧
      json.field "has_more" = .bool page.hasMore ∧ page.refunds.length ≤ 100 ∧
      ∀ candidate ∈ page.refunds, Listed candidate := by
  unfold pageOf at h
  split at h
  · rename_i items hasMore hdata hmore
    split_ifs at h with hall
    cases h
    exact ⟨isObject_of_field (show json.field "data" ≠ .null by simp [hdata]), hdata, hmore, hall⟩
  · cases h

variable (urlEncode : String → String)

theorem inspectPage_eq {scan : RefundScan} {json : Value} {page : RefundPage}
    (h : pageOf json = some page) :
    inspectPage urlEncode input scan json =
      match settle input scan.found (page.refunds.filter (carries input)) with
      | .error result => .ok (.complete result)
      | .ok found =>
          if page.hasMore = true then
            nextPage urlEncode input { scan with found := found } page.refunds
          else .ok (endOfList urlEncode input { scan with found := found }) := by
  obtain ⟨hobject, hdata, hmore, hlength, hlisted⟩ := pageOf_eq_some h
  unfold inspectPage
  simp only [hobject, Value.get_eq_field, ok_bind, hdata, hmore, Value.isArray, Value.isBool,
    Value.elements, Value.asBool, Bool.true_eq_false, if_false, not_lt.mpr hlength,
    scanCandidates_of_listed hlisted]
  rfl

theorem inspectPage_malformed {json : Value} (h : pageOf json = none) (scan : RefundScan) :
    ∃ result, inspectPage urlEncode input scan json = .ok (.complete result) ∧ Failed result := by
  unfold inspectPage
  cases hobject : json.isObject with
  | false => exact ⟨_, rfl, failed_refundError _⟩
  | true =>
      simp only [Bool.true_eq_false, if_false, Value.get_eq_field hobject, ok_bind]
      cases hdata : (json.field "data").isArray with
      | false => exact ⟨_, rfl, failed_refundError _⟩
      | true =>
          cases hmore : (json.field "has_more").isBool with
          | false => exact ⟨_, rfl, failed_refundError _⟩
          | true =>
              simp only [Bool.true_eq_false, if_false]
              split_ifs with hlength
              · exact ⟨_, rfl, failed_refundError _⟩
              · obtain ⟨b, hb, -⟩ := Value.asBool_of_isBool hmore
                have hlisted : ¬ ∀ candidate ∈ (json.field "data").elements, Listed candidate := by
                  intro hall
                  unfold pageOf at h
                  rw [Value.elements_of_isArray hdata, hb] at h
                  simp only [if_pos (And.intro (not_lt.mp hlength) hall)] at h
                  cases h
                obtain ⟨result, hresult, hfailed⟩ :=
                  @scanCandidates_of_not_listed input _ hlisted scan.found
                rw [hresult]
                exact ⟨result, rfl, hfailed⟩

/-- The scan goes on only below the page limit and with a new cursor. -/
theorem nextPage_eq {scan : RefundScan} {data : List Value}
    (hlisted : ∀ candidate ∈ data, Listed candidate) :
    nextPage urlEncode input scan data =
        .ok (.complete (refundError "STRIPE_REFUND_PAGINATION")) ∨
      (scan.pages < 10 ∧ ∃ cursor, nextPage urlEncode input scan data =
        .ok (scanRefunds urlEncode input
          { scan with cursor := cursor, cursors := cursor :: scan.cursors })) := by
  unfold nextPage
  split_ifs with hpages
  · exact Or.inl rfl
  · cases hlast : data.getLast? with
    | none => exact Or.inl rfl
    | some last =>
        have hobject := (hlisted last (List.mem_of_getLast? hlast)).isObject
        simp only [Value.get_eq_field hobject, ok_bind]
        cases hid : (last.field "id").isString with
        | false => exact Or.inl rfl
        | true =>
            obtain ⟨cursor, -, hcursor⟩ := Value.asString_of_isString hid
            simp only [Bool.true_eq_false, if_false, hcursor, ok_bind]
            split_ifs with hrepeated
            · exact Or.inl rfl
            · exact Or.inr ⟨not_le.mp hpages, cursor, rfl⟩

theorem onPage_malformed {response : ProviderResponse} (h : refundPage response = none)
    (scan : RefundScan) : ∃ result,
      onResponse urlEncode input (.page scan) response = .ok (.complete result) ∧
        Failed result := by
  unfold refundPage at h
  rcases answered_eq response with ⟨json, hbody, hanswered⟩ | ⟨hbody, retryable, error, hanswered⟩
  · rw [hbody, Option.bind_some] at h
    simp only [onResponse, hanswered, ok_bind]
    exact inspectPage_malformed urlEncode h scan
  · simp only [onResponse, hanswered, ok_bind]
    exact ⟨_, rfl, failed_refundError _⟩

theorem onPage_eq {response : ProviderResponse} {page : RefundPage}
    (h : refundPage response = some page) (scan : RefundScan) :
    (∀ candidate ∈ page.refunds, Listed candidate) ∧
    onResponse urlEncode input (.page scan) response =
      match settle input scan.found (page.refunds.filter (carries input)) with
      | .error result => .ok (.complete result)
      | .ok found =>
          if page.hasMore = true then
            nextPage urlEncode input { scan with found := found } page.refunds
          else .ok (endOfList urlEncode input { scan with found := found }) := by
  unfold refundPage at h
  obtain ⟨json, hbody, hpage⟩ := Option.bind_eq_some_iff.mp h
  rcases answered_eq response with ⟨found, hfound, hanswered⟩ | ⟨hnone, -⟩
  · rw [hbody] at hfound
    cases hfound
    simp only [onResponse, hanswered, ok_bind]
    exact ⟨(pageOf_eq_some hpage).2.2.2.2, inspectPage_eq urlEncode hpage⟩
  · rw [hbody] at hnone
    cases hnone

/-- The answer to the POST ends the call. -/
theorem onCreation_eq (response : ProviderResponse) : ∃ result,
    onResponse urlEncode input .creation response = .ok (.complete result) ∧
      (Failed result ∨ ∃ json refund, jsonBody response = some json ∧
        result = { outcome := .success, value := some refund } ∧ Reports refund json input) := by
  rcases answered_eq response with ⟨json, hbody, hanswered⟩ | ⟨-, retryable, error, hanswered⟩
  · simp only [onResponse, hanswered, ok_bind, mapRefund_eq_mapped]
    refine ⟨_, rfl, ?_⟩
    rcases @mapped_cases input json with hfailed | ⟨refund, hrefund, hreports⟩
    · exact Or.inl hfailed
    · exact Or.inr ⟨json, refund, hbody, hrefund, hreports⟩
  · simp only [onResponse, hanswered, ok_bind]
    exact ⟨_, rfl, Or.inl (failed_refundError _)⟩

end Page

section Run

def requests (method : HttpMethod) (call : RefundCall) : List ProviderRequest :=
  call.issued.filter fun request => decide (request.method = method)

/-- The answers to the GETs of a call. -/
def fetched (call : RefundCall) : List ProviderResponse :=
  (call.issued.zip call.answered).filterMap fun entry =>
    if entry.1.method = .get then some entry.2 else none

variable {input : CreateRefundRequest}

/-- All pages were read to the end of the list, no refund has the local id and the creating POST
is out. -/
structure Posted (input : CreateRefundRequest) (issued : List ProviderRequest)
    (answers : List ProviderResponse) : Prop where
  shape : ∃ gets post, issued = gets ++ [post] ∧ post.method = .post ∧
    (∀ request ∈ gets, request.method = .get) ∧ gets.length = answers.length ∧ gets.length ≤ 10
  pages : ∃ pages last, answers.map refundPage = pages.map some ∧ pages.getLast? = some last ∧
    last.hasMore = false ∧ carriers input pages = []

/-- Why the scan ended without a POST. -/
inductive Ending (input : CreateRefundRequest) (answers : List ProviderResponse)
    (result : ProviderResult ProviderRefund) : Prop where
  | malformed (response : ProviderResponse) (answered : response ∈ answers)
      (page : refundPage response = none) (failed : Failed result)
  | stopped (pages : List RefundPage) (answered : answers.map refundPage = pages.map some)
      (settled : settle input none (carriers input pages) = .error result)
  | endless (pages : List RefundPage) (last : RefundPage)
      (answered : answers.map refundPage = pages.map some) (getLast : pages.getLast? = some last)
      (hasMore : last.hasMore = true) (found : Option ProviderRefund)
      (settled : settle input none (carriers input pages) = .ok found) (failed : Failed result)
  | recovered (pages : List RefundPage) (answered : answers.map refundPage = pages.map some)
      (refund : ProviderRefund)
      (settled : settle input none (carriers input pages) = .ok (some refund))
      (success : result = { outcome := .success, value := some refund })

inductive ScanStage (input : CreateRefundRequest) (call : RefundCall) : Prop where
  | scanning (scan : RefundScan) (pages : List RefundPage)
      (waiting : call.waiting = some (.page scan))
      (open_ : call.completions = [] ∧ call.escaped = [])
      (gets : ∀ request ∈ call.issued, request.method = .get)
      (issued : call.issued.length = pages.length + 1)
      (count : scan.pages = pages.length + 1) (bound : scan.pages ≤ 10)
      (answered : call.answered.map refundPage = pages.map some)
      (more : ∀ page, pages.getLast? = some page → page.hasMore = true)
      (found : settle input none (carriers input pages) = .ok scan.found)
  | ended (result : ProviderResult ProviderRefund) (waiting : call.waiting = none)
      (closed : call.completions = [result] ∧ call.escaped = [])
      (gets : ∀ request ∈ call.issued, request.method = .get)
      (issued : call.issued.length = call.answered.length) (bound : call.issued.length ≤ 10)
      (ending : Ending input call.answered result)
  | creating (waiting : call.waiting = some .creation)
      (open_ : call.completions = [] ∧ call.escaped = [])
      (posted : Posted input call.issued call.answered)
  | created (answers : List ProviderResponse) (response : ProviderResponse)
      (result : ProviderResult ProviderRefund) (waiting : call.waiting = none)
      (closed : call.completions = [result] ∧ call.escaped = [])
      (answered : call.answered = answers ++ [response])
      (posted : Posted input call.issued answers)
      (mapped : Failed result ∨ ∃ json refund, jsonBody response = some json ∧
        result = { outcome := .success, value := some refund } ∧ Reports refund json input)

theorem carriers_append (pages : List RefundPage) (page : RefundPage) :
    carriers input (pages ++ [page]) =
      carriers input pages ++ page.refunds.filter (carries input) := by
  simp [carriers]

theorem settle_pages {pages : List RefundPage} {page : RefundPage} {found : Option ProviderRefund}
    (h : settle input none (carriers input pages) = .ok found) :
    settle input none (carriers input (pages ++ [page])) =
      settle input found (page.refunds.filter (carries input)) := by
  rw [carriers_append, settle_append, h]
  rfl

theorem carriers_of_settle_none {pages : List RefundPage}
    (h : settle input none (carriers input pages) = .ok none) : carriers input pages = [] := by
  rcases settle_none h with ⟨hnil, -⟩ | ⟨candidate, refund, -, hsome, -⟩
  · exact hnil
  · cases hsome

variable (urlEncode : String → String)

theorem start_stage :
    ScanStage input (begin (scanRefunds urlEncode input {}) : RefundCall) := by
  refine .scanning { pages := 1 } [] rfl ⟨rfl, rfl⟩ ?_ rfl rfl (by decide) rfl (by simp) rfl
  intro request hrequest
  rw [List.mem_singleton.mp hrequest]
  rfl

/-- One page moves the scan on, ends it or lets it create the refund. -/
theorem scanning_step {call : RefundCall} {scan : RefundScan} {pages : List RefundPage}
    (waiting : call.waiting = some (.page scan))
    (open_ : call.completions = [] ∧ call.escaped = [])
    (gets : ∀ request ∈ call.issued, request.method = .get)
    (issued : call.issued.length = pages.length + 1)
    (count : scan.pages = pages.length + 1) (bound : scan.pages ≤ 10)
    (answered : call.answered.map refundPage = pages.map some)
    (found : settle input none (carriers input pages) = .ok scan.found)
    (response : ProviderResponse) :
    ScanStage input (call.receive (onResponse urlEncode input) response) := by
  have hlength : call.answered.length = pages.length := by
    simpa using congrArg List.length answered
  -- a result ends the call without a POST
  have hend : ∀ result, onResponse urlEncode input (.page scan) response =
      .ok (.complete result) → Ending input (call.answered ++ [response]) result →
      ScanStage input (call.receive (onResponse urlEncode input) response) := by
    intro result hresult hending
    rw [Call.receive_complete waiting hresult]
    refine .ended result rfl ⟨?_, open_.2⟩ gets ?_ ?_ hending
    · show call.completions ++ [result] = [result]
      rw [open_.1, List.nil_append]
    · show call.issued.length = (call.answered ++ [response]).length
      simp [issued, hlength]
    · show call.issued.length ≤ 10
      omega
  cases hpage : refundPage response with
  | none =>
      obtain ⟨result, hresult, hfailed⟩ := @onPage_malformed input urlEncode _ hpage scan
      exact hend result hresult (.malformed response (by simp) hpage hfailed)
  | some page =>
      obtain ⟨hlisted, hresponse⟩ := @onPage_eq input urlEncode _ _ hpage scan
      have hanswered : (call.answered ++ [response]).map refundPage = (pages ++ [page]).map some := by
        rw [List.map_append, List.map_append, answered, List.map_singleton, hpage, List.map_singleton]
      have hsettled := @settle_pages _ _ page _ found
      cases hfound : settle input scan.found (page.refunds.filter (carries input)) with
      | error result =>
          rw [hfound] at hresponse hsettled
          exact hend result hresponse (.stopped _ hanswered hsettled)
      | ok refund =>
          rw [hfound] at hresponse hsettled
          simp only at hresponse
          by_cases hmore : page.hasMore = true
          · rw [if_pos hmore] at hresponse
            rcases @nextPage_eq input urlEncode { scan with found := refund } _ hlisted with
              hstop | ⟨hpages, cursor, hnext⟩
            · exact hend _ (hresponse.trans hstop) (.endless _ page hanswered (by simp) hmore refund
                hsettled (failed_refundError _))
            · rw [Call.receive_send waiting (hresponse.trans hnext)]
              refine .scanning _ (pages ++ [page]) rfl open_ ?_ ?_ ?_ ?_ hanswered ?_ hsettled
              · intro request hrequest
                rcases List.mem_append.mp hrequest with hold | hnew
                · exact gets request hold
                · rw [List.mem_singleton.mp hnew]
                  rfl
              · simp [Call.send, issued]
              · simp [count]
              · exact hpages
              · intro last hlast
                rw [List.getLast?_concat] at hlast
                cases hlast
                exact hmore
          · rw [if_neg hmore] at hresponse
            cases refund with
            | some refund => exact hend _ hresponse (.recovered _ hanswered refund hsettled rfl)
            | none =>
                rw [Call.receive_send waiting hresponse]
                refine .creating rfl open_ ⟨⟨call.issued, createRequest urlEncode input, rfl, rfl,
                  gets, ?_, ?_⟩, pages ++ [page], page, hanswered, by simp, ?_, ?_⟩
                · show call.issued.length = (call.answered ++ [response]).length
                  simp [issued, hlength]
                · omega
                · exact Bool.eq_false_of_not_eq_true hmore
                · exact carriers_of_settle_none hsettled

theorem stage_receive {call : RefundCall} (h : ScanStage input call) (response : ProviderResponse) :
    ScanStage input (call.receive (onResponse urlEncode input) response) := by
  cases h with
  | scanning scan pages waiting open_ gets issued count bound answered _ found =>
      exact scanning_step urlEncode waiting open_ gets issued count bound answered found response
  | ended result waiting closed gets issued bound ending =>
      rw [Call.receive_of_none waiting]
      exact .ended result waiting closed gets issued bound ending
  | creating waiting open_ posted =>
      obtain ⟨result, hresult, hmapped⟩ := @onCreation_eq input urlEncode response
      rw [Call.receive_complete waiting hresult]
      refine .created call.answered response result rfl ⟨?_, open_.2⟩ rfl posted hmapped
      show call.completions ++ [result] = [result]
      rw [open_.1, List.nil_append]
  | created answers response result waiting closed answered posted mapped =>
      rw [Call.receive_of_none waiting]
      exact .created answers response result waiting closed answered posted mapped

theorem createOrRecoverRefund_stage (responses : List ProviderResponse) :
    ScanStage input (createOrRecoverRefund urlEncode input responses) :=
  Call.run_invariant (I := ScanStage input)
    (fun _ _ response _ h => stage_receive urlEncode h response)
    (start_stage urlEncode) responses

/-- Pages that the call may still ask for. -/
def RefundStage.rank : RefundStage → ℕ
  | .page scan => 10 - scan.pages + 1
  | .creation => 0

/-- Every further request lowers the rank. -/
theorem onResponse_send {stage next : RefundStage} {response : ProviderResponse}
    {request : ProviderRequest}
    (h : onResponse urlEncode input stage response = .ok (.send next request)) :
    next.rank < stage.rank := by
  cases stage with
  | creation =>
      obtain ⟨result, hresult, -⟩ := @onCreation_eq input urlEncode response
      rw [hresult] at h
      cases h
  | page scan =>
      cases hpage : refundPage response with
      | none =>
          obtain ⟨result, hresult, -⟩ := @onPage_malformed input urlEncode _ hpage scan
          rw [hresult] at h
          cases h
      | some page =>
          obtain ⟨hlisted, hresponse⟩ := @onPage_eq input urlEncode _ _ hpage scan
          rw [hresponse] at h
          split at h
          · cases h
          · rename_i found _
            split_ifs at h
            · rcases @nextPage_eq input urlEncode { scan with found := found } _ hlisted with
                hstop | ⟨hpages, cursor, hnext⟩
              · rw [hstop] at h
                cases h
              · rw [hnext] at h
                cases h
                simp only [RefundStage.rank] at hpages ⊢
                omega
            · unfold endOfList at h
              split at h
              · cases h
              · cases h
                simp only [RefundStage.rank]
                omega

/-- Eleven answers, at most ten of them pages, end the call. -/
theorem createOrRecoverRefund_ends {responses : List ProviderResponse}
    (h : 11 ≤ responses.length) :
    (createOrRecoverRefund urlEncode input responses).waiting = none := by
  refine @Call.run_ends _ _ _ _ _ _ _ RefundStage.rank
      (fun _ _ _ _ hsend => onResponse_send urlEncode hsend) responses ?_
  intro stage hstage
  cases hstage
  exact h

theorem fetched_of_gets {gets : List ProviderRequest} {answers : List ProviderResponse}
    (hgets : ∀ request ∈ gets, request.method = .get) (hlength : answers.length ≤ gets.length) :
    ((gets.zip answers).filterMap fun entry =>
      if entry.1.method = .get then some entry.2 else none) = answers := by
  induction answers generalizing gets with
  | nil => simp
  | cons answer answers ih =>
      cases gets with
      | nil => simp at hlength
      | cons request gets =>
          rw [List.forall_mem_cons] at hgets
          have hrest := ih hgets.2 (by simpa using hlength)
          simp only [List.zip_cons_cons, List.filterMap_cons, hgets.1, if_true, hrest]

theorem fetched_of_posted {call : RefundCall} {answers later : List ProviderResponse}
    (hposted : Posted input call.issued answers) (hanswered : call.answered = answers ++ later) :
    fetched call = answers := by
  obtain ⟨gets, post, hissued, hpost, hgets, hlength, -⟩ := hposted.shape
  unfold fetched
  rw [hissued, hanswered, List.zip_append hlength, List.filterMap_append,
    fetched_of_gets hgets hlength.ge]
  cases later with
  | nil => simp
  | cons response later => simp [hpost]

theorem requests_of_gets {call : RefundCall} (h : ∀ request ∈ call.issued, request.method = .get) :
    requests .get call = call.issued ∧ requests .post call = [] := by
  unfold requests
  constructor
  · exact List.filter_eq_self.mpr fun request hrequest => by simp [h request hrequest]
  · exact List.filter_eq_nil_iff.mpr fun request hrequest => by simp [h request hrequest]

theorem requests_of_posted {call : RefundCall} {answers : List ProviderResponse}
    (h : Posted input call.issued answers) :
    (requests .get call).length ≤ 10 ∧ ∃ post, requests .post call = [post] := by
  obtain ⟨gets, post, hissued, hpost, hgets, -, hbound⟩ := h.shape
  unfold requests
  rw [hissued, List.filter_append, List.filter_append]
  have hget : gets.filter (fun request => decide (request.method = .get)) = gets :=
    List.filter_eq_self.mpr fun request hrequest => by simp [hgets request hrequest]
  have hnone : gets.filter (fun request => decide (request.method = .post)) = [] :=
    List.filter_eq_nil_iff.mpr fun request hrequest => by simp [hgets request hrequest]
  rw [hget, hnone]
  exact ⟨by simpa [hpost] using hbound, post, by simp [hpost]⟩

/-- The pages that were fetched are all well formed. -/
def Fetched (call : RefundCall) (pages : List RefundPage) : Prop :=
  (fetched call).map refundPage = pages.map some

/-- The JSON was in an answer of the provider, as a whole or as an entry of a page. -/
def Seen (call : RefundCall) (json : Value) : Prop :=
  ∃ response ∈ call.answered, ∃ body, jsonBody response = some body ∧
    (json = body ∨ ∃ page, pageOf body = some page ∧ json ∈ page.refunds)

/-- What holds of a call that recovers or creates a refund after any answers. -/
structure Recovers (input : CreateRefundRequest) (call : RefundCall) : Prop where
  gets : (requests .get call).length ≤ 10
  posts : (requests .post call).length ≤ 1
  unescaped : call.escaped = []
  once : call.completions.length = if call.waiting.isSome then 0 else 1
  creates : requests .post call ≠ [] ↔ ∃ pages last, Fetched call pages ∧
    pages.getLast? = some last ∧ last.hasMore = false ∧ carriers input pages = []
  twice : ∀ pages first second rest, Fetched call pages →
    carriers input pages = first :: second :: rest → requests .post call = [] ∧
      ∃ mapped, mapRefund first input = .ok mapped ∧ call.completions =
        [if mapped.value.isSome then refundError "STRIPE_MULTIPLE_REFUND_CONFLICT" else mapped]
  succeeds : ∀ result ∈ call.completions, result.outcome = .success →
    (∃ pages, Fetched call pages ∧ (carriers input pages).length ≤ 1) ∧
      ∃ json refund, Seen call json ∧ result.value = some refund ∧ Reports refund json input

theorem pages_unique {pages pages' : List RefundPage}
    (h : pages.map some = pages'.map some) : pages = pages' :=
  List.map_injective_iff.mpr (Option.some_injective _) h

theorem fetched_ne_of_malformed {answers : List ProviderResponse} {response : ProviderResponse}
    (hresponse : response ∈ answers) (hpage : refundPage response = none)
    (pages : List RefundPage) : answers.map refundPage ≠ pages.map some := by
  intro h
  have hmem : refundPage response ∈ pages.map some := by
    rw [← h]
    exact List.mem_map_of_mem hresponse
  rw [hpage] at hmem
  simp at hmem

/-- A refund that carries the local id was an entry of a page that was fetched. -/
theorem seen_of_carriers {call : RefundCall} {pages : List RefundPage} {candidate : Value}
    (hpages : call.answered.map refundPage = pages.map some)
    (hcandidate : candidate ∈ carriers input pages) : Seen call candidate := by
  obtain ⟨page, hpage, hmem⟩ := List.mem_flatMap.mp (List.mem_of_mem_filter hcandidate)
  have hsome : some page ∈ call.answered.map refundPage := by
    rw [hpages]
    exact List.mem_map_of_mem hpage
  obtain ⟨response, hresponse, hread⟩ := List.mem_map.mp hsome
  obtain ⟨body, hbody, hread⟩ := Option.bind_eq_some_iff.mp hread
  exact ⟨response, hresponse, body, hbody, Or.inr ⟨page, hread, hmem⟩⟩

theorem recovers_of_gets {call : RefundCall} (gets : ∀ request ∈ call.issued, request.method = .get)
    (hbound : call.issued.length ≤ 10) (hlength : call.answered.length ≤ call.issued.length) :
    (requests .get call).length ≤ 10 ∧ requests .post call = [] ∧ fetched call = call.answered := by
  obtain ⟨hget, hpost⟩ := requests_of_gets gets
  exact ⟨by rw [hget]; exact hbound, hpost, fetched_of_gets gets hlength⟩

theorem recovers_of_scanning {call : RefundCall} {scan : RefundScan} {pages : List RefundPage}
    (waiting : call.waiting = some (.page scan))
    (open_ : call.completions = [] ∧ call.escaped = [])
    (gets : ∀ request ∈ call.issued, request.method = .get)
    (issued : call.issued.length = pages.length + 1)
    (bound : pages.length + 1 ≤ 10) (answered : call.answered.map refundPage = pages.map some)
    (more : ∀ page, pages.getLast? = some page → page.hasMore = true)
    (found : settle input none (carriers input pages) = .ok scan.found) : Recovers input call := by
  have hlength : call.answered.length = pages.length := by
    simpa using congrArg List.length answered
  obtain ⟨hgets, hposts, hfetched⟩ :=
    recovers_of_gets gets (issued ▸ bound) (by rw [hlength, issued]; exact Nat.le_succ _)
  have hunique : ∀ pages', Fetched call pages' → pages' = pages := by
    intro pages' hpages'
    rw [Fetched, hfetched, answered] at hpages'
    exact (pages_unique hpages').symm
  refine ⟨hgets, by simp [hposts], open_.2, by simp [open_.1, waiting], ?_, ?_, by simp [open_.1]⟩
  · simp only [hposts, ne_eq, not_true, false_iff]
    rintro ⟨pages', last, hpages', hlast, hend, -⟩
    rw [hunique pages' hpages'] at hlast
    rw [more last hlast] at hend
    cases hend
  · intro pages' first second rest hpages' htwo
    rw [hunique pages' hpages'] at htwo
    rw [htwo, settle_two] at found
    cases found

theorem recovers_of_ended {call : RefundCall} {result : ProviderResult ProviderRefund}
    (waiting : call.waiting = none)
    (closed : call.completions = [result] ∧ call.escaped = [])
    (gets : ∀ request ∈ call.issued, request.method = .get)
    (issued : call.issued.length = call.answered.length) (bound : call.issued.length ≤ 10)
    (ending : Ending input call.answered result) : Recovers input call := by
  obtain ⟨hgets, hposts, hfetched⟩ := recovers_of_gets gets bound issued.ge
  have hunique : ∀ {pages pages'}, call.answered.map refundPage = pages.map some →
      Fetched call pages' → pages' = pages := by
    intro pages pages' hpages hpages'
    rw [Fetched, hfetched, hpages] at hpages'
    exact (pages_unique hpages').symm
  refine ⟨hgets, by simp [hposts], closed.2, by simp [closed.1, waiting], ?_, ?_, ?_⟩
  · simp only [hposts, ne_eq, not_true, false_iff]
    rintro ⟨pages', last, hpages', hlast, hend, hnone⟩
    cases ending with
    | malformed response answered page failed =>
        rw [Fetched, hfetched] at hpages'
        exact absurd hpages' (fetched_ne_of_malformed answered page pages')
    | stopped pages answered settled =>
        rw [hunique answered hpages'] at hnone
        rw [hnone] at settled
        cases settled
    | endless pages last' answered getLast hasMore found settled failed =>
        rw [hunique answered hpages', getLast] at hlast
        cases hlast
        rw [hasMore] at hend
        cases hend
    | recovered pages answered refund settled success =>
        rw [hunique answered hpages'] at hnone
        rw [hnone] at settled
        cases settled
  · intro pages' first second rest hpages' htwo
    refine ⟨hposts, mappedRefund input first, mapRefund_eq_mapped first, ?_⟩
    cases ending with
    | malformed response answered page failed =>
        rw [Fetched, hfetched] at hpages'
        exact absurd hpages' (fetched_ne_of_malformed answered page pages')
    | stopped pages answered settled =>
        rw [hunique answered hpages'] at htwo
        rw [htwo, settle_two] at settled
        cases settled
        exact closed.1
    | endless pages last' answered getLast hasMore found settled failed =>
        rw [hunique answered hpages'] at htwo
        rw [htwo, settle_two] at settled
        cases settled
    | recovered pages answered refund settled success =>
        rw [hunique answered hpages'] at htwo
        rw [htwo, settle_two] at settled
        cases settled
  · intro result' hresult' hsuccess
    rw [closed.1, List.mem_singleton] at hresult'
    subst hresult'
    cases ending with
    | malformed response answered page failed => exact absurd hsuccess failed.outcome
    | stopped pages answered settled => exact absurd hsuccess (settle_error settled).outcome
    | endless pages last' answered getLast hasMore found settled failed =>
        exact absurd hsuccess failed.outcome
    | recovered pages answered refund settled success =>
        rcases settle_none settled with ⟨-, hnone⟩ | ⟨candidate, found, hone, hfound, hreports⟩
        · cases hnone
        · cases hfound
          refine ⟨⟨pages, ?_, by simp [hone]⟩, candidate, refund, ?_, by rw [success], hreports⟩
          · rw [Fetched, hfetched]
            exact answered
          · exact seen_of_carriers answered (hone ▸ List.mem_singleton_self candidate)

/-- What a call that got to its POST has fetched. -/
theorem posted_facts {call : RefundCall} {answers later : List ProviderResponse}
    (hposted : Posted input call.issued answers) (hanswered : call.answered = answers ++ later) :
    (requests .get call).length ≤ 10 ∧ (∃ post, requests .post call = [post]) ∧
      ∃ pages last, Fetched call pages ∧ pages.getLast? = some last ∧ last.hasMore = false ∧
        carriers input pages = [] := by
  obtain ⟨hgets, hpost⟩ := requests_of_posted hposted
  obtain ⟨pages, last, hpages, hrest⟩ := hposted.pages
  refine ⟨hgets, hpost, pages, last, ?_, hrest⟩
  rw [Fetched, fetched_of_posted hposted hanswered]
  exact hpages

theorem not_two_of_posted {call : RefundCall} {pages pages' : List RefundPage} {first second : Value}
    {rest : List Value} (hpages : Fetched call pages) (hnone : carriers input pages = [])
    (hpages' : Fetched call pages') : carriers input pages' ≠ first :: second :: rest := by
  rw [← pages_unique (hpages.symm.trans hpages'), hnone]
  exact (List.cons_ne_nil _ _).symm

theorem recovers_of_stage {call : RefundCall} (h : ScanStage input call) : Recovers input call := by
  cases h with
  | scanning scan pages waiting open_ gets issued count bound answered more found =>
      exact recovers_of_scanning waiting open_ gets issued (count ▸ bound) answered more found
  | ended result waiting closed gets issued bound ending =>
      exact recovers_of_ended waiting closed gets issued bound ending
  | creating waiting open_ posted =>
      obtain ⟨hgets, ⟨post, hpost⟩, pages, last, hpages, hlast, hmore, hnone⟩ :=
        posted_facts posted (List.append_nil _).symm
      refine ⟨hgets, by simp [hpost], open_.2, by simp [open_.1, waiting], ?_, ?_,
        by simp [open_.1]⟩
      · simp only [hpost, ne_eq, List.cons_ne_nil, not_false_iff, true_iff]
        exact ⟨pages, last, hpages, hlast, hmore, hnone⟩
      · intro pages' first second rest hpages' htwo
        exact absurd htwo (not_two_of_posted hpages hnone hpages')
  | created answers response result waiting closed answered posted mapped =>
      obtain ⟨hgets, ⟨post, hpost⟩, pages, last, hpages, hlast, hmore, hnone⟩ :=
        posted_facts posted answered
      refine ⟨hgets, by simp [hpost], closed.2, by simp [closed.1, waiting], ?_, ?_, ?_⟩
      · simp only [hpost, ne_eq, List.cons_ne_nil, not_false_iff, true_iff]
        exact ⟨pages, last, hpages, hlast, hmore, hnone⟩
      · intro pages' first second rest hpages' htwo
        exact absurd htwo (not_two_of_posted hpages hnone hpages')
      · intro result' hresult' hsuccess
        rw [closed.1, List.mem_singleton] at hresult'
        subst hresult'
        rcases mapped with hfailed | ⟨json, refund, hbody, hresult, hreports⟩
        · exact absurd hsuccess hfailed.outcome
        · refine ⟨⟨pages, hpages, by simp [hnone]⟩, json, refund, ?_, by rw [hresult], hreports⟩
          exact ⟨response, by simp [answered], json, hbody, Or.inl rfl⟩

/-- Whatever the provider answers, a call lists at most ten pages and ends in one completion. It
creates a refund exactly when it read the list to its end, every page well formed, and no refund
has the local id; a success is the requested refund. -/
theorem createOrRecoverRefund_recovers (input : CreateRefundRequest)
    (responses : List ProviderResponse) :
    Recovers input (createOrRecoverRefund urlEncode input responses) ∧
      (11 ≤ responses.length →
        (createOrRecoverRefund urlEncode input responses).completions.length = 1) := by
  have hrecovers := recovers_of_stage (@createOrRecoverRefund_stage input urlEncode
      responses)
  refine ⟨hrecovers, fun hlength => ?_⟩
  rw [hrecovers.once, createOrRecoverRefund_ends urlEncode hlength]
  rfl

end Run

/-- A page with two refunds of one local id, the first of them without a status. -/
def twiceRefunded : Value :=
  let metadata : Value := .object [("local_refund_id", .string "RFD-1"), ("order_id", .string "TKT-1")]
  .object [("has_more", .bool false), ("data", .array
    [.object [("object", .string "refund"), ("id", .string "re_1"), ("metadata", metadata)],
      .object [("object", .string "refund"), ("id", .string "re_2"),
        ("status", .string "succeeded"), ("amount", .int 500), ("currency", .string "usd"),
        ("payment_intent", .string "pi_1"), ("metadata", metadata)]])]

def singleRefund : CreateRefundRequest where
  refundId := "RFD-1"
  orderId := "TKT-1"
  providerPaymentId := "pi_1"
  amount := 500
  currency := "usd"
  provider := "stripe"

/-- Two refunds with the local id are no conflict when the first of them does not map. -/
theorem twice_no_conflict :
    (refundPage (.received 200 false (some twiceRefunded))).map
        (fun page => (carriers singleRefund [page]).length) = some 2 ∧
      (createOrRecoverRefund id singleRefund
        [.received 200 false (some twiceRefunded)]).completions =
          [{ outcome := .retryableError
             safeError := "STRIPE_INVALID_REFUND"
             failureClass := .transient }] := by
  constructor
  · decide +kernel
  · decide +kernel

end StripePaymentProvider
end Ticketing
