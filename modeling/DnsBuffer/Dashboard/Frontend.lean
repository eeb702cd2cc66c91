import DnsBuffer.Dns.Text
import DnsBuffer.Foundation.Machine
import Mathlib.Data.Rat.Floor

/-!
# The query table of the dashboard

The script of the page keeps what it shows in `state`: the number of the page, the size of a page,
and the search the rows are for. The handlers of the buttons, of the search and of the page size
write what they want there before they ask for it, and a response that can be rendered writes the
page it renders. Between the two a request may fail, it may be superseded by another one, or the
total may shrink twice, and then nothing is rendered: the rows that were there stay, and so does
what was asked for in vain.

Nothing of the script runs between a response and the end of what it sets off, so a response is one
action here, and so is an event. `requests` are the calls of `loadQueries` that wait for theirs,
each with what its URL asks for (`PageQuery`); of these only the one whose controller is registered
is listened to. What the rows in the table are an answer to is `displayed`. Numbers are exact, as
they are in the script up to 2 ^ 53.

`shown_iff_no_stranding`: in an execution, the table shows the page of `state`, at its size and for
its search, whenever no request is in flight if and only if no request fails, or is rejected, when
the table shows something else.
-/

namespace DnsBuffer

/-! ### Decisions -/

/-- `normalizeCount`; what is no finite number is `none`. -/
def normalizeCount : Option ℚ → ℚ
  | some number => if 0 ≤ number then number else 0
  | none => 0

/-- What is done with a response. -/
inductive ResponseAction
  | ignore
  | render
  | retry
  | reject
deriving DecidableEq

/-- The result of `queryResponseDecision`. -/
structure QueryDecision where
  page : ℕ
  totalPages : ℕ
  action : ResponseAction

/-- How many pages there are, at least one. -/
def pagesFor (pageSize : ℚ) (total : Option ℚ) : ℕ := max 1 ⌈normalizeCount total / pageSize⌉₊

/-- `queryResponseDecision`. -/
def queryResponseDecision (requestedPage currentPage : ℕ) (pageSize : ℚ) (total : Option ℚ)
    (corrected : Bool) : QueryDecision :=
  let totalPages := pagesFor pageSize total
  if requestedPage ≠ currentPage then ⟨currentPage, totalPages, .ignore⟩
  else if requestedPage ≤ totalPages then ⟨requestedPage, totalPages, .render⟩
  else ⟨totalPages, totalPages, if corrected then .reject else .retry⟩

/-- `mayFinishQuery`. -/
def mayFinishQuery (requestId activeRequestId : ℕ) : Bool := requestId = activeRequestId

/-- What `String.prototype.trim` takes away at the ends. -/
def isScriptSpace (c : Char) : Bool := (isWhitespace c && c.toNat ≠ 0x85) || c.toNat = 0xFEFF

/-! ### The state of the script -/

/-- A page of a listing, as the parameters of a URL name it: of which size, and of which search. -/
structure PageQuery where
  page : ℕ
  pageSize : ℚ
  search : Text
deriving DecidableEq

/-- A call of `loadQueries` that waits for its response. -/
structure QueryRequest where
  id : ℕ
  query : PageQuery
  corrected : Bool
deriving DecidableEq

/-- The part of the script's `state` the query table uses, with the calls that wait for a response
and what the rows in the table are the response to. -/
structure PageState where
  page : ℕ
  pageSize : ℚ
  search : Text
  queryLoading : Bool
  totalPages : Option ℕ
  requestedPage : ℕ
  queryRequestId : ℕ
  /-- The controller registered for `queries`, by the id of its request. -/
  controller : Option ℕ
  requests : List QueryRequest
  displayed : Option PageQuery
deriving DecidableEq

/-- A response, as far as it matters here. -/
inductive QueryResponse
  /-- Data with a `total`. -/
  | data (total : Option ℚ)
  /-- No response, an error status, or no JSON. -/
  | failure

/-- What happens on the page. -/
inductive PageAction
  | first
  | previous
  | next
  | last
  | search (value : Text)
  | pageSize (size : Option ℚ)
  | refresh
  /-- The response to a call of `loadQueries`. -/
  | respond (i : ℕ) (response : QueryResponse)

namespace PageState

/-- What the state says the table shows. -/
def query (s : PageState) : PageQuery := ⟨s.page, s.pageSize, s.search⟩

/-- `loadQueries` up to its request. -/
def loadQueries (s : PageState) (corrected : Bool) : PageState :=
  let requestedPage := if corrected then s.requestedPage else s.page
  { s with
    queryRequestId := s.queryRequestId + 1
    queryLoading := true
    requestedPage := requestedPage
    controller := some (s.queryRequestId + 1)
    requests := s.requests ++
      [⟨s.queryRequestId + 1, ⟨requestedPage, s.pageSize, s.search⟩, corrected⟩] }

/-- The last lines of `loadQueries`. -/
def finishQuery (s : PageState) (request : QueryRequest) : PageState :=
  if mayFinishQuery request.id s.queryRequestId then { s with queryLoading := false } else s

/-- `applyQueryResponse`. -/
def applyQueryResponse (s : PageState) (requestedPage : ℕ) (pageSize : ℚ) (total : Option ℚ)
    (corrected : Bool) : QueryDecision × PageState :=
  let decision := queryResponseDecision requestedPage s.requestedPage pageSize total corrected
  (decision,
    match decision.action with
    | .retry => { s with requestedPage := decision.page }
    | .render => { s with page := decision.page, totalPages := some decision.totalPages }
    | _ => s)

/-- A call of `loadQueries` does not wait any more. -/
def resume (s : PageState) (i : ℕ) : PageState := { s with requests := s.requests.eraseIdx i }

/-- What `loadRegion` and then `loadQueries` do with a response. -/
def receive (s : PageState) (request : QueryRequest) (response : QueryResponse) : PageState :=
  if s.controller ≠ some request.id then s.finishQuery request
  else
    match response with
    | .failure => finishQuery { s with controller := none } request
    | .data total =>
      let (decision, applied) :=
        s.applyQueryResponse request.query.page s.pageSize total request.corrected
      match decision.action with
      | .render =>
        finishQuery { applied with displayed := some request.query, controller := none } request
      | .retry => loadQueries { applied with controller := none } true
      | _ => finishQuery { applied with controller := none } request

/-- The state when the script has started: the first refresh is under way. -/
def start : PageState :=
  loadQueries ⟨1, 10, [], false, none, 1, 0, none, [], none⟩ false

/-- The script as a machine; a handler whose guard fails does nothing. -/
def machine : Machine PageState PageAction where
  step s
    | .first =>
      some (if !s.queryLoading ∧ 1 < s.page then loadQueries { s with page := 1 } false
        else s)
    | .previous =>
      some (if !s.queryLoading ∧ 1 < s.page then loadQueries { s with page := s.page - 1 } false
        else s)
    | .next =>
      some (if !s.queryLoading ∧ s.totalPages.all (s.page < ·) then
        loadQueries { s with page := s.page + 1 } false
        else s)
    | .last =>
      some (match s.totalPages with
        | some totalPages =>
          if !s.queryLoading ∧ s.page < totalPages then
            loadQueries { s with page := totalPages } false
          else s
        | none => s)
    | .search value =>
      some (loadQueries { s with
        search := (value.dropWhile isScriptSpace).rdropWhile isScriptSpace
        page := 1
        totalPages := none } false)
    | .pageSize size =>
      some (match size with
        | some size =>
          if size < 1 then s
          else loadQueries { s with pageSize := size, page := 1, totalPages := none } false
        | none => s)
    | .refresh => some (s.loadQueries false)
    | .respond i response =>
      s.requests[i]?.map fun request ↦ (s.resume i).receive request response

/-! ### What the table shows -/

/-- A request is in flight whose response will be listened to. -/
def InFlight (s : PageState) : Prop := ∃ r ∈ s.requests, s.controller = some r.id

/-- The table shows the page of the state, which exists as far as is known, and the next button asks
for the page after the one that is shown, of the same size and the same search. -/
structure Shown (s : PageState) : Prop where
  displayed : s.displayed = some s.query
  bounded : ∀ n, s.totalPages = some n → s.page ≤ n
  next : ∀ t q, machine.step s .next = some t → s.displayed = some q →
    ∀ r ∈ t.requests, t.controller = some r.id → r.query = { q with page := q.page + 1 }

/-- A request fails, or is rejected after the total has shrunk again, while the table shows another
page than that of the state, or one of another size or another search. -/
def Strands (s : PageState) : PageAction → Prop
  | .respond i response => ∃ r, s.requests[i]? = some r ∧ s.controller = some r.id ∧
      s.displayed ≠ some s.query ∧
      match response with
      | .data total => r.corrected ∧ pagesFor s.pageSize total < r.query.page
      | .failure => True
  | _ => False

/-- What holds in an execution in which nothing is stranded. -/
structure Inv (s : PageState) : Prop where
  le : ∀ r ∈ s.requests, r.id ≤ s.queryRequestId
  current : ∀ id, s.controller = some id → id = s.queryRequestId ∧ ∃ r ∈ s.requests, r.id = id
  asked : ∀ r ∈ s.requests, s.controller = some r.id →
    r.query = ⟨s.requestedPage, s.pageSize, s.search⟩
  loading : s.queryLoading = s.controller.isSome
  positive : 1 ≤ s.page ∧ 1 ≤ s.requestedPage
  bounded : ∀ n, s.totalPages = some n → s.page ≤ n
  shown : s.controller = none → s.displayed = some s.query

theorem one_le_pagesFor (pageSize : ℚ) (total : Option ℚ) : 1 ≤ pagesFor pageSize total :=
  le_max_left _ _

theorem Inv.inFlight_iff {s : PageState} (h : s.Inv) : s.InFlight ↔ s.controller ≠ none := by
  refine ⟨fun ⟨r, _, hr⟩ ↦ by simp [hr], fun hne ↦ ?_⟩
  obtain ⟨id, hid⟩ := Option.ne_none_iff_exists'.1 hne
  obtain ⟨-, r, hr, hrid⟩ := h.current id hid
  exact ⟨r, hr, hrid ▸ hid⟩

/-- A request brings the state in order, whatever it was before. -/
theorem inv_loadQueries {s : PageState} (hle : ∀ r ∈ s.requests, r.id ≤ s.queryRequestId)
    (hpositive : 1 ≤ s.page ∧ 1 ≤ s.requestedPage)
    (hbounded : ∀ n, s.totalPages = some n → s.page ≤ n) (corrected : Bool) :
    (s.loadQueries corrected).Inv where
  le := by
    show ∀ r ∈ s.requests ++ [_], r.id ≤ s.queryRequestId + 1
    rw [List.forall_mem_append, List.forall_mem_singleton]
    exact ⟨fun r hr ↦ Nat.le_succ_of_le (hle r hr), le_rfl⟩
  current := by
    rintro id hid
    obtain rfl := Option.some.inj hid
    exact ⟨rfl, _, List.mem_append_right _ (List.mem_singleton_self _), rfl⟩
  asked := by
    intro r hr hcontroller
    rcases List.mem_append.1 hr with hr | hr
    · have hid : s.queryRequestId + 1 = r.id := Option.some.inj hcontroller
      have := hle r hr
      omega
    · rw [List.mem_singleton.1 hr]
      rfl
  loading := rfl
  positive := by
    refine ⟨hpositive.1, ?_⟩
    show 1 ≤ if corrected then s.requestedPage else s.page
    split
    · exact hpositive.2
    · exact hpositive.1
  bounded := hbounded
  shown := fun h ↦ nomatch h

/-- The end of the request in flight, with the page of the state in the table. -/
theorem inv_finishQuery {s : PageState} {request : QueryRequest}
    (hid : request.id = s.queryRequestId) (hle : ∀ r ∈ s.requests, r.id ≤ s.queryRequestId)
    (hpositive : 1 ≤ s.page ∧ 1 ≤ s.requestedPage)
    (hbounded : ∀ n, s.totalPages = some n → s.page ≤ n) (hcontroller : s.controller = none)
    (hshown : s.displayed = some s.query) : (s.finishQuery request).Inv := by
  rw [finishQuery, mayFinishQuery, hid, decide_eq_true rfl, if_pos rfl]
  refine ⟨hle, fun id h ↦ (nomatch hcontroller.symm.trans h),
    fun r _ h ↦ (nomatch hcontroller.symm.trans h), ?_, hpositive, hbounded, fun _ ↦ hshown⟩
  show false = s.controller.isSome
  rw [hcontroller]
  rfl

/-- A response that is not listened to changes nothing but the calls that wait. -/
theorem Inv.superseded {s : PageState} (h : s.Inv) {i : ℕ} {request : QueryRequest}
    (hi : s.requests[i]? = some request) (hne : s.controller ≠ some request.id) :
    (s.resume i).finishQuery request = s.resume i ∧ (s.resume i).Inv := by
  refine ⟨?_, fun r hr ↦ h.le r (List.mem_of_mem_eraseIdx hr), fun id hid ↦ ?_,
    fun r hr hr' ↦ h.asked r (List.mem_of_mem_eraseIdx hr) hr', h.loading, h.positive, h.bounded,
    h.shown⟩
  · rw [finishQuery, mayFinishQuery]
    split
    · -- the newest call has come to its end already, so nothing is loading
      rename_i hnewest
      have hnone : s.controller = none := by
        rcases hcontroller : s.controller with _ | id
        · rfl
        · have hid := (h.current id hcontroller).1
          have hrequest : request.id = s.queryRequestId := of_decide_eq_true hnewest
          rw [hcontroller, hid, hrequest] at hne
          exact absurd rfl hne
      have hloading := h.loading
      rw [hnone] at hloading
      rw [resume, hloading, Option.isSome_none]
    · rfl
  · obtain ⟨hnewest, r, hr, hrid⟩ := h.current id hid
    obtain ⟨j, hj⟩ := List.mem_iff_getElem?.1 hr
    refine ⟨hnewest, r, List.mem_eraseIdx_iff_getElem?.2 ⟨j, ?_, hj⟩, hrid⟩
    rintro rfl
    obtain rfl := Option.some.inj (hi.symm.trans hj)
    exact hne (hrid ▸ hid)

section Receive

variable {s : PageState} {request : QueryRequest}

theorem receive_of_ne (hne : s.controller ≠ some request.id) (response : QueryResponse) :
    s.receive request response = s.finishQuery request := if_pos hne

theorem receive_failure (hcontroller : s.controller = some request.id) :
    s.receive request .failure = finishQuery { s with controller := none } request :=
  if_neg (not_not.2 hcontroller)

/-- A response of which the page exists is rendered. -/
theorem receive_render (hcontroller : s.controller = some request.id)
    (hasked : request.query.page = s.requestedPage) {total : Option ℚ}
    (hle : request.query.page ≤ pagesFor s.pageSize total) : s.receive request (.data total) =
      finishQuery { s with
        page := request.query.page
        totalPages := some (pagesFor s.pageSize total)
        displayed := some request.query
        controller := none } request := by
  have hdecision : queryResponseDecision request.query.page s.requestedPage s.pageSize total
      request.corrected = ⟨request.query.page, pagesFor s.pageSize total, .render⟩ := by
    rw [queryResponseDecision, if_neg (not_not.2 hasked), if_pos hle]
  rw [receive, if_neg (not_not.2 hcontroller)]
  simp only [applyQueryResponse, hdecision]

/-- One of which it does not exist makes the script ask for the last page, once. -/
theorem receive_retry (hcontroller : s.controller = some request.id)
    (hasked : request.query.page = s.requestedPage) {total : Option ℚ}
    (hlt : pagesFor s.pageSize total < request.query.page) (hfirst : request.corrected = false) :
    s.receive request (.data total) = loadQueries { s with
      requestedPage := pagesFor s.pageSize total
      controller := none } true := by
  have hdecision : queryResponseDecision request.query.page s.requestedPage s.pageSize total
      request.corrected = ⟨pagesFor s.pageSize total, pagesFor s.pageSize total, .retry⟩ := by
    rw [queryResponseDecision, if_neg (not_not.2 hasked), if_neg (Nat.not_le.2 hlt), hfirst]
    rfl
  rw [receive, if_neg (not_not.2 hcontroller)]
  simp only [applyQueryResponse, hdecision]

/-- The second time the response is rejected. -/
theorem receive_reject (hcontroller : s.controller = some request.id)
    (hasked : request.query.page = s.requestedPage) {total : Option ℚ}
    (hlt : pagesFor s.pageSize total < request.query.page) (hsecond : request.corrected = true) :
    s.receive request (.data total) = finishQuery { s with controller := none } request := by
  have hdecision : queryResponseDecision request.query.page s.requestedPage s.pageSize total
      request.corrected = ⟨pagesFor s.pageSize total, pagesFor s.pageSize total, .reject⟩ := by
    rw [queryResponseDecision, if_neg (not_not.2 hasked), if_neg (Nat.not_le.2 hlt), hsecond]
    rfl
  rw [receive, if_neg (not_not.2 hcontroller)]
  simp only [applyQueryResponse, hdecision]

end Receive

/-! ### Steps -/

/-- **What an event does**: nothing, or a request for a page that exists as far as is known. -/
theorem Inv.event {s t : PageState} {a : PageAction} (h : s.Inv)
    (hevent : ∀ i response, a ≠ .respond i response) (hstep : machine.step s a = some t) :
    t = s ∨ ∃ page pageSize search totalPages, 1 ≤ page ∧ (∀ n, totalPages = some n → page ≤ n) ∧
      t = loadQueries { s with
        page := page, pageSize := pageSize, search := search, totalPages := totalPages } false := by
  have hone : ∀ n, s.totalPages = some n → 1 ≤ n := fun n hn ↦ h.positive.1.trans (h.bounded n hn)
  cases a with
  | first =>
    obtain rfl := Option.some.inj hstep
    split
    · exact Or.inr ⟨1, _, _, _, le_rfl, hone, rfl⟩
    · exact Or.inl rfl
  | previous =>
    obtain rfl := Option.some.inj hstep
    split
    · rename_i hguard
      exact Or.inr ⟨s.page - 1, _, _, _, Nat.le_sub_one_of_lt hguard.2,
        fun n hn ↦ (Nat.sub_le _ _).trans (h.bounded n hn), rfl⟩
    · exact Or.inl rfl
  | next =>
    obtain rfl := Option.some.inj hstep
    split
    · rename_i hguard
      refine Or.inr ⟨s.page + 1, _, _, _, Nat.le_add_left _ _, fun n hn ↦ ?_, rfl⟩
      have hlt := hguard.2
      rw [hn, Option.all_some, decide_eq_true_eq] at hlt
      exact hlt
    · exact Or.inl rfl
  | last =>
    obtain rfl := Option.some.inj hstep
    rcases htotal : s.totalPages with _ | total
    · exact Or.inl rfl
    · dsimp only
      split
      · refine Or.inr ⟨total, s.pageSize, s.search, some total, hone total htotal,
          fun n hn ↦ ?_, ?_⟩
        · exact (Option.some.inj hn).le
        · rw [← htotal]
      · exact Or.inl rfl
  | search value =>
    obtain rfl := Option.some.inj hstep
    exact Or.inr ⟨1, _, _, none, le_rfl, fun _ hn ↦ (nomatch hn), rfl⟩
  | pageSize size =>
    obtain rfl := Option.some.inj hstep
    rcases size with _ | size
    · exact Or.inl rfl
    · dsimp only
      split
      · exact Or.inl rfl
      · exact Or.inr ⟨1, size, _, none, le_rfl, fun _ hn ↦ (nomatch hn), rfl⟩
  | refresh =>
    obtain rfl := Option.some.inj hstep
    exact Or.inr ⟨s.page, _, _, _, h.positive.1, h.bounded, rfl⟩
  | respond i response => exact absurd rfl (hevent i response)

/-- **What a response does.** -/
theorem Inv.response {s t : PageState} {i : ℕ} {response : QueryResponse} (h : s.Inv)
    (hnot : ¬s.Strands (.respond i response))
    (hstep : machine.step s (.respond i response) = some t) : t.Inv := by
  obtain ⟨request, hi, rfl⟩ := Option.map_eq_some_iff.1 hstep
  have hle : ∀ r ∈ s.requests.eraseIdx i, r.id ≤ s.queryRequestId :=
    fun r hr ↦ h.le r (List.mem_of_mem_eraseIdx hr)
  rcases ne_or_eq s.controller (some request.id) with hne | hcontroller
  · rw [receive_of_ne (s := s.resume i) hne, (h.superseded hi hne).1]
    exact (h.superseded hi hne).2
  · have hid := (h.current _ hcontroller).1
    have hquery := h.asked request (List.mem_of_getElem? hi) hcontroller
    have hasked : request.query.page = s.requestedPage := by rw [hquery]
    cases response with
    | failure =>
      rw [receive_failure (s := s.resume i) hcontroller]
      refine inv_finishQuery hid hle h.positive h.bounded rfl ?_
      by_contra hother
      exact hnot ⟨request, hi, hcontroller, hother, trivial⟩
    | data total =>
      rcases Nat.lt_or_ge (pagesFor s.pageSize total) request.query.page with hlt | hge
      · cases hcorrected : request.corrected with
        | true =>
          rw [receive_reject (s := s.resume i) hcontroller hasked hlt hcorrected]
          refine inv_finishQuery hid hle h.positive h.bounded rfl ?_
          by_contra hother
          exact hnot ⟨request, hi, hcontroller, hother, hcorrected, hlt⟩
        | false =>
          rw [receive_retry (s := s.resume i) hcontroller hasked hlt hcorrected]
          refine inv_loadQueries ?_ ?_ ?_ true
          · exact hle
          · exact ⟨h.positive.1, one_le_pagesFor _ _⟩
          · exact h.bounded
      · rw [receive_render (s := s.resume i) hcontroller hasked hge]
        refine inv_finishQuery hid hle ⟨hasked ▸ h.positive.2, h.positive.2⟩ (fun n hn ↦ ?_) rfl ?_
        · exact hge.trans (Option.some.inj hn).le
        · show some request.query = some ⟨request.query.page, s.pageSize, s.search⟩
          rw [hquery]

/-- A step that strands nothing keeps what holds. -/
theorem Inv.step {s t : PageState} {a : PageAction} (h : s.Inv) (hnot : ¬s.Strands a)
    (hstep : machine.step s a = some t) : t.Inv := by
  by_cases hevent : ∀ i response, a ≠ .respond i response
  · rcases h.event hevent hstep with rfl | ⟨page, pageSize, search, totalPages, hpage, hle, rfl⟩
    · exact h
    · refine inv_loadQueries ?_ ?_ ?_ false
      · exact h.le
      · exact ⟨hpage, h.positive.2⟩
      · exact hle
  · push Not at hevent
    obtain ⟨i, response, rfl⟩ := hevent
    exact h.response hnot hstep

/-- Without a request in flight, the table shows what the state says. -/
theorem Inv.shown_of_not_inFlight {s : PageState} (h : s.Inv) (hidle : ¬s.InFlight) : s.Shown := by
  have hnone : s.controller = none := by
    by_contra hne
    exact hidle (h.inFlight_iff.2 hne)
  have hdisplayed := h.shown hnone
  refine ⟨hdisplayed, h.bounded, fun t q hstep hq r hr hcontroller ↦ ?_⟩
  obtain rfl := Option.some.inj (hdisplayed.symm.trans hq)
  obtain rfl := Option.some.inj hstep
  split at hr
  · -- of the requests that wait, the new one is the one that is listened to
    rename_i hguard
    rw [if_pos hguard] at hcontroller
    rcases List.mem_append.1 hr with hr | hr
    · have hid : s.queryRequestId + 1 = r.id := Option.some.inj hcontroller
      have := h.le r hr
      omega
    · rw [List.mem_singleton.1 hr]
      rfl
  · rename_i hguard
    rw [if_neg hguard] at hcontroller
    exact absurd ⟨r, hr, hcontroller⟩ hidle

/-- A step that strands a page leaves the table without a request in flight and on another page. -/
theorem Inv.not_shown_of_strands {s t : PageState} {a : PageAction} (h : s.Inv)
    (hstrands : s.Strands a) (hstep : machine.step s a = some t) : ¬t.InFlight ∧ ¬t.Shown := by
  cases a with
  | respond i response =>
    obtain ⟨request, hi, hcontroller, hother, hwhy⟩ := hstrands
    have ht : t = finishQuery { s.resume i with controller := none } request := by
      obtain ⟨request', hi', rfl⟩ := Option.map_eq_some_iff.1 hstep
      obtain rfl := Option.some.inj (hi.symm.trans hi')
      cases response with
      | failure => exact receive_failure (s := s.resume i) hcontroller
      | data total =>
        have hquery := h.asked request (List.mem_of_getElem? hi) hcontroller
        exact receive_reject (s := s.resume i) hcontroller (by rw [hquery]; rfl) hwhy.2 hwhy.1
    have hframe : t.controller = none ∧ t.displayed = s.displayed ∧ t.query = s.query := by
      rw [ht, finishQuery]
      split <;> exact ⟨rfl, rfl, rfl⟩
    refine ⟨fun ⟨r, _, hr⟩ ↦ (nomatch hframe.1.symm.trans hr), fun hshown ↦ hother ?_⟩
    rw [← hframe.2.1, ← hframe.2.2]
    exact hshown.displayed
  | _ => exact hstrands.elim

/-- **One step** leaves a table that shows what the state says, unless a request is in flight,
exactly if it strands nothing. -/
theorem Inv.shown_iff {s t : PageState} {a : PageAction} (h : s.Inv)
    (hstep : machine.step s a = some t) :
    (∀ u, machine.step s a = some u → ¬u.InFlight → u.Shown) ↔ ¬s.Strands a := by
  refine ⟨fun hshown hstrands ↦ ?_, fun hnot u hu ↦ (h.step hnot hu).shown_of_not_inFlight⟩
  obtain ⟨hidle, hother⟩ := h.not_shown_of_strands hstrands hstep
  exact hother (hshown t hstep hidle)

theorem inv_start : start.Inv := by
  refine inv_loadQueries ?_ ?_ ?_ false
  · exact fun _ hr ↦ nomatch hr
  · exact ⟨le_rfl, le_rfl⟩
  · exact fun _ hn ↦ nomatch hn

/-- **The table shows what the state says whenever no request is in flight exactly if nothing is
stranded**, in every execution of the script. -/
theorem shown_iff_no_stranding {as : List PageAction} {s : PageState}
    (hrun : machine.run start as = some s) :
    machine.Along (fun s a ↦ ∀ t, machine.step s a = some t → ¬t.InFlight → t.Shown) start as ↔
      machine.Along (fun s a ↦ ¬s.Strands a) start as :=
  Machine.along_congr (I := Inv) (fun _ _ _ h hstep ↦ h.shown_iff hstep)
    (fun _ _ _ h hshown hstep ↦ h.step ((h.shown_iff hstep).1 hshown) hstep) hrun inv_start

end PageState

/-- The first page of three is shown, and a refresh of it fails: it is still the page of the
state. -/
theorem shown_iff_no_stranding_refresh :
    ∃ s, PageState.machine.run .start [.respond 0 (.data (some 30)), .refresh, .respond 0 .failure]
        = some s ∧
      (PageState.machine.Along (fun s a ↦ ∀ t, PageState.machine.step s a = some t →
          ¬t.InFlight → t.Shown) .start
          [.respond 0 (.data (some 30)), .refresh, .respond 0 .failure] ↔
        PageState.machine.Along (fun s a ↦ ¬s.Strands a) .start
          [.respond 0 (.data (some 30)), .refresh, .respond 0 .failure]) := by
  have hsome : (PageState.machine.run .start
      [.respond 0 (.data (some 30)), .refresh, .respond 0 .failure]).isSome := by decide +kernel
  obtain ⟨s, hrun⟩ := Option.isSome_iff_exists.1 hsome
  exact ⟨s, hrun, PageState.shown_iff_no_stranding hrun⟩

/-- The first page of three is shown, the next button asks for the second one, and the request
fails: the first page is still shown, the state says the second, and the next button asks for the
third. -/
theorem failed_next_strands :
    ∃ s t, PageState.machine.run .start
        [.respond 0 (.data (some 30)), .next, .respond 0 .failure] = some s ∧
      ¬s.InFlight ∧ s.displayed = some ⟨1, 10, []⟩ ∧ s.page = 2 ∧ s.totalPages = some 3 ∧
      PageState.machine.step s .next = some t ∧ t.InFlight ∧ t.requestedPage = 3 ∧ ¬s.Shown := by
  let s : PageState := ⟨2, 10, [], false, some 3, 2, 2, none, [], some ⟨1, 10, []⟩⟩
  refine ⟨s, PageState.loadQueries { s with page := 3 } false, by decide +kernel, ?_, rfl, rfl, rfl,
    rfl, ⟨_, List.mem_singleton_self _, rfl⟩, rfl, fun h ↦ ?_⟩
  · rintro ⟨r, hr, -⟩
    exact nomatch hr
  · exact absurd h.displayed (by decide)

/-- A page size that cannot be loaded strands the first page too: the number is right, the size is
not. -/
example : (PageState.machine.run .start
    [.respond 0 (.data (some 100)), .pageSize (some 50), .respond 0 .failure]).map
      (fun s ↦ (s.displayed, s.query)) = some (some ⟨1, 10, []⟩, ⟨1, 50, []⟩) := by
  decide +kernel

end DnsBuffer
