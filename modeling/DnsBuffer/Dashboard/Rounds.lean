import DnsBuffer.Dashboard.Frontend
import DnsBuffer.Foundation.Simulation
import Mathlib.Data.List.Nodup

/-!
# Refreshing the dashboard

A click on the refresh button starts a round: six loads, one for each region of the page, and the
button is disabled until each of them has settled. In the meantime the query table may be used,
which loads its region again and supersedes the load of the round; a load that is superseded settles
all the same, and so does one that is corrected once because the total has shrunk.

The tracker of the rounds counts on each region to be recorded once in a round. It is
(`Page.Inv.tracked`): a round ends before the next one begins, so every load belongs to the round
under way, and the regions that were recorded and those that are under way are the six regions. So
the button is never disabled for good, and never enabled while a load of the round is under way.

The query table is the one of `PageState`, with whose decisions the region settles. What the other
regions render is left out.
-/

namespace DnsBuffer

/-! ### The tracker -/

/-- `regionNames`. -/
inductive Region
  | trend | upstreams | rankings | queries | response | cache
deriving DecidableEq

def regionNames : List Region := [.trend, .upstreams, .rankings, .queries, .response, .cache]

/-- How the load of a region settles. -/
inductive RegionResult
  | success | failure | superseded
deriving DecidableEq

/-- `classifyRegionResult`. -/
def classifyRegionResult (aborted current failed : Bool) : RegionResult :=
  if aborted ∨ !current then .superseded else if failed then .failure else .success

/-- `mapQueryResult`. -/
def mapQueryResult (result : RegionResult) (action : ResponseAction) : RegionResult :=
  if result ≠ .success then result else if action = .render then .success else .superseded

/-- The state of `createRoundTracker`. -/
structure RoundTracker where
  activeId : ℕ
  results : List (Region × RegionResult)
deriving DecidableEq

/-- What `record` returns. -/
structure RoundRecord where
  id : ℕ
  complete : Bool
  success : Bool
  failed : ℕ
  superseded : ℕ
deriving DecidableEq

/-- `Map.prototype.set`. -/
def setResult (results : List (Region × RegionResult)) (name : Region) (result : RegionResult) :
    List (Region × RegionResult) :=
  if results.any fun x ↦ x.1 = name then
    results.map fun x ↦ if x.1 = name then (name, result) else x
  else results ++ [(name, result)]

namespace RoundTracker

/-- `begin`. -/
def begin (t : RoundTracker) : RoundTracker := ⟨t.activeId + 1, []⟩

/-- `record`. -/
def record (t : RoundTracker) (id : ℕ) (name : Region) (result : RegionResult) :
    Option RoundRecord × RoundTracker :=
  if id ≠ t.activeId ∨ name ∉ regionNames then (none, t)
  else
    let results := setResult t.results name result
    let complete := decide (results.length = regionNames.length)
    let failed := results.countP fun x ↦ x.2 = .failure
    let superseded := results.countP fun x ↦ x.2 = .superseded
    (some ⟨id, complete, complete && failed = 0 && superseded = 0, failed, superseded⟩,
      ⟨t.activeId, results⟩)

end RoundTracker

/-! ### The page -/

/-- What the page says about the last refresh. -/
inductive RefreshStatus
  | updating
  | updated
  | failed (regions : ℕ)
  | superseded
deriving DecidableEq

/-- A call of `loadRegion` that waits for its response, for another region than `queries`. -/
structure RegionLoad where
  id : ℕ
  region : Region
  round : ℕ
deriving DecidableEq

/-- The query table, the loads of the other regions, and the state of the refresh. -/
structure Page where
  table : PageState
  /-- The calls of `loadQueries` that belong to a round, by their ids. -/
  queryRounds : List (ℕ × ℕ)
  /-- The controllers of the other regions, by the ids of their loads. -/
  controllers : Region → Option ℕ
  loads : List RegionLoad
  loadId : ℕ
  tracker : RoundTracker
  refreshDisabled : Bool
  status : RefreshStatus

/-- What happens on the page as a whole. -/
inductive DashboardAction
  /-- An event of the query table. -/
  | event (action : PageAction)
  /-- A click on the refresh button. -/
  | refresh
  /-- A response for another region, which can be rendered or not. -/
  | respond (j : ℕ) (failed : Bool)
  /-- A response for the query table. -/
  | respondQuery (i : ℕ) (response : QueryResponse)

/-- An event of the table, not a response and not the refresh. -/
def PageAction.isEvent : PageAction → Bool
  | .refresh => false
  | .respond _ _ => false
  | _ => true

/-- How the load of `queries` settles; not at all if the page is asked for again. -/
def PageState.queryResult (s : PageState) (request : QueryRequest) (response : QueryResponse) :
    Option RegionResult :=
  if s.controller ≠ some request.id then some .superseded
  else
    match response with
    | .failure => some .failure
    | .data total =>
      match (s.applyQueryResponse request.query.page s.pageSize total
        request.corrected).1.action with
      | .retry => none
      | action => some (mapQueryResult .success action)

namespace Page

/-- `loadRegion` up to its request. -/
def loadRegion (s : Page) (region : Region) : Page :=
  { s with
    controllers := Function.update s.controllers region (some (s.loadId + 1))
    loads := s.loads ++ [⟨s.loadId + 1, region, s.tracker.activeId⟩]
    loadId := s.loadId + 1 }

/-- `refreshAll` up to its requests. -/
def refreshAll (s : Page) : Page :=
  let s := { s with tracker := s.tracker.begin, refreshDisabled := true, status := .updating }
  let s := ((((s.loadRegion .trend).loadRegion .upstreams).loadRegion .response).loadRegion
    .cache).loadRegion .rankings
  { s with
    table := s.table.loadQueries false
    queryRounds := s.queryRounds ++ [(s.table.queryRequestId + 1, s.tracker.activeId)] }

/-- `finishRefreshStatus`. -/
def finishRefreshStatus (s : Page) : Option RoundRecord → Page
  | none => s
  | some record =>
    if record.complete then
      { s with
        refreshDisabled := false
        status := if record.success then .updated
          else if record.failed ≠ 0 then .failed record.failed else .superseded }
    else s

/-- What `refreshAll` does with the result of a load. -/
def settle (s : Page) (round : ℕ) (name : Region) (result : RegionResult) : Page :=
  let (record, tracker) := s.tracker.record round name result
  finishRefreshStatus { s with tracker := tracker } record

/-- What `loadRegion` does with a response, and then `refreshAll`. -/
def receive (s : Page) (load : RegionLoad) (failed : Bool) : Page :=
  let current := decide (s.controllers load.region = some load.id)
  let s := if current then
    { s with controllers := Function.update s.controllers load.region none } else s
  s.settle load.round load.region (classifyRegionResult false current failed)

/-- What `loadQueries` does with a response, and then `refreshAll` if it has made the call. -/
def receiveQuery (s : Page) (request : QueryRequest) (response : QueryResponse) : Page :=
  let round := s.queryRounds.lookup request.id
  let received := { s with table := s.table.receive request response }
  match s.table.queryResult request response with
  -- the corrected call stands in for the one that made it
  | none => { received with queryRounds := s.queryRounds ++
      (round.map fun round ↦ (s.table.queryRequestId + 1, round)).toList }
  | some result => round.elim received fun round ↦ received.settle round .queries result

/-- The page when the script has started: the first refresh is under way. -/
def start : Page :=
  refreshAll ⟨⟨1, 10, [], false, none, 1, 0, none, [], none⟩, [], fun _ ↦ none, [], 0, ⟨0, []⟩,
    false, .updated⟩

/-- The page as a machine. A disabled button cannot be clicked. -/
def machine : Machine Page DashboardAction where
  step s
    | .event action =>
      if action.isEvent then (PageState.machine.step s.table action).map fun table ↦
        { s with table := table }
      else none
    | .refresh => if s.refreshDisabled then none else some s.refreshAll
    | .respond j failed => s.loads[j]?.map fun load ↦
        receive { s with loads := s.loads.eraseIdx j } load failed
    | .respondQuery i response => s.table.requests[i]?.map fun request ↦
        receiveQuery { s with table := s.table.resume i } request response

/-! ### A round -/

/-- What the page says when a round has ended with these results. -/
def summary (results : List (Region × RegionResult)) : RefreshStatus :=
  let failed := results.countP fun x ↦ x.2 = .failure
  if ∀ x ∈ results, x.2 = .success then .updated
  else if failed ≠ 0 then .failed failed else .superseded

/-- The regions that were recorded in the round under way, and those that were not yet. -/
structure Tracked (pending : List Region) (s : Page) : Prop where
  regions : (s.tracker.results.map Prod.fst ++ pending).Perm regionNames
  disabled : s.refreshDisabled = true ↔ pending ≠ []
  status : s.status = if pending = [] then summary s.tracker.results else .updating
  superseded : ∀ x ∈ s.tracker.results, x.2 = .superseded → x.1 = .queries

theorem Tracked.perm {pending pending' : List Region} {s : Page} (h : s.Tracked pending)
    (hperm : pending.Perm pending') : s.Tracked pending' := by
  have hnil : pending = [] ↔ pending' = [] := by
    rw [← List.length_eq_zero_iff, ← List.length_eq_zero_iff, hperm.length_eq]
  refine ⟨(hperm.append_left _).symm.trans h.regions, h.disabled.trans (not_congr hnil), ?_,
    h.superseded⟩
  rw [h.status, if_congr hnil rfl rfl]

/-- A result is a success, unless there are failures or it was superseded. -/
theorem forall_success_iff (results : List (Region × RegionResult)) :
    (∀ x ∈ results, x.2 = .success) ↔ (results.countP fun x ↦ x.2 = .failure) = 0 ∧
      (results.countP fun x ↦ x.2 = .superseded) = 0 := by
  rw [List.countP_eq_zero, List.countP_eq_zero, ← forall₂_and]
  refine forall₂_congr fun x _ ↦ ?_
  rcases x.2 with - | - | - <;> simp

/-- What settling leaves alone. -/
theorem settle_frame (s : Page) (round : ℕ) (name : Region) (result : RegionResult) :
    ∃ tracker disabled status, s.settle round name result =
        { s with tracker := tracker, refreshDisabled := disabled, status := status } ∧
      tracker.activeId = s.tracker.activeId := by
  rw [settle, RoundTracker.record]
  by_cases hstale : round ≠ s.tracker.activeId ∨ name ∉ regionNames
  · rw [if_pos hstale]
    exact ⟨s.tracker, s.refreshDisabled, s.status, rfl, rfl⟩
  · rw [if_neg hstale]
    dsimp only
    rw [finishRefreshStatus]
    split
    · exact ⟨_, _, _, rfl, rfl⟩
    · exact ⟨_, _, _, rfl, rfl⟩

/-- **A region settles.** -/
theorem Tracked.settle {rest : List Region} {s : Page} {name : Region} {result : RegionResult}
    (h : s.Tracked (name :: rest)) (hresult : result = .superseded → name = .queries) :
    Tracked rest (s.settle s.tracker.activeId name result) := by
  have hmem : name ∈ regionNames :=
    h.regions.subset (List.mem_append_right _ List.mem_cons_self)
  -- every region is there once, so this one has no result yet
  have hnodup : (s.tracker.results.map Prod.fst ++ name :: rest).Nodup :=
    h.regions.nodup_iff.2 (by decide)
  have hnew : (s.tracker.results.any fun x ↦ x.1 = name) = false := by
    rw [List.any_eq_false]
    intro x hx hname
    rw [decide_eq_true_eq] at hname
    exact (List.nodup_append.1 hnodup).2.2 x.1 (List.mem_map_of_mem hx) name List.mem_cons_self
      hname
  have hset : setResult s.tracker.results name result = s.tracker.results ++ [(name, result)] := by
    rw [setResult, hnew]
    rfl
  have hregions : ((s.tracker.results ++ [(name, result)]).map Prod.fst ++ rest).Perm
      regionNames := by
    rw [List.map_append, List.map_singleton, List.append_assoc]
    exact h.regions
  have hcomplete : (s.tracker.results ++ [(name, result)]).length = regionNames.length ↔
      rest = [] := by
    have hlength := hregions.length_eq
    rw [List.length_append, List.length_map] at hlength
    rw [← hlength, ← List.length_eq_zero_iff]
    omega
  have hsuperseded : ∀ x ∈ s.tracker.results ++ [(name, result)], x.2 = .superseded →
      x.1 = .queries := by
    intro x hx
    obtain hx | hx := List.mem_append.1 hx
    · exact h.superseded x hx
    · rw [List.mem_singleton.1 hx]
      exact hresult
  rw [Page.settle, RoundTracker.record, if_neg (by simp [hmem])]
  dsimp only
  rw [hset, finishRefreshStatus]
  by_cases hrest : rest = []
  · rw [if_pos (decide_eq_true (hcomplete.2 hrest))]
    refine ⟨hregions, ⟨fun hd ↦ (Bool.false_ne_true hd).elim, fun hne ↦ absurd hrest hne⟩, ?_,
      hsuperseded⟩
    rw [if_pos hrest, summary, if_congr (forall_success_iff _) rfl rfl]
    refine if_congr ?_ rfl rfl
    simp only [hcomplete.2 hrest, decide_true, Bool.true_and, Bool.and_eq_true, decide_eq_true_eq]
  · rw [if_neg (by simpa using mt hcomplete.1 hrest)]
    refine ⟨hregions, ⟨fun _ ↦ hrest, fun _ ↦ h.disabled.2 (List.cons_ne_nil _ _)⟩, ?_,
      hsuperseded⟩
    have hstatus := h.status
    rw [if_neg (List.cons_ne_nil _ _)] at hstatus
    rw [if_neg hrest]
    exact hstatus

end Page

/-! ### The calls of the query table -/

namespace PageState

/-- An event asks for at most one page. -/
theorem requests_of_event {s t : PageState} {a : PageAction} (ha : a.isEvent = true)
    (hstep : machine.step s a = some t) :
    (t.requests = s.requests ∧ t.queryRequestId = s.queryRequestId) ∨
      ∃ query, t.requests = s.requests ++ [⟨s.queryRequestId + 1, query, false⟩] ∧
        t.queryRequestId = s.queryRequestId + 1 := by
  cases a with
  | first =>
    cases hstep
    split
    · exact Or.inr ⟨_, rfl, rfl⟩
    · exact Or.inl ⟨rfl, rfl⟩
  | previous =>
    cases hstep
    split
    · exact Or.inr ⟨_, rfl, rfl⟩
    · exact Or.inl ⟨rfl, rfl⟩
  | next =>
    cases hstep
    split
    · exact Or.inr ⟨_, rfl, rfl⟩
    · exact Or.inl ⟨rfl, rfl⟩
  | last =>
    cases hstep
    split
    · split
      · exact Or.inr ⟨_, rfl, rfl⟩
      · exact Or.inl ⟨rfl, rfl⟩
    · exact Or.inl ⟨rfl, rfl⟩
  | search value =>
    cases hstep
    exact Or.inr ⟨_, rfl, rfl⟩
  | pageSize size =>
    cases hstep
    split
    · split
      · exact Or.inl ⟨rfl, rfl⟩
      · exact Or.inr ⟨_, rfl, rfl⟩
    · exact Or.inl ⟨rfl, rfl⟩
  | refresh => cases ha
  | respond => cases ha

theorem finishQuery_requests (s : PageState) (request : QueryRequest) :
    (s.finishQuery request).requests = s.requests ∧
      (s.finishQuery request).queryRequestId = s.queryRequestId := by
  rw [finishQuery]
  split <;> exact ⟨rfl, rfl⟩

/-- A page is asked for again only if that was not done before. -/
theorem corrected_of_retry {requestedPage currentPage : ℕ} {pageSize : ℚ} {total : Option ℚ}
    {corrected : Bool}
    (h : (queryResponseDecision requestedPage currentPage pageSize total corrected).action =
      .retry) : corrected = false := by
  cases corrected with
  | false => rfl
  | true =>
    rw [queryResponseDecision] at h
    split at h
    · cases h
    · split at h <;> cases h

/-- A response settles its call, or the page is asked for once more. -/
theorem requests_receive (s : PageState) (request : QueryRequest) (response : QueryResponse) :
    (∃ result, s.queryResult request response = some result ∧
        (s.receive request response).requests = s.requests ∧
        (s.receive request response).queryRequestId = s.queryRequestId) ∨
      ∃ query, s.queryResult request response = none ∧ request.corrected = false ∧
        (s.receive request response).requests =
          s.requests ++ [⟨s.queryRequestId + 1, query, true⟩] ∧
        (s.receive request response).queryRequestId = s.queryRequestId + 1 := by
  by_cases hcurrent : s.controller ≠ some request.id
  · have hreceive : s.receive request response = s.finishQuery request := by
      rw [receive_of_ne hcurrent]
    have hresult : s.queryResult request response = some .superseded := by
      rw [queryResult.eq_def, if_pos hcurrent]
    rw [hreceive]
    exact Or.inl ⟨_, hresult, s.finishQuery_requests request⟩
  · cases response with
    | failure =>
      rw [receive_failure (not_not.1 hcurrent), queryResult, if_neg hcurrent]
      exact Or.inl ⟨_, rfl, finishQuery_requests _ request⟩
    | data total =>
      simp only [receive, queryResult, if_neg hcurrent, applyQueryResponse]
      cases haction : (queryResponseDecision request.query.page s.requestedPage s.pageSize total
        request.corrected).action with
      | ignore => exact Or.inl ⟨_, rfl, finishQuery_requests _ request⟩
      | render => exact Or.inl ⟨_, rfl, finishQuery_requests _ request⟩
      | reject => exact Or.inl ⟨_, rfl, finishQuery_requests _ request⟩
      | retry => exact Or.inr ⟨_, rfl, corrected_of_retry haction, rfl, rfl⟩

end PageState

namespace Page

/-! ### The invariant -/

/-- The calls of `loadQueries` that belong to the round under way. -/
def roundQueries (s : Page) : List QueryRequest :=
  s.table.requests.filter fun r ↦ s.queryRounds.lookup r.id = some s.tracker.activeId

/-- The regions whose loads in the round have not settled. -/
def pending (s : Page) : List Region :=
  s.loads.map RegionLoad.region ++ s.roundQueries.map fun _ ↦ .queries

/-- The loads under way. -/
structure Loading (s : Page) : Prop where
  loads : ∀ load ∈ s.loads, load.round = s.tracker.activeId ∧ load.region ≠ .queries ∧
    s.controllers load.region = some load.id
  queries : ∀ r ∈ s.table.requests, ∀ round, s.queryRounds.lookup r.id = some round →
    round = s.tracker.activeId
  requests_le : ∀ r ∈ s.table.requests, r.id ≤ s.table.queryRequestId
  rounds_le : ∀ x ∈ s.queryRounds, x.1 ≤ s.table.queryRequestId

structure Inv (s : Page) : Prop where
  tracked : s.Tracked s.pending
  loading : s.Loading

theorem lookup_append_succ {rounds : List (ℕ × ℕ)} {n k : ℕ} (hk : k ≤ n) (round : Option ℕ) :
    (rounds ++ (round.map fun r ↦ (n + 1, r)).toList).lookup k = rounds.lookup k := by
  have hne : (k == n + 1) = false := beq_false_of_ne (Nat.ne_of_lt (Nat.lt_succ_of_le hk))
  rw [List.lookup_append]
  cases round with
  | none => exact Option.or_none
  | some r => simp [hne]

theorem lookup_succ {rounds : List (ℕ × ℕ)} {n : ℕ} (h : ∀ x ∈ rounds, x.1 ≤ n)
    (round : Option ℕ) :
    (rounds ++ (round.map fun r ↦ (n + 1, r)).toList).lookup (n + 1) = round := by
  have hnone : rounds.lookup (n + 1) = none :=
    List.lookup_eq_none_iff.2 fun x hx ↦ bne_iff_ne.2 (Nat.lt_succ_of_le (h x hx)).ne'
  rw [List.lookup_append, hnone, Option.none_or]
  cases round with
  | none => rfl
  | some r => simp

section Steps

variable {s : Page}

/-- A further call of `loadQueries`, in the round under way or in none. -/
theorem Loading.add (h : s.Loading) {table : PageState} {new : QueryRequest}
    (hrequests : table.requests = s.table.requests ++ [new])
    (hnew : new.id = s.table.queryRequestId + 1)
    (hid : table.queryRequestId = s.table.queryRequestId + 1) (round : Option ℕ)
    (hround : ∀ r, round = some r → r = s.tracker.activeId) :
    let t := { s with
      table := table
      queryRounds := s.queryRounds ++
        (round.map fun r ↦ (s.table.queryRequestId + 1, r)).toList }
    t.Loading ∧ t.roundQueries = s.roundQueries ++ (round.map fun _ ↦ new).toList := by
  intro t
  have hold : ∀ r ∈ s.table.requests, t.queryRounds.lookup r.id = s.queryRounds.lookup r.id :=
    fun r hr ↦ lookup_append_succ (h.requests_le r hr) round
  have hlookup : t.queryRounds.lookup new.id = round := by
    rw [hnew]
    exact lookup_succ h.rounds_le round
  refine ⟨⟨h.loads, fun r hr r' hr' ↦ ?_, fun r hr ↦ ?_, fun x hx ↦ ?_⟩, ?_⟩
  · obtain hr | hr := List.mem_append.1 (hrequests ▸ hr)
    · exact h.queries r hr r' (hold r hr ▸ hr')
    · rw [List.mem_singleton.1 hr, hlookup] at hr'
      exact hround r' hr'
  · show r.id ≤ table.queryRequestId
    rw [hid]
    obtain hr | hr := List.mem_append.1 (hrequests ▸ hr)
    · exact (h.requests_le r hr).trans (Nat.le_succ _)
    · rw [List.mem_singleton.1 hr, hnew]
  · show x.1 ≤ table.queryRequestId
    rw [hid]
    obtain hx | hx := List.mem_append.1 hx
    · exact (h.rounds_le x hx).trans (Nat.le_succ _)
    · obtain ⟨r, -, rfl⟩ := Option.map_eq_some_iff.1 (Option.mem_toList.1 hx)
      exact le_rfl
  · have hnewest : ([new].filter fun r ↦ t.queryRounds.lookup r.id = some s.tracker.activeId) =
        (round.map fun _ ↦ new).toList := by
      rw [List.filter_singleton, hlookup]
      cases round with
      | none => rfl
      | some r =>
        rw [hround r rfl]
        simp
    rw [← hnewest]
    show table.requests.filter _ = _
    rw [hrequests, List.filter_append]
    refine congrArg (· ++ _) (List.filter_congr fun r hr ↦ ?_)
    rw [hold r hr]

/-- A call of `loadQueries` has its response. -/
theorem Loading.resume (h : s.Loading) {i : ℕ} {request : QueryRequest}
    (hi : s.table.requests[i]? = some request) :
    let t := { s with table := s.table.resume i }
    t.Loading ∧ s.roundQueries.Perm
      ((s.queryRounds.lookup request.id).toList.map (fun _ ↦ request) ++ t.roundQueries) := by
  intro t
  have hsub : ∀ r ∈ t.table.requests, r ∈ s.table.requests :=
    fun r hr ↦ List.mem_of_mem_eraseIdx hr
  refine ⟨⟨h.loads, fun r hr ↦ h.queries r (hsub r hr), fun r hr ↦ h.requests_le r (hsub r hr),
    h.rounds_le⟩, ?_⟩
  obtain ⟨hlt, hget⟩ := List.getElem?_eq_some_iff.1 hi
  have hperm : s.table.requests.Perm (request :: s.table.requests.eraseIdx i) :=
    hget ▸ (List.getElem_cons_eraseIdx_perm hlt).symm
  have hone : ([request].filter fun r ↦ s.queryRounds.lookup r.id = some s.tracker.activeId) =
      (s.queryRounds.lookup request.id).toList.map fun _ ↦ request := by
    rw [List.filter_singleton]
    cases hlookup : s.queryRounds.lookup request.id with
    | none => rfl
    | some round =>
      rw [h.queries request (List.mem_of_getElem? hi) round hlookup]
      simp
  rw [← hone]
  refine (hperm.filter _).trans ?_
  rw [← List.singleton_append, List.filter_append]
  exact List.Perm.refl _

/-- What is tracked does not depend on the table. -/
theorem Tracked.frame {pending : List Region} {t : Page} (h : s.Tracked pending)
    (htracker : t.tracker = s.tracker) (hdisabled : t.refreshDisabled = s.refreshDisabled)
    (hstatus : t.status = s.status) : t.Tracked pending := by
  refine ⟨?_, ?_, ?_, ?_⟩
  · rw [htracker]
    exact h.regions
  · rw [hdisabled]
    exact h.disabled
  · rw [hstatus, htracker]
    exact h.status
  · rw [htracker]
    exact h.superseded

/-- No call is made and none has its response. -/
theorem Loading.same (h : s.Loading) {table : PageState}
    (hrequests : table.requests = s.table.requests)
    (hid : table.queryRequestId = s.table.queryRequestId) :
    Loading { s with table := table } ∧
      roundQueries { s with table := table } = s.roundQueries := by
  refine ⟨⟨h.loads, ?_, ?_, ?_⟩, ?_⟩
  · rw [hrequests]
    exact h.queries
  · rw [hrequests, hid]
    exact h.requests_le
  · rw [hid]
    exact h.rounds_le
  · rw [roundQueries, roundQueries, hrequests]

/-- An event of the table: it is not of the round. -/
theorem Loading.event (h : s.Loading) {a : PageAction} (ha : a.isEvent = true)
    {table : PageState} (hstep : PageState.machine.step s.table a = some table) :
    Loading { s with table := table } ∧
      roundQueries { s with table := table } = s.roundQueries := by
  obtain ⟨hrequests, hid⟩ | ⟨query, hrequests, hid⟩ := PageState.requests_of_event ha hstep
  · exact h.same hrequests hid
  · have hadd := h.add hrequests rfl hid none (by simp)
    simp only [Option.map_none, Option.toList_none, List.append_nil] at hadd
    exact hadd

/-- Settling concerns the tracker only. -/
theorem Loading.settle (h : s.Loading) (round : ℕ) (name : Region) (result : RegionResult) :
    (s.settle round name result).Loading ∧
      (s.settle round name result).loads = s.loads ∧
      (s.settle round name result).roundQueries = s.roundQueries := by
  obtain ⟨tracker, disabled, status, heq, hid⟩ := s.settle_frame round name result
  rw [heq]
  refine ⟨⟨?_, ?_, h.requests_le, h.rounds_le⟩, rfl, ?_⟩
  · rw [hid]
    exact h.loads
  · rw [hid]
    exact h.queries
  · rw [roundQueries, roundQueries, hid]

/-- How many responses a call may take: two if the page was not corrected yet. -/
def responsesFor (r : QueryRequest) : ℕ := if r.corrected then 1 else 2

/-- How many responses the round may take. -/
def remaining (s : Page) : ℕ := s.loads.length + (s.roundQueries.map responsesFor).sum

theorem responsesFor_pos (r : QueryRequest) : 0 < responsesFor r := by
  rw [responsesFor]
  split <;> decide

theorem pending_ne_nil_iff (s : Page) : s.pending ≠ [] ↔ 0 < s.remaining := by
  rw [pending, remaining]
  cases hloads : s.loads with
  | cons load rest => simp
  | nil =>
    cases hqueries : s.roundQueries with
    | nil => simp
    | cons r rest =>
      have hpos := responsesFor_pos r
      refine iff_of_true (by simp) ?_
      rw [List.map_cons, List.sum_cons]
      omega

/-- What is pending once the response of a call of `loadQueries` is there. -/
theorem pending_of_resumed {queries : List QueryRequest} {round : Option ℕ} {request : QueryRequest}
    (hperm : s.roundQueries.Perm (round.toList.map (fun _ ↦ request) ++ queries)) :
    s.pending.Perm (round.toList.map (fun _ ↦ Region.queries) ++
      (s.loads.map RegionLoad.region ++ queries.map fun _ ↦ .queries)) := by
  have hmap := hperm.map fun _ ↦ Region.queries
  rw [List.map_append, List.map_map] at hmap
  refine (hmap.append_left _).trans ?_
  rw [← List.append_assoc, ← List.append_assoc]
  exact List.Perm.append_right _ List.perm_append_comm

/-- **A response for the query table.** -/
theorem Inv.respondQuery (h : s.Inv) {i : ℕ} {request : QueryRequest}
    (hi : s.table.requests[i]? = some request) (response : QueryResponse) :
    let t := receiveQuery { s with table := s.table.resume i } request response
    t.Inv ∧ (request ∈ s.roundQueries → t.remaining < s.remaining) ∧
      t.remaining ≤ s.remaining := by
  intro t
  obtain ⟨hloading, hperm⟩ := h.loading.resume hi
  have hround : ∀ r, s.queryRounds.lookup request.id = some r → r = s.tracker.activeId :=
    h.loading.queries request (List.mem_of_getElem? hi)
  have htracked := h.tracked.perm (pending_of_resumed hperm)
  have hsum := (hperm.map responsesFor).sum_eq
  rw [List.map_append, List.sum_append] at hsum
  have hmem : request ∈ s.roundQueries → s.queryRounds.lookup request.id ≠ none := by
    intro hin hnone
    have hlookup := of_decide_eq_true (List.mem_filter.1 hin).2
    rw [hnone] at hlookup
    cases hlookup
  obtain ⟨result, hresult, hrequests, hid⟩ | ⟨query, hresult, hfirst, hrequests, hid⟩ :=
    (s.table.resume i).requests_receive request response
  · obtain ⟨hreceived, hqueries⟩ := hloading.same hrequests hid
    cases hlookup : s.queryRounds.lookup request.id with
    | none =>
      have ht : t = { s with table := (s.table.resume i).receive request response } := by
        simp only [t, receiveQuery, hresult, hlookup, Option.elim_none]
      rw [hlookup] at htracked hsum
      rw [ht, remaining, remaining, hqueries, hsum]
      refine ⟨⟨?_, hreceived⟩, fun hin ↦ absurd hlookup (hmem hin), by simp⟩
      rw [pending, hqueries]
      exact htracked.frame rfl rfl rfl
    | some round =>
      have ht : t = settle { s with table := (s.table.resume i).receive request response }
          s.tracker.activeId .queries result := by
        simp only [t, receiveQuery, hresult, hlookup, Option.elim_some, hround round hlookup]
      obtain ⟨hsettled, hloads, hsame⟩ := hreceived.settle s.tracker.activeId .queries result
      rw [hlookup] at htracked hsum
      have hpos := responsesFor_pos request
      have hless : t.remaining < s.remaining := by
        rw [ht, remaining, remaining, hloads, hsame, hqueries, hsum]
        simpa using hpos
      refine ⟨?_, fun _ ↦ hless, hless.le⟩
      rw [ht]
      refine ⟨?_, hsettled⟩
      rw [pending, hloads, hsame, hqueries]
      exact Tracked.settle (htracked.frame rfl rfl rfl) fun _ ↦ rfl
  · obtain ⟨hadded, hqueries⟩ := hloading.add hrequests rfl hid _ hround
    have ht : t = { s with
        table := (s.table.resume i).receive request response
        queryRounds := s.queryRounds ++ ((s.queryRounds.lookup request.id).map fun round ↦
          ((s.table.resume i).queryRequestId + 1, round)).toList } := by
      simp only [t, receiveQuery, hresult]
    -- the corrected call is pending in place of the one that made it, and is not corrected again
    have htwo : responsesFor request = 2 := by
      rw [responsesFor, hfirst]
      rfl
    rw [ht]
    cases hlookup : s.queryRounds.lookup request.id with
    | none =>
      rw [hlookup] at htracked hsum hqueries hadded
      simp only [Option.map_none, Option.toList_none, List.append_nil, List.map_nil,
        List.nil_append, List.sum_nil, Nat.zero_add] at htracked hsum hqueries hadded ⊢
      rw [remaining, remaining, hqueries, hsum]
      refine ⟨⟨?_, hadded⟩, fun hin ↦ absurd hlookup (hmem hin), le_rfl⟩
      rw [pending, hqueries]
      exact htracked.frame rfl rfl rfl
    | some round =>
      rw [hlookup] at htracked hsum hqueries hadded
      simp only [Option.map_some, Option.toList_some, List.map_singleton, List.sum_singleton,
        htwo] at htracked hsum hqueries hadded ⊢
      have hless : remaining { s with
          table := (s.table.resume i).receive request response
          queryRounds := s.queryRounds ++
            [((s.table.resume i).queryRequestId + 1, round)] } < s.remaining := by
        rw [remaining, remaining, hqueries, hsum, List.map_append, List.sum_append]
        show s.loads.length + (_ + 1) < _
        omega
      refine ⟨⟨?_, hadded⟩, fun _ ↦ hless, hless.le⟩
      rw [pending, hqueries, List.map_append, List.map_singleton, ← List.append_assoc]
      exact (htracked.perm (List.perm_append_singleton _ _).symm).frame rfl rfl rfl

/-- **A response for another region.** Nothing supersedes its load. -/
theorem Inv.respond (h : s.Inv) {j : ℕ} {load : RegionLoad} (hj : s.loads[j]? = some load)
    (failed : Bool) :
    let t := receive { s with loads := s.loads.eraseIdx j } load failed
    t.Inv ∧ t.remaining < s.remaining := by
  intro t
  obtain ⟨hlt, hget⟩ := List.getElem?_eq_some_iff.1 hj
  obtain ⟨hround, hregion, hcurrent⟩ := h.loading.loads load (List.mem_of_getElem? hj)
  have hperm : s.loads.Perm (load :: s.loads.eraseIdx j) :=
    hget ▸ (List.getElem_cons_eraseIdx_perm hlt).symm
  let r : Page := { s with
    loads := s.loads.eraseIdx j
    controllers := Function.update s.controllers load.region none }
  have ht : t = r.settle s.tracker.activeId load.region
      (classifyRegionResult false true failed) := by
    simp only [t, receive, hcurrent, hround, decide_true, if_true]
    rfl
  have hpending : s.pending.Perm (load.region :: r.pending) := (hperm.map _).append_right _
  have htracked := h.tracked.perm hpending
  have hnodup : (load.region :: r.pending).Nodup :=
    ((htracked.regions.nodup_iff.2 (by decide)).sublist (List.sublist_append_right _ _))
  -- the other loads are for other regions
  have hloading : r.Loading := by
    refine ⟨fun l hl ↦ ?_, h.loading.queries, h.loading.requests_le, h.loading.rounds_le⟩
    obtain ⟨hlround, hlregion, hlcurrent⟩ := h.loading.loads l (List.mem_of_mem_eraseIdx hl)
    have hne : l.region ≠ load.region := fun heq ↦
      (List.nodup_cons.1 hnodup).1 (heq ▸ List.mem_append_left _ (List.mem_map_of_mem hl))
    exact ⟨hlround, hlregion, (Function.update_of_ne hne _ _).trans hlcurrent⟩
  obtain ⟨hsettled, hloads, hqueries⟩ :=
    hloading.settle s.tracker.activeId load.region (classifyRegionResult false true failed)
  refine ⟨?_, ?_⟩
  · rw [ht]
    refine ⟨?_, hsettled⟩
    rw [pending, hloads, hqueries]
    refine Tracked.settle (htracked.frame rfl rfl rfl) fun hresult ↦ ?_
    cases failed <;> cases hresult
  · rw [ht, remaining, remaining, hloads, hqueries, hperm.length_eq]
    exact Nat.add_lt_add_right (Nat.lt_succ_self _) _

/-- **A round begins** when none is under way. -/
theorem Loading.refreshAll (h : s.Loading) (hnone : s.pending = []) :
    s.refreshAll.Inv ∧ s.refreshAll.remaining = 7 := by
  obtain ⟨hloads, hqueries⟩ := List.append_eq_nil_iff.1 hnone
  rw [List.map_eq_nil_iff] at hloads hqueries
  -- no call of the table belongs to a round
  have hlookup : ∀ r ∈ s.table.requests, s.queryRounds.lookup r.id = none := by
    intro r hr
    cases hround : s.queryRounds.lookup r.id with
    | none => rfl
    | some round =>
      have hin : r ∈ s.roundQueries := by
        refine List.mem_filter.2 ⟨hr, decide_eq_true ?_⟩
        rw [hround, h.queries r hr round hround]
      rw [hqueries] at hin
      cases hin
  let b : Page := { s with
    tracker := s.tracker.begin, refreshDisabled := true, status := .updating }
  let u : Page := ((((b.loadRegion .trend).loadRegion .upstreams).loadRegion .response).loadRegion
    .cache).loadRegion .rankings
  have huloads : u.loads = [⟨s.loadId + 1, .trend, s.tracker.activeId + 1⟩,
      ⟨s.loadId + 2, .upstreams, s.tracker.activeId + 1⟩,
      ⟨s.loadId + 3, .response, s.tracker.activeId + 1⟩,
      ⟨s.loadId + 4, .cache, s.tracker.activeId + 1⟩,
      ⟨s.loadId + 5, .rankings, s.tracker.activeId + 1⟩] := by
    simp [u, b, loadRegion, RoundTracker.begin, hloads]
  have huqueries : u.roundQueries = [] := by
    refine List.filter_eq_nil_iff.2 fun r hr ↦ ?_
    rw [show u.queryRounds.lookup r.id = none from hlookup r hr]
    simp
  have hloading : u.Loading := by
    refine ⟨fun load hload ↦ ?_, fun r hr round hround ↦ ?_, h.requests_le, h.rounds_le⟩
    · rw [huloads] at hload
      simp only [List.mem_cons, List.not_mem_nil, or_false] at hload
      obtain rfl | rfl | rfl | rfl | rfl := hload <;>
        simp [u, b, loadRegion, RoundTracker.begin, Function.update]
    · rw [show u.queryRounds.lookup r.id = none from hlookup r hr] at hround
      cases hround
  have hrequests : (u.table.loadQueries false).requests = u.table.requests ++
      [⟨u.table.queryRequestId + 1, u.table.query, false⟩] := rfl
  obtain ⟨hadded, hround⟩ := hloading.add hrequests rfl rfl (some (s.tracker.activeId + 1))
    fun r hr ↦ (Option.some.inj hr).symm
  rw [huqueries] at hround
  have heq : s.refreshAll = { u with
      table := u.table.loadQueries false
      queryRounds := u.queryRounds ++ ((some (s.tracker.activeId + 1)).map fun r ↦
        (u.table.queryRequestId + 1, r)).toList } := rfl
  have hall : pending { u with
      table := u.table.loadQueries false
      queryRounds := u.queryRounds ++ ((some (s.tracker.activeId + 1)).map fun r ↦
        (u.table.queryRequestId + 1, r)).toList } =
      [.trend, .upstreams, .response, .cache, .rankings, .queries] := by
    rw [pending, hround]
    show u.loads.map _ ++ [Region.queries] = _
    rw [huloads]
    rfl
  rw [heq]
  refine ⟨⟨?_, hadded⟩, ?_⟩
  · rw [hall]
    have hsix : [Region.trend, .upstreams, .response, .cache, .rankings, .queries].Perm
        regionNames := by decide
    exact ⟨hsix, iff_of_true rfl (List.cons_ne_nil _ _), rfl, fun x hx ↦ by cases hx⟩
  · rw [remaining, hround]
    show u.loads.length + 2 = 7
    rw [huloads]
    rfl

theorem inv_start : start.Inv :=
  (Loading.refreshAll (s := ⟨⟨1, 10, [], false, none, 1, 0, none, [], none⟩, [], fun _ ↦ none, [],
    0, ⟨0, []⟩, false, .updated⟩) ⟨by simp, by simp, by simp, by simp⟩ rfl).1

/-- No load is under way when the button can be clicked. -/
theorem Inv.pending_eq_nil (h : s.Inv) (henabled : s.refreshDisabled ≠ true) : s.pending = [] := by
  by_contra hne
  exact henabled (h.tracked.disabled.2 hne)

/-- **One step** keeps the round in order, and only a click makes it longer. -/
theorem Inv.step {t : Page} {a : DashboardAction} (h : s.Inv) (hstep : machine.step s a = some t) :
    t.Inv ∧ ((a = .refresh ∧ t.remaining = 7) ∨ t.remaining ≤ s.remaining) := by
  cases a with
  | event action =>
    simp only [machine] at hstep
    split at hstep
    · rename_i hevent
      obtain ⟨table, htable, rfl⟩ := Option.map_eq_some_iff.1 hstep
      obtain ⟨hloading, hqueries⟩ := h.loading.event hevent htable
      refine ⟨⟨?_, hloading⟩, Or.inr ?_⟩
      · rw [pending, hqueries]
        exact h.tracked.frame rfl rfl rfl
      · rw [remaining, hqueries]
        exact le_rfl
    · cases hstep
  | refresh =>
    simp only [machine] at hstep
    split at hstep
    · cases hstep
    · rename_i henabled
      cases hstep
      obtain ⟨hinv, hseven⟩ := h.loading.refreshAll (h.pending_eq_nil henabled)
      exact ⟨hinv, Or.inl ⟨rfl, hseven⟩⟩
  | respond j failed =>
    obtain ⟨load, hj, rfl⟩ := Option.map_eq_some_iff.1 hstep
    obtain ⟨hinv, hless⟩ := h.respond hj failed
    exact ⟨hinv, Or.inr hless.le⟩
  | respondQuery i response =>
    obtain ⟨request, hi, rfl⟩ := Option.map_eq_some_iff.1 hstep
    obtain ⟨hinv, -, hle⟩ := h.respondQuery hi response
    exact ⟨hinv, Or.inr hle⟩

theorem settle_table (s : Page) (round : ℕ) (name : Region) (result : RegionResult) :
    (s.settle round name result).table = s.table := by
  obtain ⟨tracker, disabled, status, heq, -⟩ := s.settle_frame round name result
  rw [heq]

theorem receive_table (s : Page) (load : RegionLoad) (failed : Bool) :
    (s.receive load failed).table = s.table := by
  rw [receive, settle_table]
  split <;> rfl

theorem receiveQuery_table (s : Page) (request : QueryRequest) (response : QueryResponse) :
    (s.receiveQuery request response).table = s.table.receive request response := by
  rw [receiveQuery.eq_def]
  cases s.table.queryResult request response with
  | none => rfl
  | some result =>
    cases s.queryRounds.lookup request.id with
    | none => rfl
    | some round => exact settle_table _ _ _ _

/-- The table of the page moves as a table does. -/
theorem projects_table :
    machine.Projects PageState.machine Page.table fun _ ↦ True := by
  intro s a t _ hstep
  refine ⟨trivial, ?_⟩
  have hone : ∀ {b table}, PageState.machine.step s.table b = some table →
      ∃ bs, PageState.machine.run s.table bs = some table :=
    fun hb ↦ ⟨[_], PageState.machine.run_cons_eq_some.2 ⟨_, hb, rfl⟩⟩
  cases a with
  | event action =>
    simp only [machine] at hstep
    split at hstep
    · obtain ⟨table, htable, rfl⟩ := Option.map_eq_some_iff.1 hstep
      exact hone htable
    · cases hstep
  | refresh =>
    simp only [machine] at hstep
    split at hstep
    · cases hstep
    · cases hstep
      exact hone (b := .refresh) rfl
  | respond j failed =>
    obtain ⟨load, hj, rfl⟩ := Option.map_eq_some_iff.1 hstep
    rw [receive_table]
    exact ⟨[], rfl⟩
  | respondQuery i response =>
    obtain ⟨request, hi, rfl⟩ := Option.map_eq_some_iff.1 hstep
    rw [receiveQuery_table]
    refine hone (b := .respond i response) ?_
    show s.table.requests[i]?.map _ = _
    rw [hi]
    rfl

/-- Of the results of a round that has ended, each region has one. -/
theorem Tracked.exists_result (h : s.Tracked []) (region : Region) :
    ∃ result, (region, result) ∈ s.tracker.results := by
  have hmem : region ∈ s.tracker.results.map Prod.fst := by
    have hall : region ∈ regionNames := by
      cases region <;> decide
    have hperm := h.regions
    rw [List.append_nil] at hperm
    exact hperm.mem_iff.2 hall
  obtain ⟨x, hx, rfl⟩ := List.mem_map.1 hmem
  exact ⟨x.2, hx⟩

theorem Tracked.result_eq (h : s.Tracked []) {region : Region} {result result' : RegionResult}
    (hmem : (region, result) ∈ s.tracker.results)
    (hmem' : (region, result') ∈ s.tracker.results) : result = result' := by
  have hnodup : (s.tracker.results.map Prod.fst).Nodup := by
    have hperm := h.regions
    rw [List.append_nil] at hperm
    exact hperm.nodup_iff.2 (by decide)
  exact (Prod.mk.inj (List.inj_on_of_nodup_map hnodup hmem hmem' rfl)).2

/-- What the page says after a round. -/
structure Reports (s : Page) : Prop where
  updated : s.status = .updated ↔ ∀ region, (region, RegionResult.success) ∈ s.tracker.results
  failed : ∀ n, s.status = .failed n →
    0 < n ∧ n = s.tracker.results.countP fun x ↦ x.2 = .failure
  superseded : s.status = .superseded → (.queries, .superseded) ∈ s.tracker.results ∧
    ∀ region, region ≠ .queries → (region, RegionResult.success) ∈ s.tracker.results
  ended : s.status ≠ .updating

theorem Tracked.reports (h : s.Tracked []) : s.Reports := by
  have hstatus := h.status
  rw [if_pos rfl, summary] at hstatus
  have hall : (∀ x ∈ s.tracker.results, x.2 = .success) ↔
      ∀ region, (region, RegionResult.success) ∈ s.tracker.results := by
    constructor
    · intro hsuccess region
      obtain ⟨result, hmem⟩ := h.exists_result region
      exact hsuccess _ hmem ▸ hmem
    · exact fun hregions x hx ↦ h.result_eq hx (hregions x.1)
  by_cases hsuccess : ∀ x ∈ s.tracker.results, x.2 = .success
  · rw [if_pos hsuccess] at hstatus
    refine ⟨iff_of_true hstatus (hall.1 hsuccess), fun n hn ↦ ?_, fun hs ↦ ?_, fun hs ↦ ?_⟩
    · rw [hstatus] at hn
      cases hn
    · rw [hstatus] at hs
      cases hs
    · rw [hstatus] at hs
      cases hs
  · rw [if_neg hsuccess] at hstatus
    by_cases hfailed : (s.tracker.results.countP fun x ↦ x.2 = .failure) ≠ 0
    · rw [if_pos hfailed] at hstatus
      refine ⟨iff_of_false (fun hs ↦ ?_) (mt hall.2 hsuccess), fun n hn ↦ ?_, fun hs ↦ ?_,
        fun hs ↦ ?_⟩
      · rw [hstatus] at hs
        cases hs
      · rw [hstatus, RefreshStatus.failed.injEq] at hn
        exact ⟨hn ▸ Nat.pos_of_ne_zero hfailed, hn.symm⟩
      · rw [hstatus] at hs
        cases hs
      · rw [hstatus] at hs
        cases hs
    · rw [if_neg hfailed] at hstatus
      refine ⟨iff_of_false (fun hs ↦ ?_) (mt hall.2 hsuccess), fun n hn ↦ ?_, fun _ ↦ ?_,
        fun hs ↦ ?_⟩
      · rw [hstatus] at hs
        cases hs
      · rw [hstatus] at hn
        cases hn
      · -- nothing has failed, and only the queries can be superseded
        have hnot : ∀ x ∈ s.tracker.results, x.2 ≠ .failure := fun x hx hx' ↦
          List.countP_eq_zero.1 (not_not.1 hfailed) x hx (decide_eq_true hx')
        have hothers : ∀ region, region ≠ .queries →
            (region, RegionResult.success) ∈ s.tracker.results := by
          intro region hregion
          obtain ⟨result, hmem⟩ := h.exists_result region
          cases result with
          | success => exact hmem
          | failure => exact absurd rfl (hnot _ hmem)
          | superseded => exact absurd (h.superseded _ hmem rfl) hregion
        refine ⟨?_, hothers⟩
        obtain ⟨result, hmem⟩ := h.exists_result .queries
        cases result with
        | success =>
          refine absurd (fun region ↦ ?_) (mt hall.2 hsuccess)
          by_cases hregion : region = .queries
          · exact hregion ▸ hmem
          · exact hothers region hregion
        | failure => exact absurd rfl (hnot _ hmem)
        | superseded => exact hmem
      · rw [hstatus] at hs
        cases hs

/-- **Every refresh settles.** In every run of the page, whatever is clicked, searched and answered
in which order:

* the button is disabled as long as a load of the round is under way, and the page says that it is
  updating; each of the six regions has one load under way or one result, never two;
* a round takes seven responses at most, and each of them brings its end nearer;
* when it has ended, the page says that all regions are updated exactly if each of them has rendered
  what was loaded in the round; if some failed, it says how many; and if it says that something was
  superseded, that is the query table, and the other regions are updated.

The table itself moves as it does alone. -/
theorem refreshes_settle (as : List DashboardAction) (s : Page)
    (hrun : machine.run start as = some s) :
    (s.refreshDisabled = true ↔ s.pending ≠ []) ∧
    (s.refreshDisabled = true → s.status = .updating) ∧
    (s.tracker.results.map Prod.fst ++ s.pending).Perm regionNames ∧
    (s.remaining ≤ 7 ∧ (s.refreshDisabled = true ↔ 0 < s.remaining) ∧
      (∀ j failed t, machine.step s (.respond j failed) = some t → t.remaining < s.remaining) ∧
      ∀ i response request t, s.table.requests[i]? = some request → request ∈ s.roundQueries →
        machine.step s (.respondQuery i response) = some t → t.remaining < s.remaining) ∧
    (s.refreshDisabled = false → s.Reports) ∧
    ∃ bs, PageState.machine.run PageState.start bs = some s.table := by
  obtain ⟨h, hseven⟩ := Machine.run_invariant (I := fun s ↦ s.Inv ∧ s.remaining ≤ 7)
    (fun _ _ _ h hstep ↦ by
      obtain ⟨hinv, ⟨-, hseven⟩ | hle⟩ := h.1.step hstep
      · exact ⟨hinv, hseven.le⟩
      · exact ⟨hinv, hle.trans h.2⟩) hrun ⟨inv_start, by decide⟩
  refine ⟨h.tracked.disabled, fun hdisabled ↦ ?_, h.tracked.regions, ⟨hseven,
    h.tracked.disabled.trans s.pending_ne_nil_iff, fun j failed t hstep ↦ ?_,
    fun i response request t hi hin hstep ↦ ?_⟩, fun henabled ↦ ?_,
    projects_table.run trivial hrun⟩
  · rw [h.tracked.status, if_neg (h.tracked.disabled.1 hdisabled)]
  · obtain ⟨load, hj, rfl⟩ := Option.map_eq_some_iff.1 hstep
    exact (h.respond hj failed).2
  · obtain ⟨request', hi', rfl⟩ := Option.map_eq_some_iff.1 hstep
    cases Option.some.inj (hi.symm.trans hi')
    exact (h.respondQuery hi response).2.1 hin
  · have hnil := h.pending_eq_nil (by rw [henabled]; exact Bool.false_ne_true)
    exact (hnil ▸ h.tracked).reports

/-- The first refresh, with a search in between: five regions are updated, the query table was
superseded. -/
theorem refreshes_settle_superseded :
    let as : List DashboardAction := [.event (.search "a".toList), .respondQuery 0 .failure,
      .respond 0 false, .respond 0 false, .respond 0 false, .respond 0 false, .respond 0 false]
    ∃ s, machine.run start as = some s ∧ s.refreshDisabled = false ∧ s.status = .superseded ∧
      (.queries, .superseded) ∈ s.tracker.results ∧
      ∀ region, region ≠ .queries → (region, RegionResult.success) ∈ s.tracker.results := by
  intro as
  have hrun : (machine.run start as).any fun s ↦
      s.refreshDisabled = false ∧ s.status = .superseded := by
    decide +kernel
  obtain ⟨s, hs, hprop⟩ := (Option.any_eq_true _ _).1 hrun
  obtain ⟨henabled, hstatus⟩ := of_decide_eq_true hprop
  obtain ⟨-, -, -, -, hreports, -⟩ := refreshes_settle as s hs
  exact ⟨s, hs, henabled, hstatus, (hreports henabled).superseded hstatus⟩

end Steps

end Page

end DnsBuffer
