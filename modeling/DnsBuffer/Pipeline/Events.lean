import DnsBuffer.Pipeline.Provenance
import Mathlib.Data.List.Perm.Basic
import Mathlib.Data.List.Sort

/-!
# Events and counters

Every call of `handle` with a question emits one event when it replies, and every call that gets
past hosts and filter consults the cache once. So the log of events, the counters of the cache and
the calls themselves tell the same story, in whatever order the calls complete and whatever
refreshes run beside them.

The log is in order of completion and the list of calls in order of arrival, so the events are
matched with the calls up to a permutation (`Books.emitted`). What an event says about its call is
`HandleTask.Emits`; what follows for its flags and addresses is `Describes`.
-/

namespace DnsBuffer

/-- The content of a block response: `NoError`, an address record, and no address record with
another address than the unspecified one. -/
structure BlockShaped (response : Message) : Prop where
  code : response.metadata.responseCode = .noError
  exists_address : ∃ r ∈ response.answers, ∃ a, r.data.address? = some a
  unspecified : ∀ r ∈ response.answers, ∀ a, r.data.address? = some a → a.isUnspecified

theorem isBlockedResponse_iff (response : Message) :
    isBlockedResponse response ↔ BlockShaped response := by
  rw [isBlockedResponse, Bool.and_eq_true, Bool.and_eq_true, beq_iff_eq, List.all_eq_true,
    decide_eq_true_eq, List.length_pos_iff_exists_mem]
  simp only [List.mem_filterMap]
  constructor
  · rintro ⟨⟨hcode, hall⟩, a, r, hr, ha⟩
    exact ⟨hcode, ⟨r, hr, a, ha⟩, fun r hr a ha ↦ hall a ⟨r, hr, ha⟩⟩
  · rintro ⟨hcode, ⟨r, hr, a, ha⟩, hall⟩
    exact ⟨⟨hcode, fun a ⟨r, hr, ha⟩ ↦ hall r hr a ha⟩, a, r, hr, ha⟩

/-- What is reported of an answer, by its source. -/
inductive Reported : AnswerSource → Message → QueryOutcome → Prop
  | hosts (response : Message) : Reported .hosts response ⟨false, false, none⟩
  | filter (response : Message) : Reported .filter response ⟨true, false, none⟩
  | cache (response : Message) : Reported .cache response ⟨isBlockedResponse response, true, none⟩
  | upstream (response : Message) (name : Option Text) :
      Reported .upstream response ⟨isBlockedResponse response, false, name⟩
  | failure (response : Message) :
      Reported .failure response ⟨isBlockedResponse response, false, none⟩

namespace HandleTask

/-- Where the reply to a call came from. -/
def source? (task : HandleTask) : Option AnswerSource :=
  match task.phase with
  | .replied _ source => some source
  | _ => none

/-- The call has a question and has been replied to. -/
def isRecorded (task : HandleTask) : Bool :=
  match task.phase with
  | .replied _ _ => task.call.query.queries ≠ []
  | _ => false

/-- The call has consulted the cache. -/
def isLookup (task : HandleTask) : Bool :=
  match task.phase with
  | .awaiting => true
  | .replied _ source => source = .cache ∨ source = .upstream ∨ source = .failure
  | _ => false

/-- The call was answered from the cache. -/
def isHit (task : HandleTask) : Bool :=
  match task.phase with
  | .replied _ source => source = .cache
  | _ => false

/-- Who gets past screening has a question, and only who has none is told so. -/
def Asked (task : HandleTask) : Prop :=
  match task.phase with
  | .received => True
  | .screened => task.call.query.queries ≠ []
  | .awaiting => task.call.query.queries ≠ []
  | .replied _ source => source = .noQuestion ↔ task.call.query.queries = []

/-- The event is the one the call emits with its reply. -/
def Emits [Lowercase] [Display] (task : HandleTask) (e : QueryEvent) : Prop :=
  ∃ response source outcome now, task.phase = .replied response source ∧
    Reported source response outcome ∧ recordQuery task.call now response outcome = some e

end HandleTask

/-- **What an event says** about a reply and where it came from. -/
structure Describes [Display] (response : Message) (source : AnswerSource) (e : QueryEvent) :
    Prop where
  cacheHit : e.cacheHit ↔ source = .cache
  upstream : e.cacheHit ∨ source = .hosts ∨ source = .filter → e.upstream = none
  blocked : e.blocked ↔ source = .filter ∨ (source ≠ .hosts ∧ BlockShaped response)
  ips_ascending : e.responseIps.Pairwise (· < ·)
  ips : ∀ text, text ∈ e.responseIps ↔
    ∃ r ∈ response.answers, ∃ a, r.data.address? = some a ∧ Display.ipAddr a = text

section Described

variable [Lowercase] [Display]

omit [Lowercase] [Display] in
/-- Sorting and dropping repetitions leaves a strictly ascending list of the same texts. -/
theorem sorted_dedup_spec (texts : List Text) :
    let ips := (texts.mergeSort fun a b ↦ decide (a ≤ b)).destutter (· ≠ ·)
    ips.Pairwise (· < ·) ∧ ∀ text, text ∈ ips ↔ text ∈ texts := by
  intro ips
  have hsorted : (texts.mergeSort fun a b ↦ decide (a ≤ b)).Pairwise (· ≤ ·) :=
    List.pairwise_mergeSort' (· ≤ ·) texts
  have hdedup : ips = (texts.mergeSort fun a b ↦ decide (a ≤ b)).dedup := hsorted.destutter_eq_dedup
  constructor
  · rw [hdedup]
    exact ((hsorted.sublist (List.dedup_sublist _)).and (List.nodup_dedup _)).imp
      fun h ↦ lt_of_le_of_ne h.1 h.2
  · intro text
    rw [hdedup, List.mem_dedup, List.mem_mergeSort]

/-- **What the emitted event says.** -/
theorem HandleTask.Emits.describes {task : HandleTask} {e : QueryEvent} (h : task.Emits e) :
    ∃ response source, task.phase = .replied response source ∧ Describes response source e := by
  obtain ⟨response, source, outcome, now, hphase, hreported, he⟩ := h
  obtain ⟨q, -, rfl⟩ := Option.map_eq_some_iff.1 he
  refine ⟨response, source, hphase, ?_⟩
  obtain ⟨hascending, hmem⟩ := sorted_dedup_spec
    (response.answers.filterMap fun r ↦ r.data.address?.map Display.ipAddr)
  have hips : ∀ text, text ∈ (response.answers.filterMap fun r ↦
      r.data.address?.map Display.ipAddr) ↔
        ∃ r ∈ response.answers, ∃ a, r.data.address? = some a ∧ Display.ipAddr a = text := by
    intro text
    simp only [List.mem_filterMap, Option.map_eq_some_iff]
  refine ⟨?_, ?_, ?_, hascending, fun text ↦ (hmem text).trans (hips text)⟩
  · cases hreported <;> simp
  · cases hreported <;> simp
  · cases hreported <;> simp [isBlockedResponse_iff]

/-! ### The books -/

/-- The log of events matches the calls that were replied to, and the counters of the cache those
that consulted it. -/
structure Books (handles : List HandleTask) (events : List QueryEvent) (lookups hits : ℕ) :
    Prop where
  asked : ∀ task ∈ handles, task.Asked
  emitted : ∃ pairs : List (HandleTask × QueryEvent), pairs.map Prod.snd = events ∧
    (pairs.map Prod.fst).Perm (handles.filter HandleTask.isRecorded) ∧ ∀ x ∈ pairs, x.1.Emits x.2
  lookups : lookups = handles.countP HandleTask.isLookup
  hits : hits = handles.countP HandleTask.isHit

variable {handles : List HandleTask} {events : List QueryEvent} {lookups hits : ℕ} {i : ℕ}
  {old new : HandleTask}

omit [Lowercase] [Display] in
/-- Replacing one call, up to order. -/
theorem exists_perm_set (hi : handles[i]? = some old) (new : HandleTask) :
    ∃ rest, handles.Perm (old :: rest) ∧ (handles.set i new).Perm (new :: rest) := by
  obtain ⟨hlt, rfl⟩ := List.getElem?_eq_some_iff.1 hi
  exact ⟨handles.eraseIdx i, (List.getElem_cons_eraseIdx_perm hlt).symm,
    List.set_perm_cons_eraseIdx hlt new⟩

/-- A call that has not been replied to takes a step: it may emit an event, and it may move the
counters. -/
theorem Books.set (h : Books handles events lookups hits) (hi : handles[i]? = some old)
    (hold : old.isRecorded = false) (hasked : new.Asked) {more : List QueryEvent}
    (hmore : if new.isRecorded then ∃ e, more = [e] ∧ new.Emits e else more = [])
    {lookups' hits' : ℕ} (hlookups : lookups' + old.isLookup.toNat = lookups + new.isLookup.toNat)
    (hhits : hits' + old.isHit.toNat = hits + new.isHit.toNat) :
    Books (handles.set i new) (events ++ more) lookups' hits' := by
  obtain ⟨rest, hbefore, hafter⟩ := exists_perm_set hi new
  obtain ⟨pairs, hevents, hperm, hemits⟩ := h.emitted
  have hcount : ∀ (p : HandleTask → Bool) {n n' : ℕ}, n = handles.countP p →
      n' + (p old).toNat = n + (p new).toNat → n' = (handles.set i new).countP p := by
    intro p n n' hn hstep
    have hite : ∀ b : Bool, (if b then 1 else 0) = b.toNat := by decide
    rw [hbefore.countP_eq, List.countP_cons, hite] at hn
    rw [hafter.countP_eq, List.countP_cons, hite]
    omega
  have hfilter : (handles.filter HandleTask.isRecorded).Perm
      (rest.filter HandleTask.isRecorded) := by
    simpa [hold] using hbefore.filter HandleTask.isRecorded
  refine ⟨Tasks.forall_set h.asked hasked, ?_, hcount _ h.lookups hlookups,
    hcount _ h.hits hhits⟩
  rcases hnew : new.isRecorded with - | -
  · rw [hnew, if_neg (by simp)] at hmore
    refine ⟨pairs, by rw [hmore, hevents, List.append_nil], ?_, hemits⟩
    have hsame := hafter.filter HandleTask.isRecorded
    rw [List.filter_cons_of_neg (by simp [hnew])] at hsame
    exact (hperm.trans hfilter).trans hsame.symm
  · rw [hnew, if_pos rfl] at hmore
    obtain ⟨e, rfl, he⟩ := hmore
    refine ⟨pairs ++ [(new, e)], by rw [List.map_append, hevents]; rfl, ?_, ?_⟩
    · have hone := hafter.filter HandleTask.isRecorded
      rw [List.filter_cons_of_pos hnew] at hone
      rw [List.map_append]
      refine (List.perm_append_comm.trans ?_).trans hone.symm
      exact (hperm.trans hfilter).cons new
    · rw [List.forall_mem_append, List.forall_mem_singleton]
      exact ⟨hemits, he⟩

/-- A call with a question replies, and emits the event of its reply. -/
theorem recorded_reply {call : ClientCall} {now : Instant}
    {answer : Message × AnswerSource × QueryOutcome} (hquestion : call.query.queries ≠ [])
    (hreported : Reported answer.2.1 answer.1 answer.2.2) :
    ∃ e, (recordQuery call now answer.1 answer.2.2).toList = [e] ∧
      HandleTask.Emits ⟨call, .replied answer.1 answer.2.1⟩ e := by
  obtain ⟨q, rest, hq⟩ := List.exists_cons_of_ne_nil hquestion
  obtain ⟨e, he⟩ : ∃ e, recordQuery call now answer.1 answer.2.2 = some e := by
    rw [recordQuery, hq]
    exact ⟨_, rfl⟩
  exact ⟨e, by rw [he, Option.toList_some], answer.1, answer.2.1, answer.2.2, now, rfl, hreported,
    he⟩

/-- **A reply to a call with a question keeps the books.** -/
theorem Books.reply {call : ClientCall} {phase : Phase} (h : Books handles events lookups hits)
    (hi : handles[i]? = some ⟨call, phase⟩) (hphase : ∀ r source, phase ≠ .replied r source)
    (hquestion : call.query.queries ≠ []) {answer : Message × AnswerSource × QueryOutcome}
    (hreported : Reported answer.2.1 answer.1 answer.2.2) (now : Instant) {lookups' hits' : ℕ}
    (hlookups : lookups' + (HandleTask.isLookup ⟨call, phase⟩).toNat =
      lookups + (HandleTask.isLookup ⟨call, .replied answer.1 answer.2.1⟩).toNat)
    (hhits : hits' = hits + (HandleTask.isHit ⟨call, .replied answer.1 answer.2.1⟩).toNat) :
    Books (handles.set i ⟨call, .replied answer.1 answer.2.1⟩)
      (events ++ (recordQuery call now answer.1 answer.2.2).toList) lookups' hits' := by
  have hnoQuestion : answer.2.1 ≠ .noQuestion := by
    intro heq
    rw [heq] at hreported
    exact nomatch hreported
  have hrecorded : HandleTask.isRecorded ⟨call, .replied answer.1 answer.2.1⟩ = true :=
    decide_eq_true hquestion
  have hasked : HandleTask.Asked ⟨call, .replied answer.1 answer.2.1⟩ :=
    iff_of_false hnoQuestion hquestion
  refine h.set hi ?_ hasked ?_ hlookups ?_
  · rcases phase with - | - | - | ⟨r, source⟩
    case replied => exact absurd rfl (hphase r source)
    all_goals rfl
  · rw [if_pos hrecorded]
    exact recorded_reply hquestion hreported
  · rw [hhits]
    rcases phase with - | - | - | ⟨r, source⟩
    case replied => exact absurd rfl (hphase r source)
    all_goals rfl

/-- The hits are the events that say so. -/
theorem Books.hits_eq (h : Books handles events lookups hits) :
    hits = events.countP QueryEvent.cacheHit := by
  obtain ⟨pairs, hevents, hperm, hemits⟩ := h.emitted
  have hpair : ∀ x ∈ pairs, x.2.cacheHit = true ↔ x.1.isHit = true := by
    intro x hx
    obtain ⟨response, source, hphase, hdescribes⟩ := (hemits x hx).describes
    rw [hdescribes.cacheHit, HandleTask.isHit, hphase, decide_eq_true_eq]
  have hrecorded : ∀ task ∈ handles,
      task.isHit = true ↔ (task.isHit && task.isRecorded) = true := by
    intro task htask
    rw [Bool.and_eq_true]
    refine ⟨fun hhit ↦ ⟨hhit, ?_⟩, And.left⟩
    -- only a call with a question is answered from the cache
    obtain ⟨call, - | - | - | ⟨response, source⟩⟩ := task
    case replied =>
      have hasked : source = .noQuestion ↔ call.query.queries = [] := h.asked _ htask
      have hcache : source = .cache := of_decide_eq_true hhit
      exact decide_eq_true fun hnone ↦ absurd (hcache.symm.trans (hasked.2 hnone)) (by simp)
    all_goals exact absurd hhit (by simp [HandleTask.isHit])
  calc hits = handles.countP HandleTask.isHit := h.hits
    _ = handles.countP fun task ↦ task.isHit && task.isRecorded := List.countP_congr hrecorded
    _ = (handles.filter HandleTask.isRecorded).countP HandleTask.isHit :=
      List.countP_filter.symm
    _ = (pairs.map Prod.fst).countP HandleTask.isHit := (hperm.countP_eq _).symm
    _ = pairs.countP fun x ↦ x.1.isHit := List.countP_map
    _ = pairs.countP fun x ↦ x.2.cacheHit := (List.countP_congr hpair).symm
    _ = events.countP QueryEvent.cacheHit := by rw [← hevents, List.countP_map]; rfl

namespace Pipeline

omit [Display] in
/-- The counters of the cache after the cache step of a call with a question. -/
theorem consult_counters (now : Instant) (cache : Cache) {query : Message}
    (hquestion : query.queries ≠ []) :
    (consult now cache query).2.lookups = cache.lookups + 1 ∧
      (consult now cache query).2.hits = cache.hits + (consult now cache query).1.isSome.toNat := by
  obtain ⟨q, rest, hq⟩ := List.exists_cons_of_ne_nil hquestion
  have hkey : CacheKey.fromQuery query = some ⟨normalize q.name.text, q.queryType.code⟩ := by
    rw [CacheKey.fromQuery, hq]
    rfl
  simp only [consult, hkey]
  exact cache.get_counters now _ _

omit [Display] in
/-- The answer of screening: a call without a question is told so, and of the others hosts or the
filter is reported. -/
theorem screen_reported {p : Pipeline} {filter : Filter} {query : Message}
    {answer : Message × AnswerSource × QueryOutcome} (h : p.screen filter query = some answer) :
    (query.queries = [] ∧ answer.2.1 = .noQuestion) ∨
      (query.queries ≠ [] ∧ (answer.2.1 = .hosts ∨ answer.2.1 = .filter) ∧
        Reported answer.2.1 answer.1 answer.2.2) := by
  rcases hq : query.queries with - | ⟨q, rest⟩
  · simp only [screen, hq, List.head?_nil, Option.some.injEq] at h
    exact Or.inl ⟨rfl, by rw [← h]⟩
  · have hhead : query.queries.head? = some q := by rw [hq, List.head?_cons]
    refine Or.inr ⟨by simp, ?_⟩
    rcases hhosts : p.hosts.lookup query with - | response
    · rw [screen_of_not_hosts hhead hhosts, Option.ite_none_right_eq_some, Option.some.injEq] at h
      rw [← h.2]
      exact ⟨Or.inr rfl, .filter _⟩
    · rw [screen_of_hosts hhead hhosts, Option.some.injEq] at h
      rw [← h]
      exact ⟨Or.inl rfl, .hosts _⟩

omit [Lowercase] [Display] in
/-- The answer after a wait. -/
theorem upstreamReply_reported (query : Message) (outcome : UpstreamOutcome) :
    ((upstreamReply query outcome).2.1 = .upstream ∨ (upstreamReply query outcome).2.1 = .failure) ∧
      Reported (upstreamReply query outcome).2.1 (upstreamReply query outcome).1
        (upstreamReply query outcome).2.2 := by
  rcases outcome with ⟨response, upstream⟩ | - | -
  · exact ⟨Or.inl rfl, .upstream _ _⟩
  · exact ⟨Or.inr rfl, .failure _⟩
  · exact ⟨Or.inr rfl, .failure _⟩

variable [WireFormat]

omit [Lowercase] [Display] in
/-- The write that follows a wait moves no counter. -/
theorem store_counters {now : Instant} {cache cache' : Cache} {env : PutEnv}
    {key : Option CacheKey} {outcome : UpstreamOutcome} (hacc : cache.Accounted)
    (h : store now cache env key outcome = .ok cache') :
    cache'.lookups = cache.lookups ∧ cache'.hits = cache.hits := by
  rcases store_cases h with rfl | ⟨_, _, _, -, -, -, hput⟩
  · exact ⟨rfl, rfl⟩
  · exact ⟨(Cache.putResult_of_ok hacc hput).lookups, (Cache.putResult_of_ok hacc hput).hits⟩

/-- The state keeps the books. -/
def KeepsBooks (s : PipelineState) : Prop :=
  Books s.handles s.events s.cache.lookups s.cache.hits

omit [WireFormat] in
/-- A call that is answered at once is written down, unless it has no question; one that passes is
not. -/
theorem KeepsBooks.screen {p : Pipeline} {s : PipelineState} (h : KeepsBooks s) {i : ℕ}
    {call : ClientCall} (hi : s.handles[i]? = some ⟨call, .received⟩) :
    KeepsBooks (p.stepScreen s i call) := by
  show Books (p.stepScreen s i call).handles _ _ _
  rw [stepScreen_cache]
  unfold stepScreen
  split
  · rename_i answer hanswer
    rcases screen_reported hanswer with ⟨hnone, hsource⟩ | ⟨hquestion, hsource, hreported⟩
    · have hasked : HandleTask.Asked ⟨call, .replied answer.1 answer.2.1⟩ :=
        iff_of_true hsource hnone
      have hevent : recordQuery call s.now answer.1 answer.2.2 = none := by
        rw [recordQuery, hnone, List.head?_nil, Option.map_none]
      have hquiet : HandleTask.isRecorded ⟨call, .replied answer.1 answer.2.1⟩ = false :=
        decide_eq_false (not_not.2 hnone)
      refine h.set hi rfl hasked ?_ ?_ ?_
      · rw [hquiet, hevent]
        rfl
      · rw [hsource]
        rfl
      · rw [hsource]
        rfl
    · refine Books.reply h hi (by simp) hquestion hreported s.now ?_ ?_
      · rcases hsource with hsource | hsource <;> rw [hsource] <;> rfl
      · rcases hsource with hsource | hsource <;> rw [hsource] <;> rfl
  · rename_i hpass
    have hasked : HandleTask.Asked ⟨call, .screened⟩ := by
      intro hnone
      replace hnone : call.query.queries = [] := hnone
      exact absurd hpass (by simp [Pipeline.screen, hnone])
    rw [← List.append_nil s.events]
    exact h.set hi rfl hasked rfl rfl rfl

omit [WireFormat] in
/-- A lookup is counted, and a hit is written down. -/
theorem KeepsBooks.lookUp {p : Pipeline} {s : PipelineState} (h : KeepsBooks s) {i : ℕ}
    {call : ClientCall} (hi : s.handles[i]? = some ⟨call, .screened⟩) :
    KeepsBooks (p.stepLookUp s i call) := by
  have hquestion : call.query.queries ≠ [] := h.asked _ (List.mem_of_getElem? hi)
  obtain ⟨hlookups, hhits⟩ := consult_counters s.now s.cache hquestion
  show Books (p.stepLookUp s i call).handles _ _ _
  rw [stepLookUp_cache, hlookups, hhits]
  unfold stepLookUp
  dsimp only
  split
  · rename_i cached expired hhit
    rw [hhit]
    exact Books.reply h hi (by simp) hquestion (.cache cached) s.now rfl rfl
  · rename_i hmiss
    rw [hmiss, ← List.append_nil s.events]
    have hasked : HandleTask.Asked ⟨call, .awaiting⟩ := hquestion
    exact h.set hi rfl hasked rfl rfl rfl

/-- **One action keeps the books.** -/
theorem KeepsBooks.step {p : Pipeline} {s t : PipelineState} {a : PipelineAction}
    (hprov : p.Provenance s) (h : KeepsBooks s) (hstep : p.machine.step s a = some t) :
    KeepsBooks t := by
  cases step_of_machine hstep with
  | tick => exact h
  | storeRules => exact h
  | receive query startedAtMs =>
    obtain ⟨hasked, ⟨pairs, hevents, hperm, hemits⟩, hlookups, hhits⟩ := h
    refine ⟨?_, ⟨pairs, hevents, ?_, hemits⟩, ?_, ?_⟩
    · rw [List.forall_mem_append, List.forall_mem_singleton]
      exact ⟨hasked, trivial⟩
    · simpa [HandleTask.isRecorded] using hperm
    · simpa [HandleTask.isLookup] using hlookups
    · simpa [HandleTask.isHit] using hhits
  | screen hi => exact h.screen hi
  | lookUp hi => exact h.lookUp hi
  | @upstreamDone i call outcome env cache hi hstore =>
    obtain ⟨hlookups, hhits⟩ := store_counters hprov.accounted hstore
    obtain ⟨hsource, hreported⟩ := upstreamReply_reported call.query outcome
    have hquestion : call.query.queries ≠ [] := h.asked _ (List.mem_of_getElem? hi)
    refine Books.reply h hi (by simp) hquestion hreported s.now ?_ ?_
    · show cache.lookups + 1 = s.cache.lookups + _
      rw [hlookups]
      rcases hsource with hsource | hsource <;> rw [hsource] <;> rfl
    · show cache.hits = s.cache.hits + _
      rw [hhits]
      rcases hsource with hsource | hsource <;> rw [hsource] <;> rfl
  | refreshDone outcome env hj hstore =>
    obtain ⟨hlookups, hhits⟩ := store_counters hprov.accounted hstore
    show Books s.handles s.events _ _
    rw [hlookups, hhits]
    exact h

theorem keepsBooks_of_run {p : Pipeline} {now : Instant} {filter : Filter} {maxMemoryMb : ℕ}
    {as : List PipelineAction} {s : PipelineState}
    (hrun : p.machine.run (.init now filter (Cache.new maxMemoryMb)) as = some s) :
    KeepsBooks s := by
  have hinit : KeepsBooks (.init now filter (Cache.new maxMemoryMb)) :=
    ⟨by simp [PipelineState.init], ⟨[], rfl, List.Perm.refl _, by simp⟩, rfl, rfl⟩
  exact (Machine.run_invariant (I := fun s ↦ p.Provenance s ∧ KeepsBooks s)
    (fun _ _ _ h hstep ↦ ⟨h.1.step hstep, h.2.step h.1 hstep⟩) hrun
    ⟨p.provenance_init now filter maxMemoryMb, hinit⟩).2

/-- **Events and counters tell the same story.** In every execution from an empty cache whose calls
have all been completed:

* every call with a question has emitted one event, which describes its reply, and nothing else has
  emitted any, refreshes in particular;
* the lookups of the cache are the calls with a question that were answered neither from hosts nor
  by the filter, its hits are the events that say so, and there are no more hits than lookups. -/
theorem events_and_counters (p : Pipeline) (now : Instant) (filter : Filter) (maxMemoryMb : ℕ)
    (as : List PipelineAction) (s : PipelineState)
    (hrun : p.machine.run (.init now filter (Cache.new maxMemoryMb)) as = some s)
    (hdone : ∀ task ∈ s.handles, ∃ response source, task.phase = .replied response source) :
    (∃ pairs : List (HandleTask × QueryEvent), pairs.map Prod.snd = s.events ∧
      (pairs.map Prod.fst).Perm (s.handles.filter fun task ↦ task.call.query.queries ≠ []) ∧
      ∀ x ∈ pairs, ∃ response source, x.1.phase = .replied response source ∧
        Describes response source x.2) ∧
    (∀ j outcome env t, p.machine.step s (.refreshDone j outcome env) = some t →
      t.events = s.events) ∧
    s.cache.hitStats.1 = (s.handles.countP fun task ↦ task.call.query.queries ≠ [] ∧
      task.source? ≠ some .hosts ∧ task.source? ≠ some .filter) ∧
    s.cache.hitStats.2 = s.events.countP QueryEvent.cacheHit ∧
    s.cache.hitStats.2 ≤ s.cache.hitStats.1 := by
  have h := keepsBooks_of_run hrun
  have hrecorded : s.handles.filter HandleTask.isRecorded =
      s.handles.filter fun task ↦ task.call.query.queries ≠ [] := by
    refine List.filter_congr fun task htask ↦ ?_
    obtain ⟨response, source, hphase⟩ := hdone task htask
    rw [HandleTask.isRecorded, hphase]
  have hlookups : ∀ task ∈ s.handles, task.isLookup = true ↔
      decide (task.call.query.queries ≠ [] ∧ task.source? ≠ some .hosts ∧
        task.source? ≠ some .filter) = true := by
    intro task htask
    have hasked := h.asked task htask
    obtain ⟨response, source, hphase⟩ := hdone task htask
    simp only [HandleTask.Asked, hphase] at hasked
    simp only [HandleTask.isLookup, HandleTask.source?, hphase, decide_eq_true_eq, ne_eq, ← hasked,
      Option.some.injEq]
    rcases source with - | - | - | - | - | - <;> simp
  have hle : s.cache.hits ≤ s.cache.lookups := by
    rw [h.hits, h.lookups]
    refine List.countP_mono_left fun task _ hhit ↦ ?_
    obtain ⟨call, - | - | - | ⟨response, source⟩⟩ := task
    case replied => exact decide_eq_true (Or.inl (of_decide_eq_true hhit))
    all_goals exact absurd hhit (by simp [HandleTask.isHit])
  refine ⟨?_, fun j outcome env t hstep ↦ ?_, h.lookups.trans (List.countP_congr hlookups),
    h.hits_eq, hle⟩
  · obtain ⟨pairs, hevents, hperm, hemits⟩ := h.emitted
    exact ⟨pairs, hevents, hrecorded ▸ hperm, fun x hx ↦ (hemits x hx).describes⟩
  · cases step_of_machine hstep
    rfl

end Pipeline

end Described

/-- A miss and a hit: two events, two lookups, one hit. -/
theorem events_and_counters_repeated :
    let _ := asciiLowercase
    let _ : WireFormat := ⟨fun _ ↦ some 40⟩
    let _ : Display := ⟨fun _ ↦ [], fun _ ↦ "1.2.3.4".toList⟩
    let p : Pipeline := ⟨HostsMap.empty, none⟩
    let first := Sample.ask 7 .IN
    ∃ s, p.machine.run Sample.start (Sample.missed 0 first (Sample.answer first 60) ++
        Sample.found 1 (Sample.ask 8 .IN)) = some s ∧
      s.events.length = 2 ∧ s.cache.hitStats = (2, 1) ∧
      s.cache.hitStats.2 = s.events.countP QueryEvent.cacheHit := by
  intro _ _ _ p first
  have hrun : (p.machine.run Sample.start (Sample.missed 0 first (Sample.answer first 60) ++
      Sample.found 1 (Sample.ask 8 .IN))).any fun s ↦
        s.events.length = 2 ∧ s.cache.hitStats = (2, 1) ∧ s.handles.map HandleTask.source? =
          [some .upstream, some .cache] := by
    decide +kernel
  obtain ⟨s, hs, hprop⟩ := (Option.any_eq_true _ _).1 hrun
  obtain ⟨hlength, hstats, hsources⟩ := of_decide_eq_true hprop
  have hdone : ∀ task ∈ s.handles, ∃ response source, task.phase = .replied response source := by
    intro task htask
    have hsome := List.mem_map_of_mem (f := HandleTask.source?) htask
    rw [hsources] at hsome
    obtain ⟨call, - | - | - | ⟨response, source⟩⟩ := task
    case replied => exact ⟨response, source, rfl⟩
    all_goals exact absurd hsome (by simp [HandleTask.source?])
  obtain ⟨-, -, -, hhits, -⟩ := p.events_and_counters 0 (Filter.new []) 1 _ s hs hdone
  exact ⟨s, hs, hlength, hstats, hhits⟩

end DnsBuffer
