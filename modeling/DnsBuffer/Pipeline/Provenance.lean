import DnsBuffer.Pipeline.Step

/-!
# Where answers and cached messages come from

Two results about every interleaving of client calls, refreshes and rule swaps.

**Precedence.** What decides a call is read off the state in which it looks: hosts first, then the
rule set in force at that moment, then the cache, and only then the upstream is awaited
(`screen_decides`, `lookUp_decides`).

**Provenance.** The contents of the cache — keys and messages, `Cache.contents` — change only when
an upstream response with code `NoError` is put under the key of the query it answers. The invariant
that carries this (`Provenance`) also ties every wait, every refresh and every exchange to a message
that was handed to the upstream.
-/

namespace DnsBuffer

/-! ### The contents of the cache -/

/-- The cached keys with their messages; order, expiry and cost left out. -/
def Cache.contents (c : Cache) : Set (CacheKey × Message) :=
  {x | ∃ entry, (x.1, entry) ∈ c.map.entries ∧ entry.message = x.2}

namespace Cache

@[simp] theorem contents_withMaxBytes (maxBytes : ℕ) : (withMaxBytes maxBytes).contents = ∅ := by
  simp [contents, withMaxBytes]

theorem mem_contents_of_lookup {cache : Cache} {key : CacheKey} {entry : CacheEntry}
    (h : cache.map.entries.lookup key = some entry) : (key, entry.message) ∈ cache.contents :=
  ⟨entry, LinkedMap.mem_of_lookup h, rfl⟩

/-- **A lookup leaves the contents alone.** -/
theorem contents_get {c : Cache} (h : c.Accounted) (now : Instant) (key : CacheKey)
    (id : UInt16) : (c.get now key id).2.contents = c.contents := by
  ext x
  simp only [contents, Set.mem_ofPred_eq, (get_entries_perm h.map.nodup now key id).mem_iff]

/-- **What a `put` can add** is the one message it was given, under the key it was given. -/
theorem contents_put_subset [WireFormat] {c c' : Cache} (h : c.Accounted) {now : Instant}
    {refuse : ℕ → Bool} {key : CacheKey} {message : Message}
    (hput : c.put now refuse key message = .ok c') :
    c'.contents ⊆ insert (key, message) c.contents := by
  have hres := putResult_of_ok h hput
  rintro ⟨k, m⟩ ⟨entry, hmem, hm⟩
  rcases hres.entries with heq | hsuf
  · exact Or.inr ⟨entry, heq ▸ hmem, hm⟩
  · rcases List.mem_append.1 (hsuf.subset hmem) with hold | hnew
    · exact Or.inr ⟨entry, (LinkedMap.mem_erase.1 hold).1, hm⟩
    · rw [List.mem_singleton, Prod.mk.injEq] at hnew
      obtain ⟨rfl, rfl⟩ := hnew
      exact Or.inl (Prod.ext rfl hm.symm)

end Cache

namespace Pipeline

section Store

variable [WireFormat]

/-- The write that follows a wait: nothing, or the `put` of a `NoError` response. -/
theorem store_cases {now : Instant} {cache cache' : Cache} {env : PutEnv}
    {key : Option CacheKey} {outcome : UpstreamOutcome}
    (h : store now cache env key outcome = .ok cache') :
    cache' = cache ∨ ∃ response upstream k, outcome = .answered response upstream ∧ key = some k ∧
      response.metadata.responseCode = .noError ∧
      cache.put (now - env.waited) env.refuse k response = .ok cache' := by
  rcases outcome with ⟨response, upstream⟩ | - | -
  · rcases key with - | k
    · exact Or.inl (Except.ok.inj h).symm
    · by_cases hcode : response.metadata.responseCode = .noError
      · simp only [store, if_pos hcode] at h
        exact Or.inr ⟨response, upstream, k, rfl, rfl, hcode, h⟩
      · simp only [store, if_neg hcode] at h
        exact Or.inl (Except.ok.inj h).symm
  · exact Or.inl (Except.ok.inj h).symm
  · exact Or.inl (Except.ok.inj h).symm

theorem store_accounted {now : Instant} {cache cache' : Cache} {env : PutEnv}
    {key : Option CacheKey} {outcome : UpstreamOutcome} (hacc : cache.Accounted)
    (h : store now cache env key outcome = .ok cache') : cache'.Accounted := by
  rcases store_cases h with rfl | ⟨_, _, _, -, -, -, hput⟩
  · exact hacc
  · exact (Cache.putResult_of_ok hacc hput).accounted

/-- What is in the cache after the write was there before or is the response, under the key. -/
theorem mem_contents_store {now : Instant} {cache cache' : Cache} {env : PutEnv}
    {key : Option CacheKey} {outcome : UpstreamOutcome} (hacc : cache.Accounted)
    (h : store now cache env key outcome = .ok cache') {x : CacheKey × Message}
    (hx : x ∈ cache'.contents) :
    x ∈ cache.contents ∨ ∃ upstream, outcome = .answered x.2 upstream ∧ key = some x.1 ∧
      x.2.metadata.responseCode = .noError := by
  rcases store_cases h with rfl | ⟨response, upstream, k, rfl, rfl, hcode, hput⟩
  · exact Or.inl hx
  · rcases Cache.contents_put_subset hacc hput hx with rfl | hold
    · exact Or.inr ⟨upstream, rfl, rfl, hcode⟩
    · exact Or.inl hold

end Store

section Consult

variable [Lowercase]

theorem consult_accounted {cache : Cache} (h : cache.Accounted) (now : Instant)
    (query : Message) : (consult now cache query).2.Accounted := by
  unfold consult
  split
  · exact h.get _ _ _
  · exact h

theorem contents_consult {cache : Cache} (h : cache.Accounted) (now : Instant) (query : Message) :
    (consult now cache query).2.contents = cache.contents := by
  unfold consult
  split
  · exact Cache.contents_get h _ _ _
  · rfl

@[simp] theorem fromQuery_preparedQuery (ecs : Option EcsSubnet) (query : Message) :
    CacheKey.fromQuery (preparedQuery ecs query) = CacheKey.fromQuery query := by
  rcases ecs with - | subnet <;> rfl

@[simp] theorem fromQuery_refreshQuery (ecs : Option EcsSubnet) (query : Message) :
    CacheKey.fromQuery (refreshQuery ecs query) = CacheKey.fromQuery query := by
  rcases ecs with - | subnet <;> rfl

end Consult

/-! ### The invariant -/

/-- More calls do not hurt a statement that some call was made. -/
theorem exists_call_append {s : PipelineState} {m : Message} (more : List UpstreamCall)
    (h : ∃ c ∈ s.calls, c.message = m) : ∃ c ∈ s.calls ++ more, c.message = m := by
  obtain ⟨c, hc, hm⟩ := h
  exact ⟨c, List.mem_append_left _ hc, hm⟩

/-- A reply, or a screened task, puts no new wait into the list of calls. -/
theorem mem_set_awaiting {tasks : List HandleTask} {i : ℕ} {new task : HandleTask}
    (hnew : new.phase ≠ .awaiting) (hmem : task ∈ tasks.set i new)
    (hphase : task.phase = .awaiting) :
    task ∈ tasks := by
  rcases List.mem_or_eq_of_mem_set hmem with h | rfl
  · exact h
  · exact absurd hphase hnew

theorem sent_of_mem_exchangeOf {sent : Message} {outcome : UpstreamOutcome} {e : Exchange}
    (h : e ∈ exchangeOf sent outcome) : e.sent = sent := by
  rcases outcome with ⟨response, upstream⟩ | - | -
  · rw [List.mem_singleton.1 h]
  · cases h
  · cases h

variable [Lowercase]

/-- A cached message is **sourced** when it is the `NoError` response of an exchange whose query has
the key it is cached under. -/
def Sourced (exchanges : List Exchange) (x : CacheKey × Message) : Prop :=
  ∃ e ∈ exchanges, e.response = x.2 ∧ e.response.metadata.responseCode = .noError ∧
    CacheKey.fromQuery e.sent = some x.1

/-- The write that follows a wait keeps the contents sourced, once its exchange is logged. -/
theorem sourced_store [WireFormat] {now : Instant} {cache cache' : Cache} {env : PutEnv}
    {sent : Message} {key : Option CacheKey} {outcome : UpstreamOutcome}
    {exchanges : List Exchange} (hacc : cache.Accounted)
    (hstore : store now cache env key outcome = .ok cache')
    (hsent : CacheKey.fromQuery sent = key) (hold : ∀ x ∈ cache.contents, Sourced exchanges x) :
    ∀ x ∈ cache'.contents, Sourced (exchanges ++ exchangeOf sent outcome) x := by
  intro x hx
  rcases mem_contents_store hacc hstore hx with hx | ⟨upstream, rfl, hkey, hcode⟩
  · obtain ⟨e, he, hrest⟩ := hold x hx
    exact ⟨e, List.mem_append_left _ he, hrest⟩
  · exact ⟨⟨sent, x.2⟩, List.mem_append_right _ (List.mem_singleton_self _), rfl, hcode,
      hsent.trans hkey⟩

/-- Everything the pipeline waits for, has learnt or has cached goes back to a message handed to
the upstream. -/
structure Provenance (p : Pipeline) (s : PipelineState) : Prop where
  accounted : s.cache.Accounted
  awaiting : ∀ task ∈ s.handles, task.phase = .awaiting →
    ∃ c ∈ s.calls, c.message = preparedQuery p.ecs task.call.query
  refreshes : ∀ task ∈ s.refreshes, CacheKey.fromQuery task.query = some task.key ∧
    ∃ c ∈ s.calls, c.message = refreshQuery p.ecs task.query
  exchanges : ∀ e ∈ s.exchanges, ∃ c ∈ s.calls, c.message = e.sent
  contents : ∀ x ∈ s.cache.contents, Sourced s.exchanges x

theorem provenance_init (p : Pipeline) (now : Instant) (filter : Filter) (maxMemoryMb : ℕ) :
    p.Provenance (.init now filter (Cache.new maxMemoryMb)) where
  accounted := Cache.accounted_withMaxBytes _
  awaiting := by simp [PipelineState.init]
  refreshes := by simp [PipelineState.init]
  exchanges := by simp [PipelineState.init]
  contents := by simp [PipelineState.init, Cache.new]

variable [Display]

theorem mem_stepScreen_awaiting {p : Pipeline} {s : PipelineState} {i : ℕ} {call : ClientCall}
    {task : HandleTask} (hmem : task ∈ (p.stepScreen s i call).handles)
    (hphase : task.phase = .awaiting) : task ∈ s.handles := by
  unfold stepScreen at hmem
  split at hmem
  · exact mem_set_awaiting (by simp) hmem hphase
  · exact mem_set_awaiting (by simp) hmem hphase

/-- A wait that a lookup starts is for the prepared query, which the lookup sends. -/
theorem mem_stepLookUp_awaiting {p : Pipeline} {s : PipelineState} {i : ℕ} {call : ClientCall}
    {task : HandleTask} (hmem : task ∈ (p.stepLookUp s i call).handles)
    (hphase : task.phase = .awaiting) :
    task ∈ s.handles ∨
      preparedQuery p.ecs task.call.query ∈ p.upstreamMessages s.now s.cache call.query := by
  unfold stepLookUp at hmem
  dsimp only at hmem
  split at hmem
  · exact Or.inl (mem_set_awaiting (by simp) hmem hphase)
  · rename_i hmiss
    rcases List.mem_or_eq_of_mem_set hmem with h | rfl
    · exact Or.inl h
    · refine Or.inr ?_
      rw [upstreamMessages, hmiss]
      exact List.mem_singleton_self _

/-- A refresh that a lookup starts carries the key of its query, and the lookup sends its
message. -/
theorem mem_stepLookUp_refreshes {p : Pipeline} {s : PipelineState} {i : ℕ} {call : ClientCall}
    {task : RefreshTask} (hmem : task ∈ (p.stepLookUp s i call).refreshes) :
    task ∈ s.refreshes ∨ (CacheKey.fromQuery task.query = some task.key ∧
      refreshQuery p.ecs task.query ∈ p.upstreamMessages s.now s.cache call.query) := by
  unfold stepLookUp at hmem
  dsimp only at hmem
  split at hmem
  · rename_i cached expired hhit
    rw [reply_refreshes, List.mem_append] at hmem
    rcases hmem with h | h
    · exact Or.inl h
    · rcases expired with - | -
      · simp at h
      · rw [if_pos rfl, Option.mem_toList, Option.map_eq_some_iff] at h
        obtain ⟨key, hkey, rfl⟩ := h
        refine Or.inr ⟨hkey, ?_⟩
        rw [upstreamMessages, hhit]
        exact List.mem_singleton_self _
  · exact Or.inl hmem

variable [WireFormat]

/-- **One action preserves provenance.** -/
theorem Provenance.step {p : Pipeline} {s t : PipelineState} {a : PipelineAction}
    (h : p.Provenance s) (hstep : p.machine.step s a = some t) : p.Provenance t := by
  cases step_of_machine hstep with
  | tick => exact ⟨h.accounted, h.awaiting, h.refreshes, h.exchanges, h.contents⟩
  | storeRules => exact ⟨h.accounted, h.awaiting, h.refreshes, h.exchanges, h.contents⟩
  | receive query startedAtMs =>
    refine ⟨h.accounted, fun task htask hphase ↦ ?_, h.refreshes, h.exchanges, h.contents⟩
    rcases List.mem_append.1 htask with htask | htask
    · exact h.awaiting task htask hphase
    · rw [List.mem_singleton.1 htask] at hphase
      cases hphase
  | @screen i call hi =>
    refine ⟨?_, fun task htask hphase ↦ ?_, ?_, ?_, ?_⟩
    · rw [stepScreen_cache]
      exact h.accounted
    · rw [stepScreen_calls]
      exact h.awaiting task (mem_stepScreen_awaiting htask hphase) hphase
    · rw [stepScreen_refreshes, stepScreen_calls]
      exact h.refreshes
    · rw [stepScreen_exchanges, stepScreen_calls]
      exact h.exchanges
    · rw [stepScreen_cache, stepScreen_exchanges]
      exact h.contents
  | @lookUp i call hi =>
    refine ⟨?_, fun task htask hphase ↦ ?_, fun task htask ↦ ?_, fun e he ↦ ?_, ?_⟩
    · rw [stepLookUp_cache]
      exact consult_accounted h.accounted _ _
    · rw [stepLookUp_calls]
      rcases mem_stepLookUp_awaiting htask hphase with hold | hnew
      · exact exists_call_append _ (h.awaiting task hold hphase)
      · exact ⟨⟨call.query, _⟩, List.mem_append_right _ (List.mem_map_of_mem hnew), rfl⟩
    · rw [stepLookUp_calls]
      rcases mem_stepLookUp_refreshes htask with hold | ⟨hkey, hnew⟩
      · exact ⟨(h.refreshes task hold).1, exists_call_append _ (h.refreshes task hold).2⟩
      · exact ⟨hkey, ⟨call.query, _⟩, List.mem_append_right _ (List.mem_map_of_mem hnew), rfl⟩
    · rw [stepLookUp_exchanges] at he
      rw [stepLookUp_calls]
      exact exists_call_append _ (h.exchanges e he)
    · rw [stepLookUp_cache, stepLookUp_exchanges, contents_consult h.accounted]
      exact h.contents
  | @upstreamDone i call outcome env cache hi hstore =>
    -- the wait that ends here was for a message that had been sent
    have hcall := h.awaiting _ (List.mem_of_getElem? hi) rfl
    refine ⟨store_accounted h.accounted hstore, fun task htask hphase ↦ ?_, h.refreshes,
      fun e he ↦ ?_,
      sourced_store h.accounted hstore (fromQuery_preparedQuery p.ecs call.query) h.contents⟩
    · exact h.awaiting task (mem_set_awaiting (by simp) htask hphase) hphase
    · rcases List.mem_append.1 he with he | he
      · exact h.exchanges e he
      · rw [sent_of_mem_exchangeOf he]
        exact hcall
  | @refreshDone j task outcome env cache hj hstore =>
    -- likewise, and the refresh has kept the key of its query
    have htask := h.refreshes _ (List.mem_of_getElem? hj)
    refine ⟨store_accounted h.accounted hstore, h.awaiting,
      fun task' htask' ↦ h.refreshes task' (List.mem_of_mem_eraseIdx htask'), fun e he ↦ ?_,
      sourced_store h.accounted hstore
        ((fromQuery_refreshQuery p.ecs task.query).trans htask.1) h.contents⟩
    rcases List.mem_append.1 he with he | he
    · exact h.exchanges e he
    · rw [sent_of_mem_exchangeOf he]
      exact htask.2

theorem provenance_of_run {p : Pipeline} {now : Instant} {filter : Filter} {maxMemoryMb : ℕ}
    {as : List PipelineAction} {s : PipelineState}
    (hrun : p.machine.run (.init now filter (Cache.new maxMemoryMb)) as = some s) :
    p.Provenance s :=
  Machine.run_invariant (fun _ _ _ h hstep ↦ Provenance.step h hstep) hrun
    (p.provenance_init now filter maxMemoryMb)

/-! ### Precedence -/

/-- Of a call with a question that has been screened: it was answered from hosts exactly when the
hosts map matches. -/
def HostsFirst (p : Pipeline) (task : HandleTask) : Prop :=
  ∀ q, task.call.query.queries.head? = some q → task.phase ≠ .received →
    ((∃ response, task.phase = .replied response .hosts) ↔
      (p.hosts.find (normalize q.name.text)).isSome)

/-- **How screening decides** about a call with question `q`, by hosts and the rules of the state it
is taken in. -/
structure ScreenDecides (p : Pipeline) (s : PipelineState) (i : ℕ) (call : ClientCall) (q : Query)
    (t : PipelineState) : Prop where
  hosts : (∃ response, p.hosts.lookup call.query = some response ∧
      t.handles[i]? = some ⟨call, .replied response .hosts⟩) ↔
    (p.hosts.find (normalize q.name.text)).isSome
  filter : t.handles[i]? = some ⟨call, .replied (blockResponse call.query) .filter⟩ ↔
    p.hosts.find (normalize q.name.text) = none ∧ s.filter.isBlocked q.name.text
  passed : t.handles[i]? = some ⟨call, .screened⟩ ↔
    p.hosts.find (normalize q.name.text) = none ∧ ¬s.filter.isBlocked q.name.text

/-- **How a lookup decides** about a call with key `key`, by the cache of the state it is taken
in. -/
structure LookUpDecides (s : PipelineState) (i : ℕ) (call : ClientCall) (key : CacheKey)
    (t : PipelineState) : Prop where
  cache : (∃ entry, s.cache.map.entries.lookup key = some entry ∧
      t.handles[i]? =
        some ⟨call, .replied (entry.message.withId call.query.metadata.id) .cache⟩) ↔
    key ∈ s.cache.map.entries.keys
  awaiting : t.handles[i]? = some ⟨call, .awaiting⟩ ↔ key ∉ s.cache.map.entries.keys

omit [Display] [WireFormat] in
theorem screen_of_hosts {p : Pipeline} {filter : Filter} {query : Message} {q : Query}
    (hq : query.queries.head? = some q) {response : Message}
    (hhosts : p.hosts.lookup query = some response) :
    p.screen filter query = some (response, .hosts, ⟨false, false, none⟩) := by
  simp [screen, hq, hhosts]

omit [Display] [WireFormat] in
theorem screen_of_not_hosts {p : Pipeline} {filter : Filter} {query : Message} {q : Query}
    (hq : query.queries.head? = some q) (hhosts : p.hosts.lookup query = none) :
    p.screen filter query = if filter.isBlocked q.name.text then
      some (blockResponse query, .filter, ⟨true, false, none⟩) else none := by
  simp [screen, hq, hhosts]

theorem screen_decides {p : Pipeline} {s : PipelineState} {i : ℕ} {call : ClientCall} {q : Query}
    (hi : s.handles[i]? = some ⟨call, .received⟩) (hq : call.query.queries.head? = some q) :
    p.machine.step s (.screen i) = some (p.stepScreen s i call) ∧
      p.ScreenDecides s i call q (p.stepScreen s i call) := by
  refine ⟨by simp [machine, hi], ?_⟩
  have hget := getElem?_set_of_some hi
  have hiff := HostsMap.lookup_isSome_iff (h := p.hosts) hq
  rcases hhosts : p.hosts.lookup call.query with - | response
  · have hfind : p.hosts.find (normalize q.name.text) = none := by
      simpa [hhosts] using hiff
    by_cases hblocked : s.filter.isBlocked q.name.text <;>
      constructor <;>
        simp [stepScreen_handles, hget, screen_of_not_hosts hq hhosts, hfind, hhosts, hblocked]
  · have hfind : (p.hosts.find (normalize q.name.text)).isSome := by
      simpa [hhosts] using hiff
    obtain ⟨addrs, haddrs⟩ := Option.isSome_iff_exists.1 hfind
    constructor <;> simp [stepScreen_handles, hget, screen_of_hosts hq hhosts, haddrs, hhosts]

theorem lookUp_decides {p : Pipeline} {s : PipelineState} {i : ℕ} {call : ClientCall}
    {key : CacheKey} (hi : s.handles[i]? = some ⟨call, .screened⟩)
    (hkey : CacheKey.fromQuery call.query = some key) :
    p.machine.step s (.lookUp i) = some (p.stepLookUp s i call) ∧
      LookUpDecides s i call key (p.stepLookUp s i call) := by
  refine ⟨by simp [machine, hi], ?_⟩
  have hget := getElem?_set_of_some hi
  have hmem := LinkedMap.lookup_isSome_iff_mem_keys (m := s.cache.map.entries) (k := key)
  rcases hlookup : s.cache.map.entries.lookup key with - | entry
  · rw [hlookup] at hmem
    constructor <;> simp [stepLookUp_handles, hget, consult_fst, hkey, hlookup, ← hmem]
  · rw [hlookup] at hmem
    constructor <;> simp [stepLookUp_handles, hget, consult_fst, hkey, hlookup, ← hmem]

omit [Display] [WireFormat] in
theorem hostsFirst_screen (p : Pipeline) (filter : Filter) (call : ClientCall) :
    p.HostsFirst ⟨call, ((p.screen filter call.query).map fun answer ↦
      .replied answer.1 answer.2.1).getD .screened⟩ := by
  intro q hq _
  rw [← HostsMap.lookup_isSome_iff hq]
  rcases hhosts : p.hosts.lookup call.query with - | response
  · rw [screen_of_not_hosts hq hhosts]
    by_cases hblocked : filter.isBlocked q.name.text <;> simp [hblocked]
  · simp [screen_of_hosts hq hhosts]

omit [Display] [WireFormat] in
/-- What happens to a call after screening does not make it a hosts answer. -/
theorem HostsFirst.later {p : Pipeline} {call : ClientCall} {phase phase' : Phase}
    (h : p.HostsFirst ⟨call, phase⟩) (hphase : phase ≠ .received)
    (hnot : ∀ response, phase ≠ .replied response .hosts)
    (hnot' : ∀ response, phase' ≠ .replied response .hosts) : p.HostsFirst ⟨call, phase'⟩ := by
  intro q hq _
  have hnone : ¬(p.hosts.find (normalize q.name.text)).isSome := by
    rw [← h q hq hphase]
    exact fun ⟨response, hr⟩ ↦ hnot response hr
  exact ⟨fun ⟨response, hr⟩ ↦ absurd hr (hnot' response), fun hfind ↦ absurd hfind hnone⟩

theorem hostsFirst_step {p : Pipeline} {s t : PipelineState} {a : PipelineAction}
    (h : ∀ task ∈ s.handles, p.HostsFirst task) (hstep : p.machine.step s a = some t) :
    ∀ task ∈ t.handles, p.HostsFirst task := by
  cases step_of_machine hstep with
  | tick => exact h
  | storeRules => exact h
  | receive query startedAtMs =>
    intro task htask
    rcases List.mem_append.1 htask with htask | htask
    · exact h task htask
    · rw [List.mem_singleton.1 htask]
      exact fun q _ hphase ↦ absurd rfl hphase
  | @screen i call hi =>
    rw [stepScreen_handles]
    exact Tasks.forall_set h (p.hostsFirst_screen s.filter call)
  | @lookUp i call hi =>
    rw [stepLookUp_handles]
    refine Tasks.forall_set h ((h _ (List.mem_of_getElem? hi)).later (by simp) (by simp) ?_)
    rcases (consult s.now s.cache call.query).1 with - | found <;> simp
  | @upstreamDone i call outcome env cache hi hstore =>
    refine Tasks.forall_set h ((h _ (List.mem_of_getElem? hi)).later (by simp) (by simp) ?_)
    rcases outcome with ⟨response, upstream⟩ | - | - <;> simp [upstreamReply]
  | refreshDone => exact h

/-- **What can change the contents of the cache**: a `put`, under the key of the query that was sent
upstream, of an upstream response to it with code `NoError`. -/
theorem contents_of_step {p : Pipeline} {s t : PipelineState} {a : PipelineAction}
    (h : p.Provenance s) (hstep : p.machine.step s a = some t) :
    t.cache.contents = s.cache.contents ∨
      ∃ sent response upstream env key,
        p.Completes s a sent (.answered response upstream) env ∧
        (∃ c ∈ s.calls, c.message = sent) ∧ CacheKey.fromQuery sent = some key ∧
        response.metadata.responseCode = .noError ∧
        s.cache.put (s.now - env.waited) env.refuse key response = .ok t.cache := by
  cases step_of_machine hstep with
  | tick => exact Or.inl rfl
  | storeRules => exact Or.inl rfl
  | receive => exact Or.inl rfl
  | screen => exact Or.inl (by rw [stepScreen_cache])
  | lookUp => exact Or.inl (by rw [stepLookUp_cache, contents_consult h.accounted])
  | @upstreamDone i call outcome env cache hi hstore =>
    rcases store_cases hstore with rfl | ⟨response, upstream, key, rfl, hkey, hcode, hput⟩
    · exact Or.inl rfl
    · exact Or.inr ⟨_, response, upstream, env, key, .foreground _ env hi,
        h.awaiting _ (List.mem_of_getElem? hi) rfl,
        (fromQuery_preparedQuery p.ecs call.query).trans hkey, hcode, hput⟩
  | @refreshDone j task outcome env cache hj hstore =>
    obtain ⟨htask, hcall⟩ := h.refreshes _ (List.mem_of_getElem? hj)
    rcases store_cases hstore with rfl | ⟨response, upstream, key, rfl, hkey, hcode, hput⟩
    · exact Or.inl rfl
    · exact Or.inr ⟨_, response, upstream, env, key, .refresh _ env hj, hcall,
        ((fromQuery_refreshQuery p.ecs task.query).trans htask).trans hkey, hcode, hput⟩

/-- **Precedence and provenance.** In every state reached from an empty cache: screening and lookup
decide by hosts, rules and cache in this order; every action leaves the contents of the cache as
they are or is the `put` of a `NoError` upstream response under the key of the query sent; and every
cached message is such a response. -/
theorem precedence_and_provenance (p : Pipeline) (now : Instant) (filter : Filter)
    (maxMemoryMb : ℕ) (as : List PipelineAction) (s : PipelineState)
    (hrun : p.machine.run (.init now filter (Cache.new maxMemoryMb)) as = some s) :
    (∀ task ∈ s.handles, p.HostsFirst task) ∧
    (∀ i call q, s.handles[i]? = some ⟨call, .received⟩ → call.query.queries.head? = some q →
      ∃ t, p.machine.step s (.screen i) = some t ∧ p.ScreenDecides s i call q t) ∧
    (∀ i call key, s.handles[i]? = some ⟨call, .screened⟩ →
      CacheKey.fromQuery call.query = some key →
      ∃ t, p.machine.step s (.lookUp i) = some t ∧ LookUpDecides s i call key t) ∧
    (∀ a t, p.machine.step s a = some t → t.cache.contents = s.cache.contents ∨
      ∃ sent response upstream env key,
        p.Completes s a sent (.answered response upstream) env ∧
        (∃ c ∈ s.calls, c.message = sent) ∧ CacheKey.fromQuery sent = some key ∧
        response.metadata.responseCode = .noError ∧
        s.cache.put (s.now - env.waited) env.refuse key response = .ok t.cache) ∧
    ∀ x ∈ s.cache.contents, ∃ e ∈ s.exchanges, e.response = x.2 ∧
      e.response.metadata.responseCode = .noError ∧ CacheKey.fromQuery e.sent = some x.1 ∧
      ∃ c ∈ s.calls, c.message = e.sent := by
  have hprov := provenance_of_run hrun
  refine ⟨?_, ?_, ?_, fun a t hstep ↦ contents_of_step hprov hstep, ?_⟩
  · exact Machine.run_invariant (I := fun s ↦ ∀ task ∈ s.handles, p.HostsFirst task)
      (fun _ _ _ h hstep ↦ hostsFirst_step h hstep) hrun (by simp [PipelineState.init])
  · exact fun i call q hi hq ↦ ⟨_, screen_decides hi hq⟩
  · exact fun i call key hi hkey ↦ ⟨_, lookUp_decides hi hkey⟩
  · intro x hx
    obtain ⟨e, he, hresp, hcode, hkey⟩ := hprov.contents x hx
    exact ⟨e, he, hresp, hcode, hkey, hprov.exchanges e he⟩

end Pipeline

/-- After one answered miss the cache holds one message, and it is the upstream's. -/
theorem precedence_and_provenance_miss :
    let _ := asciiLowercase
    let _ : WireFormat := ⟨fun _ ↦ some 40⟩
    let _ : Display := ⟨fun _ ↦ [], fun _ ↦ []⟩
    let p : Pipeline := ⟨HostsMap.empty, none⟩
    let query := Sample.ask 7 .IN
    ∃ s, p.machine.run Sample.start (Sample.missed 0 query (Sample.answer query 60)) = some s ∧
      s.cache.map.entries.length = 1 ∧
      ∀ x ∈ s.cache.contents, ∃ e ∈ s.exchanges, e.response = x.2 ∧
        CacheKey.fromQuery e.sent = some x.1 := by
  let _ := asciiLowercase
  let _ : WireFormat := ⟨fun _ ↦ some 40⟩
  let _ : Display := ⟨fun _ ↦ [], fun _ ↦ []⟩
  intro _ _ _ p query
  have hrun : (p.machine.run Sample.start (Sample.missed 0 query (Sample.answer query 60))).any
      (fun s ↦ s.cache.map.entries.length = 1) := by
    decide +kernel
  obtain ⟨s, hs, hlen⟩ := (Option.any_eq_true _ _).1 hrun
  obtain ⟨-, -, -, -, hsourced⟩ :=
    p.precedence_and_provenance 0 (Filter.new []) 1 _ s hs
  refine ⟨s, hs, of_decide_eq_true hlen, fun x hx ↦ ?_⟩
  obtain ⟨e, he, hresp, -, hkey, -⟩ := hsourced x hx
  exact ⟨e, he, hresp, hkey⟩

end DnsBuffer
