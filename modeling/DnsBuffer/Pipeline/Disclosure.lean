import DnsBuffer.Pipeline.Step

/-!
# What the proxy discloses about its clients

A query leaves the proxy in two places. On a miss `handle` sends the prepared query, from which the
client's own subnet options have been stripped; it discloses exactly the configured subnet
(`subnets_preparedQuery`). After an expired hit the background task sends the client's query with
the configured subnet *added*; it discloses whatever the client put in as well
(`subnets_refreshQuery`).

So the property "only the configured subnet leaves the proxy" is lost exactly at the lookups that
find an expired entry for a query that carries a subnet option (`LeakyLookUp`), and a whole
execution has it exactly when it contains no such lookup. Read as a two-run property: queries that
agree up to their subnet options cause the same traffic unless an expired entry is found and they
differ.
-/

namespace DnsBuffer

/-- The lookup of `key` finds an entry that has expired. -/
def Cache.ExpiredHit (c : Cache) (now : Instant) (key : CacheKey) : Prop :=
  ∃ entry, c.map.entries.lookup key = some entry ∧ entry.expiresAt ≤ now

theorem subnets_preparedQuery (ecs : Option EcsSubnet) (query : Message) :
    (preparedQuery ecs query).subnets = configuredSubnets ecs := by
  rcases ecs with - | subnet <;> simp [preparedQuery, configuredSubnets]

theorem subnets_refreshQuery (ecs : Option EcsSubnet) (query : Message) :
    (refreshQuery ecs query).subnets = query.subnets ++ configuredSubnets ecs := by
  rcases ecs with - | subnet <;> simp [refreshQuery, configuredSubnets]

/-- The prepared query is the same for queries that agree up to their subnets. -/
theorem SameButSubnets.preparedQuery_eq {q q' : Message} (h : SameButSubnets q q')
    (ecs : Option EcsSubnet) : preparedQuery ecs q = preparedQuery ecs q' := by
  unfold preparedQuery
  rw [show stripSubnet q = stripSubnet q' from h]

/-- The query of a refresh, in contrast, tells them apart. -/
theorem SameButSubnets.refreshQuery_eq_iff {q q' : Message} (h : SameButSubnets q q')
    (ecs : Option EcsSubnet) : refreshQuery ecs q = refreshQuery ecs q' ↔ q = q' := by
  constructor
  · intro heq
    rcases ecs with - | subnet
    · exact heq
    · exact h.eq_of_inject_eq heq
  · rintro rfl
    rfl

namespace Pipeline

variable [Lowercase]

theorem fromQuery_eq_of_queries_eq {q q' : Message} (h : q.queries = q'.queries) :
    CacheKey.fromQuery q = CacheKey.fromQuery q' := by
  rw [CacheKey.fromQuery, CacheKey.fromQuery, h]

/-- A query finds an expired entry under its key. -/
def FindsExpired (now : Instant) (cache : Cache) (query : Message) : Prop :=
  ∃ key, CacheKey.fromQuery query = some key ∧ cache.ExpiredHit now key

theorem findsExpired_iff {now : Instant} {cache : Cache} {query : Message} :
    FindsExpired now cache query ↔ ∃ cached, (consult now cache query).1 = some (cached, true) := by
  rw [consult_fst]
  constructor
  · rintro ⟨key, hkey, entry, hentry, hexp⟩
    exact ⟨entry.message.withId query.metadata.id, by simp [hkey, hentry, hexp]⟩
  · rintro ⟨cached, h⟩
    obtain ⟨key, hkey, h⟩ := Option.bind_eq_some_iff.1 h
    obtain ⟨entry, hentry, h⟩ := Option.map_eq_some_iff.1 h
    exact ⟨key, hkey, entry, hentry, of_decide_eq_true (Prod.mk.inj h).2⟩

/-! ### One lookup -/

/-- **What one lookup discloses.** Everything it sends carries exactly the configured subnet, unless
it finds an expired entry for a query with a subnet of its own. -/
theorem forall_upstreamMessages_subnets_iff (p : Pipeline) (now : Instant) (cache : Cache)
    (query : Message) :
    (∀ m ∈ p.upstreamMessages now cache query, m.subnets = configuredSubnets p.ecs) ↔
      ¬(FindsExpired now cache query ∧ query.subnets ≠ []) := by
  rw [findsExpired_iff]
  unfold upstreamMessages
  rcases h : (consult now cache query).1 with - | ⟨cached, - | -⟩
  · simp [subnets_preparedQuery]
  · simp
  · simp [subnets_refreshQuery]

/-- The messages a whole call of `handle` hands to the upstream when it finds the given filter and
cache: none when hosts or filter answer, else those of its lookup. -/
def messagesFor (p : Pipeline) (filter : Filter) (now : Instant) (cache : Cache)
    (query : Message) : List Message :=
  if (p.screen filter query).isSome then [] else p.upstreamMessages now cache query

theorem screen_isSome_congr (p : Pipeline) (filter : Filter) {q q' : Message}
    (h : q.queries = q'.queries) :
    (p.screen filter q).isSome = (p.screen filter q').isSome := by
  have hlookup : (p.hosts.lookup q).isSome = (p.hosts.lookup q').isSome := by
    simp [HostsMap.lookup, h, Option.isSome_bind]
  unfold screen
  rw [h]
  rcases q'.queries.head? with - | x
  · rfl
  · rcases hq : p.hosts.lookup q with - | r <;> rcases hq' : p.hosts.lookup q' with - | r' <;>
      simp_all
    split <;> rfl

/-- **The two-run reading.** Queries that agree up to their subnet options cause the same upstream
messages, unless they get as far as an expired entry — and then only if they are equal. -/
theorem messagesFor_eq_iff (p : Pipeline) (filter : Filter) (now : Instant) (cache : Cache)
    {q q' : Message} (h : SameButSubnets q q') :
    p.messagesFor filter now cache q = p.messagesFor filter now cache q' ↔
      (p.screen filter q).isSome ∨ ¬FindsExpired now cache q ∨ q = q' := by
  have hscreen := p.screen_isSome_congr filter h.queries_eq
  have hconsult : (consult now cache q).1 = (consult now cache q').1 := by
    rw [consult_fst, consult_fst, fromQuery_eq_of_queries_eq h.queries_eq, h.metadata_eq]
  unfold messagesFor
  rw [← hscreen]
  by_cases hs : (p.screen filter q).isSome
  · simp [hs]
  · simp only [hs, Bool.false_eq_true, if_false, false_or]
    rw [findsExpired_iff]
    unfold upstreamMessages
    rw [← hconsult]
    -- a miss sends the prepared queries, which are equal; a fresh hit sends nothing; only an
    -- expired hit sends the queries themselves
    rcases (consult now cache q).1 with - | ⟨cached, - | -⟩
    · simp [h.preparedQuery_eq]
    · simp
    · simp [h.refreshQuery_eq_iff]

/-! ### Whole executions -/

/-- A lookup that discloses more than it should: an expired entry for a query with a subnet of its
own. -/
def LeakyLookUp (s : PipelineState) : PipelineAction → Prop
  | .lookUp i => ∃ call, s.handles[i]? = some ⟨call, .screened⟩ ∧
      FindsExpired s.now s.cache call.query ∧ call.query.subnets ≠ []
  | _ => False

/-- Every message handed to the upstream so far carries exactly the configured subnet. -/
def DisclosesOnlyConfigured (p : Pipeline) (s : PipelineState) : Prop :=
  ∀ c ∈ s.calls, c.message.subnets = configuredSubnets p.ecs

variable [WireFormat] [Display]

theorem step_disclosesOnlyConfigured_iff {p : Pipeline} {s t : PipelineState} {a : PipelineAction}
    (hstep : p.machine.step s a = some t) :
    p.DisclosesOnlyConfigured t ↔ p.DisclosesOnlyConfigured s ∧ ¬LeakyLookUp s a := by
  cases step_of_machine hstep with
  | tick => exact (and_iff_left id).symm
  | storeRules => exact (and_iff_left id).symm
  | receive => exact (and_iff_left id).symm
  | screen =>
    rw [DisclosesOnlyConfigured, stepScreen_calls]
    exact (and_iff_left id).symm
  | @lookUp i call hi =>
    -- the only action that hands anything to the upstream
    have hleak : LeakyLookUp s (.lookUp i) ↔
        FindsExpired s.now s.cache call.query ∧ call.query.subnets ≠ [] := by
      constructor
      · rintro ⟨call', hi', h⟩
        rw [hi, Option.some.injEq, HandleTask.mk.injEq] at hi'
        exact hi'.1 ▸ h
      · exact fun h ↦ ⟨call, hi, h⟩
    rw [hleak, ← p.forall_upstreamMessages_subnets_iff, DisclosesOnlyConfigured, stepLookUp_calls]
    simp only [List.forall_mem_append, List.forall_mem_map]
    rfl
  | upstreamDone => exact (and_iff_left id).symm
  | refreshDone => exact (and_iff_left id).symm

/-- **What an execution discloses.** From any state in which nothing has been sent yet: every
message an execution hands to the upstream carries exactly the configured subnet if and only if no
lookup of it finds an expired entry for a query with a subnet option; and in every state, two
queries that agree up to their subnet options cause the same messages if and only if they do not get
as far as an expired entry or are equal. -/
theorem discloses_only_configured_iff (p : Pipeline) (s₀ s : PipelineState)
    (as : List PipelineAction) (hfresh : s₀.calls = []) (hrun : p.machine.run s₀ as = some s) :
    ((∀ c ∈ s.calls, c.message.subnets = configuredSubnets p.ecs) ↔
      p.machine.Along (fun s a ↦ ¬LeakyLookUp s a) s₀ as) ∧
    ∀ (filter : Filter) (now : Instant) (cache : Cache) (q q' : Message), SameButSubnets q q' →
      (p.messagesFor filter now cache q = p.messagesFor filter now cache q' ↔
        (p.screen filter q).isSome ∨ ¬FindsExpired now cache q ∨ q = q') := by
  refine ⟨?_, fun filter now cache q q' h ↦ p.messagesFor_eq_iff filter now cache h⟩
  have hstart : p.DisclosesOnlyConfigured s₀ := by simp [DisclosesOnlyConfigured, hfresh]
  have hiff := Machine.run_iff_along (M := p.machine)
    (fun _ _ _ hstep ↦ step_disclosesOnlyConfigured_iff hstep) hrun
  exact hiff.trans (and_iff_right hstart)

end Pipeline

/-! ### A leak

A client query with the subnet `198.51.100.0/24`, answered once with TTL 0 and asked again: the miss
sends it stripped, the refresh of the expired hit sends it as it came. -/

namespace Leak

def clientSubnet : ClientSubnet := ⟨.v4 0xC6336400#32, 24, 0⟩

def query : Message :=
  { Sample.ask 7 .IN with edns := some (Edns.new.insertSubnet clientSubnet) }

def schedule : List PipelineAction :=
  Sample.missed 0 query (Sample.answer query 0) ++ Sample.found 1 query

end Leak

/-- Without a configured subnet nothing should be disclosed; the second message discloses the
client's. -/
theorem refresh_leaks_client_subnet :
    let _ := asciiLowercase
    let _ : WireFormat := ⟨fun _ ↦ some 40⟩
    let _ : Display := ⟨fun _ ↦ [], fun _ ↦ []⟩
    let p : Pipeline := ⟨HostsMap.empty, none⟩
    (p.machine.run Sample.start Leak.schedule).map
        (fun s ↦ s.calls.map fun c ↦ c.message.subnets) = some [[], [Leak.clientSubnet]] ∧
      configuredSubnets p.ecs = [] := by
  decide +kernel

/-- Up to the answer of the first call the execution meets the condition, and discloses nothing. -/
theorem discloses_only_configured_miss :
    let _ := asciiLowercase
    let _ : WireFormat := ⟨fun _ ↦ some 40⟩
    let _ : Display := ⟨fun _ ↦ [], fun _ ↦ []⟩
    let p : Pipeline := ⟨HostsMap.empty, none⟩
    ∃ s, p.machine.run Sample.start (Leak.schedule.take 4) = some s ∧ s.calls ≠ [] ∧
      p.machine.Along (fun s a ↦ ¬Pipeline.LeakyLookUp s a) Sample.start
        (Leak.schedule.take 4) := by
  let _ := asciiLowercase
  let _ : WireFormat := ⟨fun _ ↦ some 40⟩
  let _ : Display := ⟨fun _ ↦ [], fun _ ↦ []⟩
  intro _ _ _ p
  have hall : (p.machine.run Sample.start (Leak.schedule.take 4)).any
      (fun s ↦ s.calls ≠ [] ∧ ∀ c ∈ s.calls, c.message.subnets = []) := by
    decide +kernel
  obtain ⟨s, hs, hprop⟩ := (Option.any_eq_true _ _).1 hall
  obtain ⟨hne, hcalls⟩ := of_decide_eq_true hprop
  exact ⟨s, hs, hne, (p.discloses_only_configured_iff Sample.start s _ rfl hs).1.1 hcalls⟩

end DnsBuffer
