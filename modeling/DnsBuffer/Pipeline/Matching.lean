import DnsBuffer.Pipeline.Provenance

/-!
# Replies match their requests

A reply matches its request when it carries the request's id, its opcode and its question — name up
to case, type and class. Every path of `handle` that builds or passes on a reply keeps this, with
one exception: a cache hit returns the message another query was answered with, and rewrites only
its id. The key under which it was found fixes name and type, and nothing else.

So a reply fails to match exactly when it comes from a *foreign hit*: the cached message was
obtained for a query with another opcode, another class, or not exactly one question (`ForeignHit`).
Under the assumption that the upstream echoes id, opcode and questions, an execution answers every
single-question request with a match if and only if it contains no foreign hit.
-/

namespace DnsBuffer

/-- The response carries the id, the opcode and the question section of the message it answers. -/
structure Echoes (sent response : Message) : Prop where
  id : response.metadata.id = sent.metadata.id
  opCode : response.metadata.opCode = sent.metadata.opCode
  queries : response.queries = sent.queries

theorem echoes_servfail (query : Message) : Echoes query query.servfail := ⟨rfl, rfl, rfl⟩

@[simp] theorem preparedQuery_metadata (ecs : Option EcsSubnet) (query : Message) :
    (preparedQuery ecs query).metadata = query.metadata := by
  rcases ecs with - | subnet <;> rfl

@[simp] theorem preparedQuery_queries (ecs : Option EcsSubnet) (query : Message) :
    (preparedQuery ecs query).queries = query.queries := by
  rcases ecs with - | subnet <;> rfl

theorem forall_mem_exchangeOf_iff {R : Message → Message → Prop} {sent : Message}
    {outcome : UpstreamOutcome} :
    (∀ e ∈ Pipeline.exchangeOf sent outcome, R e.sent e.response) ↔
      ∀ response upstream, outcome = .answered response upstream → R sent response := by
  rcases outcome with ⟨response, upstream⟩ | - | - <;> simp [Pipeline.exchangeOf]

/-- The two messages have one question each, and the questions agree in class; so do the
opcodes. What the cache key does not distinguish. -/
def Interchangeable (m m' : Message) : Prop :=
  m.metadata.opCode = m'.metadata.opCode ∧
    ∃ q q', m.queries = [q] ∧ m'.queries = [q'] ∧ q.queryClass = q'.queryClass

section Match

variable [Lowercase]

/-- The same question: names up to case, type and class equal. -/
structure SameQuestion (q q' : Query) : Prop where
  name : normalize q.name.text = normalize q'.name.text
  queryType : q.queryType = q'.queryType
  queryClass : q.queryClass = q'.queryClass

theorem SameQuestion.refl (q : Query) : SameQuestion q q := ⟨rfl, rfl, rfl⟩

/-- The reply carries the request's id and opcode, and its question section consists of the
request's question. -/
structure Matches (query response : Message) : Prop where
  id : response.metadata.id = query.metadata.id
  opCode : response.metadata.opCode = query.metadata.opCode
  question : ∃ q r, query.queries = [q] ∧ response.queries = [r] ∧ SameQuestion r q

/-- A response that echoes a single-question request matches it. -/
theorem Echoes.matches {query response : Message} (h : Echoes query response) {q : Query}
    (hq : query.queries = [q]) : Matches query response :=
  ⟨h.id, h.opCode, q, q, hq, h.queries.trans hq, .refl q⟩

/-- Queries with one key and one question each ask for the same name and type. -/
theorem sameQuestion_iff_of_key {m m' : Message} {q q' : Query} {key : CacheKey}
    (hm : m.queries = [q]) (hm' : m'.queries = [q']) (hkey : CacheKey.fromQuery m = some key)
    (hkey' : CacheKey.fromQuery m' = some key) :
    SameQuestion q q' ↔ q.queryClass = q'.queryClass := by
  have heq := hkey.trans hkey'.symm
  simp only [CacheKey.fromQuery, hm, hm', List.head?_cons, Option.map_some, Option.some.injEq,
    CacheKey.mk.injEq] at heq
  refine ⟨SameQuestion.queryClass, fun h ↦ ⟨heq.1, ?_, h⟩⟩
  exact (RecordType.mk.injEq _ _).mpr heq.2

/-- **When a cached message matches**: the reply a hit makes of a response that echoed `sent`
matches a request with the same key exactly when the two are interchangeable. -/
theorem matches_cached_iff {sent response query : Message} {key : CacheKey}
    (hecho : Echoes sent response) (hsent : CacheKey.fromQuery sent = some key)
    (hkey : CacheKey.fromQuery query = some key) :
    Matches query (response.withId query.metadata.id) ↔ Interchangeable sent query := by
  constructor
  · rintro ⟨-, hop, q', r, hq', hr, hsame⟩
    refine ⟨hecho.opCode.symm.trans hop, r, q', hecho.queries.symm.trans hr, hq', ?_⟩
    exact hsame.queryClass
  · rintro ⟨hop, r, q', hr, hq', hclass⟩
    refine ⟨rfl, hecho.opCode.trans hop, q', r, hq', hecho.queries.trans hr, ?_⟩
    exact (sameQuestion_iff_of_key hr hq' hsent hkey).2 hclass

namespace Pipeline

/-- A call with exactly one question that has been replied to has got a matching reply. -/
def RepliesMatch (task : HandleTask) : Prop :=
  ∀ q response source, task.call.query.queries = [q] → task.phase = .replied response source →
    Matches task.call.query response

/-- The action is a lookup of a single-question query that finds an entry, and the message of that
entry was obtained for a query the asking one is not interchangeable with. -/
def ForeignHit (s : PipelineState) : PipelineAction → Prop
  | .lookUp i => ∃ call q key entry e, s.handles[i]? = some ⟨call, .screened⟩ ∧
      call.query.queries = [q] ∧ CacheKey.fromQuery call.query = some key ∧
      s.cache.map.entries.lookup key = some entry ∧ e ∈ s.exchanges ∧
      e.response = entry.message ∧ CacheKey.fromQuery e.sent = some key ∧
      ¬Interchangeable e.sent call.query
  | _ => False

/-- The upstream answers with a message that echoes id, opcode and question section. -/
def UpstreamEchoes (p : Pipeline) (s : PipelineState) (a : PipelineAction) : Prop :=
  ∀ sent response upstream env, p.Completes s a sent (.answered response upstream) env →
    Echoes sent response

/-! ### The paths that echo -/

theorem matches_blockResponse {query : Message} {q : Query} (hq : query.queries = [q]) :
    Matches query (blockResponse query) := by
  refine ⟨?_, ?_, q, q, hq, ?_, .refl q⟩ <;> simp [blockResponse, hq]

theorem matches_hosts {hosts : HostsMap} {query response : Message} {q : Query}
    (hq : query.queries = [q]) (h : hosts.lookup query = some response) :
    Matches query response := by
  obtain ⟨hid, hop, hqueries⟩ := HostsMap.lookup_echo h
  exact ⟨hid, hop, q, q, hq, by rw [hqueries, hq, List.take_succ_cons, List.take_zero], .refl q⟩

theorem repliesMatch_screen (p : Pipeline) (filter : Filter) (call : ClientCall) :
    RepliesMatch ⟨call, ((p.screen filter call.query).map fun answer ↦
      .replied answer.1 answer.2.1).getD .screened⟩ := by
  intro q response source hq hphase
  have hhead : call.query.queries.head? = some q := by rw [hq, List.head?_cons]
  rcases hhosts : p.hosts.lookup call.query with - | answer
  · rw [screen_of_not_hosts hhead hhosts] at hphase
    split at hphase
    · cases hphase
      exact matches_blockResponse hq
    · cases hphase
  · rw [screen_of_hosts hhead hhosts] at hphase
    cases hphase
    exact matches_hosts hq hhosts

theorem repliesMatch_upstream {p : Pipeline} {call : ClientCall} {outcome : UpstreamOutcome}
    (hecho : ∀ response upstream, outcome = .answered response upstream →
      Echoes (preparedQuery p.ecs call.query) response) :
    RepliesMatch ⟨call, .replied (upstreamReply call.query outcome).1
      (upstreamReply call.query outcome).2.1⟩ := by
  intro q response source hq hphase
  rcases outcome with ⟨answer, upstream⟩ | - | -
  · cases hphase
    have h := hecho answer upstream rfl
    have hechoes : Echoes call.query answer :=
      ⟨by simpa using h.id, by simpa using h.opCode, by simpa using h.queries⟩
    exact hechoes.matches hq
  · cases hphase
    exact (echoes_servfail call.query).matches hq
  · cases hphase
    exact (echoes_servfail call.query).matches hq

/-! ### Whole executions -/

/-- The invariant under an echoing upstream: provenance, and every exchange echoes. -/
structure Faithful (p : Pipeline) (s : PipelineState) : Prop where
  provenance : p.Provenance s
  echoes : ∀ e ∈ s.exchanges, Echoes e.sent e.response

/-- **When a lookup keeps replies matching**: exactly when it is no foreign hit. -/
theorem repliesMatch_lookUp_iff {p : Pipeline} {s : PipelineState} {i : ℕ} {call : ClientCall}
    (h : p.Faithful s) (hi : s.handles[i]? = some ⟨call, .screened⟩) :
    RepliesMatch ⟨call, ((consult s.now s.cache call.query).1.map fun found ↦
      .replied found.1 .cache).getD .awaiting⟩ ↔ ¬ForeignHit s (.lookUp i) := by
  constructor
  · rintro hmatch ⟨call', q, key, entry, e, hi', hq, hkey, hentry, he, hresp, hsent, hforeign⟩
    obtain ⟨rfl⟩ : call = call' := by simpa [hi] using hi'
    have hreply := hmatch q (entry.message.withId call.query.metadata.id) .cache hq
      (by simp [consult_fst, hkey, hentry])
    refine hforeign ((matches_cached_iff (h.echoes e he) hsent hkey).1 ?_)
    exact hresp ▸ hreply
  · intro hforeign q response source hq hphase
    rw [consult_fst] at hphase
    rcases hkey : CacheKey.fromQuery call.query with - | key
    · simp [hkey] at hphase
    · rcases hentry : s.cache.map.entries.lookup key with - | entry
      · simp [hkey, hentry] at hphase
      -- what is in the cache was once the response to a query with this key
      · obtain ⟨e, he, hresp, -, hsent⟩ :=
          h.provenance.contents _ (Cache.mem_contents_of_lookup hentry)
        have hinter : Interchangeable e.sent call.query := by
          by_contra hnot
          exact hforeign ⟨call, q, key, entry, e, hi, hq, hkey, hentry, he, hresp, hsent, hnot⟩
        simp only [hkey, hentry, Option.bind_some, Option.map_some, Option.getD_some,
          Phase.replied.injEq] at hphase
        rw [← hphase.1, show entry.message = e.response from hresp.symm]
        exact (matches_cached_iff (h.echoes e he) hsent hkey).2 hinter

variable [WireFormat] [Display]

/-- The upstream answers with a message in a given relation to what was sent. -/
def UpstreamAnswers (p : Pipeline) (R : Message → Message → Prop) (s : PipelineState)
    (a : PipelineAction) : Prop :=
  ∀ sent response upstream env, p.Completes s a sent (.answered response upstream) env →
    R sent response

/-- **One action** keeps all exchanges in a relation exactly if the upstream answers in it. -/
theorem step_exchanges_iff {R : Message → Message → Prop} {p : Pipeline} {s t : PipelineState}
    {a : PipelineAction} (hstep : p.machine.step s a = some t) :
    (∀ e ∈ t.exchanges, R e.sent e.response) ↔
      (∀ e ∈ s.exchanges, R e.sent e.response) ∧ p.UpstreamAnswers R s a := by
  have hquiet : (∀ sent outcome env, ¬p.Completes s a sent outcome env) →
      p.UpstreamAnswers R s a := fun h _ _ _ _ hc ↦ absurd hc (h _ _ _)
  cases step_of_machine hstep with
  | tick => exact (and_iff_left (hquiet (by rintro _ _ _ ⟨⟩))).symm
  | storeRules => exact (and_iff_left (hquiet (by rintro _ _ _ ⟨⟩))).symm
  | receive => exact (and_iff_left (hquiet (by rintro _ _ _ ⟨⟩))).symm
  | screen =>
    rw [stepScreen_exchanges]
    exact (and_iff_left (hquiet (by rintro _ _ _ ⟨⟩))).symm
  | lookUp =>
    rw [stepLookUp_exchanges]
    exact (and_iff_left (hquiet (by rintro _ _ _ ⟨⟩))).symm
  | @upstreamDone i call outcome env cache hi hstore =>
    rw [reply_exchanges, List.forall_mem_append, forall_mem_exchangeOf_iff]
    refine and_congr_right fun _ ↦ ⟨fun h sent response upstream _ hc ↦ ?_, ?_⟩
    · obtain ⟨-, -, hi'⟩ | - := hc
      obtain rfl := (HandleTask.mk.inj (Option.some.inj (hi.symm.trans hi'))).1
      exact h response upstream rfl
    · rintro h response upstream rfl
      exact h _ _ _ _ (.foreground _ env hi)
  | @refreshDone j task outcome env cache hj hstore =>
    rw [List.forall_mem_append, forall_mem_exchangeOf_iff]
    refine and_congr_right fun _ ↦ ⟨fun h sent response upstream _ hc ↦ ?_, ?_⟩
    · obtain - | ⟨-, -, hj'⟩ := hc
      obtain rfl := Option.some.inj (hj.symm.trans hj')
      exact h response upstream rfl
    · rintro h response upstream rfl
      exact h _ _ _ _ (.refresh _ env hj)

theorem Faithful.step {p : Pipeline} {s t : PipelineState} {a : PipelineAction}
    (h : p.Faithful s) (hecho : p.UpstreamEchoes s a) (hstep : p.machine.step s a = some t) :
    p.Faithful t :=
  ⟨h.provenance.step hstep, (step_exchanges_iff (R := Echoes) hstep).2 ⟨h.echoes, hecho⟩⟩

/-- **One action** keeps all replies matching exactly if it is no foreign hit. -/
theorem step_repliesMatch_iff {p : Pipeline} {s t : PipelineState} {a : PipelineAction}
    (h : p.Faithful s) (hecho : p.UpstreamEchoes s a) (hstep : p.machine.step s a = some t) :
    (∀ task ∈ t.handles, RepliesMatch task) ↔
      (∀ task ∈ s.handles, RepliesMatch task) ∧ ¬ForeignHit s a := by
  -- a call without a reply cannot have a wrong one
  have hunreplied : ∀ {call : ClientCall} {phase : Phase},
      (∀ response source, phase ≠ .replied response source) → RepliesMatch ⟨call, phase⟩ :=
    fun hphase _ response source _ heq ↦ absurd heq (hphase response source)
  cases step_of_machine hstep with
  | tick => exact (and_iff_left id).symm
  | storeRules => exact (and_iff_left id).symm
  | receive =>
    rw [List.forall_mem_append, List.forall_mem_singleton]
    exact and_congr_right fun _ ↦ iff_of_true (hunreplied (by simp)) id
  | @screen i call hi =>
    rw [stepScreen_handles, forall_mem_set_iff hi (hunreplied (by simp))]
    exact and_congr_right fun _ ↦ iff_of_true (p.repliesMatch_screen s.filter call) id
  | @lookUp i call hi =>
    rw [stepLookUp_handles, forall_mem_set_iff hi (hunreplied (by simp))]
    exact and_congr_right fun _ ↦ repliesMatch_lookUp_iff h hi
  | @upstreamDone i call outcome env cache hi hstore =>
    refine (forall_mem_set_iff hi (hunreplied (by simp))).trans
      (and_congr_right fun _ ↦ iff_of_true ?_ id)
    refine repliesMatch_upstream (p := p) fun response upstream houtcome ↦ ?_
    subst houtcome
    exact hecho _ _ _ _ (.foreground _ env hi)
  | refreshDone => exact (and_iff_left id).symm

/-- **Replies match exactly without foreign hits.** In an execution from an empty cache in which
every upstream response echoes the id, opcode and question section of the message it answers: every
reply to a single-question query, whichever path produced it, matches the query if and only if no
lookup is a foreign hit. -/
theorem replies_match_iff (p : Pipeline) (now : Instant) (filter : Filter) (maxMemoryMb : ℕ)
    (as : List PipelineAction) (s : PipelineState)
    (hrun : p.machine.run (.init now filter (Cache.new maxMemoryMb)) as = some s)
    (hecho : ∀ e ∈ s.exchanges, Echoes e.sent e.response) :
    (∀ task ∈ s.handles, ∀ q response source, task.call.query.queries = [q] →
      task.phase = .replied response source → Matches task.call.query response) ↔
    p.machine.Along (fun s a ↦ ¬ForeignHit s a) (.init now filter (Cache.new maxMemoryMb)) as := by
  have hstart : p.Faithful (.init now filter (Cache.new maxMemoryMb)) :=
    ⟨p.provenance_init now filter maxMemoryMb, by simp [PipelineState.init]⟩
  have halong := ((Machine.run_iff_along (M := p.machine)
    (fun _ _ _ hstep ↦ step_exchanges_iff (R := Echoes) hstep) hrun).1 hecho).2
  have hiff := Machine.run_iff_along_under (M := p.machine)
    (Q := fun s ↦ ∀ task ∈ s.handles, RepliesMatch task) (P := fun s a ↦ ¬ForeignHit s a)
    (fun _ _ _ h he hstep ↦ Faithful.step h he hstep)
    (fun _ _ _ h he hstep ↦ step_repliesMatch_iff h he hstep) hrun halong hstart
  exact hiff.trans (and_iff_right (by simp [PipelineState.init]))

end Pipeline

end Match

/-! ### A foreign hit

An `IN` query is answered and cached; a `CH` query for the same name and type is then answered with
the `IN` question. -/

/-- The upstream echoes, and the second reply does not match. -/
theorem cache_answers_other_class :
    let _ := asciiLowercase
    let _ : WireFormat := ⟨fun _ ↦ some 40⟩
    let _ : Display := ⟨fun _ ↦ [], fun _ ↦ []⟩
    let p : Pipeline := ⟨HostsMap.empty, none⟩
    let first := Sample.ask 7 .IN
    let second := Sample.ask 8 .CH
    ∃ s, p.machine.run Sample.start
        (Sample.missed 0 first (Sample.answer first 60) ++ Sample.found 1 second) = some s ∧
      (∀ e ∈ s.exchanges, Echoes e.sent e.response) ∧
      ∃ response, s.handles[1]? = some ⟨⟨second, 0, 0⟩, .replied response .cache⟩ ∧
        ¬Matches second response := by
  intro _ _ _ p first second
  have hrun : (p.machine.run Sample.start (Sample.missed 0 first (Sample.answer first 60) ++
      Sample.found 1 second)).any fun s ↦
        s.exchanges = [⟨first, Sample.answer first 60⟩] ∧
        s.handles[1]? =
          some ⟨⟨second, 0, 0⟩, .replied ((Sample.answer first 60).withId 8) .cache⟩ := by
    decide +kernel
  obtain ⟨s, hs, hprop⟩ := (Option.any_eq_true _ _).1 hrun
  obtain ⟨hex, hhandle⟩ := of_decide_eq_true hprop
  refine ⟨s, hs, ?_, _, hhandle, ?_⟩
  · rw [hex, List.forall_mem_singleton]
    exact ⟨rfl, rfl, rfl⟩
  · rintro ⟨-, -, q, r, hq, hr, hsame⟩
    cases hq
    cases hr
    cases hsame.queryClass

/-- Asked again in its own class, under another id, the query gets a match from the cache. -/
theorem replies_match_repeated :
    let _ := asciiLowercase
    let _ : WireFormat := ⟨fun _ ↦ some 40⟩
    let _ : Display := ⟨fun _ ↦ [], fun _ ↦ []⟩
    let p : Pipeline := ⟨HostsMap.empty, none⟩
    let first := Sample.ask 7 .IN
    let schedule := Sample.missed 0 first (Sample.answer first 60) ++
      Sample.found 1 (Sample.ask 8 .IN)
    (∃ s, p.machine.run Sample.start schedule = some s ∧ s.handles.length = 2) ∧
      p.machine.Along (fun s a ↦ ¬Pipeline.ForeignHit s a) Sample.start schedule := by
  intro _ _ _ p first schedule
  have hrun : (p.machine.run Sample.start schedule).any fun s ↦
      s.exchanges = [⟨first, Sample.answer first 60⟩] ∧
      s.handles = [⟨⟨first, 0, 0⟩, .replied (Sample.answer first 60) .upstream⟩,
        ⟨⟨Sample.ask 8 .IN, 0, 0⟩, .replied ((Sample.answer first 60).withId 8) .cache⟩] := by
    decide +kernel
  obtain ⟨s, hs, hprop⟩ := (Option.any_eq_true _ _).1 hrun
  obtain ⟨hex, hhandles⟩ := of_decide_eq_true hprop
  refine ⟨⟨s, hs, by rw [hhandles]; rfl⟩,
    (p.replies_match_iff 0 (Filter.new []) 1 schedule s hs ?_).1 ?_⟩
  · rw [hex, List.forall_mem_singleton]
    exact ⟨rfl, rfl, rfl⟩
  · rw [hhandles]
    rintro task htask q response source - hphase
    simp only [List.mem_cons, List.not_mem_nil, or_false] at htask
    rcases htask with rfl | rfl
    · cases hphase
      exact ⟨rfl, rfl, _, _, rfl, rfl, .refl _⟩
    · cases hphase
      exact ⟨rfl, rfl, _, _, rfl, rfl, .refl _⟩

end DnsBuffer
