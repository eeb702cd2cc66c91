import DnsBuffer.Pipeline.Matching
import DnsBuffer.Upstream.Resolver

/-!
# Replies carry the client's id

The tree of resolvers returns only messages with the id of the query it was given
(`Resolver.Returns.id_eq`), and the query it is given carries the client's id. The other paths of
`handle` set the id themselves: a hosts answer, a block response and a `SERVFAIL` are built from the
query, and a cache hit rewrites the id of what it found, whoever it was stored for.
-/

namespace DnsBuffer

namespace Pipeline

variable [Lowercase]

/-- A call that has been replied to has got a reply with its id. -/
def RepliesWithId (task : HandleTask) : Prop :=
  ∀ response source, task.phase = .replied response source →
    response.metadata.id = task.call.query.metadata.id

theorem screen_id {p : Pipeline} {filter : Filter} {query : Message}
    {answer : Message × AnswerSource × QueryOutcome} (h : p.screen filter query = some answer) :
    answer.1.metadata.id = query.metadata.id := by
  rcases hq : query.queries.head? with - | q
  · simp only [screen, hq, Option.some.injEq] at h
    rw [← h]
    rfl
  · rcases hhosts : p.hosts.lookup query with - | response
    · rw [screen_of_not_hosts hq hhosts] at h
      split at h
      · rw [← Option.some.inj h]
        simp only [blockResponse, hq, Message.replyTo_id]
      · exact absurd h (by simp)
    · rw [screen_of_hosts hq hhosts, Option.some.injEq] at h
      rw [← h]
      exact (HostsMap.lookup_echo hhosts).1

theorem repliesWithId_screen (p : Pipeline) (filter : Filter) (call : ClientCall) :
    RepliesWithId ⟨call, ((p.screen filter call.query).map fun answer ↦
      .replied answer.1 answer.2.1).getD .screened⟩ := by
  intro response source hphase
  rcases hscreen : p.screen filter call.query with - | answer
  · rw [hscreen] at hphase
    exact absurd hphase (by simp)
  · rw [hscreen] at hphase
    rw [← (Phase.replied.inj hphase).1]
    exact screen_id hscreen

/-- A hit is rewritten, whatever the id it was stored with. -/
theorem repliesWithId_lookUp (now : Instant) (cache : Cache) (call : ClientCall) :
    RepliesWithId ⟨call, ((consult now cache call.query).1.map fun found ↦
      .replied found.1 .cache).getD .awaiting⟩ := by
  intro response source hphase
  rw [consult_fst] at hphase
  rcases hkey : CacheKey.fromQuery call.query with - | key
  · exact absurd hphase (by simp [hkey])
  · rcases hentry : cache.map.entries.lookup key with - | entry
    · exact absurd hphase (by simp [hkey, hentry])
    · simp only [hkey, hentry, Option.bind_some, Option.map_some, Option.getD_some,
        Phase.replied.injEq] at hphase
      rw [← hphase.1]
      rfl

variable [Codec] [Network] [Display]

/-- The resolver may answer the query with this message. -/
def Answers (resolver : Resolver) (sent response : Message) : Prop :=
  ∃ upstream, resolver.Returns sent (.ok (response, upstream))

omit [Lowercase] [Display] in
theorem repliesWithId_upstream (p : Pipeline) (resolver : Resolver) {call : ClientCall}
    {outcome : UpstreamOutcome} (h : ∀ response upstream, outcome = .answered response upstream →
      Answers resolver (preparedQuery p.ecs call.query) response) :
    RepliesWithId ⟨call, .replied (upstreamReply call.query outcome).1
      (upstreamReply call.query outcome).2.1⟩ := by
  intro response source hphase
  rw [← (Phase.replied.inj hphase).1]
  rcases outcome with ⟨answer, upstream⟩ | - | -
  · obtain ⟨name, hname⟩ := h answer upstream rfl
    have hid := hname.id_eq _ rfl
    rwa [preparedQuery_metadata] at hid
  · rfl
  · rfl

/-- **One action** keeps the ids right. -/
theorem repliesWithId_step {p : Pipeline} {resolver : Resolver} {s t : PipelineState}
    {a : PipelineAction} (h : ∀ task ∈ s.handles, RepliesWithId task)
    (hanswers : p.UpstreamAnswers (Answers resolver) s a) (hstep : p.machine.step s a = some t) :
    ∀ task ∈ t.handles, RepliesWithId task := by
  cases step_of_machine hstep with
  | tick => exact h
  | storeRules => exact h
  | receive query startedAtMs =>
    rw [List.forall_mem_append, List.forall_mem_singleton]
    exact ⟨h, fun response source hphase ↦ absurd hphase (by simp)⟩
  | @screen i call hi =>
    rw [stepScreen_handles]
    exact Tasks.forall_set h (p.repliesWithId_screen s.filter call)
  | @lookUp i call hi =>
    rw [stepLookUp_handles]
    exact Tasks.forall_set h (repliesWithId_lookUp s.now s.cache call)
  | @upstreamDone i call outcome env cache hi hstore =>
    refine Tasks.forall_set h
      (p.repliesWithId_upstream resolver fun response upstream houtcome ↦ ?_)
    subst houtcome
    exact hanswers _ _ _ _ (.foreground _ env hi)
  | refreshDone => exact h

/-- **Ids are validated along the whole chain.** A message that `resolve_attributed` or `resolve` of
any resolver returns has the id of the query; and in every state of a pipeline over a resolver,
every reply has the id of the client's query. -/
theorem ids_validated (p : Pipeline) (resolver : Resolver) (now : Instant) (filter : Filter)
    (maxMemoryMb : ℕ) (as : List PipelineAction) (s : PipelineState)
    (hrun : p.machine.run (.init now filter (Cache.new maxMemoryMb)) as = some s)
    (hreturns : ∀ e ∈ s.exchanges, ∃ upstream,
      resolver.Returns e.sent (.ok (e.response, upstream))) :
    (∀ (r : Resolver) query result, r.Returns query result →
      (∀ answer, result = .ok answer → answer.1.metadata.id = query.metadata.id) ∧
      ∀ response, withoutName result = .ok response →
        response.metadata.id = query.metadata.id) ∧
    ∀ task ∈ s.handles, ∀ response source, task.phase = .replied response source →
      response.metadata.id = task.call.query.metadata.id := by
  refine ⟨fun r query result h ↦ ⟨h.id_eq, fun response hresponse ↦ ?_⟩, ?_⟩
  · rcases result with error | answer
    · exact absurd hresponse (by simp [withoutName, Except.map])
    · rw [← Except.ok.inj hresponse]
      exact h.id_eq answer rfl
  · have halong := ((Machine.run_iff_along (M := p.machine)
      (fun _ _ _ hstep ↦ step_exchanges_iff (R := Answers resolver) hstep) hrun).1 hreturns).2
    exact Machine.run_invariant_along (I := fun s ↦ ∀ task ∈ s.handles, RepliesWithId task)
      (fun _ _ _ h hanswers hstep ↦ repliesWithId_step h hanswers hstep) hrun halong
      (by simp [PipelineState.init])

end Pipeline

/-! ### A query asked twice -/

namespace Sample

/-- The question section of the two messages below on the wire: `a.example.`, `A`, `IN`. -/
def question : List UInt8 :=
  [0x01, 0x61, 0x07, 0x65, 0x78, 0x61, 0x6d, 0x70, 0x6c, 0x65, 0x00, 0x00, 0x01, 0x00, 0x01]

/-- A query with id 7, and its encoding. -/
def request : Message × List UInt8 :=
  (ask 7 .IN, [0x00, 0x07, 0x00, 0x00, 0x00, 0x01, 0x00, 0x00, 0x00, 0x00, 0x00, 0x00] ++ question)

/-- The answer to it, and its encoding. -/
def reply : Message × List UInt8 :=
  (answer (ask 7 .IN) 60,
    [0x00, 0x07, 0x80, 0x80, 0x00, 0x01, 0x00, 0x01, 0x00, 0x00, 0x00, 0x00] ++ question ++
      [0xc0, 0x0c, 0x00, 0x01, 0x00, 0x01, 0x00, 0x00, 0x00, 0x3c, 0x00, 0x04,
        0x01, 0x02, 0x03, 0x04])

/-- The codec on these two messages. -/
@[reducible] def codec : Codec where
  encodedLen m := (([request, reply].find? fun x ↦ x.1 = m).map Prod.snd).map List.length
  toVec m := ([request, reply].find? fun x ↦ x.1 = m).map Prod.snd
  fromVec bytes := ([request, reply].find? fun x ↦ x.2 = bytes).map Prod.fst
  encodedLen_eq _ := rfl

/-- The address of a plain upstream. -/
def server : SocketAddr := ⟨.v4 0x01010101#32, 53⟩

/-- A network in which it sends the answer and nobody else sends anything. -/
@[reducible] def network : Network where
  plain addr _ bytes := addr = server ∧ bytes = reply.2
  dot _ _ _ _ := False
  doh _ _ _ := False

/-- What it returns for the query. -/
theorem server_returns :
    let _ := codec
    let _ := network
    (Leaf.plain server).Returns request.1 (.ok reply.1) := by
  intro _ _
  have hplain : PlainResolver.resolve request.1 (.received reply.2) = .ok reply.1 := by
    decide +kernel
  rw [← hplain]
  exact .plain fun datagram hdatagram ↦ ⟨rfl, (PlainIo.received.inj hdatagram).symm⟩

end Sample

/-- A plain upstream answers a query with id 7; the same question with id 8 is then answered from
the cache, with id 8. -/
theorem ids_validated_repeated :
    let _ := asciiLowercase
    let _ := Sample.codec
    let _ := Sample.network
    let _ : Display := ⟨fun _ ↦ [], fun _ ↦ []⟩
    let p : Pipeline := ⟨HostsMap.empty, none⟩
    let first := Sample.ask 7 .IN
    ∃ s, p.machine.run Sample.start (Sample.missed 0 first (Sample.answer first 60) ++
        Sample.found 1 (Sample.ask 8 .IN)) = some s ∧
      s.handles[1]? = some ⟨⟨Sample.ask 8 .IN, 0, 0⟩,
        .replied ((Sample.answer first 60).withId 8) .cache⟩ ∧
      ∀ task ∈ s.handles, ∀ response source, task.phase = .replied response source →
        response.metadata.id = task.call.query.metadata.id := by
  intro _ _ _ _ p first
  have hrun : (p.machine.run Sample.start (Sample.missed 0 first (Sample.answer first 60) ++
      Sample.found 1 (Sample.ask 8 .IN))).any fun s ↦
        s.exchanges = [⟨first, Sample.answer first 60⟩] ∧
        s.handles[1]? = some ⟨⟨Sample.ask 8 .IN, 0, 0⟩,
          .replied ((Sample.answer first 60).withId 8) .cache⟩ := by
    decide +kernel
  obtain ⟨s, hs, hprop⟩ := (Option.any_eq_true _ _).1 hrun
  obtain ⟨hex, hhandle⟩ := of_decide_eq_true hprop
  have hreturns : ∀ e ∈ s.exchanges, ∃ upstream,
      Resolver.Returns (.leaf (.plain Sample.server)) e.sent (.ok (e.response, upstream)) := by
    rw [hex, List.forall_mem_singleton]
    exact ⟨none, .leaf Sample.server_returns⟩
  exact ⟨s, hs, hhandle,
    (p.ids_validated (.leaf (.plain Sample.server)) 0 (Filter.new []) 1 _ s hs hreturns).2⟩

end DnsBuffer
