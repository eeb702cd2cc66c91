import DnsBuffer.Server.Model

/-!
# What the server sends

Every datagram the server sends answers one datagram it has received: it goes to the peer of that
one, it is the encoding of the reply the pipeline gave to the query that was decoded from it, and no
other datagram does. With the ids of the pipeline's replies (`Pipeline.RepliesWithId`) the client
finds its own id in it, whatever else the server was doing.

The invariant follows a task along its stages (`Server.Traced`). What ties a task to the pipeline is
the position of its call there, so it rests on two facts about the pipeline: a call keeps its query,
and a reply is final (`Pipeline.continues_of_step`).
-/

namespace DnsBuffer

namespace Pipeline

/-- Every call goes on with its query, and those that are replied to stay as they are. -/
def Continues (before after : List HandleTask) : Prop :=
  ∀ (n : ℕ) (task : HandleTask), before[n]? = some task → ∃ task' : HandleTask,
    after[n]? = some task' ∧ task'.call = task.call ∧
      ∀ response source, task.phase = .replied response source → task' = task

theorem continues_set {handles : List HandleTask} {i : ℕ} {call : ClientCall} {phase : Phase}
    (hi : handles[i]? = some ⟨call, phase⟩)
    (hphase : ∀ response source, phase ≠ .replied response source) (new : Phase) :
    Continues handles (handles.set i ⟨call, new⟩) := by
  intro n task hn
  rcases eq_or_ne i n with rfl | hne
  · obtain rfl := Option.some.inj (hi.symm.trans hn)
    exact ⟨_, getElem?_set_of_some hi _, rfl, fun response source h ↦
      absurd h (hphase response source)⟩
  · exact ⟨task, (List.getElem?_set_ne hne).trans hn, rfl, fun _ _ _ ↦ rfl⟩

variable [Lowercase] [WireFormat] [Display]

/-- **A call keeps its query, and a reply is final.** -/
theorem continues_of_step {p : Pipeline} {s t : PipelineState} {a : PipelineAction}
    (hstep : p.machine.step s a = some t) : Continues s.handles t.handles := by
  cases step_of_machine hstep with
  | receive query startedAtMs =>
    intro n task hn
    have hlt := (List.getElem?_eq_some_iff.1 hn).1
    exact ⟨task, (List.getElem?_append_left hlt).trans hn, rfl, fun _ _ _ ↦ rfl⟩
  | screen hi =>
    rw [stepScreen_handles]
    exact continues_set hi (by rintro _ _ ⟨⟩) _
  | lookUp hi =>
    rw [stepLookUp_handles]
    exact continues_set hi (by rintro _ _ ⟨⟩) _
  | upstreamDone _ _ hi _ => exact continues_set hi (by rintro _ _ ⟨⟩) _
  | _ => exact fun n task hn ↦ ⟨task, hn, rfl, fun _ _ _ ↦ rfl⟩

end Pipeline

namespace Server

variable [Codec]

/-- The bytes are the encoding of the pipeline's reply to what was decoded from the datagram. -/
def Answering (pipeline : PipelineState) (datagram : Datagram) (bytes : List UInt8) : Prop :=
  ∃ task ∈ pipeline.handles, ∃ response source, task.phase = .replied response source ∧
    Codec.fromVec datagram.data = some task.call.query ∧ Codec.toVec response = some bytes

/-- What is known of a task at its stage. -/
def Traced (s : Server) (i : ℕ) (h : Handler) : Prop :=
  match h.stage with
  | .handling n => ∃ task, s.pipeline.handles[n]? = some task ∧
      Codec.fromVec h.datagram.data = some task.call.query
  | .sending bytes => Answering s.pipeline h.datagram bytes
  | .ended .sent => ∃ bytes, (i, ⟨h.datagram.peer, bytes⟩) ∈ s.replies
  | _ => True

/-- Tasks are traced, and every reply was sent by a task that is traced to its datagram. -/
structure Tracing (s : Server) : Prop where
  tasks : ∀ i h, s.handlers[i]? = some h → s.Traced i h
  replies : ∀ i d, (i, d) ∈ s.replies → ∃ h, s.handlers[i]? = some h ∧ h.stage = .ended .sent ∧
    d.peer = h.datagram.peer ∧ Answering s.pipeline h.datagram d.data
  once : (s.replies.map Prod.fst).Nodup

theorem tracing_start (pipeline : PipelineState) : (start pipeline).Tracing where
  tasks i h hi := by cases hi
  replies i d hd := by cases hd
  once := .nil

/-- A task at a stage where nothing is known is traced. -/
theorem traced_of_stage {s : Server} {i : ℕ} {h : Handler} (hstage : h.stage = .spawned ∨
    h.stage = .cancelled ∨ ∃ how, h.stage = .ended how ∧ how ≠ .sent) : s.Traced i h := by
  rw [Traced]
  obtain hstage | hstage | ⟨how, hstage, hne⟩ := hstage
  · rw [hstage]
    trivial
  · rw [hstage]
    trivial
  · rw [hstage]
    cases how with
    | sent => exact absurd rfl hne
    | _ => trivial

/-- What a trace depends on: the calls of the pipeline, and what was sent. -/
structure Extends (s t : Server) : Prop where
  calls : Pipeline.Continues s.pipeline.handles t.pipeline.handles
  replies : ∀ r ∈ s.replies, r ∈ t.replies

omit [Codec] in
theorem extends_of_eq {s t : Server} (hpipeline : t.pipeline = s.pipeline)
    (hreplies : ∀ r ∈ s.replies, r ∈ t.replies) : Extends s t where
  calls n task hn := ⟨task, by rw [hpipeline]; exact hn, rfl, fun _ _ _ ↦ rfl⟩
  replies := hreplies

theorem Extends.answering {s t : Server} (h : Extends s t) {datagram : Datagram}
    {bytes : List UInt8} (hanswering : Answering s.pipeline datagram bytes) :
    Answering t.pipeline datagram bytes := by
  obtain ⟨task, hmem, response, source, hphase, hdecode, hencode⟩ := hanswering
  obtain ⟨n, hn⟩ := List.mem_iff_getElem?.1 hmem
  obtain ⟨task', hn', -, hsame⟩ := h.calls n task hn
  obtain rfl := hsame response source hphase
  exact ⟨_, List.mem_of_getElem? hn', response, source, hphase, hdecode, hencode⟩

theorem Extends.traced {s t : Server} (h : Extends s t) {i : ℕ} {task : Handler}
    (htraced : s.Traced i task) : t.Traced i task := by
  rw [Traced] at htraced ⊢
  split at htraced
  · rename_i n hstage
    obtain ⟨call, hn, hdecode⟩ := htraced
    obtain ⟨call', hn', hcall, -⟩ := h.calls n call hn
    exact ⟨call', hn', hcall ▸ hdecode⟩
  · rename_i bytes hstage
    exact h.answering htraced
  · rename_i hstage
    obtain ⟨bytes, hmem⟩ := htraced
    exact ⟨bytes, h.replies _ hmem⟩
  · trivial

/-- A task moves on, and has not sent anything. -/
theorem Tracing.move {s t : Server} (h : s.Tracing) (hext : Extends s t) {i : ℕ}
    {old : Handler} {stage : HandlerStage} (hi : s.handlers[i]? = some old)
    (hold : old.stage ≠ .ended .sent)
    (hhandlers : t.handlers = s.handlers.set i { old with stage := stage })
    (hreplies : t.replies = s.replies) (hnew : t.Traced i { old with stage := stage }) :
    t.Tracing where
  tasks j task hj := by
    rw [hhandlers] at hj
    rcases eq_or_ne i j with rfl | hne
    · rw [List.getElem?_set_self (List.getElem?_eq_some_iff.1 hi).1, Option.some.injEq] at hj
      exact hj ▸ hnew
    · rw [List.getElem?_set_ne hne] at hj
      exact hext.traced (h.tasks j task hj)
  replies j d hd := by
    obtain ⟨task, hj, hsent, hpeer, hanswering⟩ := h.replies j d (hreplies ▸ hd)
    have hne : i ≠ j := by
      rintro rfl
      obtain rfl := Option.some.inj (hi.symm.trans hj)
      exact hold hsent
    exact ⟨task, by rw [hhandlers, List.getElem?_set_ne hne, hj], hsent, hpeer,
      hext.answering hanswering⟩
  once := by
    rw [hreplies]
    exact h.once

/-- The tasks stay as they are, or are aborted. -/
theorem Tracing.of_handlers {s t : Server} (h : s.Tracing) (hext : Extends s t)
    (hreplies : t.replies = s.replies)
    (hhandlers : ∀ i task, t.handlers[i]? = some task →
      (task.stage = .spawned ∧ i = s.handlers.length) ∨
      ∃ old, s.handlers[i]? = some old ∧ old.datagram = task.datagram ∧ old.stage = task.stage)
    (hkept : ∀ (i : ℕ) (old : Handler), s.handlers[i]? = some old → ∃ task : Handler,
      t.handlers[i]? = some task ∧ task.datagram = old.datagram ∧ task.stage = old.stage) :
    t.Tracing where
  tasks i task hi := by
    obtain ⟨hspawned, -⟩ | ⟨old, hold, hdatagram, hstage⟩ := hhandlers i task hi
    · exact traced_of_stage (Or.inl hspawned)
    · have htraced := hext.traced (h.tasks i old hold)
      rw [Traced, hstage, hdatagram] at htraced
      exact htraced
  replies i d hd := by
    obtain ⟨old, hi, hsent, hpeer, hanswering⟩ := h.replies i d (hreplies ▸ hd)
    obtain ⟨task, hi', hdatagram, hstage⟩ := hkept i old hi
    exact ⟨task, hi', hstage.trans hsent, hpeer.trans (congrArg _ hdatagram.symm),
      hdatagram.symm ▸ hext.answering hanswering⟩
  once := by
    rw [hreplies]
    exact h.once

/-- The tasks stay as they are. -/
theorem Tracing.of_eq {s t : Server} (h : s.Tracing) (hext : Extends s t)
    (hreplies : t.replies = s.replies) (hhandlers : t.handlers = s.handlers) : t.Tracing := by
  refine h.of_handlers hext hreplies (fun i task hi ↦ Or.inr ⟨task, ?_, rfl, rfl⟩)
    fun i old hi ↦ ⟨old, ?_, rfl, rfl⟩
  · rw [← hhandlers]
    exact hi
  · rw [hhandlers]
    exact hi

/-- A task sends the reply. -/
theorem Tracing.sent {s : Server} (h : s.Tracing) {i : ℕ} {old : Handler} {bytes : List UInt8}
    (hi : s.handlers[i]? = some old) (hstage : old.stage = .sending bytes) :
    Tracing { s.setStage i old (.ended .sent) with
      replies := s.replies ++ [(i, ⟨old.datagram.peer, bytes⟩)] } := by
  have hset := List.getElem?_set_self (a := { old with stage := .ended .sent })
    (List.getElem?_eq_some_iff.1 hi).1
  have hanswering := h.tasks i old hi
  rw [Traced, hstage] at hanswering
  -- task `i` is in front of its send, so it has not sent anything
  have hnew : i ∉ s.replies.map Prod.fst := by
    intro hmem
    obtain ⟨⟨j, d⟩, hd, rfl⟩ := List.mem_map.1 hmem
    obtain ⟨task, hj, hsent, -⟩ := h.replies j d hd
    obtain rfl := Option.some.inj (hi.symm.trans hj)
    cases hstage.symm.trans hsent
  refine ⟨fun j task hj ↦ ?_, fun j d hd ↦ ?_, ?_⟩
  · rcases eq_or_ne i j with rfl | hne
    · obtain rfl := Option.some.inj (hset.symm.trans hj)
      exact ⟨bytes, List.mem_append_right _ (List.mem_singleton_self _)⟩
    · have hext : Extends s { s.setStage i old (.ended .sent) with
          replies := s.replies ++ [(i, ⟨old.datagram.peer, bytes⟩)] } :=
        extends_of_eq rfl fun r hr ↦ List.mem_append_left _ hr
      exact hext.traced (h.tasks j task ((List.getElem?_set_ne hne).symm.trans hj))
  · obtain hd | hd := List.mem_append.1 hd
    · obtain ⟨task, hj, hsent, hpeer, hanswering⟩ := h.replies j d hd
      have hne : i ≠ j := fun heq ↦ hnew (List.mem_map.2 ⟨(j, d), hd, heq.symm⟩)
      exact ⟨task, (List.getElem?_set_ne hne).trans hj, hsent, hpeer, hanswering⟩
    · obtain ⟨rfl, rfl⟩ := Prod.mk.inj (List.mem_singleton.1 hd)
      exact ⟨_, hset, rfl, rfl, hanswering⟩
  · show ((s.replies ++ [_]).map Prod.fst).Nodup
    rw [List.map_append, List.nodup_append_comm]
    exact List.nodup_cons.2 ⟨hnew, h.once⟩

section Runs

variable [Lowercase] [Display]

/-- **One step** keeps every task and every reply traced. -/
theorem Tracing.step {p : Pipeline} {s t : Server} {a : ServerAction} (h : s.Tracing)
    (hstep : (machine p).step s a = some t) : t.Tracing := by
  cases step_of_machine hstep with
  | pipeline _ hpipeline =>
    exact h.of_eq ⟨Pipeline.continues_of_step hpipeline, fun _ hr ↦ hr⟩ rfl rfl
  | receive datagram _ =>
    refine h.of_handlers (extends_of_eq rfl fun _ hr ↦ hr) rfl (fun i task hi ↦ ?_)
      fun i old hi ↦ ⟨old, ?_, rfl, rfl⟩
    · obtain hlt | heq | hgt := Nat.lt_trichotomy i s.handlers.length
      · exact Or.inr ⟨task, (List.getElem?_append_left hlt).symm.trans hi, rfl, rfl⟩
      · rw [heq] at hi
        rw [← Option.some.inj (List.getElem?_concat_length.symm.trans hi)]
        exact Or.inl ⟨rfl, heq⟩
      · have hlt := (List.getElem?_eq_some_iff.1 hi).1
        rw [List.length_append, List.length_singleton] at hlt
        omega
    · exact (List.getElem?_append_left (List.getElem?_eq_some_iff.1 hi).1).trans hi
  | receiveFails => exact h.of_eq (extends_of_eq rfl fun _ hr ↦ hr) rfl rfl
  | shutdown => exact h.of_eq (extends_of_eq rfl fun _ hr ↦ hr) rfl rfl
  | undecodable _ hi hstage _ =>
    exact h.move (extends_of_eq rfl fun _ hr ↦ hr) hi (by rw [hstage]; rintro ⟨⟩) rfl rfl
      (traced_of_stage (Or.inr (Or.inr ⟨_, rfl, by rintro ⟨⟩⟩)))
  | called hi hstage hdecode hpipeline =>
    refine h.move ⟨Pipeline.continues_of_step hpipeline, fun _ hr ↦ hr⟩ hi
      (by rw [hstage]; rintro ⟨⟩) rfl rfl ?_
    cases hpipeline
    exact ⟨_, List.getElem?_concat_length, hdecode⟩
  | unencodable hi hstage _ _ =>
    exact h.move (extends_of_eq rfl fun _ hr ↦ hr) hi (by rw [hstage]; rintro ⟨⟩) rfl rfl
      (traced_of_stage (Or.inr (Or.inr ⟨_, rfl, by rintro ⟨⟩⟩)))
  | @encoded i n task call response source bytes hi hstage hn hencode =>
    refine h.move (extends_of_eq rfl fun _ hr ↦ hr) hi (by rw [hstage]; rintro ⟨⟩) rfl rfl ?_
    have htraced := h.tasks i task hi
    rw [Traced, hstage] at htraced
    obtain ⟨call', hn', hdecode⟩ := htraced
    obtain rfl := Option.some.inj (hn.symm.trans hn')
    exact ⟨_, List.mem_of_getElem? hn, response, source, rfl, hdecode, hencode⟩
  | sent hi hstage => exact h.sent hi hstage
  | sendFailed hi hstage =>
    exact h.move (extends_of_eq rfl fun _ hr ↦ hr) hi (by rw [hstage]; rintro ⟨⟩) rfl rfl
      (traced_of_stage (Or.inr (Or.inr ⟨_, rfl, by rintro ⟨⟩⟩)))
  | cancel hi _ hover =>
    refine h.move (extends_of_eq rfl fun _ hr ↦ hr) hi (fun hsent ↦ ?_) rfl rfl
      (traced_of_stage (Or.inr (Or.inl rfl)))
    rw [hsent] at hover
    cases hover
  | join => exact h.of_eq (extends_of_eq rfl fun _ hr ↦ hr) rfl rfl
  | drained => exact h.of_eq (extends_of_eq rfl fun _ hr ↦ hr) rfl rfl
  | timeout =>
    refine h.of_handlers (extends_of_eq rfl fun _ hr ↦ hr) rfl (fun i task hi ↦ ?_)
      fun i old hi ↦ ⟨old.abort, ?_, rfl, rfl⟩
    · rw [List.getElem?_map] at hi
      obtain ⟨old, hold, rfl⟩ := Option.map_eq_some_iff.1 hi
      exact Or.inr ⟨old, hold, rfl, rfl⟩
    · rw [List.getElem?_map, hi]
      rfl

variable [Network]

/-- The replies of a pipeline over a resolver carry the ids of their queries. -/
theorem repliesWithId_of_run {p : Pipeline} {resolver : Resolver} {now : Instant} {filter : Filter}
    {cache : Cache} {as : List PipelineAction} {s : PipelineState}
    (hrun : p.machine.run (.init now filter cache) as = some s)
    (hreturns : ∀ e ∈ s.exchanges, Pipeline.Answers resolver e.sent e.response) :
    ∀ task ∈ s.handles, Pipeline.RepliesWithId task := by
  have halong := ((Machine.run_iff_along (M := p.machine) (fun _ _ _ hstep ↦
    Pipeline.step_exchanges_iff (R := Pipeline.Answers resolver) hstep) hrun).1 hreturns).2
  exact Machine.run_invariant_along (fun _ _ _ h hanswers hstep ↦
    Pipeline.repliesWithId_step h hanswers hstep) hrun halong (by simp [PipelineState.init])

/-- **Every reply answers its datagram.** However the tasks, the pipeline and the shutdown of the
server interleave: no task sends twice; what a task sends goes to the peer of its datagram and is
the encoding of a reply with the id of the query in that datagram; and a task that reports a sent
reply has sent one. -/
theorem replies_answer_datagrams (p : Pipeline) (resolver : Resolver) {now : Instant}
    {filter : Filter} {cache : Cache} {as : List ServerAction} {s : Server}
    (hrun : (machine p).run (start (.init now filter cache)) as = some s)
    (hreturns : ∀ e ∈ s.pipeline.exchanges, ∃ upstream,
      resolver.Returns e.sent (.ok (e.response, upstream))) :
    (s.replies.map Prod.fst).Nodup ∧
    (∀ i d, (i, d) ∈ s.replies → ∃ h query response, s.handlers[i]? = some h ∧
      d.peer = h.datagram.peer ∧ Codec.fromVec h.datagram.data = some query ∧
      Codec.toVec response = some d.data ∧ response.metadata.id = query.metadata.id) ∧
    ∀ i h, s.handlers[i]? = some h → h.stage = .ended .sent →
      ∃ bytes, (i, ⟨h.datagram.peer, bytes⟩) ∈ s.replies := by
  have h : s.Tracing :=
    Machine.run_invariant (fun _ _ _ h hstep ↦ h.step hstep) hrun (tracing_start _)
  obtain ⟨bs, hpipeline⟩ := (projects_pipeline p).run trivial hrun
  have hids := repliesWithId_of_run hpipeline hreturns
  refine ⟨h.once, fun i d hd ↦ ?_, fun i task hi hsent ↦ ?_⟩
  · obtain ⟨task, hi, -, hpeer, call, hcall, response, source, hphase, hdecode, hencode⟩ :=
      h.replies i d hd
    exact ⟨task, _, response, hi, hpeer, hdecode, hencode, hids call hcall response source hphase⟩
  · have htraced := h.tasks i task hi
    rw [Traced, hsent] at htraced
    exact htraced

end Runs

end Server

namespace Sample

/-- The sender of the sample query. -/
def peer : SocketAddr := ⟨.v4 0xC0000201#32, 4000⟩

/-- The query arrives, misses the cache, is answered by the upstream, and the reply is sent. -/
def served : List ServerAction :=
  [.receive ⟨peer, request.2⟩, .start 0 0, .pipeline (.screen 0), .pipeline (.lookUp 0),
    .pipeline (.upstreamDone 0 (.answered reply.1 none) ⟨0, fun _ ↦ false⟩), .encode 0,
    .send 0 true]

end Sample

/-- The reply of the upstream goes back to the sender. -/
theorem replies_answer_datagrams_served :
    let _ := asciiLowercase
    let _ := Sample.codec
    let _ := Sample.network
    let _ : Display := ⟨fun _ ↦ [], fun _ ↦ []⟩
    let p : Pipeline := ⟨HostsMap.empty, none⟩
    ∃ s, (Server.machine p).run (.start Sample.start) Sample.served = some s ∧
      s.replies = [(0, ⟨Sample.peer, Sample.reply.2⟩)] ∧ (s.replies.map Prod.fst).Nodup := by
  intro _ _ _ _ p
  have hrun : ((Server.machine p).run (.start Sample.start) Sample.served).any fun s ↦
      s.pipeline.exchanges = [⟨Sample.request.1, Sample.reply.1⟩] ∧
        s.replies = [(0, ⟨Sample.peer, Sample.reply.2⟩)] := by
    decide +kernel
  obtain ⟨s, hs, hprop⟩ := (Option.any_eq_true _ _).1 hrun
  obtain ⟨hex, hreplies⟩ := of_decide_eq_true hprop
  have hreturns : ∀ e ∈ s.pipeline.exchanges, ∃ upstream,
      Resolver.Returns (.leaf (.plain Sample.server)) e.sent (.ok (e.response, upstream)) := by
    rw [hex, List.forall_mem_singleton]
    exact ⟨none, .leaf Sample.server_returns⟩
  exact ⟨s, hs, hreplies,
    (Server.replies_answer_datagrams p (.leaf (.plain Sample.server)) hs hreturns).1⟩

end DnsBuffer
