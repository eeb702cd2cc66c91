import DnsBuffer.Foundation.Simulation
import DnsBuffer.Foundation.Tasks
import DnsBuffer.Pipeline.Identity

/-!
# The UDP server

`run_udp_socket_until` receives datagrams, starts a task for each of them, and stops receiving when
it is told to shut down or the socket fails. It then waits for the tasks, for two seconds at most,
and aborts the ones that are left. The task of a datagram decodes it, calls the pipeline, encodes
the response, and sends it back.

```
receiving --shutdown / receive fails--> draining --all joined--> returned
                                        draining --2 s--> aborting --all joined--> returned
```

The pipeline is the machine `Pipeline.machine`, whose calls are now made by the tasks: a call moves
only while its task is there, so a task that is cancelled leaves its call where it is. Refreshes run
on their own. An aborted task may still take steps until the runtime gets to cancel it.

The join set is looked at after the loop only: as long as the server receives, it holds the task of
every datagram there ever was (`Server.Inv.receiving`).
-/

namespace DnsBuffer

/-- A datagram, and its peer: who sent it, or whom it is sent to. -/
structure Datagram where
  peer : SocketAddr
  data : List UInt8
deriving DecidableEq

/-- What `recv_from` leaves of a datagram: what exceeds the buffer is lost. -/
def Datagram.received (d : Datagram) : Datagram := { d with data := d.data.take 65535 }

/-- How `handle_packet` ends. -/
inductive HandlerEnd
  | undecodable | unencodable | sendFailed | sent
deriving DecidableEq

/-- How far the task of a datagram has got. -/
inductive HandlerStage
  | spawned
  /-- `Pipeline::handle` runs, as this call of the pipeline. -/
  | handling (call : ℕ)
  /-- `send_to` waits for the socket. -/
  | sending (bytes : List UInt8)
  | ended (how : HandlerEnd)
  | cancelled
deriving DecidableEq

/-- The task is over: it ended by itself, or it was cancelled. -/
def HandlerStage.isOver : HandlerStage → Bool
  | .ended _ => true
  | .cancelled => true
  | _ => false

/-- The task of a datagram. -/
structure Handler where
  datagram : Datagram
  stage : HandlerStage
  aborted : Bool
deriving DecidableEq

/-- `abort` of a task: nothing happens to one that is over. -/
def Handler.abort (h : Handler) : Handler := { h with aborted := h.aborted || !h.stage.isOver }

/-- What `run_udp_socket_until` returns. -/
inductive ServerResult
  | ok
  | receiveError (text : Text)
deriving DecidableEq

/-- Where `run_udp_socket_until` is. -/
inductive ServerPhase
  | receiving
  | draining (result : ServerResult) (deadline : Instant)
  | aborting (result : ServerResult)
  | returned (result : ServerResult)
deriving DecidableEq

/-- The time the tasks are given to end, 2 s. -/
def drainTimeout : ℕ := 2 * nanosPerSecond

/-- The server and its pipeline. Tasks are known by the order of their datagrams. -/
structure Server where
  pipeline : PipelineState
  phase : ServerPhase
  /-- When the loop ended. -/
  stoppedAt : Option Instant
  handlers : List Handler
  joinSet : List ℕ
  /-- The datagrams sent, with the task that sent them. -/
  replies : List (ℕ × Datagram)
deriving DecidableEq

/-- A step of the server, of one of its tasks, or of the pipeline. -/
inductive ServerAction
  | pipeline (action : PipelineAction)
  | receive (datagram : Datagram)
  | receiveFails (text : Text)
  | shutdown
  /-- Task `i` decodes its datagram and calls the pipeline. -/
  | start (i : ℕ) (startedAtMs : ℤ)
  /-- Task `i` encodes the response of its call. -/
  | encode (i : ℕ)
  | send (i : ℕ) (ok : Bool)
  /-- The runtime cancels task `i`, which was aborted. -/
  | cancel (i : ℕ)
  | join (i : ℕ)
  /-- The join set is empty. -/
  | drained
  /-- The tasks have not ended in time. -/
  | timeout

namespace Server

/-- A server that has not received anything yet. -/
def start (pipeline : PipelineState) : Server := ⟨pipeline, .receiving, none, [], [], []⟩

/-- The call an action of the pipeline is about. -/
def callOf : PipelineAction → Option ℕ
  | .screen i => some i
  | .lookUp i => some i
  | .upstreamDone i _ _ => some i
  | _ => none

/-- The pipeline moves by itself, except that its calls are made by tasks and move with them. -/
def allows (s : Server) : PipelineAction → Bool
  | .receive _ _ => false
  | action => (callOf action).all fun call ↦ s.handlers.any (·.stage = .handling call)

/-- Task `i` moves on. -/
def setStage (s : Server) (i : ℕ) (h : Handler) (stage : HandlerStage) : Server :=
  { s with handlers := s.handlers.set i { h with stage := stage } }

/-- The loop ends. -/
def stop (s : Server) (result : ServerResult) : Server :=
  { s with
    phase := .draining result (s.pipeline.now + drainTimeout)
    stoppedAt := some s.pipeline.now }

variable [Lowercase] [Codec] [Display]

/-- The beginning of `handle_packet`. -/
def startHandler (p : Pipeline) (s : Server) (i : ℕ) (h : Handler) (startedAtMs : ℤ) :
    Option Server :=
  match Codec.fromVec h.datagram.data with
  | none => some (s.setStage i h (.ended .undecodable))
  | some query =>
    (p.machine.step s.pipeline (.receive query startedAtMs)).map fun pipeline ↦
      { s with pipeline := pipeline }.setStage i h (.handling s.pipeline.handles.length)

omit [Lowercase] [Display] in
/-- What `handle_packet` does with the response of the pipeline. -/
def encodeReply (s : Server) (i : ℕ) (h : Handler) (response : Message) : Server :=
  match Codec.toVec response with
  | none => s.setStage i h (.ended .unencodable)
  | some bytes => s.setStage i h (.sending bytes)

/-- The end of `handle_packet`. -/
def sendReply (s : Server) (i : ℕ) (h : Handler) (bytes : List UInt8) : Bool → Server
  | true => { s.setStage i h (.ended .sent) with
      replies := s.replies ++ [(i, ⟨h.datagram.peer, bytes⟩)] }
  | false => s.setStage i h (.ended .sendFailed)

/-- The server as a machine. -/
def machine (p : Pipeline) : Machine Server ServerAction where
  step s
    | .pipeline action =>
      if s.allows action then
        (p.machine.step s.pipeline action).map fun pipeline ↦ { s with pipeline := pipeline }
      else none
    | .receive datagram =>
      if s.phase = .receiving then
        some { s with
          handlers := s.handlers ++ [⟨datagram.received, .spawned, false⟩]
          joinSet := s.joinSet ++ [s.handlers.length] }
      else none
    | .receiveFails text =>
      if s.phase = .receiving then some (s.stop (.receiveError text)) else none
    | .shutdown => if s.phase = .receiving then some (s.stop .ok) else none
    | .start i startedAtMs =>
      match s.handlers[i]? with
      | some ⟨datagram, .spawned, aborted⟩ =>
        startHandler p s i ⟨datagram, .spawned, aborted⟩ startedAtMs
      | _ => none
    | .encode i =>
      match s.handlers[i]? with
      | some ⟨datagram, .handling call, aborted⟩ =>
        match s.pipeline.handles[call]? with
        | some ⟨_, .replied response _⟩ =>
          some (s.encodeReply i ⟨datagram, .handling call, aborted⟩ response)
        | _ => none
      | _ => none
    | .send i ok =>
      match s.handlers[i]? with
      | some ⟨datagram, .sending bytes, aborted⟩ =>
        some (s.sendReply i ⟨datagram, .sending bytes, aborted⟩ bytes ok)
      | _ => none
    | .cancel i =>
      match s.handlers[i]? with
      | some ⟨datagram, stage, true⟩ =>
        if stage.isOver then none else some (s.setStage i ⟨datagram, stage, true⟩ .cancelled)
      | _ => none
    | .join i =>
      match s.handlers[i]?, s.phase with
      | some h, .draining _ _ =>
        if h.stage.isOver ∧ i ∈ s.joinSet then some { s with joinSet := s.joinSet.erase i }
        else none
      | some h, .aborting _ =>
        if h.stage.isOver ∧ i ∈ s.joinSet then some { s with joinSet := s.joinSet.erase i }
        else none
      | _, _ => none
    | .drained =>
      match s.phase with
      | .draining result _ =>
        if s.joinSet = [] then some { s with phase := .returned result } else none
      | .aborting result =>
        if s.joinSet = [] then some { s with phase := .returned result } else none
      | _ => none
    | .timeout =>
      match s.phase with
      | .draining result deadline =>
        if deadline ≤ s.pipeline.now ∧ s.joinSet ≠ [] then
          some { s with phase := .aborting result, handlers := s.handlers.map Handler.abort }
        else none
      | _ => none

/-! ### What one step can do -/

/-- The enabled steps and their effects. -/
inductive Step (p : Pipeline) (s : Server) : ServerAction → Server → Prop
  | pipeline {action : PipelineAction} {pipeline : PipelineState} (hallows : s.allows action = true)
      (hstep : p.machine.step s.pipeline action = some pipeline) :
      Step p s (.pipeline action) { s with pipeline := pipeline }
  | receive (datagram : Datagram) (hphase : s.phase = .receiving) :
      Step p s (.receive datagram)
        { s with
          handlers := s.handlers ++ [⟨datagram.received, .spawned, false⟩]
          joinSet := s.joinSet ++ [s.handlers.length] }
  | receiveFails (text : Text) (hphase : s.phase = .receiving) :
      Step p s (.receiveFails text) (s.stop (.receiveError text))
  | shutdown (hphase : s.phase = .receiving) : Step p s .shutdown (s.stop .ok)
  | undecodable {i : ℕ} {h : Handler} (startedAtMs : ℤ) (hi : s.handlers[i]? = some h)
      (hstage : h.stage = .spawned) (hdecode : Codec.fromVec h.datagram.data = none) :
      Step p s (.start i startedAtMs) (s.setStage i h (.ended .undecodable))
  | called {i : ℕ} {h : Handler} {query : Message} {startedAtMs : ℤ} {pipeline : PipelineState}
      (hi : s.handlers[i]? = some h) (hstage : h.stage = .spawned)
      (hdecode : Codec.fromVec h.datagram.data = some query)
      (hstep : p.machine.step s.pipeline (.receive query startedAtMs) = some pipeline) :
      Step p s (.start i startedAtMs)
        ({ s with pipeline := pipeline }.setStage i h (.handling s.pipeline.handles.length))
  | unencodable {i n : ℕ} {h : Handler} {call : ClientCall} {response : Message}
      {source : AnswerSource} (hi : s.handlers[i]? = some h) (hstage : h.stage = .handling n)
      (hn : s.pipeline.handles[n]? = some ⟨call, .replied response source⟩)
      (hencode : Codec.toVec response = none) :
      Step p s (.encode i) (s.setStage i h (.ended .unencodable))
  | encoded {i n : ℕ} {h : Handler} {call : ClientCall} {response : Message}
      {source : AnswerSource} {bytes : List UInt8} (hi : s.handlers[i]? = some h)
      (hstage : h.stage = .handling n)
      (hn : s.pipeline.handles[n]? = some ⟨call, .replied response source⟩)
      (hencode : Codec.toVec response = some bytes) :
      Step p s (.encode i) (s.setStage i h (.sending bytes))
  | sent {i : ℕ} {h : Handler} {bytes : List UInt8} (hi : s.handlers[i]? = some h)
      (hstage : h.stage = .sending bytes) :
      Step p s (.send i true)
        { s.setStage i h (.ended .sent) with
          replies := s.replies ++ [(i, ⟨h.datagram.peer, bytes⟩)] }
  | sendFailed {i : ℕ} {h : Handler} {bytes : List UInt8} (hi : s.handlers[i]? = some h)
      (hstage : h.stage = .sending bytes) :
      Step p s (.send i false) (s.setStage i h (.ended .sendFailed))
  | cancel {i : ℕ} {h : Handler} (hi : s.handlers[i]? = some h) (haborted : h.aborted = true)
      (hover : h.stage.isOver = false) : Step p s (.cancel i) (s.setStage i h .cancelled)
  | join {i : ℕ} {h : Handler} (hi : s.handlers[i]? = some h) (hover : h.stage.isOver = true)
      (hmem : i ∈ s.joinSet) (hphase : s.phase ≠ .receiving) :
      Step p s (.join i) { s with joinSet := s.joinSet.erase i }
  | drained {result : ServerResult} (hphase : (∃ deadline, s.phase = .draining result deadline) ∨
        s.phase = .aborting result) (hjoin : s.joinSet = []) :
      Step p s .drained { s with phase := .returned result }
  | timeout {result : ServerResult} {deadline : Instant}
      (hphase : s.phase = .draining result deadline) (hdue : deadline ≤ s.pipeline.now)
      (hjoin : s.joinSet ≠ []) :
      Step p s .timeout
        { s with phase := .aborting result, handlers := s.handlers.map Handler.abort }

theorem step_start {p : Pipeline} {s t : Server} {i : ℕ} {startedAtMs : ℤ}
    (h : (machine p).step s (.start i startedAtMs) = some t) :
    Step p s (.start i startedAtMs) t := by
  simp only [machine] at h
  split at h
  · rename_i datagram aborted hi
    rw [startHandler] at h
    split at h
    · rename_i hdecode
      cases h
      exact .undecodable startedAtMs hi rfl hdecode
    · rename_i query hdecode
      obtain ⟨pipeline, hstep, rfl⟩ := Option.map_eq_some_iff.1 h
      exact .called hi rfl hdecode hstep
  · cases h

theorem step_encode {p : Pipeline} {s t : Server} {i : ℕ}
    (h : (machine p).step s (.encode i) = some t) : Step p s (.encode i) t := by
  simp only [machine] at h
  split at h
  · rename_i datagram n aborted hi
    split at h
    · rename_i call response source hn
      rw [encodeReply, Option.some.injEq] at h
      split at h
      · rename_i hencode
        exact h ▸ .unencodable hi rfl hn hencode
      · rename_i bytes hencode
        exact h ▸ .encoded hi rfl hn hencode
    · cases h
  · cases h

theorem step_join {p : Pipeline} {s t : Server} {i : ℕ}
    (h : (machine p).step s (.join i) = some t) : Step p s (.join i) t := by
  simp only [machine] at h
  split at h
  · rename_i hd result deadline hi hphase
    split at h
    · rename_i hcond
      cases h
      exact .join hi hcond.1 hcond.2 (by rw [hphase]; rintro ⟨⟩)
    · cases h
  · rename_i hd result hi hphase
    split at h
    · rename_i hcond
      cases h
      exact .join hi hcond.1 hcond.2 (by rw [hphase]; rintro ⟨⟩)
    · cases h
  · cases h

/-- **Inversion of the machine.** -/
theorem step_of_machine {p : Pipeline} {s t : Server} {a : ServerAction}
    (h : (machine p).step s a = some t) : Step p s a t := by
  cases a with
  | pipeline action =>
    simp only [machine] at h
    split at h
    · rename_i hallows
      obtain ⟨pipeline, hstep, rfl⟩ := Option.map_eq_some_iff.1 h
      exact .pipeline hallows hstep
    · cases h
  | receive datagram =>
    simp only [machine] at h
    split at h
    · rename_i hphase
      cases h
      exact .receive datagram hphase
    · cases h
  | receiveFails text =>
    simp only [machine] at h
    split at h
    · rename_i hphase
      cases h
      exact .receiveFails text hphase
    · cases h
  | shutdown =>
    simp only [machine] at h
    split at h
    · rename_i hphase
      cases h
      exact .shutdown hphase
    · cases h
  | start i startedAtMs => exact step_start h
  | encode i => exact step_encode h
  | send i ok =>
    simp only [machine] at h
    split at h
    · rename_i datagram bytes aborted hi
      cases ok with
      | true =>
        cases h
        exact .sent hi rfl
      | false =>
        cases h
        exact .sendFailed hi rfl
    · cases h
  | cancel i =>
    simp only [machine] at h
    split at h
    · rename_i datagram stage hi
      split at h
      · cases h
      · rename_i hover
        cases h
        exact .cancel hi rfl (Bool.not_eq_true _ ▸ hover)
    · cases h
  | join i => exact step_join h
  | drained =>
    simp only [machine] at h
    split at h
    · rename_i result deadline hphase
      split at h
      · rename_i hjoin
        cases h
        exact .drained (Or.inl ⟨deadline, hphase⟩) hjoin
      · cases h
    · rename_i result hphase
      split at h
      · rename_i hjoin
        cases h
        exact .drained (Or.inr hphase) hjoin
      · cases h
    · cases h
  | timeout =>
    simp only [machine] at h
    split at h
    · rename_i result deadline hphase
      split at h
      · rename_i hcond
        cases h
        exact .timeout hphase hcond.1 hcond.2
      · cases h
    · cases h

/-- The pipeline of a server moves as a pipeline does. -/
theorem projects_pipeline (p : Pipeline) :
    (machine p).Projects p.machine Server.pipeline fun _ ↦ True := by
  intro s a t _ hstep
  refine ⟨trivial, ?_⟩
  cases step_of_machine hstep with
  | pipeline _ hpipeline => exact ⟨[_], p.machine.run_cons_eq_some.2 ⟨_, hpipeline, rfl⟩⟩
  | called _ _ _ hpipeline => exact ⟨[_], p.machine.run_cons_eq_some.2 ⟨_, hpipeline, rfl⟩⟩
  | _ => exact ⟨[], rfl⟩

end Server

end DnsBuffer
