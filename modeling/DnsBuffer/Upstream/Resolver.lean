import DnsBuffer.Dns.Address
import DnsBuffer.Upstream.Budget
import DnsBuffer.Upstream.Group
import DnsBuffer.Upstream.Http2
import DnsBuffer.Upstream.Http3

/-!
# Resolvers and what they return

The upstream of the pipeline is a tree: at its leaves a plain, DoT or DoH resolver, above them
groups, retry engines and fallbacks in any nesting. `Resolver.Returns` says what a tree may return
for a query, whatever the servers send and however everything is scheduled:

* a leaf returns what its code makes of the bytes that its own server sends (`Network`); servers may
  send anything. For DoH these are the bytes that some request in some execution of its connection
  slot has returned with;
* a group returns what some run of `resolve_member` ends with, in which every member that was tried
  returned something that member may return;
* an engine returns the verdict of some run in which every attempt that ended by itself ended with
  something the inner resolver may return;
* a fallback returns what its primary returns, or, after an error of the primary, what the other
  returns.

Every leaf compares the id of the response with the id of the query before it returns
(`validated_id`); the nodes above only pass messages on. So the id is right along the whole tree
(`Resolver.Returns.id_eq`), by induction on how the message was returned.
-/

namespace DnsBuffer

/-- Encoding and decoding of messages. -/
class Codec extends WireFormat where
  /-- `Message::to_vec`. -/
  toVec : Message → Option (List UInt8)
  /-- `Message::from_vec`. -/
  fromVec : List UInt8 → Option Message
  /-- The encoded length is the length of the encoding. -/
  encodedLen_eq : ∀ m, encodedLen m = (toVec m).map List.length

/-- How a resolver fails. -/
inductive ResolveError
  | encode | bind | connect | send | timedOut | receive | handshake | tooLarge | write | read
  | decode
  | idMismatch (response query : UInt16)
  | request (error : ConnectionError)
  | attemptPanicked
  | groupEmpty
  | groupExhausted
  /-- The budget of an engine expired with this many attempts in flight. -/
  | noReply (inFlight : ℕ)
  /-- The budget of an engine expired after this error of an attempt. -/
  | noSuccess (last : ResolveError)
deriving DecidableEq

section Leaves

variable [Codec]

/-! ### The leaves -/

/-- The end of every leaf: decode the bytes and compare the ids. -/
def validated (query : Message) (bytes : List UInt8) : Except ResolveError Message :=
  match Codec.fromVec bytes with
  | none => .error .decode
  | some response =>
    if response.metadata.id ≠ query.metadata.id then
      .error (.idMismatch response.metadata.id query.metadata.id)
    else .ok response

theorem validated_id {query response : Message} {bytes : List UInt8}
    (h : validated query bytes = .ok response) : response.metadata.id = query.metadata.id := by
  rw [validated] at h
  split at h
  · exact absurd h (by simp)
  · split at h
    · exact absurd h (by simp)
    · rename_i hid
      rw [← Except.ok.inj h]
      exact not_not.1 hid

/-- What happens to a plain resolver after the query is encoded. -/
inductive PlainIo
  | bindFailed
  | connectFailed
  | sendFailed
  | timedOut
  | receiveFailed
  /-- A datagram arrives; what exceeds the buffer is lost. -/
  | received (datagram : List UInt8)
deriving DecidableEq

/-- `PlainResolver::resolve`. -/
def PlainResolver.resolve (query : Message) (io : PlainIo) : Except ResolveError Message :=
  match Codec.toVec query with
  | none => .error .encode
  | some _ =>
    match io with
    | .bindFailed => .error .bind
    | .connectFailed => .error .connect
    | .sendFailed => .error .send
    | .timedOut => .error .timedOut
    | .receiveFailed => .error .receive
    | .received datagram => validated query (datagram.take 65535)

/-- What happens to a DoT resolver: its stages fail or exceed the time limit, or the server sends
some stream and closes it. -/
inductive DotIo
  | timedOut
  | connectFailed
  | handshakeFailed
  | writeFailed
  | stream (bytes : List UInt8)
deriving DecidableEq

/-- The two calls of `read_exact`: a length in two bytes, and that many bytes. -/
def readFrame : List UInt8 → Except ResolveError (List UInt8)
  | hi :: lo :: rest =>
    let n := hi.toNat * 256 + lo.toNat
    if rest.length < n then .error .read else .ok (rest.take n)
  | _ => .error .read

/-- `DotResolver::resolve`, that is `exchange` within the time limit. The query is encoded after the
handshake. -/
def DotResolver.resolve (query : Message) (io : DotIo) : Except ResolveError Message :=
  match io with
  | .timedOut => .error .timedOut
  | .connectFailed => .error .connect
  | .handshakeFailed => .error .handshake
  | io =>
    match Codec.toVec query with
    | none => .error .encode
    | some bytes =>
      if bytes.length > 65535 then .error .tooLarge
      else match io with
      | .stream received => (readFrame received).bind (validated query)
      | _ => .error .write

/-- `DohResolver::resolve_h2` and `resolve_h3` around the exchange on the connection. -/
def DohResolver.resolve (query : Message) (exchanged : Except ConnectionError (List UInt8)) :
    Except ResolveError Message :=
  match Codec.toVec query with
  | none => .error .encode
  | some _ =>
    match exchanged with
    | .error error => .error (.request error)
    | .ok bytes => validated query bytes

/-- What `DohResolver` is built from. -/
structure DohTarget where
  host : Text
  port : ℕ
  path : Text
  ips : List IpAddr
  ech : Option (List UInt8)
  http3 : Bool
deriving DecidableEq

/-- A leaf of the tree, with the server it talks to: `PlainResolver`, `DotResolver` with the name
its server is to prove, and `DohResolver`. -/
inductive Leaf
  | plain (addr : SocketAddr)
  | dot (addr : SocketAddr) (serverName : Text)
  | doh (target : DohTarget)
deriving DecidableEq

/-- What the servers send when they are asked a query: a datagram on a socket that is connected to
an address, a stream on a connection to an address under a name, the body of an exchange with a DoH
server. Nothing is assumed about it. -/
class Network where
  plain : SocketAddr → Message → List UInt8 → Prop
  dot : SocketAddr → Text → Message → List UInt8 → Prop
  doh : DohTarget → Message → List UInt8 → Prop

variable [Network]

/-- What a leaf may return for a query. What it reads comes from its server; whatever else goes
wrong on the way may go wrong at any time. -/
inductive Leaf.Returns : Leaf → Message → Except ResolveError Message → Prop
  | plain {addr : SocketAddr} {query : Message} {io : PlainIo}
      (hserver : ∀ datagram, io = .received datagram → Network.plain addr query datagram) :
      Returns (.plain addr) query (PlainResolver.resolve query io)
  | dot {addr : SocketAddr} {serverName : Text} {query : Message} {io : DotIo}
      (hserver : ∀ bytes, io = .stream bytes → Network.dot addr serverName query bytes) :
      Returns (.dot addr serverName) query (DotResolver.resolve query io)
  | h2 {target : DohTarget} {query : Message} {as : List SlotAction} {s : SlotState Unit} {i : ℕ}
      {r : Request Unit} {exchanged : Except ConnectionError (List UInt8)}
      (hversion : target.http3 = false)
      (hrun : (SlotState.machine DohResolver.h2Policy).run (SlotState.empty Unit) as = some s)
      (hi : s.requests[i]? = some r) (hphase : r.phase = .returned exchanged)
      (hserver : ∀ bytes, exchanged = .ok bytes → Network.doh target query bytes) :
      Returns (.doh target) query (DohResolver.resolve query exchanged)
  | h3 {target : DohTarget} {query : Message} {as : List SlotAction} {s : SlotState UInt64} {i : ℕ}
      {r : Request UInt64} {exchanged : Except ConnectionError (List UInt8)}
      (hversion : target.http3 = true)
      (hrun : (SlotState.machine H3Conn.h3Policy).run (SlotState.empty UInt64) as = some s)
      (hi : s.requests[i]? = some r) (hphase : r.phase = .returned exchanged)
      (hserver : ∀ bytes, exchanged = .ok bytes → Network.doh target query bytes) :
      Returns (.doh target) query (DohResolver.resolve query exchanged)
  | timedOut (target : DohTarget) (query : Message) :
      Returns (.doh target) query (.error .timedOut)

omit [Network] in
theorem PlainResolver.id_eq {query response : Message} {io : PlainIo}
    (h : PlainResolver.resolve query io = .ok response) :
    response.metadata.id = query.metadata.id := by
  simp only [PlainResolver.resolve] at h
  split at h
  · exact absurd h (by simp)
  · rcases io with - | - | - | - | - | datagram
    case received => exact validated_id h
    all_goals exact absurd h (by simp)

omit [Network] in
theorem DotResolver.id_eq {query response : Message} {io : DotIo}
    (h : DotResolver.resolve query io = .ok response) :
    response.metadata.id = query.metadata.id := by
  rcases io with - | - | - | - | received
  case stream =>
    simp only [DotResolver.resolve] at h
    split at h
    · exact absurd h (by simp)
    · split at h
      · exact absurd h (by simp)
      · -- the frame has been read in full, and the id is compared as everywhere
        rcases hframe : readFrame received with error | bytes
        · rw [hframe] at h
          exact absurd h (by simp [Except.bind])
        · rw [hframe] at h
          exact validated_id h
  case writeFailed =>
    simp only [DotResolver.resolve] at h
    split at h
    · exact absurd h (by simp)
    · exact absurd h (by split <;> simp)
  all_goals exact absurd h (by simp [DotResolver.resolve])

omit [Network] in
theorem DohResolver.id_eq {query response : Message}
    {exchanged : Except ConnectionError (List UInt8)}
    (h : DohResolver.resolve query exchanged = .ok response) :
    response.metadata.id = query.metadata.id := by
  simp only [DohResolver.resolve] at h
  split at h
  · exact absurd h (by simp)
  · rcases exchanged with error | bytes
    · exact absurd h (by simp)
    · exact validated_id h

/-- **Every leaf validates ids.** -/
theorem Leaf.Returns.id_eq {leaf : Leaf} {query response : Message}
    (h : leaf.Returns query (.ok response)) : response.metadata.id = query.metadata.id := by
  generalize hresult : Except.ok response = result at h
  cases h with
  | plain => exact PlainResolver.id_eq hresult.symm
  | dot => exact DotResolver.id_eq hresult.symm
  | h2 => exact DohResolver.id_eq hresult.symm
  | h3 => exact DohResolver.id_eq hresult.symm
  | timedOut => exact absurd hresult (by simp)

/-- The server of a leaf sends bytes in answer to a query. -/
def Leaf.Sends (query : Message) (bytes : List UInt8) : Leaf → Prop
  | .plain addr => Network.plain addr query bytes
  | .dot addr serverName => Network.dot addr serverName query bytes
  | .doh target => Network.doh target query bytes

omit [Network] in
theorem PlainResolver.exists_received {query response : Message} {io : PlainIo}
    (h : PlainResolver.resolve query io = .ok response) : ∃ datagram, io = .received datagram := by
  cases io with
  | received datagram => exact ⟨datagram, rfl⟩
  | _ =>
    simp only [PlainResolver.resolve] at h
    split at h <;> cases h

omit [Network] in
theorem DotResolver.exists_stream {query response : Message} {io : DotIo}
    (h : DotResolver.resolve query io = .ok response) : ∃ bytes, io = .stream bytes := by
  cases io with
  | stream bytes => exact ⟨bytes, rfl⟩
  | writeFailed =>
    simp only [DotResolver.resolve] at h
    split at h
    · cases h
    · split at h <;> cases h
  | _ => cases h

omit [Network] in
theorem DohResolver.exists_body {query response : Message}
    {exchanged : Except ConnectionError (List UInt8)}
    (h : DohResolver.resolve query exchanged = .ok response) : ∃ bytes, exchanged = .ok bytes := by
  cases exchanged with
  | ok bytes => exact ⟨bytes, rfl⟩
  | error error =>
    simp only [DohResolver.resolve] at h
    split at h <;> cases h

/-- **What a leaf answers, its server has sent.** -/
theorem Leaf.Returns.exists_sent {leaf : Leaf} {query response : Message}
    (h : leaf.Returns query (.ok response)) : ∃ bytes, leaf.Sends query bytes := by
  generalize hresult : Except.ok response = result at h
  cases h with
  | plain hserver =>
    obtain ⟨datagram, hio⟩ := PlainResolver.exists_received hresult.symm
    exact ⟨datagram, hserver datagram hio⟩
  | dot hserver =>
    obtain ⟨bytes, hio⟩ := DotResolver.exists_stream hresult.symm
    exact ⟨bytes, hserver bytes hio⟩
  | h2 _ _ _ _ hserver =>
    obtain ⟨bytes, hbody⟩ := DohResolver.exists_body hresult.symm
    exact ⟨bytes, hserver bytes hbody⟩
  | h3 _ _ _ _ hserver =>
    obtain ⟨bytes, hbody⟩ := DohResolver.exists_body hresult.symm
    exact ⟨bytes, hserver bytes hbody⟩
  | timedOut => cases hresult

end Leaves

/-! ### The tree -/

/-- A resolver: a leaf, or one of the three combinators over resolvers. -/
inductive Resolver
  | leaf (leaf : Leaf)
  | group (members : List (Text × Resolver))
  | hedged (engine : HedgedResolver) (inner : Resolver)
  | fallback (primary fallback : Resolver)

/-- A task that runs by itself, until it ends. -/
def AsyncTask.alone {ω τ α ρ : Type} (task : AsyncTask ω τ α ρ) : Machine (ω × (τ ⊕ ρ)) α where
  step
    | (w, .inl t), a => task.step w t a
    | (_, .inr _), _ => none

/-- An attempt as the engine sees it: at some moment it ends, with some result. -/
def AsyncTask.attempt (ρ : Type) : AsyncTask Unit Unit ρ ρ where
  start := ()
  step _ _ result := some ((), .inr result)
  cancel _ _ _ := ()

/-- The members of a group, by name. -/
def namesOf (members : List (Text × Resolver)) : List Member := members.map fun m ↦ ⟨m.1⟩

/-- The error of a group. -/
def GroupError.toResolveError : GroupError ResolveError → ResolveError
  | .empty => .groupEmpty
  | .exhausted => .groupExhausted
  | .member error => error

/-- What a call of an engine returns with its verdict. -/
def Verdict.toExcept {ρ : Type} : Verdict ρ ResolveError → Except ResolveError ρ
  | .ok answer => .ok answer
  | .expired (some error) _ => .error (.noSuccess error)
  | .expired none inFlight => .error (.noReply inFlight)

/-- `Resolver::resolve` of every resolver: what `resolve_attributed` returns, without the name. -/
def withoutName (result : Except ResolveError (Message × Option Text)) :
    Except ResolveError Message :=
  result.map Prod.fst

/-- **What `resolve_attributed` may return** for a query. The results of the resolvers below a node
are results these may return; the rest of the node is a run of its own code. -/
inductive Resolver.Returns [Codec] [Network] :
    Resolver → Message → Except ResolveError (Message × Option Text) → Prop
  | leaf {leaf : Leaf} {query : Message} {result : Except ResolveError Message}
      (h : leaf.Returns query result) : Returns (.leaf leaf) query (result.map (·, none))
  /-- `named v` is what invocation `v` of `try_member` got, with the name it did not ask for. -/
  | group {members : List (Text × Resolver)} {query : Message}
      {as : List (GroupAction ResolveError)} {w : GroupWorld ResolveError}
      {result : Except (GroupError ResolveError) (Message × Option Text)}
      (named : ℕ → Except ResolveError (Message × Option Text))
      (hrun : (groupTask (namesOf members)).alone.run
        (GroupWorld.empty, .inl (groupTask (namesOf members)).start) as = some (w, .inr result))
      (hmembers : ∀ v member r latency, w.invocations[v]? = some ⟨member, .returned r latency⟩ →
        withoutName (named v) = r)
      (hreturns : ∀ v member r latency m,
        w.invocations[v]? = some ⟨member, .returned r latency⟩ → members[member]? = some m →
        Returns m.2 query (named v)) :
      Returns (.group members) query (result.mapError GroupError.toResolveError)
  /-- An attempt whose task panicked ends with an error of its own. -/
  | hedged {engine : HedgedResolver} {inner : Resolver} {query : Message} {now : Instant}
      {as : List (EngineAction (Except ResolveError (Message × Option Text)))}
      {s : Engine Unit Unit (Message × Option Text) ResolveError}
      {verdict : Verdict (Message × Option Text) ResolveError}
      (hrun : (Engine.machine engine (.attempt _)).run (.start engine (.attempt _) () now) as =
        some s)
      (hphase : s.phase = .returned verdict)
      (hreturns : ∀ x ∈ s.results, x.2 ≠ .error .attemptPanicked → Returns inner query x.2) :
      Returns (.hedged engine inner) query verdict.toExcept
  | primary {primary fallback : Resolver} {query : Message} {answer : Message × Option Text}
      (h : Returns primary query (.ok answer)) :
      Returns (.fallback primary fallback) query (.ok answer)
  | fallback {primary fallback : Resolver} {query : Message} {error : ResolveError}
      {result : Except ResolveError (Message × Option Text)}
      (hprimary : Returns primary query (.error error))
      (hfallback : Returns fallback query result) :
      Returns (.fallback primary fallback) query result

/-! ### Answers go back to the leaves -/

/-- A group waits for an invocation it has logged, and what it answers is the answer of one, on one
of its members. -/
def GroupAnswered {ε : Type} (members : List Member) :
    GroupWorld ε × (GroupTask ε ⊕ Except (GroupError ε) (Message × Option Text)) → Prop
  | (w, .inl (.trying _ _ _ v)) => v < w.invocations.length
  | (w, .inr (.ok answer)) => ∃ (v member latency : ℕ) (m : Member),
      w.invocations[v]? = some ⟨member, .returned (.ok answer.1) latency⟩ ∧
        members[member]? = some m
  | _ => True

theorem groupAnswered_step {ε : Type} {members : List Member}
    {s t : GroupWorld ε × (GroupTask ε ⊕ Except (GroupError ε) (Message × Option Text))}
    {a : GroupAction ε} (h : GroupAnswered members s)
    (hstep : (groupTask members).alone.step s a = some t) : GroupAnswered members t := by
  obtain ⟨w, task | result⟩ := s
  · obtain ⟨w', next⟩ := t
    rcases groupStep_cases hstep with ⟨tried, last, left, error, rfl, rfl, rfl⟩ |
      ⟨tried, last, left, tried', left', member, rfl, rfl, rfl⟩ |
      ⟨tried, left, member, v, result, latency, rfl, rfl, hnext⟩
    · trivial
    · show w.invocations.length < (w.begin member).invocations.length
      simp [GroupWorld.begin]
    · rcases hnext with ⟨response, m, rfl, hm, rfl⟩ | ⟨error, error', rfl, rfl⟩ |
        ⟨error, tried', last, left', rfl, rfl⟩
      · exact ⟨v, member, latency, m, List.getElem?_set_self h, hm⟩
      · trivial
      · trivial
  · exact absurd hstep (by simp [AsyncTask.alone])

/-- **The answer of a group is the answer of a member.** -/
theorem groupAnswered_of_run {ε : Type} {members : List Member} {as : List (GroupAction ε)}
    {w : GroupWorld ε} {answer : Message × Option Text}
    (hrun : (groupTask members).alone.run (GroupWorld.empty, .inl (groupTask members).start) as =
      some (w, .inr (.ok answer))) :
    ∃ (v member latency : ℕ) (m : Member),
      w.invocations[v]? = some ⟨member, .returned (.ok answer.1) latency⟩ ∧
        members[member]? = some m :=
  Machine.run_invariant (I := GroupAnswered members)
    (fun _ _ _ h hstep ↦ groupAnswered_step h hstep) hrun trivial

namespace Resolver

variable [Codec] [Network]

/-- **Ids are validated along the whole tree.** By induction on how the result came about: the
leaves compare, the combinators hand on what a resolver below them answered. -/
theorem Returns.id_eq {resolver : Resolver} {query : Message}
    {result : Except ResolveError (Message × Option Text)} (h : resolver.Returns query result) :
    ∀ answer, result = .ok answer → answer.1.metadata.id = query.metadata.id := by
  induction h with
  | @leaf leaf query result h =>
    intro answer hok
    rcases result with error | response
    · exact absurd hok (by simp [Except.map])
    · rw [← Except.ok.inj hok]
      exact h.id_eq
  | @group members query as w result named hrun hmembers hreturns ih =>
    intro answer hok
    rcases result with error | response
    · exact absurd hok (by simp [Except.mapError])
    · obtain ⟨v, member, latency, m, hv, hm⟩ := groupAnswered_of_run hrun
      rw [namesOf, List.getElem?_map, Option.map_eq_some_iff] at hm
      obtain ⟨resolver, hresolver, -⟩ := hm
      have hnamed := hmembers v member _ latency hv
      rcases hcase : named v with error | inner
      · rw [hcase] at hnamed
        exact absurd hnamed (by simp [withoutName, Except.map])
      · have hid := ih v member _ latency resolver hv hresolver inner hcase
        rw [hcase] at hnamed
        rw [← Except.ok.inj hok, ← Except.ok.inj hnamed]
        exact hid
  | @hedged engine inner query now as s verdict hrun hphase hreturns ih =>
    intro answer hok
    rcases verdict with won | ⟨- | error, inFlight⟩
    · obtain ⟨id, hmem⟩ := (Engine.inv_of_run hrun).answered won (by rw [hphase]; rfl)
      rw [← Except.ok.inj hok]
      exact ih _ hmem (by simp) won rfl
    · exact absurd hok (by simp [Verdict.toExcept])
    · exact absurd hok (by simp [Verdict.toExcept])
  | primary h ih => exact ih
  | fallback hprimary hfallback _ ih => exact ih

end Resolver

end DnsBuffer
