import DnsBuffer.Cache.Model
import DnsBuffer.Dashboard.Event
import DnsBuffer.Dns.Ecs
import DnsBuffer.Dns.Hosts
import DnsBuffer.Filter.Model
import Mathlib.Data.List.Destutter
import Mathlib.Data.Char
import Mathlib.Data.List.Lex

/-!
# The query pipeline

`Pipeline::handle` and the background refresh it may start, as a machine whose actions are the
atomic pieces of concurrent calls. A client call moves through the phases

```
received --screen--> replied                      hosts entry, or blocked by the rules in force
received --screen--> screened --lookUp--> replied cache hit; an expired one also starts a refresh
received --screen--> screened --lookUp--> awaiting --upstreamDone--> replied
```

and every arrow is one action, so calls, refreshes, rule swaps and the clock interleave in every
order. Between two shared accesses the source touches only its own data, so nothing finer can be
observed: hosts are immutable, the rule set is read by one atomic load, and each access to the cache
holds its lock. A `put` has read the clock before it gets the lock, and another one may get it in
between; `upstreamDone` and `refreshDone` are the moment of the lock, and how long ago the clock was
read is up to the environment (`PutEnv`).

Whatever the upstream does is the environment's choice: it answers with some message, fails, or
exceeds the time limit (`UpstreamOutcome`). The messages handed to it are logged (`calls`), and so
are the responses it gave (`exchanges`).

The two functions that build an outgoing message are kept apart, as they are in the source:
`preparedQuery` strips the client's subnet options before it injects the configured one,
`refreshQuery` only injects.
-/

namespace DnsBuffer

/-! ### Building the outgoing query -/

/-- `Pipeline::prepared_query`. -/
def preparedQuery (ecs : Option EcsSubnet) (query : Message) : Message :=
  let q := stripSubnet query
  match ecs with
  | some subnet => inject q subnet
  | none => q

/-- The query the task of `spawn_refresh` sends. -/
def refreshQuery (ecs : Option EcsSubnet) (query : Message) : Message :=
  match ecs with
  | some subnet => inject query subnet
  | none => query

/-! ### What is recorded about an answer -/

/-- `QueryOutcome`. -/
structure QueryOutcome where
  blocked : Bool
  cacheHit : Bool
  upstream : Option Text
deriving DecidableEq

/-- `is_blocked_response`: `NoError`, at least one address record, and every address record
unspecified. -/
def isBlockedResponse (message : Message) : Bool :=
  let addresses := message.answers.filterMap fun r ↦ r.data.address?
  message.metadata.responseCode == .noError && addresses.all IpAddr.isUnspecified &&
    0 < addresses.length

/-- `response_code_name`. -/
def responseCodeName : ResponseCode → Text
  | .noError => "NOERROR".toList
  | .formErr => "FORMERR".toList
  | .servFail => "SERVFAIL".toList
  | .nxDomain => "NXDOMAIN".toList
  | .notImp => "NOTIMP".toList
  | .refused => "REFUSED".toList
  | .yxDomain => "YXDOMAIN".toList
  | .yxRRSet => "YXRRSET".toList
  | .nxRRSet => "NXRRSET".toList
  | .notAuth => "NOTAUTH".toList
  | .notZone => "NOTZONE".toList
  | .badVers => "BADVERS".toList
  | .badSig => "BADSIG".toList
  | .badKey => "BADKEY".toList
  | .badTime => "BADTIME".toList
  | .badMode => "BADMODE".toList
  | .badName => "BADNAME".toList
  | .badAlg => "BADALG".toList
  | .badTrunc => "BADTRUNC".toList
  | .badCookie => "BADCOOKIE".toList
  | .unknown value => "RCODE".toList ++ Nat.toDigits 10 value.toNat

/-- A call of `handle`: the query, and the two clocks read when it started. -/
structure ClientCall where
  query : Message
  started : Instant
  startedAtMs : ℤ
deriving DecidableEq

/-- `Pipeline::record_query`: the event of an answered query; none without a question. -/
def recordQuery [Lowercase] [Display] (call : ClientCall) (now : Instant) (response : Message)
    (outcome : QueryOutcome) : Option QueryEvent :=
  call.query.queries.head?.map fun q ↦
    let ips := response.answers.filterMap fun r ↦ r.data.address?.map Display.ipAddr
    { timestampMs := call.startedAtMs
      domain := normalize q.name.text
      queryType := Display.recordType q.queryType
      responseCode := responseCodeName response.metadata.responseCode
      durationMs := min ((now - call.started) / 1000000) (2 ^ 64 - 1)
      blocked := outcome.blocked
      cacheHit := outcome.cacheHit
      responseIps := (ips.mergeSort fun a b ↦ decide (a ≤ b)).destutter (· ≠ ·)
      upstream := outcome.upstream }

/-! ### Calls, refreshes and the state -/

/-- Where a reply came from. -/
inductive AnswerSource
  | noQuestion | hosts | filter | cache | upstream | failure
deriving DecidableEq

/-- How far a call of `handle` has got. -/
inductive Phase
  | received
  | screened
  | awaiting
  | replied (response : Message) (source : AnswerSource)
deriving DecidableEq

/-- A call of `handle` in progress or completed. -/
structure HandleTask where
  call : ClientCall
  phase : Phase
deriving DecidableEq

/-- A refresh started by an expired hit. -/
structure RefreshTask where
  key : CacheKey
  query : Message
deriving DecidableEq

/-- How waiting for the upstream ends. -/
inductive UpstreamOutcome
  | answered (response : Message) (upstream : Option Text)
  | failed
  | timedOut
deriving DecidableEq

/-- A message handed to the upstream, and the client query it was handed over for. -/
structure UpstreamCall where
  client : Message
  message : Message
deriving DecidableEq

/-- A message handed to the upstream together with its response. -/
structure Exchange where
  sent : Message
  response : Message
deriving DecidableEq

/-- What the environment contributes to a `put`. -/
structure PutEnv where
  /-- How long ago the clock was read when the lock is taken. -/
  waited : ℕ
  /-- The answers of the allocator. -/
  refuse : ℕ → Bool

/-- The immutable parts of a pipeline. -/
structure Pipeline where
  hosts : HostsMap
  ecs : Option EcsSubnet

/-- The shared state, the calls, the refreshes still running, and what was observable so far. -/
structure PipelineState where
  now : Instant
  filter : Filter
  cache : Cache
  handles : List HandleTask
  refreshes : List RefreshTask
  calls : List UpstreamCall
  exchanges : List Exchange
  events : List QueryEvent
deriving DecidableEq

/-- A pipeline that has not been called yet. -/
def PipelineState.init (now : Instant) (filter : Filter) (cache : Cache) : PipelineState :=
  ⟨now, filter, cache, [], [], [], [], []⟩

/-- One atomic piece of a concurrent execution. -/
inductive PipelineAction
  /-- The clock advances. -/
  | tick (nanos : ℕ)
  /-- The updater swaps the rule set. -/
  | storeRules (rules : RuleSet)
  /-- `handle` is called. -/
  | receive (query : Message) (startedAtMs : ℤ)
  /-- Call `i` consults hosts and filter. -/
  | screen (i : ℕ)
  /-- Call `i` consults the cache. -/
  | lookUp (i : ℕ)
  /-- The upstream is done with call `i`, which takes the lock of the cache if it has to. -/
  | upstreamDone (i : ℕ) (outcome : UpstreamOutcome) (env : PutEnv)
  /-- The upstream is done with refresh `j`. -/
  | refreshDone (j : ℕ) (outcome : UpstreamOutcome) (env : PutEnv)

namespace Pipeline

variable [Lowercase] [WireFormat] [Display]

/-- The answer `handle` gives before it consults the cache, if it gives one. -/
def screen (p : Pipeline) (filter : Filter) (query : Message) :
    Option (Message × AnswerSource × QueryOutcome) :=
  match query.queries.head? with
  -- without a question nothing is consulted, and `recordQuery` records nothing
  | none => some (query.servfail, .noQuestion, ⟨false, false, none⟩)
  | some q =>
    match p.hosts.lookup query with
    | some resp => some (resp, .hosts, ⟨false, false, none⟩)
    | none =>
      if filter.isBlocked q.name.text then
        some (blockResponse query, .filter, ⟨true, false, none⟩)
      else none

/-- The cache step of `handle`: look the query's key up, if it has one. -/
def consult (now : Instant) (cache : Cache) (query : Message) : Option (Message × Bool) × Cache :=
  match CacheKey.fromQuery query with
  | some key => cache.get now key query.metadata.id
  | none => (none, cache)

/-- The messages the cache step hands to the upstream: the refresh of an expired hit, nothing on a
fresh hit, the prepared query on a miss. -/
def upstreamMessages (p : Pipeline) (now : Instant) (cache : Cache) (query : Message) :
    List Message :=
  match (consult now cache query).1 with
  | some (_, true) => [refreshQuery p.ecs query]
  | some (_, false) => []
  | none => [preparedQuery p.ecs query]

/-- The `put` that follows an upstream response: only `NoError` is cached. -/
def store (now : Instant) (cache : Cache) (env : PutEnv) (key : Option CacheKey) :
    UpstreamOutcome → Except UsizeError Cache
  | .answered response _ =>
    match key with
    | some key =>
      if response.metadata.responseCode = .noError then
        cache.put (now - env.waited) env.refuse key response
      else .ok cache
    | none => .ok cache
  | .failed => .ok cache
  | .timedOut => .ok cache

/-- The reply to a call whose wait for the upstream has ended. -/
def upstreamReply (query : Message) :
    UpstreamOutcome → Message × AnswerSource × QueryOutcome
  | .answered response upstream =>
    (response, .upstream, ⟨isBlockedResponse response, false, upstream⟩)
  | .failed => (query.servfail, .failure, ⟨isBlockedResponse query.servfail, false, none⟩)
  | .timedOut => (query.servfail, .failure, ⟨isBlockedResponse query.servfail, false, none⟩)

/-- The exchange a wait for the upstream ends with, if it ends with a response. -/
def exchangeOf (sent : Message) : UpstreamOutcome → List Exchange
  | .answered response _ => [⟨sent, response⟩]
  | .failed => []
  | .timedOut => []

/-- Call `i` returns: the reply is fixed and its event is emitted. -/
def reply (s : PipelineState) (i : ℕ) (call : ClientCall)
    (answer : Message × AnswerSource × QueryOutcome) : PipelineState :=
  { s with
    handles := s.handles.set i ⟨call, .replied answer.1 answer.2.1⟩
    events := s.events ++ (recordQuery call s.now answer.1 answer.2.2).toList }

/-- The `screen` action of call `i`. -/
def stepScreen (p : Pipeline) (s : PipelineState) (i : ℕ) (call : ClientCall) : PipelineState :=
  match p.screen s.filter call.query with
  | some answer => reply s i call answer
  | none => { s with handles := s.handles.set i ⟨call, .screened⟩ }

/-- The `lookUp` action of call `i`. -/
def stepLookUp (p : Pipeline) (s : PipelineState) (i : ℕ) (call : ClientCall) : PipelineState :=
  let found := consult s.now s.cache call.query
  let sent := (p.upstreamMessages s.now s.cache call.query).map (UpstreamCall.mk call.query)
  let s := { s with cache := found.2, calls := s.calls ++ sent }
  match found.1 with
  | some (cached, expired) =>
    -- the refresh is given the client's query as it came in, not the prepared one
    let refresh := if expired then
      ((CacheKey.fromQuery call.query).map fun key ↦ ⟨key, call.query⟩).toList else []
    reply { s with refreshes := s.refreshes ++ refresh } i call
      (cached, .cache, ⟨isBlockedResponse cached, true, none⟩)
  | none => { s with handles := s.handles.set i ⟨call, .awaiting⟩ }

/-- The `upstreamDone` action of call `i`. -/
def stepUpstreamDone (p : Pipeline) (s : PipelineState) (i : ℕ) (call : ClientCall)
    (outcome : UpstreamOutcome) (env : PutEnv) : Option PipelineState :=
  -- the key is that of the client's query, the exchange is about the prepared one
  (store s.now s.cache env (CacheKey.fromQuery call.query) outcome).toOption.map fun cache ↦
    reply { s with
      cache := cache
      exchanges := s.exchanges ++ exchangeOf (preparedQuery p.ecs call.query) outcome }
      i call (upstreamReply call.query outcome)

/-- The `refreshDone` action of refresh `j`. -/
def stepRefreshDone (p : Pipeline) (s : PipelineState) (j : ℕ) (task : RefreshTask)
    (outcome : UpstreamOutcome) (env : PutEnv) : Option PipelineState :=
  (store s.now s.cache env (some task.key) outcome).toOption.map fun cache ↦
    { s with
      cache := cache
      refreshes := s.refreshes.eraseIdx j
      exchanges := s.exchanges ++ exchangeOf (refreshQuery p.ecs task.query) outcome }

/-- The pipeline as a machine. An action on a call or refresh that is not there, or is not at the
point the action is about, is not enabled. -/
def machine (p : Pipeline) : Machine PipelineState PipelineAction where
  step s
    | .tick nanos => some { s with now := s.now + nanos }
    | .storeRules rules => some { s with filter := s.filter.store rules }
    | .receive query startedAtMs =>
      some { s with handles := s.handles ++ [⟨⟨query, s.now, startedAtMs⟩, .received⟩] }
    | .screen i =>
      match s.handles[i]? with
      | some ⟨call, .received⟩ => some (p.stepScreen s i call)
      | _ => none
    | .lookUp i =>
      match s.handles[i]? with
      | some ⟨call, .screened⟩ => some (p.stepLookUp s i call)
      | _ => none
    | .upstreamDone i outcome env =>
      match s.handles[i]? with
      | some ⟨call, .awaiting⟩ => p.stepUpstreamDone s i call outcome env
      | _ => none
    | .refreshDone j outcome env =>
      match s.refreshes[j]? with
      | some task => p.stepRefreshDone s j task outcome env
      | none => none

end Pipeline

end DnsBuffer
