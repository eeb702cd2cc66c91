import DnsBuffer.Cache.Lru
import DnsBuffer.Foundation.Simulation
import DnsBuffer.Pipeline.Provenance

/-!
# How fresh an answer from the cache is

The cache is optimistic: an entry is served when it has expired, and a refresh is started then. What
a client gets from it is the response to the question that was inserted last, of those with code
`NoError` that are within the budget of the cache, whether a client or a refresh has asked for it; a
response above the whole budget leaves the older one in place. If it is older than its time to live,
the lookup starts a refresh, and if it is not, it asks nobody.

Inserted last is not the same as received last. A `put` reads the clock before it gets the lock, so
of two responses the one that came first may be inserted last, and it is the one that is served
then, with the lifetime that counts from its own reading (`Fetched.readAt`).

The cache of a pipeline is a cache, so this comes from what is known about sequences of its calls
(`Recorded`). `cacheOps` are the calls an action makes, `fetched` is what an action learns from the
upstream; both are observations of a run (`Machine.observe`).
-/

namespace DnsBuffer

/-- A response of the upstream, with the message it answers and the clock as it was read for the
cache. -/
structure Fetched extends Exchange where
  readAt : Instant
deriving DecidableEq

section Latest

variable [Lowercase] [WireFormat]

/-- The cache takes the response, and under this key. -/
def Fetched.Fits (maxBytes : ℕ) (key : CacheKey) (f : Fetched) : Prop :=
  CacheKey.fromQuery f.sent = some key ∧ f.response.metadata.responseCode = .noError ∧
    entryCost key f.response ≤ maxBytes

instance (maxBytes : ℕ) (key : CacheKey) (f : Fetched) : Decidable (f.Fits maxBytes key) :=
  inferInstanceAs (Decidable (_ ∧ _))

/-- What a response puts under a key, and when. -/
def Fetched.puts (maxBytes : ℕ) (key : CacheKey) (f : Fetched) : Option (Instant × Message) :=
  if f.Fits maxBytes key then some (f.readAt, f.response) else none

end Latest

namespace Pipeline

variable [Lowercase]

/-! ### The calls on the cache -/

/-- What an action learns from the upstream. -/
def fetched (p : Pipeline) (s : PipelineState) : PipelineAction → List Fetched
  | .upstreamDone i outcome env => s.handles[i]?.toList.flatMap fun task ↦
      (exchangeOf (preparedQuery p.ecs task.call.query) outcome).map
        (Fetched.mk · (s.now - env.waited))
  | .refreshDone j outcome env => s.refreshes[j]?.toList.flatMap fun task ↦
      (exchangeOf (refreshQuery p.ecs task.query) outcome).map (Fetched.mk · (s.now - env.waited))
  | _ => []

variable [WireFormat]

variable [Display]

/-- The calls on the cache and the responses of the upstream agree on what was last put under every
key. -/
def Agree (maxBytes : ℕ) (ops : List CacheOp) (log : List Fetched) : Prop :=
  ∀ key, lastPut maxBytes key ops = log.reverse.findSome? (Fetched.puts maxBytes key)

omit [Display] in
theorem Agree.append {maxBytes : ℕ} {ops ops' : List CacheOp} {log log' : List Fetched}
    (h : Agree maxBytes ops log) (h' : Agree maxBytes ops' log') :
    Agree maxBytes (ops ++ ops') (log ++ log') := by
  intro key
  rw [lastPut, List.reverse_append, List.findSome?_append, List.reverse_append,
    List.findSome?_append, ← h key, ← h' key]
  rfl

/-- What was learnt is the exchanges in order, each with a time that is past. -/
structure Logged (log : List Fetched) (s : PipelineState) : Prop where
  exchanges : log.map Fetched.toExchange = s.exchanges
  past : ∀ f ∈ log, f.readAt ≤ s.now

omit [Lowercase] [WireFormat] [Display] in
/-- Something is learnt now. -/
theorem Logged.append {log : List Fetched} {s t : PipelineState} (h : Logged log s)
    (hnow : t.now = s.now) {sent : Message} {outcome : UpstreamOutcome} {readAt : Instant}
    (hread : readAt ≤ s.now) (hexchanges : t.exchanges = s.exchanges ++ exchangeOf sent outcome) :
    Logged (log ++ (exchangeOf sent outcome).map (Fetched.mk · readAt)) t := by
  refine ⟨?_, fun f hf ↦ ?_⟩
  · rw [List.map_append, h.exchanges, hexchanges, List.map_map]
    exact congrArg (s.exchanges ++ ·) (List.map_id _)
  · rw [hnow]
    obtain hf | hf := List.mem_append.1 hf
    · exact h.past f hf
    · obtain ⟨e, -, rfl⟩ := List.mem_map.1 hf
      exact hread

/-- **One action** is logged. -/
theorem Logged.step {p : Pipeline} {log : List Fetched} {s t : PipelineState} {a : PipelineAction}
    (h : Logged log s) (hstep : p.machine.step s a = some t) : Logged (log ++ p.fetched s a) t := by
  have hsame : t.exchanges = s.exchanges → Logged (log ++ []) t := fun hexchanges ↦ by
    rw [List.append_nil]
    exact ⟨h.exchanges.trans hexchanges.symm,
      fun f hf ↦ (h.past f hf).trans (now_le_of_step hstep)⟩
  cases step_of_machine hstep with
  | tick => exact hsame rfl
  | storeRules => exact hsame rfl
  | receive => exact hsame rfl
  | screen => exact hsame (stepScreen_exchanges _ _ _ _)
  | lookUp => exact hsame (stepLookUp_exchanges _ _ _ _)
  | @upstreamDone i call outcome env cache hi hstore =>
    rw [fetched, hi, Option.toList_some, List.flatMap_singleton]
    refine Logged.append h ?_ (Nat.sub_le _ _) ?_ <;> rfl
  | @refreshDone j task outcome env cache hj hstore =>
    rw [fetched, hj, Option.toList_some, List.flatMap_singleton]
    refine Logged.append h ?_ (Nat.sub_le _ _) ?_ <;> rfl

end Pipeline

/-- Of two answers to one question the one whose clock was read first is inserted last: it is the
one that is kept, for five seconds from its own reading. -/
example :
    let _ := asciiLowercase
    let _ : WireFormat := ⟨fun _ ↦ some 40⟩
    let _ : Display := ⟨fun _ ↦ [], fun _ ↦ []⟩
    let p : Pipeline := ⟨HostsMap.empty, none⟩
    let first := Sample.ask 7 .IN
    let second := Sample.ask 8 .IN
    let as := Sample.found 0 first ++ Sample.found 1 second ++
      [.tick 1000000000,
        .upstreamDone 1 (.answered (Sample.answer second 5) none) ⟨0, fun _ ↦ false⟩,
        .upstreamDone 0 (.answered (Sample.answer first 5) none) ⟨1000000000, fun _ ↦ false⟩]
    (p.machine.run Sample.start as).map (fun s ↦
        (s.cache.map.entries.lookup ⟨"a.example".toList, 1⟩).map CacheEntry.expiresAt) =
      some (some 5000000000) ∧
      (p.machine.observe p.fetched Sample.start as).map Fetched.readAt = [1000000000, 0] := by
  decide +kernel

end DnsBuffer
