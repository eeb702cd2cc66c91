import DnsBuffer.Dns.Message
import DnsBuffer.Foundation.LinkedMap
import DnsBuffer.Foundation.Machine

/-!
# The optimistic cache

`Cache` with its operations, as the code computes them: an insertion-ordered map, a running total of
the bytes its entries account for, a budget, and two counters. One lock guards map and total, so
every call is one atomic step.

Three things the environment decides are arguments: the clock, the length of a message's encoding
(`WireFormat`), and, for each `put`, which calls of `try_reserve` the allocator refuses — `refuse i`
is its answer to the `i`-th call.

The arithmetic on the total is `usize` arithmetic and is kept partial: a subtraction below zero or
an addition past `usize::MAX` is an error of its own kind (`UsizeError`), so that "it never
underflows" is a statement about the model and not about truncated subtraction. The two loops of
the source recurse on the entries they pop from the front.
-/

namespace DnsBuffer

/-! ### Machine words -/

/-- `usize::MAX` on a 64-bit target. -/
def usizeMax : ℕ := 2 ^ 64 - 1

/-- How an operation on `usize` goes wrong. -/
inductive UsizeError
  | underflow | overflow
deriving DecidableEq

/-- `a - b` on `usize`. -/
def usizeSub (a b : ℕ) : Except UsizeError ℕ := if b ≤ a then .ok (a - b) else .error .underflow

/-- `a + b` on `usize`. -/
def usizeAdd (a b : ℕ) : Except UsizeError ℕ :=
  if a + b ≤ usizeMax then .ok (a + b) else .error .overflow

/-! ### Keys and entries -/

/-- A point of the monotonic clock, in nanoseconds. -/
abbrev Instant := ℕ

/-- Cache key: normalized name and numeric query type. -/
structure CacheKey where
  name : Text
  qtype : UInt16
deriving DecidableEq

/-- `CacheKey::from_query`: the key of the first question. -/
def CacheKey.fromQuery [Lowercase] (query : Message) : Option CacheKey :=
  query.queries.head?.map fun q ↦ ⟨normalize q.name.text, q.queryType.code⟩

/-- A cached message with its expiry and the bytes it accounts for. -/
structure CacheEntry where
  message : Message
  expiresAt : Instant
  cost : ℕ
deriving DecidableEq

/-- Entries from least to most recently used, and the running total. -/
structure CacheMap where
  entries : LinkedMap CacheKey CacheEntry
  usedBytes : ℕ
deriving DecidableEq

/-- The cache: the guarded map, the budget, and the lookup counters. -/
structure Cache where
  map : CacheMap
  maxBytes : ℕ
  lookups : ℕ
  hits : ℕ
deriving DecidableEq

/-- `entry_cost`: a fixed overhead, the key's name, and three times the wire encoding (512 bytes
where the message does not encode). -/
def entryCost [WireFormat] (key : CacheKey) (message : Message) : ℕ :=
  128 + key.name.utf8Len + (WireFormat.encodedLen message).getD 512 * 3

/-- The lifetime of an entry in seconds: the least TTL among the answers, 60 without answers. -/
def entryTtl (message : Message) : ℕ := ((message.answers.map fun r ↦ r.ttl.toNat).min?).getD 60

/-- A second on the clock. -/
def nanosPerSecond : ℕ := 1000000000

namespace CacheMap

/-- The replacement step of `put`: drop the entry of the key and release its bytes. -/
def removeOld (m : CacheMap) (key : CacheKey) : Except UsizeError CacheMap :=
  match m.entries.lookup key with
  | some old => (usizeSub m.usedBytes old.cost).map fun used ↦ ⟨m.entries.erase key, used⟩
  | none => .ok m

/-- The loop of `reserve_or_evict`, at its `i`-th request: evict from the front while the allocator
refuses; `false` when it still refuses with nothing left. -/
def reserveOrEvictFrom (refuse : ℕ → Bool) :
    ℕ → LinkedMap CacheKey CacheEntry → ℕ → Except UsizeError (Bool × CacheMap)
  | i, [], used => .ok (!refuse i, ⟨[], used⟩)
  | i, b :: rest, used =>
    if refuse i then (usizeSub used b.2.cost).bind (reserveOrEvictFrom refuse (i + 1) rest)
    else .ok (true, ⟨b :: rest, used⟩)

/-- `reserve_or_evict`. -/
def reserveOrEvict (refuse : ℕ → Bool) (m : CacheMap) : Except UsizeError (Bool × CacheMap) :=
  reserveOrEvictFrom refuse 0 m.entries m.usedBytes

/-- The insertion step of `put`: account for the entry and bind it at the back. -/
def insertTail (m : CacheMap) (key : CacheKey) (entry : CacheEntry) : Except UsizeError CacheMap :=
  (usizeAdd m.usedBytes entry.cost).map fun used ↦ ⟨m.entries.pushBack key entry, used⟩

/-- The closing loop of `put`: evict from the front while over the budget. -/
def evictOverFrom (maxBytes : ℕ) : LinkedMap CacheKey CacheEntry → ℕ → Except UsizeError CacheMap
  | [], used => .ok ⟨[], used⟩
  | b :: rest, used =>
    if used > maxBytes then (usizeSub used b.2.cost).bind (evictOverFrom maxBytes rest)
    else .ok ⟨b :: rest, used⟩

/-- The closing loop of `put` on a map. -/
def evictOver (maxBytes : ℕ) (m : CacheMap) : Except UsizeError CacheMap :=
  evictOverFrom maxBytes m.entries m.usedBytes

end CacheMap

namespace Cache

/-- `Cache::with_max_bytes`. -/
def withMaxBytes (maxBytes : ℕ) : Cache := ⟨⟨[], 0⟩, maxBytes, 0, 0⟩

/-- `Cache::new`: the budget in MB, at least one, saturating at `usize::MAX` bytes. -/
def new (maxMemoryMb : ℕ) : Cache := withMaxBytes (min (max maxMemoryMb 1 * (1024 * 1024)) usizeMax)

/-- `Cache::get`: count the lookup; on a hit count it, move the entry to the back, and return the
message under the asking query's id together with whether it has expired. -/
def get (c : Cache) (now : Instant) (key : CacheKey) (queryId : UInt16) :
    Option (Message × Bool) × Cache :=
  match c.map.entries.toBack key with
  | none => (none, { c with lookups := c.lookups + 1 })
  | some (entry, entries) =>
    (some (entry.message.withId queryId, decide (entry.expiresAt ≤ now)),
      { c with
        map := { c.map with entries := entries }
        lookups := c.lookups + 1
        hits := c.hits + 1 })

/-- The entry `put` makes. -/
def entryOf [WireFormat] (now : Instant) (key : CacheKey) (message : Message) : CacheEntry where
  message := message
  expiresAt := now + entryTtl message * nanosPerSecond
  cost := entryCost key message

/-- The part of `put` that runs under the lock. -/
def putEntry (c : Cache) (refuse : ℕ → Bool) (key : CacheKey) (entry : CacheEntry) :
    Except UsizeError Cache := do
  let m ← c.map.removeOld key
  let (reserved, m) ← m.reserveOrEvict refuse
  if reserved then
    let m ← m.insertTail key entry
    let m ← m.evictOver c.maxBytes
    return { c with map := m }
  else
    return { c with map := m }

/-- `Cache::put`: nothing at all for an entry above the whole budget. -/
def put [WireFormat] (c : Cache) (now : Instant) (refuse : ℕ → Bool) (key : CacheKey)
    (message : Message) : Except UsizeError Cache :=
  if entryCost key message > c.maxBytes then .ok c
  else c.putEntry refuse key (entryOf now key message)

/-- `Cache::len`. -/
def len (c : Cache) : ℕ := c.map.entries.length

/-- `Cache::hit_stats`. -/
def hitStats (c : Cache) : ℕ × ℕ := (c.lookups, c.hits)

end Cache

/-! ### Sequences of calls -/

/-- A call on the cache together with what the environment contributes to it. -/
inductive CacheOp
  | get (now : Instant) (key : CacheKey) (queryId : UInt16)
  | put (now : Instant) (refuse : ℕ → Bool) (key : CacheKey) (message : Message)

/-- The cache under an arbitrary sequence of calls. A call whose arithmetic fails has no
successor. -/
def cacheMachine [WireFormat] : Machine Cache CacheOp where
  step c
    | .get now key queryId => some (c.get now key queryId).2
    | .put now refuse key message => (c.put now refuse key message).toOption

end DnsBuffer
