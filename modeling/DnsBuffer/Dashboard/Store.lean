import DnsBuffer.Dashboard.Event
import DnsBuffer.Foundation.Bucket
import DnsBuffer.Foundation.Machine

/-!
# The query history store

The four tables of the dashboard's database and the two operations that write to them. A batch of
events is one transaction: every event becomes a row of `query_logs`, its addresses rows of
`query_response_ips`, and it is counted in the row of its hour and in the row of its day. A cleanup
deletes the rows before a cutoff, and the hours and days that end by it.

SQLite is taken at its word: a transaction that fails leaves nothing behind, the primary keys are
unique, `INSERT OR IGNORE` and the upsert do what they say, deleting a row of `query_logs` deletes
its addresses, and `AUTOINCREMENT` never reuses an id. Whether a transaction commits is the
environment's choice. Integers are `i64`, so arithmetic that the source checks is checked here.

Of the calendar two things matter (`Chrono`): which timestamps it accepts, and where their midnight
is.
-/

namespace DnsBuffer

open Bucket

/-! ### Integers and the calendar -/

/-- `HOUR_MS`. -/
def hourMs : ℤ := 3600000

/-- `DAY_MS`. -/
def dayMs : ℤ := 86400000

/-- The value if it fits an `i64`. -/
def checkedI64 (x : ℤ) : Option ℤ := if -2 ^ 63 ≤ x ∧ x < 2 ^ 63 then some x else none

/-- The calendar: `DateTime::from_timestamp_millis` accepts the timestamps of some 262000 years
around the epoch, and midnight of an accepted timestamp is its day since the epoch. -/
class Chrono where
  accepts : ℤ → Bool
  midnightMs : ℤ → ℤ
  accepts_bounded : ∀ t, accepts t → -2 ^ 53 ≤ t ∧ t ≤ 2 ^ 53
  midnightMs_eq : ∀ t, accepts t → midnightMs t = bucket dayMs t

/-- The years -262143 to 262142, as `chrono` has them. -/
@[reducible] def Chrono.utc : Chrono where
  accepts t := -8334601228800000 ≤ t ∧ t ≤ 8210266876799999
  midnightMs := bucket dayMs
  accepts_bounded t h := by
    have := of_decide_eq_true h
    omega
  midnightMs_eq _ _ := rfl

/-! ### The tables -/

/-- A row of `query_logs`. -/
structure LogRow where
  id : ℕ
  timestampMs : ℤ
  domain : Text
  queryType : Text
  responseCode : Text
  durationMs : ℕ
  blocked : Bool
  cacheHit : Bool
  upstream : Option Text
deriving DecidableEq

/-- The row an event becomes. -/
def LogRow.ofEvent (id : ℕ) (e : QueryEvent) : LogRow where
  id := id
  timestampMs := e.timestampMs
  domain := e.domain
  queryType := e.queryType
  responseCode := e.responseCode
  durationMs := e.durationMs
  blocked := e.blocked
  cacheHit := e.cacheHit
  upstream := e.upstream

/-- Total, blocked and cached queries. -/
abbrev Counters := ℕ × ℕ × ℕ

/-- The counters of one query. -/
def countersOf (blocked cacheHit : Bool) : Counters := (1, blocked.toNat, cacheHit.toNat)

/-- A row of `query_hourly_stats` or `query_daily_stats`. -/
structure StatRow where
  bucketMs : ℤ
  counters : Counters
deriving DecidableEq

/-- A table of aggregates. -/
abbrev StatTable := List StatRow

namespace StatTable

/-- The upsert of `insert_events`: one more query in the row of a bucket. -/
def upsert (table : StatTable) (bucketMs : ℤ) (counters : Counters) : StatTable :=
  if table.any fun row ↦ row.bucketMs = bucketMs then
    table.map fun row ↦
      if row.bucketMs = bucketMs then { row with counters := row.counters + counters } else row
  else table ++ [⟨bucketMs, counters⟩]

/-- The deletion of `cleanup`: the buckets of the given width that end by the cutoff. -/
def prune (table : StatTable) (width cutoff : ℤ) : StatTable :=
  table.filter fun row ↦ ¬row.bucketMs + width ≤ cutoff

/-- The counters stored for a bucket, zero without a row. -/
def countersAt (table : StatTable) (bucketMs : ℤ) : Counters :=
  ((table.find? fun row ↦ row.bucketMs = bucketMs).map StatRow.counters).getD 0

end StatTable

/-- The database. `lastId` is the largest id given out; `inserted` is what the specification
remembers of the past, every event with the id it got, and no operation reads it. -/
structure Db where
  queryLogs : List LogRow
  responseIps : List (ℕ × Text)
  hourly : StatTable
  daily : StatTable
  lastId : ℕ
  inserted : List (ℕ × QueryEvent)
deriving DecidableEq

/-- How an operation on the store fails. -/
inductive StoreError
  | durationNotStorable
  | eventTimestampOutOfRange
  | retentionOutOfRange
  | cutoffOutOfRange
  | trendTimestampOutOfRange
  | trendOutOfRange
  | integerConversion
  | bucketOutOfRange
  | trendBucketOutOfRange
  | tooManyBuckets
deriving DecidableEq

namespace Db

/-- The database `Store::open` creates. -/
def empty : Db := ⟨[], [], [], [], 0, []⟩

/-- `INSERT OR IGNORE` of one address. -/
def insertIp (ips : List (ℕ × Text)) (x : ℕ × Text) : List (ℕ × Text) :=
  if x ∈ ips then ips else ips ++ [x]

variable [Chrono]

/-- The statements executed for one event. -/
def addEvent (db : Db) (e : QueryEvent) : Db where
  queryLogs := db.queryLogs ++ [LogRow.ofEvent (db.lastId + 1) e]
  responseIps := (e.responseIps.map fun ip ↦ (db.lastId + 1, ip)).foldl insertIp db.responseIps
  hourly := db.hourly.upsert (bucket hourMs e.timestampMs) (countersOf e.blocked e.cacheHit)
  daily := db.daily.upsert (Chrono.midnightMs e.timestampMs) (countersOf e.blocked e.cacheHit)
  lastId := db.lastId + 1
  inserted := db.inserted ++ [(db.lastId + 1, e)]

/-- One round of the loop of `insert_events`: the duration is refused by the driver, the timestamp
by the calendar. -/
def insertEvent (db : Db) (e : QueryEvent) : Except StoreError Db :=
  if 2 ^ 63 ≤ e.durationMs then .error .durationNotStorable
  else if Chrono.accepts e.timestampMs then .ok (db.addEvent e)
  else .error .eventTimestampOutOfRange

/-- The statements of `insert_events`, up to the commit. -/
def insertEvents (db : Db) (events : List QueryEvent) : Except StoreError Db :=
  events.foldlM insertEvent db

/-- The cutoff of `cleanup`; none if everything is kept. -/
def cleanupCutoff (retentionDays : ℕ) (nowMs : ℤ) : Except StoreError (Option ℤ) :=
  if retentionDays = 0 then .ok none
  else match (checkedI64 retentionDays).bind fun days ↦ checkedI64 (days * dayMs) with
  | none => .error .retentionOutOfRange
  | some retentionMs =>
    match checkedI64 (nowMs - retentionMs) with
    | none => .error .cutoffOutOfRange
    | some cutoff => .ok (some cutoff)

/-- The three deletions of `cleanup`; the first cascades to the addresses. -/
def deleteBefore (db : Db) (cutoff : ℤ) : Db where
  queryLogs := db.queryLogs.filter fun row ↦ ¬row.timestampMs < cutoff
  -- `ON DELETE CASCADE`
  responseIps := db.responseIps.filter fun x ↦
    ¬db.queryLogs.any fun row ↦ row.id = x.1 ∧ row.timestampMs < cutoff
  hourly := db.hourly.prune hourMs cutoff
  daily := db.daily.prune dayMs cutoff
  lastId := db.lastId
  inserted := db.inserted

/-- The statements of `cleanup`, up to the commit. -/
def cleanup (db : Db) (retentionDays : ℕ) (nowMs : ℤ) : Except StoreError Db :=
  (cleanupCutoff retentionDays nowMs).map fun cutoff ↦ cutoff.elim db db.deleteBefore

end Db

/-! ### Runs -/

/-- The store with the largest cutoff a cleanup has used so far. -/
structure StoreState where
  db : Db
  cutoff : Option ℤ

/-- An empty store. -/
def StoreState.empty : StoreState := ⟨Db.empty, none⟩

/-- A call on the store, and whether its transaction commits. -/
inductive StoreOp
  | insertEvents (events : List QueryEvent) (commits : Bool)
  | cleanup (retentionDays : ℕ) (nowMs : ℤ) (commits : Bool)

namespace StoreState

/-- What a transaction leaves behind. -/
def transact (db : Db) (commits : Bool) : Except StoreError Db → Db
  | .ok db' => if commits then db' else db
  | .error _ => db

/-- The larger of the cutoffs. -/
def maxCutoff : Option ℤ → Option ℤ → Option ℤ
  | some a, some b => some (max a b)
  | some a, none => some a
  | none, b => b

variable [Chrono]

/-- The store under any sequence of calls. -/
def machine : Machine StoreState StoreOp where
  step s
    | .insertEvents events commits =>
      some { s with db := transact s.db commits (s.db.insertEvents events) }
    | .cleanup retentionDays nowMs commits =>
      some {
        db := transact s.db commits (s.db.cleanup retentionDays nowMs)
        cutoff :=
          match commits, Db.cleanupCutoff retentionDays nowMs with
          | true, .ok cutoff => maxCutoff s.cutoff cutoff
          | _, _ => s.cutoff }

/-- **What a call does to the tables**: nothing, the inserts of a batch, or the deletions for a
cutoff. -/
theorem db_of_step {s s' : StoreState} {op : StoreOp} (hstep : machine.step s op = some s') :
    s'.db = s.db ∨ (∃ events, s.db.insertEvents events = .ok s'.db) ∨
      ∃ cutoff, s'.db = s.db.deleteBefore cutoff := by
  cases op with
  | insertEvents events commits =>
    rw [← Option.some.inj hstep]
    rcases hok : s.db.insertEvents events with error | db'
    · exact .inl rfl
    · cases commits with
      | false => exact .inl rfl
      | true => exact .inr (.inl ⟨events, hok⟩)
  | cleanup retentionDays nowMs commits =>
    rw [← Option.some.inj hstep, Db.cleanup]
    rcases Db.cleanupCutoff retentionDays nowMs with error | (- | cutoff)
    · exact .inl rfl
    · cases commits with
      | false => exact .inl rfl
      | true => exact .inl rfl
    · cases commits with
      | false => exact .inl rfl
      | true => exact .inr (.inr ⟨cutoff, rfl⟩)

end StoreState

end DnsBuffer
