import DnsBuffer.Dns.Text
import DnsBuffer.Foundation.Table
import DnsBuffer.Foundation.Transaction

/-!
# Opening the database

`Store::open` takes any SQLite file. It refuses one of a newer version, creates the schema in one of
version 0 and migrates one of version 1, each in a transaction of its own, and then checks what it
has found or made: the tables with their columns and primary keys, the cascade, the indexes, and
whether the four tables take the rows they are for, which are rolled back again.

The checks come after the commit. So a file that is upgraded and then rejected stays upgraded: it
has the new version, and the program that wrote it refuses it. `open_atomic_iff` says for which
files that does not happen.

A database is what the pragmas and statements used here see of it, over the rows. SQLite itself
enters through `Sqlite`: calls that fail for reasons outside the database, and the rows of the
probe, whose fate depends on everything a schema can hold.
-/

namespace DnsBuffer

/-- `str::eq_ignore_ascii_case`, which is also how SQLite compares the names in a schema. -/
def Text.eqIgnoreAsciiCase (s t : Text) : Bool := s.map Char.toLower = t.map Char.toLower

/-! ### Databases -/

/-- A value in a row; a float is its bits. -/
inductive SqlValue
  | null
  | integer (value : ℤ)
  | real (bits : UInt64)
  | text (value : Text)
  | blob (bytes : List UInt8)
deriving DecidableEq

/-- A column as `PRAGMA table_info` lists it; `primaryKey` is its ordinal in the primary key, or
0. -/
structure Column where
  name : Text
  dataType : Text
  notNull : Bool
  primaryKey : ℕ
deriving DecidableEq

/-- A foreign key as `PRAGMA foreign_key_list` lists it; the parent's column may be left out. -/
structure ForeignKey where
  table : Text
  column : Text
  parentColumn : Option Text
  onDelete : Text
deriving DecidableEq

/-- An index; an expression or the row id has no column name. -/
structure Index where
  name : Text
  table : Text
  columns : List (Option Text)
deriving DecidableEq

/-- A table. `hidden` are the columns `table_info` does not list, `clauses` the rest of the
definition. -/
structure SqlTable where
  name : Text
  columns : List Column
  hidden : List Text
  foreignKeys : List ForeignKey
  clauses : List Text
  rows : List (List SqlValue)
deriving DecidableEq

/-- A database file. Views and triggers are their name and their definition. -/
structure Database where
  userVersion : ℤ
  tables : List SqlTable
  indexes : List Index
  views : List (Text × Text)
  triggers : List (Text × Text)
deriving DecidableEq

namespace Database

/-- The table of a name, as statements and pragmas find it. -/
def table? (db : Database) (name : Text) : Option SqlTable :=
  db.tables.find? fun t ↦ t.name.eqIgnoreAsciiCase name

/-- Whether `sqlite_master` has a table under exactly this name. -/
def hasTable (db : Database) (name : Text) : Bool := db.tables.any fun t ↦ t.name = name

/-- `PRAGMA table_info`. -/
def tableInfo (db : Database) (name : Text) : List Column :=
  (db.table? name).elim [] SqlTable.columns

/-- `PRAGMA foreign_key_list`. -/
def foreignKeyList (db : Database) (name : Text) : List ForeignKey :=
  (db.table? name).elim [] SqlTable.foreignKeys

/-- `PRAGMA index_list`, the names. -/
def indexList (db : Database) (table : Text) : List Text :=
  (db.indexes.filter fun i ↦ i.table.eqIgnoreAsciiCase table).map Index.name

/-- `PRAGMA index_info`, the columns' names. -/
def indexInfo (db : Database) (name : Text) : List (Option Text) :=
  (db.indexes.find? fun i ↦ i.name.eqIgnoreAsciiCase name).elim [] Index.columns

/-- A table, index or view has the name. -/
def nameInUse (db : Database) (name : Text) : Bool :=
  (db.tables.any fun t ↦ t.name.eqIgnoreAsciiCase name) ||
    (db.indexes.any fun i ↦ i.name.eqIgnoreAsciiCase name) ||
    db.views.any fun v ↦ v.1.eqIgnoreAsciiCase name

end Database

/-! ### SQLite -/

/-- The calls into SQLite that `Store::open` makes, apart from the rows of the probe. -/
inductive SqlCall
  /-- `Connection::open`, with the busy timeout and `foreign_keys`. -/
  | connect
  | journalMode
  | userVersion
  | begin
  | createSchema
  | findQueryLogs
  | queryLogsInfo
  | addUpstream
  | setUserVersion
  | commit
  | tableExists (table : Text)
  | tableInfo (table : Text)
  | foreignKeyList
  | indexList (index : Text)
  | indexInfo (index : Text)
  /-- The transaction and the savepoint of the probe. -/
  | beginProbe
  | rollbackProbe
deriving DecidableEq

/-- What comes from SQLite: which calls fail for a reason outside the database, such as a lock or a
full disk, and what becomes of the rows of the probe. -/
class Sqlite where
  failure : SqlCall → Option Text
  /-- Insert a row of `query_logs`; its row id. -/
  insertLog : Database → Except Text (ℤ × Database)
  /-- The `id` of a row of `query_logs`. -/
  idOfRow : Database → ℤ → Except Text ℤ
  /-- Insert an address of a row. -/
  insertAddress : Database → ℤ → Except Text Database
  /-- Insert or count up the row of bucket 0. -/
  upsertBucket : Database → Text → Except Text Database

/-- Why `Store::open` fails. -/
inductive OpenError
  /-- SQLite reports a failure. -/
  | sqlite (message : Text)
  | nameInUse (name : Text)
  | noSuchTable (name : Text)
  | duplicateColumn (name : Text)
  /-- A value that is read as text is null. -/
  | invalidColumnType
  | bail (message : Text)
  | context (message : Text) (source : OpenError)
deriving DecidableEq

/-- A call into SQLite, which may fail. -/
def sqlCall [Sqlite] (c : SqlCall) : Except OpenError Unit :=
  match Sqlite.failure c with
  | some message => .error (.sqlite message)
  | none => .ok ()

/-- The result of a statement of the probe. -/
def probeStatement {α : Type} (result : Except Text α) : Except OpenError α :=
  result.mapError .sqlite

/-! ### The schema -/

/-- `SCHEMA_VERSION`. -/
def schemaVersion : ℤ := 2

namespace Schema

def queryLogs : Text := "query_logs".toList

def queryResponseIps : Text := "query_response_ips".toList

def queryHourlyStats : Text := "query_hourly_stats".toList

def queryDailyStats : Text := "query_daily_stats".toList

def sqliteSequence : Text := "sqlite_sequence".toList

/-- A column declared `INTEGER`. -/
def integer (name : String) (notNull : Bool) (primaryKey : ℕ) : Column :=
  ⟨name.toList, "INTEGER".toList, notNull, primaryKey⟩

/-- A column declared `TEXT`. -/
def text (name : String) (notNull : Bool) (primaryKey : ℕ) : Column :=
  ⟨name.toList, "TEXT".toList, notNull, primaryKey⟩

/-- The columns of `query_logs` before version 2. -/
def queryLogsColumns : List Column :=
  [integer "id" false 1, integer "timestamp_ms" true 0, text "domain" true 0,
    text "query_type" true 0, text "response_code" true 0, integer "duration_ms" true 0,
    integer "blocked" true 0, integer "cache_hit" true 0]

/-- The column version 2 adds. -/
def upstreamColumn : Column := text "upstream" false 0

/-- The columns of `query_response_ips`. -/
def queryResponseIpsColumns : List Column := [integer "query_id" true 1, text "ip" true 2]

/-- The columns of `query_hourly_stats` and `query_daily_stats`. -/
def statsColumns : List Column :=
  [integer "bucket_ms" false 1, integer "total_queries" true 0, integer "blocked_queries" true 0,
    integer "cache_hits" true 0]

/-- The tables that version 1 has as well as version 2. -/
def otherTables : List (Text × List Column) :=
  [(queryResponseIps, queryResponseIpsColumns), (queryHourlyStats, statsColumns),
    (queryDailyStats, statsColumns)]

/-- `required_columns`. -/
def requiredColumns : List (Text × List Column) :=
  (queryLogs, queryLogsColumns ++ [upstreamColumn]) :: otherTables

/-- The columns required of a file that is still to be migrated. -/
def requiredBefore : List (Text × List Column) := (queryLogs, queryLogsColumns) :: otherTables

/-- An index on columns, each of which has a name. -/
structure IndexOn where
  table : Text
  name : Text
  columns : List Text

def timeIndex : IndexOn :=
  ⟨queryLogs, "query_logs_time_idx".toList, ["timestamp_ms".toList, "id".toList]⟩

def domainIndex : IndexOn := ⟨queryLogs, "query_logs_domain_idx".toList, ["domain".toList]⟩

def ipIndex : IndexOn := ⟨queryResponseIps, "query_response_ips_ip_idx".toList, ["ip".toList]⟩

/-- The indexes that are checked. -/
def requiredIndexes : List IndexOn := [timeIndex, domainIndex, ipIndex]

/-- An index as the database has it. -/
def IndexOn.toIndex (i : IndexOn) : Index := ⟨i.name, i.table, i.columns.map some⟩

/-- The foreign key of `query_response_ips`. -/
def cascade : ForeignKey := ⟨queryLogs, "query_id".toList, some "id".toList, "CASCADE".toList⟩

/-- A table as it is created, without rows. -/
def newTable (name : Text) (columns : List Column) (foreignKeys : List ForeignKey)
    (clauses : List String) : SqlTable :=
  ⟨name, columns, [], foreignKeys, clauses.map String.toList, []⟩

def queryLogsTable : SqlTable :=
  newTable queryLogs (queryLogsColumns ++ [upstreamColumn]) []
    ["AUTOINCREMENT", "CHECK(duration_ms >= 0)", "CHECK(blocked IN (0,1))",
      "CHECK(cache_hit IN (0,1))"]

def queryResponseIpsTable : SqlTable :=
  newTable queryResponseIps queryResponseIpsColumns [cascade] []

/-- The index SQLite makes for the primary key of `query_response_ips`. -/
def responseIpsAutoindex : IndexOn :=
  ⟨queryResponseIps, "sqlite_autoindex_query_response_ips_1".toList,
    ["query_id".toList, "ip".toList]⟩

/-- The table SQLite makes with the first `AUTOINCREMENT`. -/
def sqliteSequenceTable : SqlTable :=
  newTable sqliteSequence [⟨"name".toList, [], false, 0⟩, ⟨"seq".toList, [], false, 0⟩] [] []

/-- The names of what is created. -/
def newNames : List Text :=
  [queryLogs, timeIndex.name, domainIndex.name, queryResponseIps, ipIndex.name, queryHourlyStats,
    queryDailyStats]

end Schema

open Schema

/-! ### The upgrade -/

namespace Database

/-- The database with more tables and indexes. -/
def extend (db : Database) (tables : List SqlTable) (indexes : List Index) : Database :=
  { db with tables := db.tables ++ tables, indexes := db.indexes ++ indexes }

/-- `CREATE TABLE`, with the index SQLite makes for its primary key. -/
def createTable (db : Database) (table : SqlTable) (autoindex : List Index) :
    Except OpenError Database :=
  if db.nameInUse table.name then .error (.nameInUse table.name)
  else .ok (db.extend [table] autoindex)

/-- `CREATE INDEX`. -/
def createIndex (db : Database) (index : Index) : Except OpenError Database :=
  if (db.table? index.table).isNone then .error (.noSuchTable index.table)
  else if db.nameInUse index.name then .error (.nameInUse index.name)
  else .ok (db.extend [] [index])

/-- The first table with `AUTOINCREMENT` brings `sqlite_sequence` with it. -/
def newSequence (db : Database) : List SqlTable :=
  if db.hasTable sqliteSequence then [] else [sqliteSequenceTable]

/-- The batch that `Store::open` executes on a file of version 0. -/
def createTables (db : Database) : Except OpenError Database := do
  let sequence := db.newSequence
  let db ← db.createTable queryLogsTable []
  let db ← (db.extend sequence []).createIndex timeIndex.toIndex
  let db ← db.createIndex domainIndex.toIndex
  let db ← db.createTable queryResponseIpsTable [responseIpsAutoindex.toIndex]
  let db ← db.createIndex ipIndex.toIndex
  let db ← db.createTable (newTable queryHourlyStats statsColumns [] []) []
  let db ← db.createTable (newTable queryDailyStats statsColumns [] []) []
  return { db with userVersion := schemaVersion }

/-- The transaction of `Store::open` on a file of version 0. -/
def createSchema [Sqlite] (db : Database) : Except OpenError Database := do
  sqlCall .begin
  sqlCall .createSchema
  let db ← db.createTables
  sqlCall .commit
  return db

/-- The database with one more column in the table of a name, null in every row. -/
def withColumn (db : Database) (name : Text) (column : Column) : Database :=
  { db with
    tables := db.tables.map fun t ↦
      if t.name.eqIgnoreAsciiCase name then
        { t with columns := t.columns ++ [column], rows := t.rows.map (· ++ [.null]) }
      else t }

/-- `ALTER TABLE … ADD COLUMN` of a column without a default. -/
def addColumn (db : Database) (name : Text) (column : Column) : Except OpenError Database :=
  match db.table? name with
  | none => .error (.noSuchTable name)
  | some table =>
    if (table.columns.map Column.name ++ table.hidden).any (·.eqIgnoreAsciiCase column.name) then
      .error (.duplicateColumn column.name)
    else
      .ok (db.withColumn name column)

/-- The part of `migrate_to_current` that adds the column, unless it is there or there is no
table. -/
def addUpstream [Sqlite] (db : Database) : Except OpenError Database :=
  if db.hasTable queryLogs then do
    sqlCall .queryLogsInfo
    if (db.tableInfo queryLogs).any fun c ↦ c.name = upstreamColumn.name then return db
    else do
      sqlCall .addUpstream
      db.addColumn queryLogs upstreamColumn
  else return db

/-- `migrate_to_current`. -/
def migrateToCurrent [Sqlite] (db : Database) : Except OpenError Database := do
  sqlCall .begin
  sqlCall .findQueryLogs
  let db ← db.addUpstream
  sqlCall .setUserVersion
  sqlCall .commit
  return { db with userVersion := schemaVersion }

end Database

/-! ### The checks -/

/-- The columns of a primary key in order are the expected ones. -/
def primaryKeyMatches (actual expected : List (ℕ × Text)) : Bool :=
  actual.length = expected.length &&
    (actual.zip expected).all fun (a, e) ↦ a.1 = e.1 && a.2.eqIgnoreAsciiCase e.2

/-- `validate_primary_key_columns`. -/
def validatePrimaryKeyColumns (table : Text) (actual expected : List (ℕ × Text)) :
    Except OpenError Unit :=
  if primaryKeyMatches actual expected then .ok ()
  else .error (.bail ("database schema v1 table ".toList ++ table ++
    " has an invalid primary key sequence".toList))

/-- The columns of the primary key under their ordinals. -/
def primaryKeyOf (columns : List Column) : List (ℕ × Text) :=
  (columns.filter fun c ↦ 0 < c.primaryKey).map fun c ↦ (c.primaryKey, c.name)

/-- The check of one expected column. -/
def validateColumn (table : Text) (columns : List Column) (expected : Column) :
    Except OpenError Unit :=
  match columns.find? fun c ↦ c.name = expected.name with
  | none =>
    .error (.bail ("database schema v1 table ".toList ++ table ++
      " is missing required column ".toList ++ expected.name))
  | some column =>
    if !column.dataType.eqIgnoreAsciiCase expected.dataType ||
        (expected.notNull && !column.notNull) || column.primaryKey ≠ expected.primaryKey then
      .error (.bail ("database schema v1 column ".toList ++ table ++ ".".toList ++ expected.name ++
        " must be ".toList ++ expected.dataType ++
        " with the required NOT NULL/PRIMARY KEY ordinal".toList))
    else .ok ()

/-- The texts of a column of a result, all of which are read before any is used. -/
def readTexts (values : List (Option Text)) : Except OpenError (List Text) :=
  if values.all Option.isSome then .ok (values.filterMap id) else .error .invalidColumnType

namespace Database

variable [Sqlite]

/-- The check of one required table. -/
def validateTable (db : Database) (required : Text × List Column) : Except OpenError Unit := do
  let (table, expected) := required
  sqlCall (.tableExists table)
  if !db.hasTable table then
    .error (.bail ("database schema v1 is missing required table ".toList ++ table))
  else do
    sqlCall (.tableInfo table)
    let columns := db.tableInfo table
    validatePrimaryKeyColumns table (Table.orderBy Prod.fst (primaryKeyOf columns))
      (primaryKeyOf expected)
    expected.forM (validateColumn table columns)

/-- The check of the foreign key. -/
def validateCascade (db : Database) : Except OpenError Unit := do
  sqlCall .foreignKeyList
  let keys := db.foreignKeyList queryResponseIps
  let _ ← readTexts (keys.map ForeignKey.parentColumn)
  if keys.any fun k ↦ k.table = cascade.table ∧ k.column = cascade.column ∧
      k.parentColumn = cascade.parentColumn ∧ k.onDelete.eqIgnoreAsciiCase cascade.onDelete then
    .ok ()
  else .error (.bail ("database schema v1 query_response_ips.query_id ".toList ++
    "must reference query_logs.id ON DELETE CASCADE".toList))

/-- The check of one required index. -/
def validateIndex (db : Database) (required : IndexOn) : Except OpenError Unit := do
  sqlCall (.indexList required.name)
  if !(db.indexList required.table).contains required.name then
    .error (.bail ("database schema v1 is missing required index ".toList ++ required.name))
  else do
    sqlCall (.indexInfo required.name)
    let columns ← readTexts (db.indexInfo required.name)
    if columns = required.columns then .ok ()
    else .error (.bail ("database schema v1 index ".toList ++ required.name ++
      " must cover columns ".toList ++ ", ".toList.intercalate required.columns))

/-- The rows of the probe. -/
def probeRows (db : Database) : Except OpenError Database := do
  let (id, inserted) ← probeStatement (Sqlite.insertLog db)
  let storedId ← probeStatement (Sqlite.idOfRow inserted id)
  if storedId ≠ id then
    .error (.bail
      "database schema v1 query_logs.id must be an INTEGER PRIMARY KEY rowid alias".toList)
  else do
    let addressed ← probeStatement (Sqlite.insertAddress inserted id)
    let counted ← probeStatement (Sqlite.upsertBucket addressed queryHourlyStats)
    probeStatement (Sqlite.upsertBucket counted queryDailyStats)

/-- `validate_schema_behavior`: the savepoint is rolled back also where a row is refused. -/
def probe (db : Database) : Except OpenError (Unit × Database) := do
  sqlCall .beginProbe
  let result := db.probeRows
  sqlCall .rollbackProbe
  match result with
  | .ok db => .ok ((), db)
  | .error e => .error (.context "database schema v1 behavior probe failed".toList e)

/-- The part of `validate_schema` that only reads. -/
def validateStructure (db : Database) : Except OpenError Unit := do
  requiredColumns.forM db.validateTable
  db.validateCascade
  requiredIndexes.forM db.validateIndex

/-- `validate_schema`; its last step is the probe. -/
def validateSchema : Session Database OpenError Unit :=
  (Session.read validateStructure).andThen fun _ ↦ Session.rolledBack probe

/-- The part of `Store::open` before the schema is touched. -/
def readVersion (db : Database) : Except OpenError ℤ := do
  sqlCall .connect
  sqlCall .journalMode
  sqlCall .userVersion
  if db.userVersion > schemaVersion then
    .error (.bail
      ("database uses newer schema version ".toList ++ (toString db.userVersion).toList))
  else .ok db.userVersion

/-- `Store::open`. -/
def openStore : Session Database OpenError Unit :=
  (Session.read readVersion).andThen fun version ↦
    if version = 0 then (Session.transaction createSchema).andThen fun _ ↦ validateSchema
    else if version < schemaVersion then
      (Session.transaction migrateToCurrent).andThen fun _ ↦ validateSchema
    else validateSchema

end Database

end DnsBuffer
