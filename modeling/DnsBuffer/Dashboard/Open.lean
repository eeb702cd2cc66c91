import DnsBuffer.Dashboard.Schema

/-!
# A database that cannot be opened

What the checks of `Store::open` require is stated here as a condition on the database (`Fits`), and
what the upgrade does to it as one function (`upgraded`). On a created schema everything that is
only read is as required, and a migrated one has to meet the requirements of the version before,
with a column `upstream` of the right type in case there is one already.

So `open_atomic_iff` can tell from the file as it was found whether `Store::open` leaves it as it
was when it fails.
-/

namespace DnsBuffer

open Schema

/-- The calls do not fail. -/
def Quiet [Sqlite] (calls : List SqlCall) : Prop := ∀ c ∈ calls, Sqlite.failure c = none

theorem quiet_cons [Sqlite] {c : SqlCall} {calls : List SqlCall} :
    Quiet (c :: calls) ↔ Sqlite.failure c = none ∧ Quiet calls := List.forall_mem_cons

theorem quiet_pair [Sqlite] {c d : SqlCall} :
    Quiet [c, d] ↔ Sqlite.failure c = none ∧ Sqlite.failure d = none := by
  rw [quiet_cons, Quiet, List.forall_mem_singleton]

theorem quiet_append [Sqlite] {calls more : List SqlCall} :
    Quiet (calls ++ more) ↔ Quiet calls ∧ Quiet more := List.forall_mem_append

theorem quiet_flatMap [Sqlite] {α : Type*} {xs : List α} {f : α → List SqlCall} :
    Quiet (xs.flatMap f) ↔ ∀ x ∈ xs, Quiet (f x) := List.forall_mem_flatMap

theorem sqlCall_eq_ok [Sqlite] {c : SqlCall} : sqlCall c = .ok () ↔ Sqlite.failure c = none := by
  rw [sqlCall]
  rcases Sqlite.failure c with _ | message
  · exact ⟨fun _ ↦ rfl, fun _ ↦ rfl⟩
  · exact ⟨fun h ↦ (nomatch h), fun h ↦ (nomatch h)⟩

/-! ### What is required -/

/-- Among the columns is the expected one. -/
def ColumnFits (columns : List Column) (expected : Column) : Prop :=
  ∃ c, columns.find? (fun c ↦ c.name = expected.name) = some c ∧
    c.dataType.eqIgnoreAsciiCase expected.dataType ∧ (expected.notNull → c.notNull) ∧
    c.primaryKey = expected.primaryKey

namespace Database

/-- The table is there with the expected primary key and columns. -/
structure TableFits (db : Database) (required : Text × List Column) : Prop where
  hasTable : db.hasTable required.1
  primaryKey : primaryKeyMatches (Table.orderBy Prod.fst (primaryKeyOf (db.tableInfo required.1)))
    (primaryKeyOf required.2)
  columns : ∀ c ∈ required.2, ColumnFits (db.tableInfo required.1) c

/-- The addresses of a query are deleted with it. -/
structure CascadeFits (db : Database) : Prop where
  named : ∀ k ∈ db.foreignKeyList queryResponseIps, k.parentColumn.isSome
  cascades : ∃ k ∈ db.foreignKeyList queryResponseIps, k.table = cascade.table ∧
    k.column = cascade.column ∧ k.parentColumn = cascade.parentColumn ∧
    k.onDelete.eqIgnoreAsciiCase cascade.onDelete

/-- The index is there and covers the expected columns. -/
structure IndexFits (db : Database) (required : IndexOn) : Prop where
  listed : required.name ∈ db.indexList required.table
  covers : db.indexInfo required.name = required.columns.map some

/-- The database has the required tables, cascade and indexes. -/
structure Fits (db : Database) (required : List (Text × List Column)) : Prop where
  tables : ∀ t ∈ required, db.TableFits t
  cascade : db.CascadeFits
  indexes : ∀ i ∈ requiredIndexes, db.IndexFits i

end Database

/-- The calls of the checks that only read. -/
def structureCalls : List SqlCall :=
  (requiredColumns.flatMap fun t ↦ [.tableExists t.1, .tableInfo t.1]) ++
    .foreignKeyList :: requiredIndexes.flatMap fun i ↦ [.indexList i.name, .indexInfo i.name]

theorem readTexts_eq_ok {values : List (Option Text)} {texts : List Text} :
    readTexts values = .ok texts ↔ values = texts.map some := by
  rw [readTexts, Work.ite_ok_eq_ok]
  induction values generalizing texts with
  | nil => cases texts <;> simp
  | cons value values ih =>
    cases texts with
    | nil => cases value <;> simp
    | cons text texts =>
      rw [List.map_cons, List.cons.injEq, ← ih]
      cases value with
      | none => simp
      | some value =>
        rw [List.all_cons, Option.isSome_some, Bool.true_and, List.filterMap_cons,
          Option.some.injEq, id_eq, List.cons.injEq]
        exact and_left_comm

theorem validateColumn_eq_ok {table : Text} {columns : List Column} {expected : Column} :
    validateColumn table columns expected = .ok () ↔ ColumnFits columns expected := by
  rw [validateColumn, ColumnFits]
  cases hfind : columns.find? fun c ↦ c.name = expected.name with
  | none => simp
  | some c =>
    simp only [Option.some.injEq, exists_eq_left']
    rw [ite_eq_right_iff]
    cases c.dataType.eqIgnoreAsciiCase expected.dataType <;> cases expected.notNull <;>
      cases c.notNull <;> simp

namespace Database

variable [Sqlite] {db : Database}

theorem validateTable_eq_ok {required : Text × List Column} : db.validateTable required = .ok () ↔
    Quiet [.tableExists required.1, .tableInfo required.1] ∧ db.TableFits required := by
  obtain ⟨table, expected⟩ := required
  rw [validateTable, Work.unit_bind_eq_ok, sqlCall_eq_ok, quiet_pair]
  cases hexists : db.hasTable table with
  | false => exact ⟨fun h ↦ (nomatch h.2), fun h ↦ absurd h.2.hasTable (by simp [hexists])⟩
  | true =>
    rw [Bool.not_true, if_neg Bool.false_ne_true, Work.unit_bind_eq_ok, sqlCall_eq_ok,
      Work.unit_bind_eq_ok, validatePrimaryKeyColumns, Work.ite_ok_eq_ok, Work.forM_eq_ok]
    simp only [validateColumn_eq_ok]
    exact ⟨fun ⟨h₁, h₂, h₃, h₄⟩ ↦ ⟨⟨h₁, h₂⟩, hexists, h₃.1, h₄⟩,
      fun ⟨⟨h₁, h₂⟩, h⟩ ↦ ⟨h₁, h₂, ⟨h.primaryKey, trivial⟩, h.columns⟩⟩

theorem validateCascade_eq_ok :
    db.validateCascade = .ok () ↔ Sqlite.failure .foreignKeyList = none ∧ db.CascadeFits := by
  rw [validateCascade, Work.unit_bind_eq_ok, sqlCall_eq_ok, Work.bind_eq_ok]
  simp only [Work.ite_ok_eq_ok, List.any_eq_true, decide_eq_true_eq, and_true]
  refine and_congr_right fun _ ↦ ⟨fun ⟨texts, htexts, hcascade⟩ ↦ ⟨fun k hk ↦ ?_, hcascade⟩,
    fun h ↦ ⟨_, if_pos ?_, h.cascades⟩⟩
  · have hmem := List.mem_map_of_mem (f := ForeignKey.parentColumn) hk
    rw [readTexts_eq_ok.1 htexts, List.mem_map] at hmem
    obtain ⟨text, -, htext⟩ := hmem
    rw [← htext, Option.isSome_some]
  · rw [List.all_map, List.all_eq_true]
    exact h.named

theorem validateIndex_eq_ok {required : IndexOn} : db.validateIndex required = .ok () ↔
    Quiet [.indexList required.name, .indexInfo required.name] ∧ db.IndexFits required := by
  rw [validateIndex, Work.unit_bind_eq_ok, sqlCall_eq_ok, quiet_pair]
  cases hlisted : (db.indexList required.table).contains required.name with
  | false => exact ⟨fun h ↦ (nomatch h.2), fun h ↦ absurd h.2.listed (by simpa using hlisted)⟩
  | true =>
    rw [Bool.not_true, if_neg Bool.false_ne_true, Work.unit_bind_eq_ok, sqlCall_eq_ok,
      Work.bind_eq_ok]
    simp only [readTexts_eq_ok, Work.ite_ok_eq_ok, and_true, exists_eq_right]
    exact ⟨fun ⟨h₁, h₂, h₃⟩ ↦ ⟨⟨h₁, h₂⟩, List.contains_iff_mem.1 hlisted, h₃⟩,
      fun ⟨⟨h₁, h₂⟩, h⟩ ↦ ⟨h₁, h₂, h.covers⟩⟩

/-- **The checks that only read** succeed on the databases that fit. -/
theorem validateStructure_eq_ok :
    db.validateStructure = .ok () ↔ Quiet structureCalls ∧ db.Fits requiredColumns := by
  rw [validateStructure, Work.unit_bind_eq_ok, Work.unit_bind_eq_ok, Work.forM_eq_ok,
    Work.forM_eq_ok, validateCascade_eq_ok, structureCalls, quiet_append, quiet_cons, quiet_flatMap,
    quiet_flatMap]
  simp only [validateTable_eq_ok, validateIndex_eq_ok]
  exact ⟨fun ⟨ht, hc, hi⟩ ↦ ⟨⟨fun t h ↦ (ht t h).1, hc.1,
      fun i h ↦ (hi i h).1⟩, fun t h ↦ (ht t h).2, hc.2, fun i h ↦ (hi i h).2⟩,
    fun ⟨⟨ht, hc, hi⟩, h⟩ ↦ ⟨fun t hmem ↦ ⟨ht t hmem, h.tables t hmem⟩,
      ⟨hc, h.cascade⟩, fun i hmem ↦ ⟨hi i hmem, h.indexes i hmem⟩⟩⟩

end Database

/-! ### What is created -/

namespace Database

variable {db : Database}

/-- The tables the batch creates, with SQLite's own among them. -/
def newTables (sequence : List SqlTable) : List SqlTable :=
  queryLogsTable :: sequence ++ [queryResponseIpsTable,
    newTable queryHourlyStats statsColumns [] [], newTable queryDailyStats statsColumns [] []]

/-- The indexes the batch creates. -/
def newIndexes : List Index :=
  [timeIndex.toIndex, domainIndex.toIndex, responseIpsAutoindex.toIndex, ipIndex.toIndex]

/-- The database after the batch. -/
def created (db : Database) : Database :=
  { db.extend (newTables db.newSequence) newIndexes with userVersion := schemaVersion }

theorem extend_extend (db : Database) (tables more : List SqlTable) (indexes others : List Index) :
    (db.extend tables indexes).extend more others =
      db.extend (tables ++ more) (indexes ++ others) := by
  rw [extend, extend, extend, List.append_assoc, List.append_assoc]

/-- New tables and indexes do not take a name that none of them has. -/
theorem nameInUse_extend {tables : List SqlTable} {indexes : List Index} {name : Text}
    (h : ((tables.any fun t ↦ t.name.eqIgnoreAsciiCase name) ||
      indexes.any fun i ↦ i.name.eqIgnoreAsciiCase name) = false) :
    (db.extend tables indexes).nameInUse name = db.nameInUse name := by
  rw [Bool.or_eq_false_iff] at h
  rw [nameInUse, nameInUse, extend, List.any_append, List.any_append, h.1, h.2, Bool.or_false,
    Bool.or_false]

theorem table?_extend (tables : List SqlTable) (indexes : List Index) (name : Text) :
    (db.extend tables indexes).table? name =
      (db.table? name).or (tables.find? fun t ↦ t.name.eqIgnoreAsciiCase name) :=
  List.find?_append

theorem isSome_table?_extend {tables : List SqlTable} {indexes : List Index} {name : Text}
    (h : (tables.any fun t ↦ t.name.eqIgnoreAsciiCase name) = true) :
    ((db.extend tables indexes).table? name).isSome = true := by
  have hnew : (tables.find? fun t ↦ t.name.eqIgnoreAsciiCase name).isSome := by
    rw [List.find?_isSome]
    exact List.any_eq_true.1 h
  rw [table?_extend, Option.isSome_or, hnew, Bool.or_true]

theorem createTable_eq_ok {table : SqlTable} {autoindex : List Index} {d : Database} :
    db.createTable table autoindex = .ok d ↔
      db.nameInUse table.name = false ∧ d = db.extend [table] autoindex := by
  rw [createTable]
  cases db.nameInUse table.name <;> simp [eq_comm]

theorem createIndex_eq_ok {index : Index} {d : Database} :
    db.createIndex index = .ok d ↔ (db.table? index.table).isSome ∧
      db.nameInUse index.name = false ∧ d = db.extend [] [index] := by
  rw [createIndex]
  cases db.table? index.table <;> cases db.nameInUse index.name <;> simp [eq_comm]

theorem newSequence_cases (db : Database) :
    db.newSequence = [] ∨ db.newSequence = [sqliteSequenceTable] := by
  rw [newSequence]
  cases db.hasTable sqliteSequence
  · exact Or.inr rfl
  · exact Or.inl rfl

/-- **The batch succeeds where its names are free.** -/
theorem createTables_eq_ok {d : Database} : db.createTables = .ok d ↔
    (∀ name ∈ newNames, db.nameInUse name = false) ∧ d = db.created := by
  rw [newNames, List.forall_mem_cons, List.forall_mem_cons, List.forall_mem_cons,
    List.forall_mem_cons, List.forall_mem_cons, List.forall_mem_cons, List.forall_mem_singleton]
  simp only [createTables, created, newTables, Work.bind_eq_ok, createTable_eq_ok,
    createIndex_eq_ok, exists_and_left, exists_eq_left, and_assoc, extend_extend]
  -- with the list of the new tables at hand, none of the names clash
  rcases db.newSequence_cases with h | h <;> rw [h] <;>
    simp (disch := decide +kernel) only [nameInUse_extend, isSome_table?_extend, true_and] <;>
    exact and_congr_right' (and_congr_right' (and_congr_right' (and_congr_right' (and_congr_right'
      (and_congr_right' (and_congr_right' ⟨fun hd ↦ (Except.ok.inj hd).symm,
        fun hd ↦ congrArg Except.ok hd.symm⟩))))))

theorem columnFits_self {columns : List Column} (hnodup : (columns.map Column.name).Nodup)
    {c : Column} (hc : c ∈ columns) : ColumnFits columns c := by
  refine ⟨c, ?_, decide_eq_true rfl, id, rfl⟩
  obtain ⟨before, after, rfl⟩ := List.append_of_mem hc
  rw [List.map_append, List.map_cons, List.nodup_append] at hnodup
  refine List.find?_eq_some_iff_append.2 ⟨decide_eq_true rfl, before, after, rfl, fun b hb ↦ ?_⟩
  have hne := hnodup.2.2 _ (List.mem_map_of_mem hb) _ List.mem_cons_self
  simpa using hne

/-- A name that is free belongs to no table. -/
theorem table?_eq_none {name : Text} (hfree : db.nameInUse name = false) :
    db.table? name = none := by
  rw [nameInUse, Bool.or_eq_false_iff, Bool.or_eq_false_iff] at hfree
  rw [table?, List.find?_eq_none]
  exact fun t ht ↦ List.any_eq_false.1 hfree.1.1 t ht

/-- A table under a name that was free is one of the new ones. -/
theorem table?_created {name : Text} (hfree : db.nameInUse name = false) {table : SqlTable}
    (hfind : ∀ sequence, sequence = [] ∨ sequence = [sqliteSequenceTable] →
      (newTables sequence).find? (fun t ↦ t.name.eqIgnoreAsciiCase name) = some table) :
    db.created.table? name = some table := by
  show (db.extend (newTables db.newSequence) newIndexes).table? name = some table
  rw [table?_extend, table?_eq_none hfree, Option.none_or, hfind _ db.newSequence_cases]

/-- A new table has the required columns if it was made with them. -/
theorem tableFits_of_table? {table : SqlTable} {required : Text × List Column}
    (htable : db.table? required.1 = some table) (hname : table.name = required.1)
    (hcolumns : table.columns = required.2) (hnodup : (required.2.map Column.name).Nodup)
    (hkey : primaryKeyMatches (Table.orderBy Prod.fst (primaryKeyOf required.2))
      (primaryKeyOf required.2)) : db.TableFits required := by
  have hinfo : db.tableInfo required.1 = required.2 := by
    rw [tableInfo, htable, Option.elim_some, hcolumns]
  refine ⟨List.any_eq_true.2 ⟨table, List.mem_of_find?_eq_some htable, decide_eq_true hname⟩,
    ?_, ?_⟩
  · rw [hinfo]
    exact hkey
  · rw [hinfo]
    exact fun c ↦ columnFits_self hnodup

/-- A new index covers what it was made for. -/
theorem indexFits_created {required : IndexOn} (hfree : db.nameInUse required.name = false)
    (hfind : newIndexes.find? (fun i ↦ i.name.eqIgnoreAsciiCase required.name)
      = some required.toIndex) : db.created.IndexFits required := by
  have hnone : db.indexes.find? (fun i ↦ i.name.eqIgnoreAsciiCase required.name) = none := by
    rw [nameInUse, Bool.or_eq_false_iff, Bool.or_eq_false_iff] at hfree
    rw [List.find?_eq_none]
    exact fun i hi ↦ List.any_eq_false.1 hfree.1.2 i hi
  have hindex : db.created.indexes.find? (fun i ↦ i.name.eqIgnoreAsciiCase required.name)
      = some required.toIndex := by
    show (db.indexes ++ newIndexes).find? _ = _
    rw [List.find?_append, hnone, Option.none_or, hfind]
  refine ⟨List.mem_map.2 ⟨required.toIndex, List.mem_filter.2
    ⟨List.mem_of_find?_eq_some hindex, decide_eq_true rfl⟩, rfl⟩, ?_⟩
  rw [indexInfo, hindex]
  rfl

/-- **On a created schema, everything is as required.** -/
theorem fits_created (hfree : ∀ name ∈ newNames, db.nameInUse name = false) :
    db.created.Fits requiredColumns := by
  have hlogs : db.created.table? queryLogs = some queryLogsTable :=
    table?_created (hfree _ (by decide)) (by rintro sequence (rfl | rfl) <;> rfl)
  have hips : db.created.table? queryResponseIps = some queryResponseIpsTable :=
    table?_created (hfree _ (by decide)) (by rintro sequence (rfl | rfl) <;> rfl)
  have hhourly : db.created.table? queryHourlyStats =
      some (newTable queryHourlyStats statsColumns [] []) :=
    table?_created (hfree _ (by decide)) (by rintro sequence (rfl | rfl) <;> rfl)
  have hdaily : db.created.table? queryDailyStats =
      some (newTable queryDailyStats statsColumns [] []) :=
    table?_created (hfree _ (by decide)) (by rintro sequence (rfl | rfl) <;> rfl)
  have hkeys : db.created.foreignKeyList queryResponseIps = [cascade] := by
    rw [foreignKeyList, hips]
    rfl
  refine ⟨?_, ⟨?_, ?_⟩, ?_⟩
  · rw [requiredColumns, otherTables, List.forall_mem_cons, List.forall_mem_cons,
      List.forall_mem_cons, List.forall_mem_singleton]
    exact ⟨tableFits_of_table? hlogs rfl rfl (by decide) (by decide),
      tableFits_of_table? hips rfl rfl (by decide) (by decide),
      tableFits_of_table? hhourly rfl rfl (by decide) (by decide),
      tableFits_of_table? hdaily rfl rfl (by decide) (by decide)⟩
  · rw [hkeys, List.forall_mem_singleton]
    rfl
  · rw [hkeys]
    exact ⟨cascade, List.mem_singleton_self _, rfl, rfl, rfl, decide_eq_true rfl⟩
  · rw [requiredIndexes, List.forall_mem_cons, List.forall_mem_cons, List.forall_mem_singleton]
    exact ⟨indexFits_created (hfree _ (by decide)) rfl, indexFits_created (hfree _ (by decide)) rfl,
      indexFits_created (hfree _ (by decide)) rfl⟩

end Database

/-! ### What is migrated -/

namespace Database

variable {db : Database}

/-- `query_logs` is there without the column of version 2. -/
def lacksUpstream (db : Database) : Bool :=
  db.hasTable queryLogs && !(db.tableInfo queryLogs).any fun c ↦ c.name = upstreamColumn.name

/-- The column cannot be added: another one has its name but for case, or is not listed. -/
def upstreamBlocked (db : Database) : Bool :=
  db.lacksUpstream && (db.table? queryLogs).any fun t ↦
    (t.columns.map Column.name ++ t.hidden).any (·.eqIgnoreAsciiCase upstreamColumn.name)

/-- The database after the migration. -/
def migrated (db : Database) : Database :=
  { (if db.lacksUpstream then db.withColumn queryLogs upstreamColumn else db) with
    userVersion := schemaVersion }

/-- The calls of the migration between its first and its last. -/
def migrationCalls (db : Database) : List SqlCall :=
  .findQueryLogs :: ((if db.hasTable queryLogs then [.queryLogsInfo] else []) ++
    (if db.lacksUpstream then [.addUpstream] else []) ++ [.setUserVersion])

/-- A column `upstream`, if there is one, has the type version 2 gives it. -/
def UpstreamFits (db : Database) : Prop :=
  ∀ c, (db.tableInfo queryLogs).find? (fun c ↦ c.name = upstreamColumn.name) = some c →
    c.dataType.eqIgnoreAsciiCase upstreamColumn.dataType ∧
      c.primaryKey = upstreamColumn.primaryKey

theorem eqIgnoreAsciiCase_of_table? {name : Text} {table : SqlTable}
    (h : db.table? name = some table) : table.name.eqIgnoreAsciiCase name = true :=
  List.find?_some (p := fun t : SqlTable ↦ t.name.eqIgnoreAsciiCase name) h

/-- A table of this name is found. -/
theorem exists_table?_of_hasTable {name : Text} (h : db.hasTable name = true) :
    ∃ table, db.table? name = some table := by
  obtain ⟨t, ht, hname⟩ := List.any_eq_true.1 h
  rw [decide_eq_true_eq] at hname
  refine Option.isSome_iff_exists.1 (List.find?_isSome.2 ⟨t, ht, ?_⟩)
  rw [hname, Text.eqIgnoreAsciiCase, decide_eq_true_eq]

theorem addColumn_eq_ok {name : Text} {column : Column} {d : Database} :
    db.addColumn name column = .ok d ↔ ∃ table, db.table? name = some table ∧
      (table.columns.map Column.name ++ table.hidden).any
        (·.eqIgnoreAsciiCase column.name) = false ∧ d = db.withColumn name column := by
  rw [addColumn]
  cases db.table? name with
  | none => simp
  | some table =>
    simp only [Option.some.injEq, exists_eq_left']
    cases (table.columns.map Column.name ++ table.hidden).any (·.eqIgnoreAsciiCase column.name) <;>
      simp [eq_comm]

theorem addUpstream_eq_ok [Sqlite] {d : Database} : db.addUpstream = .ok d ↔
    Quiet ((if db.hasTable queryLogs then [.queryLogsInfo] else []) ++
      (if db.lacksUpstream then [.addUpstream] else [])) ∧ db.upstreamBlocked = false ∧
      d = if db.lacksUpstream then db.withColumn queryLogs upstreamColumn else db := by
  rw [addUpstream, upstreamBlocked, lacksUpstream]
  cases hhas : db.hasTable queryLogs with
  | false => simp [Quiet, pure, Except.pure, eq_comm]
  | true =>
    obtain ⟨table, htable⟩ := exists_table?_of_hasTable hhas
    rw [if_pos rfl, Work.unit_bind_eq_ok, sqlCall_eq_ok]
    cases (db.tableInfo queryLogs).any fun c ↦ c.name = upstreamColumn.name with
    | true => simp [Quiet, pure, Except.pure, eq_comm]
    | false =>
      rw [if_neg Bool.false_ne_true, Work.unit_bind_eq_ok, sqlCall_eq_ok, addColumn_eq_ok]
      simp [Quiet, htable, and_assoc]

/-- **The migration succeeds unless the column is blocked.** -/
theorem migrateToCurrent_eq_ok [Sqlite] {d : Database} : db.migrateToCurrent = .ok d ↔
    Quiet (.begin :: db.migrationCalls ++ [.commit]) ∧ db.upstreamBlocked = false ∧
      d = db.migrated := by
  rw [migrateToCurrent, Work.unit_bind_eq_ok, Work.unit_bind_eq_ok, Work.bind_eq_ok, sqlCall_eq_ok,
    sqlCall_eq_ok, migrationCalls, List.cons_append, quiet_cons, List.cons_append, quiet_cons,
    quiet_append, quiet_append]
  simp only [addUpstream_eq_ok, Work.unit_bind_eq_ok, sqlCall_eq_ok]
  simp only [Quiet, List.forall_mem_singleton]
  constructor
  · rintro ⟨hbegin, hfind, _, ⟨hcalls, hfree, rfl⟩, hset, hcommit, hd⟩
    exact ⟨⟨hbegin, hfind, ⟨hcalls, hset⟩, hcommit⟩, hfree, (Except.ok.inj hd).symm⟩
  · rintro ⟨⟨hbegin, hfind, ⟨hcalls, hset⟩, hcommit⟩, hfree, rfl⟩
    exact ⟨hbegin, hfind, _, ⟨hcalls, hfree, rfl⟩, hset, hcommit, rfl⟩

/-- The new column is added to what is found, under whatever name. -/
theorem table?_withColumn (name : Text) (column : Column) (other : Text) :
    (db.withColumn name column).table? other = (db.table? other).map fun t ↦
      if t.name.eqIgnoreAsciiCase name then
        { t with columns := t.columns ++ [column], rows := t.rows.map (· ++ [.null]) }
      else t := by
  rw [table?, table?, withColumn, List.find?_map]
  congr 2
  funext t
  rw [Function.comp_apply]
  split <;> rfl

theorem hasTable_withColumn (name : Text) (column : Column) (other : Text) :
    (db.withColumn name column).hasTable other = db.hasTable other := by
  rw [hasTable, hasTable, withColumn, List.any_map]
  congr 1
  funext t
  rw [Function.comp_apply]
  split <;> rfl

theorem foreignKeyList_withColumn (name : Text) (column : Column) (other : Text) :
    (db.withColumn name column).foreignKeyList other = db.foreignKeyList other := by
  rw [foreignKeyList, foreignKeyList, table?_withColumn]
  rcases db.table? other with _ | t
  · rfl
  · rw [Option.map_some, Option.elim_some, Option.elim_some]
    split <;> rfl

theorem tableInfo_withColumn_self {name : Text} {table : SqlTable}
    (h : db.table? name = some table) (column : Column) :
    (db.withColumn name column).tableInfo name = db.tableInfo name ++ [column] := by
  have hname := eqIgnoreAsciiCase_of_table? h
  rw [tableInfo, tableInfo, table?_withColumn, h, Option.map_some, if_pos hname]
  rfl

theorem tableInfo_withColumn_of_ne {name other : Text} (h : other.eqIgnoreAsciiCase name = false)
    (column : Column) : (db.withColumn name column).tableInfo other = db.tableInfo other := by
  rw [tableInfo, tableInfo, table?_withColumn]
  rcases hfind : db.table? other with _ | t
  · rfl
  · have hother := eqIgnoreAsciiCase_of_table? hfind
    have hne : t.name.eqIgnoreAsciiCase name = false := by
      unfold Text.eqIgnoreAsciiCase at h hother ⊢
      rw [decide_eq_true_eq] at hother
      rw [hother, h]
    rw [Option.map_some, hne, if_neg Bool.false_ne_true]

/-- The migration leaves everything but the columns of `query_logs` as it is. -/
theorem migrated_frame (db : Database) : db.migrated.indexes = db.indexes ∧
    (∀ name, db.migrated.hasTable name = db.hasTable name) ∧
    (∀ name, db.migrated.foreignKeyList name = db.foreignKeyList name) ∧
    ∀ name, name.eqIgnoreAsciiCase queryLogs = false →
      db.migrated.tableInfo name = db.tableInfo name := by
  cases h : db.lacksUpstream with
  | false =>
    have hmigrated : db.migrated = { db with userVersion := schemaVersion } := by
      rw [migrated, h, if_neg Bool.false_ne_true]
    rw [hmigrated]
    exact ⟨rfl, fun _ ↦ rfl, fun _ ↦ rfl, fun _ _ ↦ rfl⟩
  | true =>
    have hmigrated : db.migrated =
        { db.withColumn queryLogs upstreamColumn with userVersion := schemaVersion } := by
      rw [migrated, h, if_pos rfl]
    rw [hmigrated]
    exact ⟨rfl, hasTable_withColumn _ _, foreignKeyList_withColumn _ _,
      fun _ hne ↦ tableInfo_withColumn_of_ne hne _⟩

/-- The columns of `query_logs` after the migration. -/
theorem tableInfo_migrated (db : Database) : db.migrated.tableInfo queryLogs =
    if db.lacksUpstream then db.tableInfo queryLogs ++ [upstreamColumn]
    else db.tableInfo queryLogs := by
  cases h : db.lacksUpstream with
  | false =>
    rw [migrated, h, if_neg Bool.false_ne_true, if_neg Bool.false_ne_true]
    rfl
  | true =>
    rw [lacksUpstream, Bool.and_eq_true] at h
    obtain ⟨table, htable⟩ := exists_table?_of_hasTable h.1
    rw [if_pos rfl, ← tableInfo_withColumn_self htable, migrated, lacksUpstream, h.1, h.2]
    rfl

/-- A column under another name is the same with a new one behind. -/
theorem columnFits_append {columns : List Column} {column expected : Column}
    (h : column.name ≠ expected.name) :
    ColumnFits (columns ++ [column]) expected ↔ ColumnFits columns expected := by
  have hfind : [column].find? (fun c ↦ c.name = expected.name) = none := by
    rw [List.find?_singleton, decide_eq_false h]
    rfl
  rw [ColumnFits, ColumnFits, List.find?_append, hfind, Option.or_none]

/-- The column of version 2 is as required if there is one, and it has the right type. -/
theorem columnFits_upstream : ColumnFits (db.tableInfo queryLogs) upstreamColumn ↔
    ((db.tableInfo queryLogs).any fun c ↦ c.name = upstreamColumn.name) = true ∧
      db.UpstreamFits := by
  rw [ColumnFits, UpstreamFits, List.any_eq_true, ← List.find?_isSome]
  cases (db.tableInfo queryLogs).find? fun c ↦ c.name = upstreamColumn.name with
  | none => simp
  | some c => simp [upstreamColumn, text]

theorem primaryKeyOf_append_upstream (columns : List Column) :
    primaryKeyOf (columns ++ [upstreamColumn]) = primaryKeyOf columns := by
  rw [primaryKeyOf, primaryKeyOf, List.filter_append]
  exact congrArg _ (List.append_nil _)

theorem upstream_ne : ∀ c ∈ queryLogsColumns, upstreamColumn.name ≠ c.name := by decide

theorem otherTables_ne : ∀ t ∈ otherTables, t.1.eqIgnoreAsciiCase queryLogs = false := by decide

/-- `query_logs` after the migration. -/
theorem tableFits_migrated :
    db.migrated.TableFits (queryLogs, queryLogsColumns ++ [upstreamColumn]) ↔
      db.TableFits (queryLogs, queryLogsColumns) ∧ db.UpstreamFits := by
  have hhas := db.migrated_frame.2.1 queryLogs
  have hinfo := db.tableInfo_migrated
  cases hany : (db.tableInfo queryLogs).any fun c ↦ c.name = upstreamColumn.name with
  | true =>
    have hlacks : db.lacksUpstream = false := by
      rw [lacksUpstream, hany, Bool.not_true, Bool.and_false]
    rw [hlacks, if_neg Bool.false_ne_true] at hinfo
    constructor
    · rintro ⟨htable, hkey, hcolumns⟩
      rw [List.forall_mem_append, List.forall_mem_singleton, hinfo, columnFits_upstream] at hcolumns
      exact ⟨⟨hhas.symm.trans htable, hinfo ▸ hkey, hcolumns.1⟩, hcolumns.2.2⟩
    · rintro ⟨⟨htable, hkey, hcolumns⟩, hupstream⟩
      refine ⟨hhas.trans htable, ?_, ?_⟩
      · rw [hinfo]
        exact hkey
      · rw [List.forall_mem_append, List.forall_mem_singleton, hinfo, columnFits_upstream]
        exact ⟨hcolumns, hany, hupstream⟩
  | false =>
    -- there is no such column, so if there is a table then it has got one
    have hfind : (db.tableInfo queryLogs).find? (fun c ↦ c.name = upstreamColumn.name) = none :=
      List.find?_eq_none.2 (List.any_eq_false.1 hany)
    have hupstream : db.UpstreamFits := fun c hc ↦ nomatch hfind.symm.trans hc
    refine ⟨fun h ↦ ⟨?_, hupstream⟩, fun ⟨h, _⟩ ↦ ?_⟩
    · have htable := hhas.symm.trans h.hasTable
      have hlacks : db.lacksUpstream = true := by rw [lacksUpstream, htable, hany]; rfl
      rw [hlacks, if_pos rfl] at hinfo
      refine ⟨htable, ?_, fun c hc ↦ ?_⟩
      · rw [← primaryKeyOf_append_upstream, ← hinfo]
        exact h.primaryKey
      · have hcolumn := h.columns c (List.mem_append_left _ hc)
        rwa [hinfo, columnFits_append (upstream_ne c hc)] at hcolumn
    · have hlacks : db.lacksUpstream = true := by rw [lacksUpstream, h.hasTable, hany]; rfl
      rw [hlacks, if_pos rfl] at hinfo
      refine ⟨hhas.trans h.hasTable, ?_, ?_⟩
      · rw [hinfo, primaryKeyOf_append_upstream]
        exact h.primaryKey
      · rw [List.forall_mem_append, List.forall_mem_singleton, hinfo]
        refine ⟨fun c hc ↦ (columnFits_append (upstream_ne c hc)).2 (h.columns c hc),
          upstreamColumn, ?_, decide_eq_true rfl, id, rfl⟩
        rw [List.find?_append, hfind]
        rfl

/-- **A migrated database** is as required if it was as version 1 requires. -/
theorem fits_migrated :
    db.migrated.Fits requiredColumns ↔ db.Fits requiredBefore ∧ db.UpstreamFits := by
  obtain ⟨hindexes, hhas, hkeys, hinfo⟩ := db.migrated_frame
  have hother : ∀ t ∈ otherTables, db.migrated.TableFits t ↔ db.TableFits t := by
    intro t ht
    have hinfo' := hinfo t.1 (otherTables_ne t ht)
    exact ⟨fun h ↦ ⟨(hhas t.1).symm.trans h.hasTable, hinfo' ▸ h.primaryKey, hinfo' ▸ h.columns⟩,
      fun h ↦ ⟨(hhas t.1).trans h.hasTable, hinfo'.symm ▸ h.primaryKey, hinfo'.symm ▸ h.columns⟩⟩
  have hcascade : db.migrated.CascadeFits ↔ db.CascadeFits := by
    have hsame := hkeys queryResponseIps
    exact ⟨fun h ↦ ⟨hsame ▸ h.named, hsame ▸ h.cascades⟩,
      fun h ↦ ⟨hsame.symm ▸ h.named, hsame.symm ▸ h.cascades⟩⟩
  have hindex : ∀ i, db.migrated.IndexFits i ↔ db.IndexFits i := by
    intro i
    have hlist : db.migrated.indexList i.table = db.indexList i.table := by
      rw [indexList, indexList, hindexes]
    have hcovers : db.migrated.indexInfo i.name = db.indexInfo i.name := by
      rw [indexInfo, indexInfo, hindexes]
    exact ⟨fun h ↦ ⟨hlist ▸ h.listed, hcovers ▸ h.covers⟩,
      fun h ↦ ⟨hlist.symm ▸ h.listed, hcovers.symm ▸ h.covers⟩⟩
  constructor
  · rintro ⟨htables, hc, hi⟩
    rw [requiredColumns, List.forall_mem_cons, tableFits_migrated] at htables
    refine ⟨⟨?_, hcascade.1 hc, fun i h ↦ (hindex i).1 (hi i h)⟩, htables.1.2⟩
    rw [requiredBefore, List.forall_mem_cons]
    exact ⟨htables.1.1, fun t ht ↦ (hother t ht).1 (htables.2 t ht)⟩
  · rintro ⟨⟨htables, hc, hi⟩, hupstream⟩
    rw [requiredBefore, List.forall_mem_cons] at htables
    refine ⟨?_, hcascade.2 hc, fun i h ↦ (hindex i).2 (hi i h)⟩
    rw [requiredColumns, List.forall_mem_cons, tableFits_migrated]
    exact ⟨⟨htables.1, hupstream⟩, fun t ht ↦ (hother t ht).2 (htables.2 t ht)⟩

end Database

/-! ### Opening -/

namespace Database

variable [Sqlite] {db : Database}

theorem readVersion_eq_ok {version : ℤ} : db.readVersion = .ok version ↔
    Quiet [.connect, .journalMode, .userVersion] ∧ db.userVersion ≤ schemaVersion ∧
      version = db.userVersion := by
  rw [readVersion, Work.unit_bind_eq_ok, Work.unit_bind_eq_ok, Work.unit_bind_eq_ok, sqlCall_eq_ok,
    sqlCall_eq_ok, sqlCall_eq_ok, quiet_cons, quiet_pair]
  rcases lt_or_ge schemaVersion db.userVersion with hnewer | hle
  · rw [if_pos hnewer]
    exact ⟨fun h ↦ (nomatch h.2.2.2), fun h ↦ absurd h.2.1 (not_le.2 hnewer)⟩
  · rw [if_neg (not_lt.2 hle), Except.ok.injEq]
    exact ⟨fun ⟨h₁, h₂, h₃, h⟩ ↦ ⟨⟨h₁, h₂, h₃⟩, hle, h.symm⟩,
      fun ⟨⟨h₁, h₂, h₃⟩, _, h⟩ ↦ ⟨h₁, h₂, h₃, h.symm⟩⟩

theorem createSchema_eq_ok {d : Database} : db.createSchema = .ok d ↔
    Quiet [.begin, .createSchema, .commit] ∧ (∀ name ∈ newNames, db.nameInUse name = false) ∧
      d = db.created := by
  rw [createSchema, Work.unit_bind_eq_ok, Work.unit_bind_eq_ok, Work.bind_eq_ok, sqlCall_eq_ok,
    sqlCall_eq_ok, quiet_cons, quiet_pair]
  simp only [createTables_eq_ok, Work.unit_bind_eq_ok, sqlCall_eq_ok]
  constructor
  · rintro ⟨hbegin, hcreate, _, ⟨hfree, rfl⟩, hcommit, hd⟩
    exact ⟨⟨hbegin, hcreate, hcommit⟩, hfree, (Except.ok.inj hd).symm⟩
  · rintro ⟨⟨hbegin, hcreate, hcommit⟩, hfree, rfl⟩
    exact ⟨hbegin, hcreate, _, ⟨hfree, rfl⟩, hcommit, rfl⟩

theorem readOnly_validateSchema : (validateSchema : Session Database OpenError Unit).ReadOnly :=
  (Session.readOnly_read _).andThen fun _ ↦ Session.readOnly_rolledBack _

/-- When the checks pass. -/
theorem exists_validateSchema_eq_ok : (∃ u, (validateSchema db).1 = .ok u) ↔
    db.validateStructure = .ok () ∧ ∃ r, db.probe = .ok r := by
  rw [validateSchema, Session.andThen, Session.read]
  rcases db.validateStructure with e | u
  · constructor
    · rintro ⟨_, h⟩
      cases h
    · rintro ⟨h, -⟩
      cases h
  · show (∃ u, (db.probe).map Prod.fst = .ok u) ↔ _
    rcases db.probe with e | r
    · constructor
      · rintro ⟨_, h⟩
        cases h
      · rintro ⟨-, _, h⟩
        cases h
    · exact ⟨fun _ ↦ ⟨rfl, r, rfl⟩, fun _ ↦ ⟨(), rfl⟩⟩

omit [Sqlite] in
theorem probeStatement_eq_ok {α : Type} {result : Except Text α} {a : α} :
    probeStatement result = .ok a ↔ result = .ok a := by
  rcases result with e | b
  · exact ⟨fun h ↦ (nomatch h), fun h ↦ (nomatch h)⟩
  · rw [probeStatement, Except.mapError, Except.ok.injEq, Except.ok.injEq]

/-- SQLite takes the rows of the probe one after the other, and keeps the first under the id it gave
it. -/
def TakesProbe (db : Database) : Prop :=
  ∃ id inserted addressed counted last, Sqlite.insertLog db = .ok (id, inserted) ∧
    Sqlite.idOfRow inserted id = .ok id ∧ Sqlite.insertAddress inserted id = .ok addressed ∧
    Sqlite.upsertBucket addressed queryHourlyStats = .ok counted ∧
    Sqlite.upsertBucket counted queryDailyStats = .ok last

theorem exists_probeRows_eq_ok : (∃ last, db.probeRows = .ok last) ↔ db.TakesProbe := by
  constructor
  · rintro ⟨last, h⟩
    obtain ⟨⟨id, inserted⟩, hinserted, h⟩ := Work.bind_eq_ok.1 h
    obtain ⟨storedId, hstored, h⟩ := Work.bind_eq_ok.1 h
    split at h
    · cases h
    · rename_i hid
      obtain rfl : storedId = id := not_not.1 hid
      obtain ⟨addressed, haddressed, h⟩ := Work.bind_eq_ok.1 h
      obtain ⟨counted, hcounted, hlast⟩ := Work.bind_eq_ok.1 h
      simp only [probeStatement_eq_ok] at hinserted hstored haddressed hcounted hlast
      exact ⟨storedId, inserted, addressed, counted, last, hinserted, hstored, haddressed,
        hcounted, hlast⟩
  · rintro ⟨id, inserted, addressed, counted, last, hinserted, hstored, haddressed, hcounted, hlast⟩
    refine ⟨last, Work.bind_eq_ok.2 ⟨_, probeStatement_eq_ok.2 hinserted,
      Work.bind_eq_ok.2 ⟨_, probeStatement_eq_ok.2 hstored, ?_⟩⟩⟩
    rw [if_neg (not_not.2 rfl)]
    exact Work.bind_eq_ok.2 ⟨_, probeStatement_eq_ok.2 haddressed,
      Work.bind_eq_ok.2 ⟨_, probeStatement_eq_ok.2 hcounted, probeStatement_eq_ok.2 hlast⟩⟩

/-- When the probe succeeds. -/
theorem exists_probe_eq_ok : (∃ r, db.probe = .ok r) ↔
    Quiet [.beginProbe, .rollbackProbe] ∧ db.TakesProbe := by
  rw [quiet_pair, ← exists_probeRows_eq_ok]
  simp only [probe, Work.unit_bind_eq_ok, sqlCall_eq_ok]
  rcases db.probeRows with e | last <;> simp

/-- The upgrade goes through: no call fails, and the names of the new tables and indexes are free or
the new column is not blocked. -/
def Upgrades (db : Database) : Prop :=
  if db.userVersion = 0 then
    Quiet [.begin, .createSchema, .commit] ∧ ∀ name ∈ newNames, db.nameInUse name = false
  else Quiet (.begin :: db.migrationCalls ++ [.commit]) ∧ db.upstreamBlocked = false

/-- The database after the upgrade. -/
def upgraded (db : Database) : Database := if db.userVersion = 0 then db.created else db.migrated

/-- The checks pass after the upgrade: no call fails, a file to be migrated meets the requirements
of its version and has no column `upstream` of another type, and the rows of the probe are taken. -/
structure PassesUpgraded (db : Database) : Prop where
  quiet : Quiet (structureCalls ++ [.beginProbe, .rollbackProbe])
  fits : db.userVersion = 0 ∨ db.Fits requiredBefore ∧ db.UpstreamFits
  probe : db.upgraded.TakesProbe

/-- What an upgrade that goes through makes of the file. -/
theorem passesUpgraded_iff (h : db.Upgrades) :
    db.PassesUpgraded ↔ ∃ u, (validateSchema db.upgraded).1 = .ok u := by
  have hfits : db.upgraded.Fits requiredColumns ↔
      db.userVersion = 0 ∨ db.Fits requiredBefore ∧ db.UpstreamFits := by
    rcases eq_or_ne db.userVersion 0 with h0 | h0
    · rw [Upgrades, if_pos h0] at h
      rw [upgraded, if_pos h0]
      exact ⟨fun _ ↦ Or.inl h0, fun _ ↦ fits_created h.2⟩
    · rw [upgraded, if_neg h0, fits_migrated, or_iff_right h0]
  rw [exists_validateSchema_eq_ok, validateStructure_eq_ok, exists_probe_eq_ok, hfits]
  constructor
  · rintro ⟨hquiet, hf, hprobe⟩
    obtain ⟨hstructure, hrows⟩ := quiet_append.1 hquiet
    exact ⟨⟨hstructure, hf⟩, hrows, hprobe⟩
  · rintro ⟨⟨hstructure, hf⟩, hrows, hprobe⟩
    exact ⟨quiet_append.2 ⟨hstructure, hrows⟩, hf, hprobe⟩

omit [Sqlite] in
theorem userVersion_upgraded (db : Database) : db.upgraded.userVersion = schemaVersion := by
  rw [upgraded]
  split <;> rfl

/-- An older file is kept by a failure exactly if the checks pass once the upgrade has gone
through. -/
theorem atomic_upgrade {work : Database → Except OpenError Database}
    (hwork : ∀ d, work db = .ok d ↔ db.Upgrades ∧ d = db.upgraded)
    (holder : db.userVersion < schemaVersion) :
    ((Session.transaction work).andThen fun _ ↦ validateSchema).Atomic db ↔
      (db.Upgrades → db.PassesUpgraded) := by
  rw [Session.atomic_transaction_andThen readOnly_validateSchema]
  have hchanged : db.upgraded ≠ db := by
    intro h
    rw [← h, userVersion_upgraded] at holder
    exact lt_irrefl _ holder
  refine ⟨fun h hup ↦ ?_, fun h d hd ↦ ?_⟩
  · have hpasses := h _ ((hwork _).2 ⟨hup, rfl⟩)
    exact (passesUpgraded_iff hup).2 (hpasses.resolve_left hchanged)
  · obtain ⟨hup, rfl⟩ := (hwork d).1 hd
    exact Or.inr ((passesUpgraded_iff hup).1 (h hup))

/-- **Which files a failed `Store::open` leaves as they were**: all that it does not upgrade,
because it does not get that far, the file is not older, or the upgrade does not go through; and
those that it upgrades and then opens. -/
theorem open_atomic_iff (db : Database) : openStore.Atomic db ↔
    (Quiet [.connect, .journalMode, .userVersion] → db.userVersion < schemaVersion → db.Upgrades →
      db.PassesUpgraded) := by
  rw [openStore, Session.atomic_read_andThen]
  simp only [readVersion_eq_ok]
  rcases lt_or_ge db.userVersion schemaVersion with holder | hnewer
  · have hatomic : (if db.userVersion = 0 then
          (Session.transaction createSchema).andThen fun _ ↦ validateSchema
        else if db.userVersion < schemaVersion then
          (Session.transaction migrateToCurrent).andThen fun _ ↦ validateSchema
        else validateSchema).Atomic db ↔ (db.Upgrades → db.PassesUpgraded) := by
      rcases eq_or_ne db.userVersion 0 with h0 | h0
      · rw [if_pos h0]
        refine atomic_upgrade (fun d ↦ ?_) holder
        rw [createSchema_eq_ok, Upgrades, upgraded, if_pos h0, if_pos h0, and_assoc]
      · rw [if_neg h0, if_pos holder]
        refine atomic_upgrade (fun d ↦ ?_) holder
        rw [migrateToCurrent_eq_ok, Upgrades, upgraded, if_neg h0, if_neg h0, and_assoc]
    refine ⟨fun h hquiet _ ↦ hatomic.1 (h _ ⟨hquiet, holder.le, rfl⟩), ?_⟩
    rintro h _ ⟨hquiet, -, rfl⟩
    exact hatomic.2 (h hquiet holder)
  · refine ⟨fun _ _ holder ↦ absurd holder (not_lt.2 hnewer), ?_⟩
    rintro - _ ⟨-, -, rfl⟩
    have hne : db.userVersion ≠ 0 := fun h0 ↦ absurd (h0 ▸ hnewer) (by decide)
    rw [if_neg hne, if_neg (not_lt.2 hnewer)]
    exact readOnly_validateSchema.atomic db

end Database

/-- A file of version 1 whose `query_logs` has a column `upstream` of another type already. -/
def presetUpstream : Database where
  userVersion := 1
  tables :=
    [{ newTable queryLogs (queryLogsColumns ++ [integer "upstream" false 0]) [] [] with
        rows := [[.integer 1, .integer 1753488000000, .text "legacy.example".toList,
          .text "A".toList, .text "NOERROR".toList, .integer 5, .integer 0, .integer 0, .null]] },
      queryResponseIpsTable, newTable queryHourlyStats statsColumns [] [],
      newTable queryDailyStats statsColumns [] []]
  indexes := Database.newIndexes
  views := []
  triggers := []

/-- It is rejected for the type of this column, and is of version 2 then. -/
theorem open_stamps_rejected :
    let _sqlite : Sqlite := ⟨fun _ ↦ none, fun db ↦ .ok (2, db), fun _ id ↦ .ok id,
      fun db _ ↦ .ok db, fun db _ ↦ .ok db⟩
    (Database.openStore presetUpstream).1 = .error (.bail
        ("database schema v1 column query_logs.upstream must be TEXT ".toList ++
          "with the required NOT NULL/PRIMARY KEY ordinal".toList)) ∧
      presetUpstream.userVersion = 1 ∧ (Database.openStore presetUpstream).2.userVersion = 2 ∧
      ¬Database.openStore.Atomic presetUpstream := by
  intro _sqlite
  have herror : (Database.openStore presetUpstream).1 = .error (.bail
      ("database schema v1 column query_logs.upstream must be TEXT ".toList ++
        "with the required NOT NULL/PRIMARY KEY ordinal".toList)) := by decide +kernel
  have hversion : (Database.openStore presetUpstream).2.userVersion = 2 := by decide +kernel
  refine ⟨herror, rfl, hversion, fun hatomic ↦ ?_⟩
  rw [hatomic _ herror] at hversion
  exact absurd hversion (by decide)

end DnsBuffer
