import DnsBuffer.Dashboard.Aggregates
import DnsBuffer.Foundation.Table
import DnsBuffer.Foundation.Transaction
import Mathlib.Data.List.Lex
import Mathlib.Data.Prod.Lex
import Mathlib.Data.Char

/-!
# The query list of the dashboard

`QueryParams::validate` and `Store::queries`: one page of the rows that match a search, newest
first, each with its addresses.

SQL is taken as documented: `WHERE`, `ORDER BY`, `LIMIT`, `OFFSET` and `COUNT` do what they say,
text is compared character by character, and `LIKE` is matched as `like` does. Nothing but the
primary keys is assumed of the contents (`Db.Keyed`): ids of rows are unique and fit an `i64`, and
an address is stored once for a row.

The addresses of a page come in one statement, in order over all its rows, and are handed out to the
records by id. `foldl_addAddress` says what a record gets: its own addresses, in order.
-/

namespace DnsBuffer

open Table

/-! ### Search patterns -/

/-- `LIKE` compares characters up to ASCII case. -/
def sameLetter (c d : Char) : Bool := c = d || c.toLower = d.toLower

/-- `text LIKE pattern ESCAPE '\'`. -/
def like : Text → Text → Bool
  | [] => fun text ↦ text = []
  | '%' :: rest => fun text ↦ text.tails.any (like rest)
  | ['\\'] => fun _ ↦ false
  | '\\' :: c :: rest => fun
    | [] => false
    | d :: text => sameLetter c d && like rest text
  | '_' :: rest => fun
    | [] => false
    | _ :: text => like rest text
  | c :: rest => fun
    | [] => false
    | d :: text => sameLetter c d && like rest text

/-- `str::replace` of one character. -/
def Text.replace (text : Text) (c : Char) (replacement : Text) : Text :=
  text.flatMap fun d ↦ if d = c then replacement else [d]

/-- `escape_like`. -/
def escapeLike (value : Text) : Text :=
  ((value.replace '\\' ['\\', '\\']).replace '%' ['\\', '%']).replace '_' ['\\', '_']

/-- The wildcards of a search are escaped. -/
example : escapeLike "a%_\\".toList = "a\\%\\_\\\\".toList := by decide

/-! ### Parameters of a request -/

/-- The value if it fits a `u64`. -/
def checkedU64 (x : ℕ) : Option ℕ := if x < 2 ^ 64 then some x else none

/-- `str::parse` to a `u64`. -/
def parseU64 (value : Text) : Option ℕ := value.parseUnsigned (2 ^ 64)

/-- The offset of a page, counted from 1: `u64` arithmetic whose result has to fit an `i64`. -/
def pageOffset (page pageSize : ℕ) : Option ℕ :=
  (if 1 ≤ page then some (page - 1) else none).bind fun value ↦
    (checkedU64 (value * pageSize)).bind fun value ↦ if value < 2 ^ 63 then some value else none

/-- A request that is refused, with the text it is refused with. -/
inductive ApiError
  | badRequest (message : Text)
deriving DecidableEq

/-- `QueryParams`. -/
structure QueryParams where
  page : Option Text
  pageSize : Option Text
  search : Option Text
deriving DecidableEq

/-- `ValidatedQueryParams`. -/
structure ValidatedQueryParams where
  page : ℕ
  pageSize : ℕ
  search : Option Text
deriving DecidableEq

/-- `parse_parameter`. -/
def parseParameter (value : Option Text) (name : Text) (default : ℕ) : Except ApiError ℕ :=
  match value with
  | none => .ok default
  | some value =>
    match parseU64 value with
    | some n => .ok n
    | none => .error (.badRequest (name ++ " must be an integer".toList))

/-- `QueryParams::validate`. -/
def QueryParams.validate (params : QueryParams) : Except ApiError ValidatedQueryParams :=
  (parseParameter params.page "page".toList 1).bind fun page ↦
    if page < 1 then .error (.badRequest "page must be at least 1".toList)
    else (parseParameter params.pageSize "page_size".toList 50).bind fun pageSize ↦
      if ¬(1 ≤ pageSize ∧ pageSize ≤ 200) then
        .error (.badRequest "page_size must be between 1 and 200".toList)
      else match pageOffset page pageSize with
      | none => .error (.badRequest "page offset is out of range".toList)
      | some _ =>
        let search := params.search.map Text.trim
        if search.any fun value ↦ 253 < value.length then
          .error (.badRequest "search must be at most 253 characters".toList)
        else .ok ⟨page, pageSize, search⟩

/-! ### Reading the store -/

/-- `MAX_QUERY_PAGE_SIZE`. -/
def maxQueryPageSize : ℕ := 200

/-- A row with its addresses. -/
structure QueryRecord extends LogRow where
  responseIps : List Text
deriving DecidableEq

/-- `QueryPage`. -/
structure QueryPage where
  page : ℕ
  pageSize : ℕ
  total : ℕ
  records : List QueryRecord
deriving DecidableEq

/-- How reading a page fails. -/
inductive QueryError
  | pageSize
  | pageOffset
deriving DecidableEq

/-- One address for the record with its id. -/
def addAddress (records : List QueryRecord) (x : ℕ × Text) : List QueryRecord :=
  match records with
  | [] => []
  | r :: rest =>
    if r.id = x.1 then { r with responseIps := r.responseIps ++ [x.2] } :: rest
    else r :: addAddress rest x

namespace Db

/-- What the primary keys promise. -/
structure Keyed (db : Db) : Prop where
  ids_nodup : (db.queryLogs.map LogRow.id).Nodup
  ids_lt : ∀ row ∈ db.queryLogs, row.id < 2 ^ 63
  ips_nodup : db.responseIps.Nodup

/-- The `WHERE` clause: the domain or one of the addresses matches. -/
def rowMatches (db : Db) (pattern : Text) (row : LogRow) : Bool :=
  like pattern row.domain || db.responseIps.any fun x ↦ x.1 = row.id ∧ like pattern x.2

/-- The rows that match a search; all without one. -/
def matching (db : Db) (search : Option Text) : List LogRow :=
  match search.map fun value ↦ '%' :: (escapeLike value ++ ['%']) with
  | some pattern => db.queryLogs.filter (db.rowMatches pattern)
  | none => db.queryLogs

/-- `ORDER BY timestamp_ms DESC, id DESC`. -/
def newestFirst (row : LogRow) : ℤᵒᵈ ×ₗ ℕᵒᵈ :=
  toLex (OrderDual.toDual row.timestampMs, OrderDual.toDual row.id)

/-- The range checks of `queries_with_deadline`, and the offset they end with. -/
def queryOffset (page pageSize : ℕ) : Except QueryError ℕ :=
  if ¬(1 ≤ pageSize ∧ pageSize ≤ maxQueryPageSize) then .error .pageSize
  else match DnsBuffer.pageOffset (max page 1) pageSize with
  | none => .error .pageOffset
  | some offset => .ok offset

/-- The second statement: the addresses of the rows of a page, in order, to their records. -/
def withAddresses (db : Db) (records : List QueryRecord) : List QueryRecord :=
  if records = [] then records
  else
    let ids := records.map fun r ↦ r.id
    (orderBy Prod.snd (db.responseIps.filter fun x ↦ x.1 ∈ ids)).foldl addAddress records

/-- `Store::queries_with_deadline`. -/
def queries (db : Db) (page pageSize : ℕ) (search : Option Text) : Except QueryError QueryPage :=
  (queryOffset page pageSize).map fun offset ↦
    let rows := db.matching search
    let selected := ((orderBy newestFirst rows).drop offset).take pageSize
    { page := max page 1
      pageSize := pageSize
      total := rows.length
      records := db.withAddresses (selected.map fun row ↦ ⟨row, []⟩) }

end Db

/-! ### Offsets -/

theorem pageOffset_eq_some_iff {page pageSize offset : ℕ} :
    pageOffset page pageSize = some offset ↔
      1 ≤ page ∧ offset = (page - 1) * pageSize ∧ (page - 1) * pageSize < 2 ^ 63 := by
  rw [pageOffset]
  by_cases hpage : 1 ≤ page
  · rw [if_pos hpage, Option.bind_some, checkedU64]
    by_cases hfits : (page - 1) * pageSize < 2 ^ 63
    · rw [if_pos (by omega), Option.bind_some, if_pos hfits, Option.some.injEq]
      exact ⟨fun h ↦ ⟨hpage, h.symm, hfits⟩, fun h ↦ h.2.1.symm⟩
    · refine iff_of_false (fun h ↦ ?_) fun h ↦ hfits h.2.2
      obtain ⟨value, hvalue, h⟩ := Option.bind_eq_some_iff.1 h
      rw [Option.ite_none_right_eq_some, Option.some.injEq] at hvalue h
      exact hfits (hvalue.2.symm ▸ h.1)
  · rw [if_neg hpage]
    exact iff_of_false (by simp) fun h ↦ hpage h.1

theorem Db.queryOffset_eq {page pageSize : ℕ} (hpage : 1 ≤ page)
    (hsize : 1 ≤ pageSize ∧ pageSize ≤ 200) (hoffset : (page - 1) * pageSize < 2 ^ 63) :
    Db.queryOffset page pageSize = .ok ((page - 1) * pageSize) := by
  have h : pageOffset (max page 1) pageSize = some ((page - 1) * pageSize) := by
    rw [max_eq_left hpage]
    exact pageOffset_eq_some_iff.2 ⟨hpage, rfl, hoffset⟩
  rw [queryOffset, maxQueryPageSize, if_neg (not_not.2 hsize), h]

/-- **What validation accepts, the store accepts**, with the same offset. -/
theorem QueryParams.queryOffset_of_validate {params : QueryParams} {v : ValidatedQueryParams}
    (h : params.validate = .ok v) : ∃ offset, pageOffset v.page v.pageSize = some offset ∧
      Db.queryOffset v.page v.pageSize = .ok offset := by
  obtain ⟨page, -, h⟩ := Work.bind_eq_ok.1 h
  split at h
  · exact nomatch h
  · obtain ⟨pageSize, -, h⟩ := Work.bind_eq_ok.1 h
    split at h
    · exact nomatch h
    · rename_i hsize
      split at h
      · exact nomatch h
      · rename_i offset hoffset
        dsimp only at h
        split at h
        · exact nomatch h
        · rw [← Except.ok.inj h]
          obtain ⟨hpage, rfl, hlt⟩ := pageOffset_eq_some_iff.1 hoffset
          exact ⟨_, hoffset, Db.queryOffset_eq hpage (not_not.1 hsize) hlt⟩

/-! ### The addresses of a record -/

/-- The addresses among these that belong to an id. -/
def addressesOf (xs : List (ℕ × Text)) (id : ℕ) : List Text :=
  (xs.filter fun x ↦ x.1 = id).map Prod.snd

theorem addAddress_eq_map {records : List QueryRecord}
    (hnodup : (records.map fun r ↦ r.id).Nodup) (x : ℕ × Text) :
    addAddress records x = records.map fun r ↦
      { r with responseIps := r.responseIps ++ addressesOf [x] r.id } := by
  induction records with
  | nil => rfl
  | cons r rest ih =>
    rw [List.map_cons, List.nodup_cons] at hnodup
    by_cases hid : r.id = x.1
    · -- no other record has this id
      have hrest : ∀ r' ∈ rest, x.1 ≠ r'.id := fun r' hr' heq ↦
        hnodup.1 (List.mem_map.2 ⟨r', hr', heq.symm.trans hid.symm⟩)
      have hsame : rest.map (fun r ↦
          { r with responseIps := r.responseIps ++ addressesOf [x] r.id }) = rest := by
        refine (List.map_congr_left fun r' hr' ↦ ?_).trans (List.map_id rest)
        simp [addressesOf, hrest r' hr']
      rw [addAddress, if_pos hid, List.map_cons, hsame]
      simp [addressesOf, hid]
    · rw [addAddress, if_neg hid, List.map_cons, ih hnodup.2]
      congr 1
      simp [addressesOf, Ne.symm hid]

/-- **What handing out addresses does**: every record gets its own, in order. -/
theorem foldl_addAddress {records : List QueryRecord}
    (hnodup : (records.map fun r ↦ r.id).Nodup) (xs : List (ℕ × Text)) :
    xs.foldl addAddress records = records.map fun r ↦
      { r with responseIps := r.responseIps ++ addressesOf xs r.id } := by
  induction xs generalizing records with
  | nil => simp [addressesOf]
  | cons x xs ih =>
    have hids : ((addAddress records x).map fun r ↦ r.id) = records.map fun r ↦ r.id := by
      rw [addAddress_eq_map hnodup, List.map_map]
      rfl
    rw [List.foldl_cons, ih (hids ▸ hnodup), addAddress_eq_map hnodup, List.map_map]
    refine List.map_congr_left fun r _ ↦ ?_
    simp only [Function.comp_apply, List.append_assoc, addressesOf, ← List.map_append,
      ← List.filter_append, List.singleton_append]

namespace Db

variable {db : Db}

/-- The records of a page: its rows, with what the second statement found for them. -/
theorem withAddresses_eq {rows : List LogRow} (hnodup : (rows.map LogRow.id).Nodup) :
    db.withAddresses (rows.map fun row ↦ ⟨row, []⟩) = rows.map fun row ↦
      ⟨row, addressesOf (orderBy Prod.snd (db.responseIps.filter fun x ↦
        x.1 ∈ rows.map LogRow.id)) row.id⟩ := by
  have hids : ((rows.map fun row ↦ (⟨row, []⟩ : QueryRecord)).map fun r ↦ r.id) =
      rows.map LogRow.id := by
    rw [List.map_map]
    rfl
  rcases rows with - | ⟨row, rest⟩
  · rfl
  · rw [withAddresses, if_neg (by simp), foldl_addAddress (hids ▸ hnodup), List.map_map, hids]
    rfl

/-- What the second statement finds for a row of the page: the addresses stored for it, in ascending
order. -/
theorem addresses_spec (h : db.Keyed) {ids : List ℕ} {id : ℕ} (hid : id ∈ ids) :
    let found := addressesOf (orderBy Prod.snd (db.responseIps.filter fun x ↦ x.1 ∈ ids)) id
    found.Pairwise (· < ·) ∧ ∀ ip, ip ∈ found ↔ (id, ip) ∈ db.responseIps := by
  intro found
  constructor
  · have hsorted := (pairwise_orderBy Prod.snd (db.responseIps.filter fun x ↦ x.1 ∈ ids)).filter
      fun x ↦ decide (x.1 = id)
    have hnodup := ((orderBy_perm Prod.snd _).nodup_iff.2
      (h.ips_nodup.filter fun x ↦ decide (x.1 ∈ ids))).filter fun x ↦ decide (x.1 = id)
    rw [show found = List.map _ _ from rfl, List.pairwise_map]
    refine pairwise_lt_of_nodup hsorted (hnodup.map_on fun x hx y hy heq ↦ Prod.ext ?_ heq)
    rw [List.mem_filter, decide_eq_true_eq] at hx hy
    exact hx.2.trans hy.2.symm
  · intro ip
    simp only [found, addressesOf, List.mem_map, List.mem_filter, mem_orderBy, decide_eq_true_eq]
    constructor
    · rintro ⟨x, ⟨⟨hx, -⟩, rfl⟩, rfl⟩
      exact hx
    · exact fun hx ↦ ⟨(id, ip), ⟨⟨hx, hid⟩, rfl⟩, rfl⟩

/-! ### Pages -/

theorem matching_sublist (db : Db) (search : Option Text) :
    (db.matching search).Sublist db.queryLogs := by
  rw [matching]
  split
  · exact List.filter_sublist
  · exact List.Sublist.refl _

/-- The rows a search lists, in order. -/
def listed (db : Db) (search : Option Text) : List LogRow :=
  orderBy newestFirst (db.matching search)

theorem listed_perm (db : Db) (search : Option Text) :
    (db.listed search).Perm (db.matching search) :=
  orderBy_perm _ _

theorem listed_ids_nodup (h : db.Keyed) (search : Option Text) :
    ((db.listed search).map LogRow.id).Nodup :=
  ((db.listed_perm search).map _).nodup_iff.2
    (h.ids_nodup.sublist ((db.matching_sublist search).map _))

theorem newestFirst_lt_iff {a b : LogRow} : newestFirst a < newestFirst b ↔
    b.timestampMs < a.timestampMs ∨ (a.timestampMs = b.timestampMs ∧ b.id < a.id) := by
  rw [newestFirst, newestFirst, Prod.Lex.toLex_lt_toLex]
  simp only [OrderDual.toDual_lt_toDual, OrderDual.toDual_inj]

/-- The list is in order. -/
theorem pairwise_listed (h : db.Keyed) (search : Option Text) :
    (db.listed search).Pairwise fun a b ↦
      b.timestampMs < a.timestampMs ∨ (a.timestampMs = b.timestampMs ∧ b.id < a.id) := by
  have hnodup : ((db.listed search).map newestFirst).Nodup := by
    refine List.Nodup.of_map (fun k ↦ OrderDual.ofDual (ofLex k).2) ?_
    rw [List.map_map]
    exact listed_ids_nodup h search
  exact (pairwise_lt_of_nodup (pairwise_orderBy _ _) hnodup).imp newestFirst_lt_iff.1

/-- As many rows as there are ids. -/
theorem length_listed_le (h : db.Keyed) (search : Option Text) :
    (db.listed search).length ≤ 2 ^ 63 := by
  have hlt : ∀ id ∈ (db.listed search).map LogRow.id, id < 2 ^ 63 := by
    intro id hid
    obtain ⟨row, hrow, rfl⟩ := List.mem_map.1 hid
    have hmatching := (db.listed_perm search).mem_iff.1 hrow
    exact h.ids_lt row ((db.matching_sublist search).subset hmatching)
  have hsub : (db.listed search).map LogRow.id ⊆ List.range (2 ^ 63) :=
    fun id hid ↦ List.mem_range.2 (hlt id hid)
  have hle := ((listed_ids_nodup h search).subperm hsub).length_le
  rwa [List.length_map, List.length_range] at hle

/-- The rows of a page. -/
def listedPage (db : Db) (pageSize : ℕ) (search : Option Text) (i : ℕ) : List LogRow :=
  page pageSize i (db.listed search)

/-- **What a page is**: its rows in the list, with their addresses. -/
theorem queries_eq (h : db.Keyed) {n pageSize : ℕ} (search : Option Text) (hpage : 1 ≤ n)
    (hsize : 1 ≤ pageSize ∧ pageSize ≤ 200) (hoffset : (n - 1) * pageSize < 2 ^ 63) :
    ∃ p, db.queries n pageSize search = .ok p ∧ p.page = n ∧ p.pageSize = pageSize ∧
      p.total = (db.matching search).length ∧
      p.records.map QueryRecord.toLogRow = db.listedPage pageSize search (n - 1) ∧
      ∀ r ∈ p.records, r.responseIps.Pairwise (· < ·) ∧
        ∀ ip, ip ∈ r.responseIps ↔ (r.id, ip) ∈ db.responseIps := by
  have hnodup : ((db.listedPage pageSize search (n - 1)).map LogRow.id).Nodup :=
    (listed_ids_nodup h search).sublist
      (((List.take_sublist _ _).trans (List.drop_sublist _ _)).map _)
  refine ⟨_, by rw [queries, queryOffset_eq hpage hsize hoffset]; rfl, max_eq_left hpage, rfl, rfl,
    ?_, ?_⟩
  · show (db.withAddresses ((db.listedPage pageSize search (n - 1)).map fun row ↦ ⟨row, []⟩)).map
      QueryRecord.toLogRow = _
    rw [withAddresses_eq hnodup, List.map_map]
    exact List.map_id _
  · show ∀ r ∈ db.withAddresses ((db.listedPage pageSize search (n - 1)).map fun row ↦ ⟨row, []⟩), _
    rw [withAddresses_eq hnodup, List.forall_mem_map]
    exact fun row hrow ↦ addresses_spec h (List.mem_map_of_mem hrow)

/-- The records of the first pages, one after the other. -/
def firstPages (db : Db) (pageSize : ℕ) (search : Option Text) (n : ℕ) : List QueryRecord :=
  (List.range n).flatMap fun i ↦
    ((db.queries (i + 1) pageSize search).toOption.map QueryPage.records).getD []

/-- The offsets of the pages it takes to list everything are in range. -/
theorem offset_lt_of_le_pageCount (h : db.Keyed) {n pageSize : ℕ} {search : Option Text}
    (hsize : 1 ≤ pageSize) (hn : n < pageCount pageSize (db.matching search).length) :
    n * pageSize < 2 ^ 63 := by
  have hlt := pageCount_mul_lt hsize (db.matching search).length
  have hlength := length_listed_le h search
  rw [(db.listed_perm search).length_eq] at hlength
  have hmul : (n + 1) * pageSize ≤ pageCount pageSize (db.matching search).length * pageSize :=
    Nat.mul_le_mul_right _ hn
  rw [Nat.succ_mul] at hmul
  omega

/-- The rows of the first pages are the first rows of the list. -/
theorem map_firstPages (h : db.Keyed) {pageSize : ℕ} {search : Option Text}
    (hsize : 1 ≤ pageSize ∧ pageSize ≤ 200) {n : ℕ}
    (hn : n ≤ pageCount pageSize (db.matching search).length) :
    (db.firstPages pageSize search n).map QueryRecord.toLogRow =
      (db.listed search).take (n * pageSize) := by
  rw [firstPages, List.map_flatMap, ← flatMap_range_page]
  refine List.flatMap_congr fun i hi ↦ ?_
  have hlt := offset_lt_of_le_pageCount h hsize.1 ((List.mem_range.1 hi).trans_le hn)
  obtain ⟨p, hp, -, -, -, hrows, -⟩ := queries_eq h search (Nat.succ_pos i) hsize hlt
  rw [hp]
  exact hrows

/-- **Paging partitions the search result.** For all contents, searches and page sizes:

* every page with an offset in range can be read; it says how many rows match, and its records carry
  exactly the addresses stored for them, in ascending order;
* the pages it takes to list all matching rows have offsets in range, and every later page is empty;
* their records, one page after the other, are the matching rows, each once, newest first;
* whatever validation accepts is in range for the store, with the same offset. -/
theorem paging_partitions (db : Db) (h : db.Keyed) (search : Option Text) (pageSize : ℕ)
    (hsize : 1 ≤ pageSize ∧ pageSize ≤ 200) :
    let total := (db.matching search).length
    let last := pageCount pageSize total
    (∀ n, 1 ≤ n → (n - 1) * pageSize < 2 ^ 63 → ∃ p, db.queries n pageSize search = .ok p ∧
      p.page = n ∧ p.pageSize = pageSize ∧ p.total = total ∧ (last < n → p.records = []) ∧
      ∀ r ∈ p.records, r.responseIps.Pairwise (· < ·) ∧
        ∀ ip, ip ∈ r.responseIps ↔ (r.id, ip) ∈ db.responseIps) ∧
    (∀ n, n < last → n * pageSize < 2 ^ 63) ∧
    ((db.firstPages pageSize search last).map QueryRecord.toLogRow).Perm (db.matching search) ∧
    ((db.firstPages pageSize search last).Pairwise fun a b ↦
      b.timestampMs < a.timestampMs ∨ (a.timestampMs = b.timestampMs ∧ b.id < a.id)) ∧
    ∀ params v, QueryParams.validate params = .ok v →
      ∃ offset, DnsBuffer.pageOffset v.page v.pageSize = some offset ∧
        queryOffset v.page v.pageSize = .ok offset := by
  intro total last
  have hlength : (db.listed search).length = total := (db.listed_perm search).length_eq
  have hcover : (db.listed search).length ≤ last * pageSize :=
    hlength.le.trans (le_pageCount_mul hsize.1 total)
  have hall : (db.firstPages pageSize search last).map QueryRecord.toLogRow = db.listed search := by
    rw [map_firstPages h hsize le_rfl, List.take_of_length_le hcover]
  refine ⟨fun n hn hoffset ↦ ?_, fun n ↦ offset_lt_of_le_pageCount h hsize.1, ?_, ?_,
    fun params v ↦ QueryParams.queryOffset_of_validate⟩
  · obtain ⟨p, hp, hpage, hpageSize, htotal, hrows, hips⟩ := queries_eq h search hn hsize hoffset
    refine ⟨p, hp, hpage, hpageSize, htotal, fun hlater ↦ ?_, hips⟩
    -- past the last page the offset is past the end of the list
    have hmul : last * pageSize ≤ (n - 1) * pageSize := Nat.mul_le_mul_right _ (by omega)
    rw [listedPage, page_eq_nil (hcover.trans hmul), List.map_eq_nil_iff] at hrows
    exact hrows
  · rw [hall]
    exact db.listed_perm search
  · have hsorted := pairwise_listed h search
    rw [← hall, List.pairwise_map] at hsorted
    exact hsorted

end Db

/-! ### The keys of a store -/

namespace Db

/-- What inserting an event and cleaning up keep holds in every state of a store. -/
theorem invariant_of_run [Chrono] {I : Db → Prop} (hempty : I Db.empty)
    (hadd : ∀ db e, I db → I (db.addEvent e)) (hdelete : ∀ db c, I db → I (db.deleteBefore c))
    {ops : List StoreOp} {s : StoreState}
    (hrun : StoreState.machine.run StoreState.empty ops = some s) : I s.db := by
  have hinsert : ∀ {events db db'}, I db → insertEvents db events = .ok db' → I db' := by
    intro events
    induction events with
    | nil => exact fun h hok ↦ Except.ok.inj hok ▸ h
    | cons e events ih =>
      intro db db' h hok
      rw [insertEvents, List.foldlM_cons, insertEvent] at hok
      split at hok
      · cases hok
      · split at hok
        · exact ih (hadd db e h) hok
        · cases hok
  refine Machine.run_invariant (I := fun s ↦ I s.db) (fun s op t h hstep ↦ ?_) hrun hempty
  rcases op with ⟨events, commits⟩ | ⟨retentionDays, nowMs, commits⟩
  · rw [← Option.some.inj hstep]
    rcases hok : s.db.insertEvents events with - | db'
    · exact h
    · rcases commits with - | -
      · exact h
      · exact hinsert h hok
  · rw [← Option.some.inj hstep, cleanup]
    rcases cleanupCutoff retentionDays nowMs with - | (- | c)
    · exact h
    · rcases commits with - | - <;> exact h
    · rcases commits with - | -
      · exact h
      · exact hdelete s.db c h

/-- Ids are given out in turn, and addresses are stored once. -/
structure Numbered (db : Db) : Prop where
  ids_nodup : (db.queryLogs.map LogRow.id).Nodup
  ids_le : ∀ row ∈ db.queryLogs, row.id ≤ db.lastId
  ips_nodup : db.responseIps.Nodup

theorem nodup_foldl_insertIp {ips : List (ℕ × Text)} (h : ips.Nodup) (xs : List (ℕ × Text)) :
    (xs.foldl insertIp ips).Nodup := by
  induction xs generalizing ips with
  | nil => exact h
  | cons x xs ih =>
    refine ih ?_
    rw [insertIp]
    split
    · exact h
    · rename_i hx
      exact List.nodup_append.2 ⟨h, List.nodup_singleton _, fun a ha b hb heq ↦
        hx (List.mem_singleton.1 hb ▸ heq ▸ ha)⟩

/-- **The primary keys hold** in every state of a store whose ids still fit. -/
theorem keyed_of_run [Chrono] {ops : List StoreOp} {s : StoreState}
    (hrun : StoreState.machine.run StoreState.empty ops = some s) (hfits : s.db.lastId < 2 ^ 63) :
    s.db.Keyed := by
  have h : s.db.Numbered := by
    refine invariant_of_run ⟨List.nodup_nil, by simp [Db.empty], List.nodup_nil⟩
      (fun db e h ↦ ⟨?_, ?_, nodup_foldl_insertIp h.ips_nodup _⟩)
      (fun db c h ↦ ⟨h.ids_nodup.sublist (List.filter_sublist.map _),
        fun row hrow ↦ h.ids_le row (List.mem_of_mem_filter hrow), h.ips_nodup.filter _⟩) hrun
    · rw [addEvent, List.map_append, List.map_singleton]
      refine List.nodup_append.2 ⟨h.ids_nodup, List.nodup_singleton _, fun id hid id' hid' heq ↦ ?_⟩
      obtain ⟨row, hrow, rfl⟩ := List.mem_map.1 hid
      have hle := h.ids_le row hrow
      have hnew : id' = db.lastId + 1 := List.mem_singleton.1 hid'
      omega
    · intro row hrow
      rcases List.mem_append.1 hrow with hrow | hrow
      · exact (h.ids_le row hrow).trans (Nat.le_succ _)
      · rw [List.mem_singleton.1 hrow]
        exact le_rfl
  exact ⟨h.ids_nodup, fun row hrow ↦ (h.ids_le row hrow).trans_lt hfits, h.ips_nodup⟩

end Db

/-- Three rows in pages of two. -/
theorem paging_partitions_two_pages :
    ∃ s, (@StoreState.machine Chrono.utc).run StoreState.empty Sample.history = some s ∧
      (s.db.matching (some "EXAMPLE".toList)).length = 3 ∧
      ((s.db.firstPages 2 (some "EXAMPLE".toList) 2).map QueryRecord.toLogRow).Perm
        (s.db.matching (some "EXAMPLE".toList)) := by
  have hrun : ((@StoreState.machine Chrono.utc).run StoreState.empty Sample.history).any fun s ↦
      s.db.lastId < 2 ^ 63 ∧ (s.db.matching (some "EXAMPLE".toList)).length = 3 := by
    decide +kernel
  obtain ⟨s, hs, hprop⟩ := (Option.any_eq_true _ _).1 hrun
  obtain ⟨hfits, htotal⟩ := of_decide_eq_true hprop
  have hkeyed : s.db.Keyed := @Db.keyed_of_run Chrono.utc _ _ hs hfits
  obtain ⟨-, -, hperm, -, -⟩ :=
    s.db.paging_partitions hkeyed (some "EXAMPLE".toList) 2 (by decide)
  rw [htotal] at hperm
  exact ⟨s, hs, htotal, hperm⟩

end DnsBuffer
