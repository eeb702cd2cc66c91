import Mathlib.Algebra.BigOperators.Group.List.Lemmas
import Mathlib.Data.List.Dedup
import Mathlib.Data.List.Nodup
import Mathlib.Data.List.Sort
import Mathlib.Tactic.Linarith

/-!
# Reading a table

Rows in the order of a key (`orderBy`), rows in groups (`groupBy`), and a list cut into pages of
equal size (`page`). Every row is in one group (`sum_length_groupBy`); of the first rows in an order
nothing that is left out comes before (`lt_of_not_mem_take`); and the pages of a list, as many as it
takes to cover it, give the list back (`flatMap_range_page`), with nothing on a page after them
(`page_eq_nil`).
-/

namespace Table

variable {α κ : Type*}

/-! ### Order -/

section Order

variable [LinearOrder κ] {key : α → κ} {rows : List α}

/-- `ORDER BY` a key. -/
def orderBy (key : α → κ) (rows : List α) : List α :=
  rows.insertionSort fun a b ↦ key a ≤ key b

theorem orderBy_perm (key : α → κ) (rows : List α) : (orderBy key rows).Perm rows :=
  List.perm_insertionSort _ _

theorem mem_orderBy {a : α} : a ∈ orderBy key rows ↔ a ∈ rows := (orderBy_perm key rows).mem_iff

theorem pairwise_orderBy (key : α → κ) (rows : List α) :
    (orderBy key rows).Pairwise fun a b ↦ key a ≤ key b := by
  have : Std.Total fun a b : α ↦ key a ≤ key b := ⟨fun _ _ ↦ le_total _ _⟩
  have : IsTrans α fun a b ↦ key a ≤ key b := ⟨fun _ _ _ ↦ le_trans⟩
  exact List.pairwise_insertionSort _ _

/-- Where no two rows have one key, the order is strict. -/
theorem pairwise_lt_of_nodup (hle : rows.Pairwise fun a b ↦ key a ≤ key b)
    (hnodup : (rows.map key).Nodup) : rows.Pairwise fun a b ↦ key a < key b :=
  (hle.and (List.pairwise_map.1 hnodup)).imp fun h ↦ lt_of_le_of_ne h.1 h.2

end Order

theorem orderedInsert_append {r : α → α → Prop} [DecidableRel r] {a : α} {front back : List α}
    (hfront : ∀ b ∈ front, ¬r a b) (hback : ∀ b ∈ back, r a b) :
    (front ++ back).orderedInsert r a = front ++ a :: back := by
  induction front with
  | nil =>
    cases back with
    | nil => rfl
    | cons b back => exact List.orderedInsert_cons_of_le r back (hback b List.mem_cons_self)
  | cons b front ih =>
    have htail := ih fun c hc ↦ hfront c (List.mem_cons_of_mem b hc)
    rw [List.cons_append, List.orderedInsert_of_not_le r _ (hfront b List.mem_cons_self), htail,
      List.cons_append]

/-- **Ordering by a flag is stable**: the rows without the flag, then those with it, each in the
order they had. -/
theorem orderBy_eq_filter_append (key : α → Bool) (rows : List α) :
    orderBy key rows = rows.filter (fun a ↦ !key a) ++ rows.filter key := by
  induction rows with
  | nil => rfl
  | cons a rows ih =>
    show List.orderedInsert (fun a b ↦ key a ≤ key b) a (orderBy key rows) = _
    rw [ih]
    cases ha : key a with
    | false =>
      have hle : ∀ b ∈ rows.filter (fun a ↦ !key a) ++ rows.filter key, key a ≤ key b :=
        fun b _ ↦ ha ▸ Bool.false_le _
      rw [List.filter_cons_of_pos (by simp [ha]), List.filter_cons_of_neg (by simp [ha])]
      exact orderedInsert_append (List.forall_mem_nil _) hle
    | true =>
      have hfront : ∀ b ∈ rows.filter fun a ↦ !key a, ¬key a ≤ key b := by
        intro b hb
        have hfalse : key b = false := by simpa using (List.mem_filter.1 hb).2
        rw [ha, hfalse]
        decide
      have hback : ∀ b ∈ rows.filter key, key a ≤ key b := by
        intro b hb
        rw [(List.mem_filter.1 hb).2]
        exact Bool.le_true _
      rw [List.filter_cons_of_pos ha, List.filter_cons_of_neg (by simp [ha])]
      exact orderedInsert_append hfront hback

/-! ### Groups -/

section Groups

variable [DecidableEq κ] {key : α → κ} {rows : List α}

/-- `GROUP BY` a key: its values, each with the rows that have it. -/
def groupBy (key : α → κ) (rows : List α) : List (κ × List α) :=
  (rows.map key).dedup.map fun k ↦ (k, rows.filter fun a ↦ key a = k)

theorem mem_groupBy {g : κ × List α} : g ∈ groupBy key rows ↔
    (∃ a ∈ rows, key a = g.1) ∧ g.2 = rows.filter fun a ↦ key a = g.1 := by
  rw [groupBy, List.mem_map]
  constructor
  · rintro ⟨k, hk, rfl⟩
    exact ⟨List.mem_map.1 (List.mem_dedup.1 hk), rfl⟩
  · rintro ⟨hk, hg⟩
    exact ⟨g.1, List.mem_dedup.2 (List.mem_map.2 hk), Prod.ext rfl hg.symm⟩

theorem keys_groupBy (key : α → κ) (rows : List α) :
    (groupBy key rows).map Prod.fst = (rows.map key).dedup := by
  rw [groupBy, List.map_map]
  exact List.map_id _

/-- Every row is in one group. -/
theorem sum_length_groupBy (key : α → κ) (rows : List α) :
    ((groupBy key rows).map fun g ↦ g.2.length).sum = rows.length := by
  have hcount : ∀ k, (rows.filter fun a ↦ key a = k).length = (rows.map key).count k := by
    intro k
    rw [← List.countP_eq_length_filter, List.count, List.countP_map]
    exact List.countP_congr fun a _ ↦ by simp
  rw [groupBy, List.map_map]
  calc ((rows.map key).dedup.map fun k ↦ (rows.filter fun a ↦ key a = k).length).sum
      = ((rows.map key).dedup.map fun k ↦ (rows.map key).count k).sum :=
        congrArg List.sum (List.map_congr_left fun k _ ↦ hcount k)
    _ = (rows.map key).length := List.sum_map_count_dedup_eq_length _
    _ = rows.length := List.length_map _

end Groups

/-! ### The first rows -/

section First

variable [LinearOrder κ] {key : α → κ} {rows : List α} {n : ℕ}

/-- A row that is not among the first ones comes after each of them, and there are as many as were
asked for. -/
theorem lt_of_not_mem_take (hnodup : (rows.map key).Nodup) {b : α} (hb : b ∈ rows)
    (hnot : b ∉ (orderBy key rows).take n) :
    ((orderBy key rows).take n).length = n ∧ ∀ a ∈ (orderBy key rows).take n, key a < key b := by
  have hrest : b ∈ (orderBy key rows).drop n := by
    have hmem : b ∈ (orderBy key rows).take n ++ (orderBy key rows).drop n := by
      rw [List.take_append_drop]
      exact mem_orderBy.2 hb
    exact (List.mem_append.1 hmem).resolve_left hnot
  have hlt : n < (orderBy key rows).length := by
    by_contra hle
    rw [List.drop_eq_nil_of_le (Nat.not_lt.1 hle)] at hrest
    cases hrest
  refine ⟨List.length_take_of_le hlt.le, fun a ha ↦ ?_⟩
  have hstrict := pairwise_lt_of_nodup (pairwise_orderBy key rows)
    (((orderBy_perm key rows).map key).nodup_iff.2 hnodup)
  rw [← List.take_append_drop n (orderBy key rows)] at hstrict
  exact (List.pairwise_append.1 hstrict).2.2 a ha b hrest

end First

/-! ### Pages -/

/-- Page `i`, counted from 0, of a list in pages of `size` rows. -/
def page (size i : ℕ) (rows : List α) : List α := (rows.drop (i * size)).take size

theorem page_eq_nil {size i : ℕ} {rows : List α} (h : rows.length ≤ i * size) :
    page size i rows = [] := by
  rw [page, List.drop_eq_nil_of_le h, List.take_nil]

/-- The first pages of a list, one after the other. -/
theorem flatMap_range_page (size : ℕ) (rows : List α) (n : ℕ) :
    (List.range n).flatMap (fun i ↦ page size i rows) = rows.take (n * size) := by
  induction n with
  | zero => simp
  | succ n ih =>
    rw [List.range_succ, List.flatMap_append, ih, List.flatMap_singleton, page, Nat.succ_mul,
      List.take_add]

/-- How many pages it takes. -/
def pageCount (size total : ℕ) : ℕ := (total + size - 1) / size

theorem le_pageCount_mul {size : ℕ} (hsize : 1 ≤ size) (total : ℕ) :
    total ≤ pageCount size total * size := by
  have h := Nat.lt_div_mul_add (a := total + size - 1) (b := size) hsize
  rw [pageCount]
  omega

theorem pageCount_mul_lt {size : ℕ} (hsize : 1 ≤ size) (total : ℕ) :
    pageCount size total * size < total + size := by
  have h := Nat.div_mul_le_self (total + size - 1) size
  rw [pageCount]
  omega

end Table
