import Mathlib.Data.List.DropRight
import Mathlib.Data.List.Basic

/-!
# Words

A list is cut at its breaks into words, the longest stretches without a break. Everything about
`words` follows from one equation, `words_append_break`; what the first word of a list looks like in
the list is `words_eq_cons_iff`.

`strip` drops the breaks at both ends, and with them no word (`words_strip`).
-/

namespace Words

variable {α : Type*} (brk : α → Bool)

/-- The words of a list. -/
def words (l : List α) : List (List α) := (l.splitOnP brk).filter fun w ↦ w ≠ []

/-- A list without the breaks at its two ends. -/
def strip (l : List α) : List α := (l.dropWhile brk).rdropWhile brk

variable {brk}

/-! ### Words -/

/-- **Words are cut at every break.** -/
theorem words_append_break {c : α} (hc : brk c = true) (x y : List α) :
    words brk (x ++ c :: y) = words brk x ++ words brk y := by
  rw [words, List.splitOnP_append_cons x y hc, List.filter_append]
  rfl

/-- A list without breaks is a word. -/
theorem words_of_unbroken {w : List α} (hne : w ≠ []) (h : ∀ c ∈ w, brk c = false) :
    words brk w = [w] := by
  rw [words, List.splitOnP_eq_singleton h]
  simp [hne]

theorem words_nil : words brk [] = [] := by
  simp [words, List.splitOnP_nil]

/-- Breaks in front of a list belong to no word. -/
theorem words_breaks_append {before : List α} (h : ∀ c ∈ before, brk c = true) (l : List α) :
    words brk (before ++ l) = words brk l := by
  induction before with
  | nil => rfl
  | cons c before ih =>
    have hcut := words_append_break (h c List.mem_cons_self) [] (before ++ l)
    rw [List.nil_append, words_nil, List.nil_append] at hcut
    rw [List.cons_append, hcut]
    exact ih fun d hd ↦ h d (List.mem_cons_of_mem c hd)

/-- A list that is empty or goes on with a break. -/
theorem words_append_of_head {w rest : List α} (hrest : ∀ c ∈ rest.head?, brk c = true) :
    words brk (w ++ rest) = words brk w ++ words brk rest := by
  cases rest with
  | nil => rw [List.append_nil, words_nil, List.append_nil]
  | cons c rest =>
    have hc : brk c = true := hrest c rfl
    have hcut := words_append_break hc [] rest
    rw [List.nil_append, words_nil, List.nil_append] at hcut
    rw [words_append_break hc, hcut]

/-- Breaks behind a list belong to no word. -/
theorem words_append_breaks {after : List α} (h : ∀ c ∈ after, brk c = true) (l : List α) :
    words brk (l ++ after) = words brk l := by
  have hnone : words brk after = [] := by
    rw [← List.append_nil after, words_breaks_append h, words_nil]
  rw [words_append_of_head fun c hc ↦ h c (List.mem_of_mem_head? hc), hnone, List.append_nil]

/-! ### Stretches -/

/-- A stretch is taken up to its end. -/
theorem takeWhile_append_of_head {w rest : List α} (hw : ∀ c ∈ w, brk c = true)
    (hrest : ∀ c ∈ rest.head?, brk c = false) : (w ++ rest).takeWhile brk = w := by
  rw [List.takeWhile_append_of_pos hw]
  cases rest with
  | nil => rw [List.takeWhile_nil, List.append_nil]
  | cons c rest =>
    rw [List.takeWhile_cons_of_neg (by rw [hrest c rfl]; exact Bool.false_ne_true),
      List.append_nil]

theorem forall_takeWhile (l : List α) : ∀ c ∈ l.takeWhile brk, brk c = true :=
  fun _ hc ↦ List.mem_takeWhile_imp hc

/-- What is left of a list after a stretch ends the stretch. -/
theorem forall_head?_dropWhile (l : List α) : ∀ c ∈ (l.dropWhile brk).head?, brk c = false := by
  intro c hc
  have h := List.head?_dropWhile_not brk l
  rw [Option.mem_def.1 hc] at h
  simpa using h

/-- A word in its place: breaks before it, the end or a break after it. -/
structure Leads (brk : α → Bool) (l before w after : List α) : Prop where
  eq : l = before ++ (w ++ after)
  breaks : ∀ c ∈ before, brk c = true
  nonempty : w ≠ []
  unbroken : ∀ c ∈ w, brk c = false
  ends : ∀ c ∈ after.head?, brk c = true

theorem Leads.words_eq {l before w after : List α} (h : Leads brk l before w after) :
    words brk l = w :: words brk after := by
  rw [h.eq, words_breaks_append h.breaks, words_append_of_head h.ends,
    words_of_unbroken h.nonempty h.unbroken, List.singleton_append]

/-- A list consists of breaks, or has a first word. -/
theorem exists_leads (brk : α → Bool) (l : List α) :
    (∀ c ∈ l, brk c = true) ∨ ∃ before w after, Leads brk l before w after := by
  have hsplit : l.takeWhile brk ++ l.dropWhile brk = l := List.takeWhile_append_dropWhile
  have hends : ∀ c ∈ ((l.dropWhile brk).dropWhile fun c ↦ !brk c).head?, (!brk c) = false :=
    forall_head?_dropWhile (l.dropWhile brk)
  simp only [Bool.not_eq_false'] at hends
  cases hrest : l.dropWhile brk with
  | nil =>
    rw [hrest, List.append_nil] at hsplit
    exact Or.inl (hsplit ▸ forall_takeWhile l)
  | cons c rest =>
    have hc : brk c = false := forall_head?_dropWhile l c (by rw [hrest]; rfl)
    refine Or.inr ⟨l.takeWhile brk, (l.dropWhile brk).takeWhile fun c ↦ !brk c,
      (l.dropWhile brk).dropWhile fun c ↦ !brk c, ?_, forall_takeWhile l, ?_, fun d hd ↦ ?_, hends⟩
    · rw [List.takeWhile_append_dropWhile, hsplit]
    · rw [hrest, List.takeWhile_cons_of_pos (by rw [hc]; rfl)]
      exact List.cons_ne_nil _ _
    · simpa using forall_takeWhile _ d hd

/-- A list without words consists of breaks. -/
theorem forall_of_words_eq_nil {l : List α} (h : words brk l = []) : ∀ c ∈ l, brk c = true := by
  rcases exists_leads brk l with hbreaks | ⟨before, w, after, hleads⟩
  · exact hbreaks
  · exact absurd (hleads.words_eq.symm.trans h) (List.cons_ne_nil _ _)

/-- **The first word of a list.** -/
theorem words_eq_cons_iff {l w : List α} {ws : List (List α)} : words brk l = w :: ws ↔
    ∃ before after, Leads brk l before w after ∧ words brk after = ws := by
  constructor
  · intro h
    rcases exists_leads brk l with hbreaks | ⟨before, v, after, hleads⟩
    · rw [← List.append_nil l, words_breaks_append hbreaks, words_nil] at h
      exact absurd h.symm (List.cons_ne_nil _ _)
    · rw [hleads.words_eq, List.cons.injEq] at h
      obtain ⟨rfl, hws⟩ := h
      exact ⟨before, after, hleads, hws⟩
  · rintro ⟨before, after, hleads, rfl⟩
    exact hleads.words_eq

/-! ### Ends -/

/-- What is stripped are breaks. -/
theorem exists_strip (brk : α → Bool) (l : List α) : ∃ before after,
    l = before ++ (strip brk l ++ after) ∧ (∀ c ∈ before, brk c = true) ∧
      ∀ c ∈ after, brk c = true := by
  refine ⟨l.takeWhile brk, (l.dropWhile brk).rtakeWhile brk, ?_, forall_takeWhile l,
    fun c hc ↦ List.mem_rtakeWhile_imp hc⟩
  rw [strip, List.rdropWhile_append_rtakeWhile, List.takeWhile_append_dropWhile]

theorem words_strip (l : List α) : words brk (strip brk l) = words brk l := by
  obtain ⟨before, after, heq, hbefore, hafter⟩ := exists_strip brk l
  conv_rhs => rw [heq, words_breaks_append hbefore, words_append_breaks hafter]

/-- A stripped list does not begin with a break. -/
theorem head?_strip (l : List α) : ∀ c ∈ (strip brk l).head?, brk c = false := by
  intro c hc
  obtain ⟨after, hafter⟩ := List.rdropWhile_prefix brk (l := l.dropWhile brk)
  refine forall_head?_dropWhile l c ?_
  rw [← hafter, List.head?_append]
  change (strip brk l).head? = some c at hc
  rw [strip] at hc
  rw [hc]
  rfl

/-- Nor does it end with one. -/
theorem getLast?_strip (l : List α) : ∀ c ∈ (strip brk l).getLast?, brk c = false := by
  intro c hc
  have hne : strip brk l ≠ [] := by
    rintro hnil
    rw [hnil] at hc
    cases hc
  have hlast := List.rdropWhile_last_not brk (l.dropWhile brk) hne
  rw [List.getLast?_eq_getLast_of_ne_nil hne, Option.mem_some_iff] at hc
  rw [← hc]
  exact (Bool.not_eq_true _).mp hlast

/-- A break at the end makes no difference. -/
theorem strip_concat {c : α} (hc : brk c = true) (l : List α) :
    strip brk (l ++ [c]) = strip brk l := by
  rw [strip, List.dropWhile_append, strip]
  split
  · rename_i hnil
    rw [List.isEmpty_iff.1 hnil, List.dropWhile_cons_of_pos hc, List.dropWhile_nil]
  · exact List.rdropWhile_concat_pos brk _ c hc

end Words
