import Mathlib.Data.List.Basic
import Mathlib.Order.Defs.PartialOrder

/-!
# Search along a chain

A loop that tests a candidate, moves on by a partial function and stops at the first candidate that
passes. Where the candidates form a list, the loop ends after as many rounds as the list is long,
and has found out whether one of them passes. Where the candidates get smaller and smaller, the
first one that gives a value is the greatest that does (`findSome?_eq_some_iff_greatest`).
-/

namespace Search

variable {σ : Type*}

/-- The loop, for at most so many rounds; `none` if they do not suffice. -/
def loop (next : σ → Option σ) (test : σ → Bool) : ℕ → σ → Option Bool
  | 0, _ => none
  | rounds + 1, s =>
    if test s then some true
    else match next s with
      | some t => loop next test rounds t
      | none => some false

/-- **The loop ends, with the verdict on its chain.** -/
theorem loop_eq_any {next : σ → Option σ} {chain : σ → List σ}
    (hchain : ∀ s, chain s = s :: (next s).elim [] chain) (test : σ → Bool) {rounds : ℕ} {s : σ}
    (hrounds : (chain s).length ≤ rounds) :
    loop next test rounds s = some ((chain s).any test) := by
  induction rounds generalizing s with
  | zero =>
    rw [hchain, List.length_cons] at hrounds
    omega
  | succ rounds ih =>
    rw [hchain, List.any_cons, loop]
    rw [hchain, List.length_cons] at hrounds
    cases htest : test s with
    | true => rw [if_pos rfl, Bool.true_or]
    | false =>
      rw [if_neg Bool.false_ne_true, Bool.false_or]
      cases hnext : next s with
      | none => rfl
      | some t =>
        rw [hnext] at hrounds
        exact ih (Nat.le_of_succ_le_succ hrounds)

/-- **The first is the greatest**, in a list that descends in some measure. -/
theorem findSome?_eq_some_iff_greatest {β γ : Type*} [Preorder γ] {size : σ → γ} {l : List σ}
    (hdescends : l.Pairwise fun s t ↦ size t < size s) {f : σ → Option β} {v : β} :
    l.findSome? f = some v ↔
      ∃ s ∈ l, f s = some v ∧ ∀ t ∈ l, size s < size t → f t = none := by
  rw [List.findSome?_eq_some_iff]
  constructor
  · rintro ⟨before, s, after, rfl, hs, hbefore⟩
    rw [List.pairwise_append, List.pairwise_cons] at hdescends
    refine ⟨s, List.mem_append_right _ List.mem_cons_self, hs, fun t ht hlt ↦ ?_⟩
    rcases List.mem_append.1 ht with ht | ht
    · exact hbefore t ht
    · rcases List.mem_cons.1 ht with rfl | ht
      · exact absurd hlt (lt_irrefl _)
      · exact absurd (hdescends.2.1.1 t ht) (lt_asymm hlt)
  · rintro ⟨s, hmem, hs, hgreater⟩
    obtain ⟨before, after, rfl⟩ := List.append_of_mem hmem
    rw [List.pairwise_append] at hdescends
    refine ⟨before, s, after, rfl, hs, fun t ht ↦ ?_⟩
    exact hgreater t (List.mem_append_left _ ht) (hdescends.2.2 t ht s List.mem_cons_self)

end Search
