import Mathlib.Data.Finset.Card

/-!
# Semaphores

A semaphore as its users see it. An acquisition is a future of its own, here known by a number: from
its first poll on it is with the semaphore, until it hands its permit over (`take`) or is dropped
(`cancel`). A permit that has been handed over comes back when its owner drops it (`release`).

How a semaphore keeps its waiters is not said, and neither is which of them is served next: the laws
(`LawfulSemaphore`) are those of its documentation. A free permit is assigned at once; without one
the acquisition waits; and a permit that comes back, be it dropped by its owner or by an acquisition
that was cancelled, is assigned to one that waits, if there is one.

`Semaphore.Books` is what follows for the permits that are out, and every operation keeps it.
-/

/-- What can be seen of a semaphore: the free permits, and the acquisitions that wait for a permit
and that have been assigned one. -/
structure SemaphoreView where
  available : ℕ
  waiting : Finset ℕ
  assigned : Finset ℕ

/-- The operations of a semaphore. -/
class Semaphore (σ : Type*) where
  new : ℕ → σ
  /-- An acquisition is polled for the first time. -/
  acquire : σ → ℕ → σ
  /-- An acquisition hands over the permit that it has been assigned. -/
  take : σ → ℕ → σ
  /-- An acquisition is dropped that has not handed a permit over. -/
  cancel : σ → ℕ → σ
  /-- An owner drops its permit. -/
  release : σ → σ
  view : σ → SemaphoreView

namespace SemaphoreView

/-- An acquisition is with the semaphore. -/
def tickets (v : SemaphoreView) : Finset ℕ := v.waiting ∪ v.assigned

/-- A permit comes back: one that waits is assigned it, or it is free. -/
inductive Frees : SemaphoreView → SemaphoreView → Prop
  | available {v : SemaphoreView} (hwaiting : v.waiting = ∅) :
      Frees v { v with available := v.available + 1 }
  | assigned {v : SemaphoreView} {i : ℕ} (hi : i ∈ v.waiting) :
      Frees v { v with waiting := v.waiting.erase i, assigned := insert i v.assigned }

end SemaphoreView

section Laws

open Semaphore

/-- What is documented of a semaphore. -/
class LawfulSemaphore (σ : Type*) [Semaphore σ] : Prop where
  view_new : ∀ n, view (new n : σ) = ⟨n, ∅, ∅⟩
  acquire_free : ∀ (s : σ) (i : ℕ), i ∉ (view s).tickets → (view s).available ≠ 0 →
    view (acquire s i) =
      ⟨(view s).available - 1, (view s).waiting, insert i (view s).assigned⟩
  acquire_wait : ∀ (s : σ) (i : ℕ), i ∉ (view s).tickets → (view s).available = 0 →
    view (acquire s i) = ⟨0, insert i (view s).waiting, (view s).assigned⟩
  take : ∀ (s : σ), ∀ i ∈ (view s).assigned,
    view (take s i) = ⟨(view s).available, (view s).waiting, (view s).assigned.erase i⟩
  cancel_waiting : ∀ (s : σ), ∀ i ∈ (view s).waiting,
    view (cancel s i) = ⟨(view s).available, (view s).waiting.erase i, (view s).assigned⟩
  cancel_assigned : ∀ (s : σ), ∀ i ∈ (view s).assigned, i ∉ (view s).waiting →
    SemaphoreView.Frees ⟨(view s).available, (view s).waiting, (view s).assigned.erase i⟩
      (view (cancel s i))
  release : ∀ s : σ, (view s).Frees (view (release s))

end Laws

namespace SemaphoreView

variable {v v' : SemaphoreView} {capacity out i k : ℕ}

/-- With `out` permits that have been handed over, all permits are accounted for; no acquisition
waits that has been assigned one; and nobody waits while a permit is free. -/
structure Books (v : SemaphoreView) (capacity out : ℕ) : Prop where
  conserved : v.available + v.assigned.card + out = capacity
  disjoint : ∀ i ∈ v.waiting, i ∉ v.assigned
  eager : v.available ≠ 0 → v.waiting = ∅

theorem mem_tickets : i ∈ v.tickets ↔ i ∈ v.waiting ∨ i ∈ v.assigned := Finset.mem_union

/-- A permit that was out comes back. -/
theorem Books.frees (h : v.Books capacity (out + 1)) (hfrees : v.Frees v') :
    v'.Books capacity out := by
  have hconserved := h.conserved
  cases hfrees with
  | available hwaiting =>
    refine ⟨?_, h.disjoint, fun _ ↦ hwaiting⟩
    show v.available + 1 + v.assigned.card + out = capacity
    omega
  | @assigned i hi =>
    refine ⟨?_, fun k hk ↦ ?_, fun havailable ↦ ?_⟩
    · show v.available + (insert i v.assigned).card + out = capacity
      rw [Finset.card_insert_of_notMem (h.disjoint i hi)]
      omega
    · obtain ⟨hne, hwaits⟩ := Finset.mem_erase.1 hk
      rw [Finset.mem_insert, not_or]
      exact ⟨hne, h.disjoint k hwaits⟩
    · exact absurd (h.eager havailable ▸ hi) (Finset.notMem_empty i)

/-- No acquisition comes or goes with a permit. -/
theorem Frees.tickets_iff (h : v.Frees v') : k ∈ v'.tickets ↔ k ∈ v.tickets := by
  cases h with
  | available => exact Iff.rfl
  | @assigned i hi =>
    rw [mem_tickets, mem_tickets, Finset.mem_erase, Finset.mem_insert]
    constructor
    · rintro (⟨-, hk⟩ | rfl | hk)
      · exact Or.inl hk
      · exact Or.inl hi
      · exact Or.inr hk
    · rintro (hk | hk)
      · obtain rfl | hne := eq_or_ne k i
        · exact Or.inr (Or.inl rfl)
        · exact Or.inl ⟨hne, hk⟩
      · exact Or.inr (Or.inr hk)

end SemaphoreView

namespace Semaphore

variable {σ : Type*} [Semaphore σ] [LawfulSemaphore σ] {s : σ} {capacity out i k : ℕ}

open SemaphoreView

theorem books_new (n : ℕ) : (view (new n : σ)).Books n 0 := by
  rw [LawfulSemaphore.view_new]
  exact ⟨rfl, fun i hi ↦ absurd hi (Finset.notMem_empty i), fun _ ↦ rfl⟩

/-! ### An acquisition comes -/

theorem books_acquire (h : (view s).Books capacity out) (hi : i ∉ (view s).tickets) :
    (view (acquire s i)).Books capacity out := by
  rw [mem_tickets, not_or] at hi
  have hconserved := h.conserved
  by_cases havailable : (view s).available = 0
  · rw [LawfulSemaphore.acquire_wait s i (by rwa [mem_tickets, not_or]) havailable]
    refine ⟨havailable ▸ hconserved, fun k hk ↦ ?_, fun hne ↦ absurd rfl hne⟩
    obtain rfl | hk := Finset.mem_insert.1 hk
    · exact hi.2
    · exact h.disjoint k hk
  · rw [LawfulSemaphore.acquire_free s i (by rwa [mem_tickets, not_or]) havailable]
    have hwaiting := h.eager havailable
    refine ⟨?_, fun k hk ↦ absurd (hwaiting ▸ hk) (Finset.notMem_empty k), fun _ ↦ hwaiting⟩
    show (view s).available - 1 + (insert i (view s).assigned).card + out = capacity
    rw [Finset.card_insert_of_notMem hi.2]
    omega

theorem tickets_acquire (hi : i ∉ (view s).tickets) :
    k ∈ (view (acquire s i)).tickets ↔ k = i ∨ k ∈ (view s).tickets := by
  by_cases havailable : (view s).available = 0
  · rw [LawfulSemaphore.acquire_wait s i hi havailable, mem_tickets, mem_tickets,
      Finset.mem_insert, or_assoc]
  · rw [LawfulSemaphore.acquire_free s i hi havailable, mem_tickets, mem_tickets,
      Finset.mem_insert]
    exact or_left_comm

/-! ### An acquisition goes -/

/-- With its permit. -/
theorem books_take (h : (view s).Books capacity out) (hi : i ∈ (view s).assigned) :
    (view (take s i)).Books capacity (out + 1) := by
  have hconserved := h.conserved
  have hcard := Finset.card_erase_add_one hi
  rw [LawfulSemaphore.take s i hi]
  refine ⟨?_, fun k hk hassigned ↦ h.disjoint k hk (Finset.mem_of_mem_erase hassigned), h.eager⟩
  show (view s).available + ((view s).assigned.erase i).card + (out + 1) = capacity
  omega

theorem tickets_take (h : (view s).Books capacity out) (hi : i ∈ (view s).assigned) :
    k ∈ (view (take s i)).tickets ↔ k ≠ i ∧ k ∈ (view s).tickets := by
  have hnot : i ∉ (view s).waiting := fun hwaits ↦ h.disjoint i hwaits hi
  rw [LawfulSemaphore.take s i hi, mem_tickets, mem_tickets, Finset.mem_erase]
  constructor
  · rintro (hk | ⟨hne, hk⟩)
    · exact ⟨fun heq ↦ hnot (heq ▸ hk), Or.inl hk⟩
    · exact ⟨hne, Or.inr hk⟩
  · rintro ⟨hne, hk⟩
    exact hk.imp_right fun hk ↦ ⟨hne, hk⟩

/-- Without one. A permit that it had been assigned is as good as dropped by an owner. -/
theorem books_cancel (h : (view s).Books capacity out) (hi : i ∈ (view s).tickets) :
    (view (cancel s i)).Books capacity out := by
  by_cases hwaits : i ∈ (view s).waiting
  · rw [LawfulSemaphore.cancel_waiting s i hwaits]
    refine ⟨h.conserved, fun k hk ↦ h.disjoint k (Finset.mem_of_mem_erase hk), fun hne ↦ ?_⟩
    exact absurd (h.eager hne ▸ hwaits) (Finset.notMem_empty i)
  · have hassigned := (mem_tickets.1 hi).resolve_left hwaits
    have htaken := books_take h hassigned
    rw [LawfulSemaphore.take s i hassigned] at htaken
    exact htaken.frees (LawfulSemaphore.cancel_assigned s i hassigned hwaits)

theorem tickets_cancel (h : (view s).Books capacity out) (hi : i ∈ (view s).tickets) :
    k ∈ (view (cancel s i)).tickets ↔ k ≠ i ∧ k ∈ (view s).tickets := by
  by_cases hwaits : i ∈ (view s).waiting
  · have hnot := h.disjoint i hwaits
    rw [LawfulSemaphore.cancel_waiting s i hwaits, mem_tickets, mem_tickets, Finset.mem_erase]
    constructor
    · rintro (⟨hne, hk⟩ | hk)
      · exact ⟨hne, Or.inl hk⟩
      · exact ⟨fun heq ↦ hnot (heq ▸ hk), Or.inr hk⟩
    · rintro ⟨hne, hk⟩
      exact hk.imp_left fun hk ↦ ⟨hne, hk⟩
  · have hassigned := (mem_tickets.1 hi).resolve_left hwaits
    have htaken := tickets_take (k := k) h hassigned
    rw [LawfulSemaphore.take s i hassigned] at htaken
    exact (LawfulSemaphore.cancel_assigned s i hassigned hwaits).tickets_iff.trans htaken

/-! ### A permit comes back -/

theorem books_release (h : (view s).Books capacity (out + 1)) :
    (view (release s)).Books capacity out := h.frees (LawfulSemaphore.release s)

theorem tickets_release : k ∈ (view (release s)).tickets ↔ k ∈ (view s).tickets :=
  (LawfulSemaphore.release s).tickets_iff

end Semaphore

/-! ### A queue of waiters -/

/-- A semaphore that serves its waiters in the order in which they came. -/
structure QueueSemaphore where
  available : ℕ
  queue : List ℕ
  assigned : Finset ℕ
  nodup : queue.Nodup

namespace QueueSemaphore

/-- A free permit is assigned; without one, the acquisition stands in the queue. -/
def acquire (s : QueueSemaphore) (i : ℕ) : QueueSemaphore :=
  if s.available ≠ 0 then
    { s with available := s.available - 1, assigned := insert i s.assigned }
  else if h : i ∈ s.queue then s
  else { s with queue := i :: s.queue, nodup := List.nodup_cons.2 ⟨h, s.nodup⟩ }

/-- The last in the list has come first: it is assigned the permit that comes back. -/
def release (s : QueueSemaphore) : QueueSemaphore :=
  match s.queue.getLast? with
  | none => { s with available := s.available + 1 }
  | some i =>
    { s with
      queue := s.queue.erase i
      assigned := insert i s.assigned
      nodup := s.nodup.erase i }

/-- An acquisition leaves the queue, or gives its permit back. -/
def cancel (s : QueueSemaphore) (i : ℕ) : QueueSemaphore :=
  if i ∈ s.queue then { s with queue := s.queue.erase i, nodup := s.nodup.erase i }
  else release { s with assigned := s.assigned.erase i }

instance : Semaphore QueueSemaphore where
  new n := ⟨n, [], ∅, .nil⟩
  acquire := acquire
  take s i := { s with assigned := s.assigned.erase i }
  cancel := cancel
  release := release
  view s := ⟨s.available, s.queue.toFinset, s.assigned⟩

theorem toFinset_erase (s : QueueSemaphore) (i : ℕ) :
    (s.queue.erase i).toFinset = s.queue.toFinset.erase i := by
  ext k
  rw [List.mem_toFinset, s.nodup.mem_erase_iff, Finset.mem_erase, List.mem_toFinset]

theorem frees_release (s : QueueSemaphore) :
    (Semaphore.view s).Frees (Semaphore.view s.release) := by
  rw [release]
  split
  · rename_i hqueue
    refine .available ?_
    show s.queue.toFinset = ∅
    rw [List.getLast?_eq_none_iff.1 hqueue, List.toFinset_nil]
  · rename_i i hqueue
    have hi : i ∈ (Semaphore.view s).waiting := List.mem_toFinset.2 (List.mem_of_getLast? hqueue)
    have hfrees := SemaphoreView.Frees.assigned hi
    rw [show (Semaphore.view s).waiting = s.queue.toFinset from rfl, ← s.toFinset_erase] at hfrees
    exact hfrees

instance : LawfulSemaphore QueueSemaphore where
  view_new n := rfl
  acquire_free s i _ (havailable : s.available ≠ 0) := by
    show Semaphore.view (acquire s i) = _
    rw [acquire, if_pos havailable]
    rfl
  acquire_wait s i hi (havailable : s.available = 0) := by
    rw [SemaphoreView.mem_tickets, not_or] at hi
    have hqueue : i ∉ s.queue := fun hmem ↦ hi.1 (List.mem_toFinset.2 hmem)
    show Semaphore.view (acquire s i) = _
    rw [acquire, if_neg (not_not_intro havailable), dif_neg hqueue]
    exact congrArg₂ (fun available waiting ↦ SemaphoreView.mk available waiting s.assigned)
      havailable List.toFinset_cons
  take s i _ := rfl
  cancel_waiting s i hi := by
    show Semaphore.view (cancel s i) = _
    rw [cancel, if_pos (List.mem_toFinset.1 hi)]
    exact congrArg (fun waiting ↦ SemaphoreView.mk s.available waiting s.assigned)
      (s.toFinset_erase i)
  cancel_assigned s i _ hi := by
    have hqueue : i ∉ s.queue := fun hmem ↦ hi (List.mem_toFinset.2 hmem)
    show SemaphoreView.Frees _ (Semaphore.view (cancel s i))
    rw [cancel, if_neg hqueue]
    exact frees_release { s with assigned := s.assigned.erase i }
  release := frees_release

end QueueSemaphore
