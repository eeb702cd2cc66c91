import Mathlib.Data.List.Basic

/-!
# Bounded channels with many senders and one receiver

A queue of bounded length between any number of senders and one receiver. It is *closed* once the
receiver has closed it or the last sender is gone; what is still buffered is delivered after that.

Two facts carry the consumers. A receive takes the front of the queue (`recv_eq_some_iff`), and a
channel that is closed and empty stays so whatever its senders do (`Drained`).
-/

/-- A bounded channel: its capacity, what is buffered, how many senders there are, and whether the
receiver has closed it. -/
structure Channel (ε : Type*) where
  capacity : ℕ
  queue : List ε
  senders : ℕ
  rxClosed : Bool
deriving DecidableEq

namespace Channel

variable {ε : Type*} {c c' : Channel ε} {e : ε}

/-- Closed by the receiver, or without senders; events may still be buffered. -/
def isClosed (c : Channel ε) : Bool := c.rxClosed || c.senders == 0

/-- Send without waiting: refused when the receiver has closed the channel or the buffer is full. -/
def trySend (c : Channel ε) (e : ε) : Option (Channel ε) :=
  if c.rxClosed ∨ c.capacity ≤ c.queue.length then none else some { c with queue := c.queue ++ [e] }

/-- Receive: the front of the queue; the end once the channel is closed and empty; otherwise the
receiver has to wait. -/
def recv (c : Channel ε) : Option (Option ε × Channel ε) :=
  match c.queue with
  | e :: rest => some (some e, { c with queue := rest })
  | [] => if c.isClosed then some (none, c) else none

/-- The receiver closes the channel. -/
def close (c : Channel ε) : Channel ε := { c with rxClosed := true }

/-- A sender is cloned. -/
def cloneSender (c : Channel ε) : Channel ε := { c with senders := c.senders + 1 }

/-- A sender is dropped. -/
def dropSender (c : Channel ε) : Channel ε := { c with senders := c.senders - 1 }

@[simp] theorem close_queue (c : Channel ε) : c.close.queue = c.queue := rfl

theorem isClosed_iff : c.isClosed ↔ c.rxClosed = true ∨ c.senders = 0 := by
  simp [isClosed]

/-! ### Sending -/

theorem trySend_eq_some_iff : c.trySend e = some c' ↔
    (c.rxClosed = false ∧ c.queue.length < c.capacity) ∧
      c' = { c with queue := c.queue ++ [e] } := by
  rw [trySend]
  split
  · rename_i h
    refine iff_of_false (by simp) fun ⟨⟨hopen, hroom⟩, _⟩ ↦ ?_
    rcases h with h | h
    · simp [hopen] at h
    · omega
  · rename_i h
    rw [not_or, Bool.not_eq_true, Nat.not_le] at h
    simp [h, eq_comm]

theorem isClosed_dropSender (h : c.isClosed) : c.dropSender.isClosed := by
  rw [isClosed_iff] at h ⊢
  exact h.imp_right fun hs ↦ by simp [dropSender, hs]

theorem isClosed_cloneSender (h : c.isClosed) (hs : c.senders ≠ 0) : c.cloneSender.isClosed := by
  rw [isClosed_iff] at h ⊢
  exact Or.inl (h.resolve_right hs)

/-! ### Receiving -/

/-- A receive takes the front. -/
theorem recv_eq_some_iff : c.recv = some (some e, c') ↔
    ∃ rest, c.queue = e :: rest ∧ c' = { c with queue := rest } := by
  rcases hq : c.queue with - | ⟨x, rest⟩
  · simp [recv, hq]
  · simp only [recv, hq, Option.some.injEq, Prod.mk.injEq, List.cons.injEq]
    constructor
    · rintro ⟨rfl, rfl⟩
      exact ⟨rest, ⟨rfl, rfl⟩, rfl⟩
    · rintro ⟨rest', ⟨rfl, rfl⟩, rfl⟩
      exact ⟨rfl, rfl⟩

/-- The end is received exactly from a closed and empty channel. -/
theorem recv_eq_end_iff : c.recv = some (none, c') ↔
    c.isClosed ∧ c.queue = [] ∧ c' = c := by
  rcases hq : c.queue with - | ⟨x, rest⟩
  · by_cases hc : c.isClosed <;> simp [recv, hq, hc, eq_comm]
  · simp [recv, hq]

/-! ### Drained channels -/

/-- Closed, and nothing buffered any more. -/
structure Drained (c : Channel ε) : Prop where
  closed : c.isClosed
  empty : c.queue = []

/-- Nobody can send on a drained channel. -/
theorem Drained.trySend_eq_none (h : c.Drained) (hs : c.senders ≠ 0) (e : ε) :
    c.trySend e = none := by
  have hclosed := (isClosed_iff.1 h.closed).resolve_right hs
  simp [trySend, hclosed]

theorem Drained.cloneSender (h : c.Drained) (hs : c.senders ≠ 0) : c.cloneSender.Drained :=
  ⟨isClosed_cloneSender h.closed hs, h.empty⟩

theorem Drained.dropSender (h : c.Drained) : c.dropSender.Drained :=
  ⟨isClosed_dropSender h.closed, h.empty⟩

end Channel
