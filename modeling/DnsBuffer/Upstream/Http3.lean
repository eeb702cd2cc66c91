import DnsBuffer.Upstream.Connection
import Mathlib.Algebra.Group.Nat.Defs
import Mathlib.Data.List.Nodup

/-!
# The HTTP/3 connection of a DoH upstream

`H3Conn::request` notes a generation with every connection it puts into the slot, tests the
connection before it uses it again, and on a failure empties the slot only if the generation in it
is the one that failed.

Generations come from a counter of 64 bits that is read and advanced for every connection made, so
connection `n` gets generation `n` modulo `2 ^ 64`. As long as the counter has not wrapped,
generations tell connections apart (`eq_of_generation_eq`), and a report can only remove the
connection it is about.
-/

namespace DnsBuffer

namespace H3Conn

/-- `allocate_generation`, for the connection made after `n` others: the counter wraps. -/
def allocateGeneration (n : ℕ) : UInt64 := UInt64.ofNat n

/-- The slot of `H3Conn::request`: whatever keeps the body from arriving is held against the
connection, and `invalidate_generation` compares generations. -/
def h3Policy : ConnectionPolicy UInt64 where
  testsLiveness := true
  mark := allocateGeneration
  reports outcome := !outcome.isOk
  clears failed held := held = failed

theorem generation_inj {n m : ℕ} (hn : n < 2 ^ 64) (hm : m < 2 ^ 64)
    (h : allocateGeneration n = allocateGeneration m) : n = m := by
  have hnat := congrArg UInt64.toNat h
  rwa [allocateGeneration, allocateGeneration, UInt64.toNat_ofNat_of_lt' hn,
    UInt64.toNat_ofNat_of_lt' hm] at hnat

variable {s t : SlotState UInt64} {a : SlotAction}

/-- As long as the counter has not wrapped, a connection is known by its generation. -/
theorem eq_of_generation_eq (h : s.Inv h3Policy) (hfew : s.made.length < 2 ^ 64)
    {c d : Connection UInt64} (hc : c ∈ s.made) (hd : d ∈ s.made) (hmark : c.mark = d.mark) :
    c = d := by
  obtain ⟨hclt, hceq⟩ := h.index_lt hc
  obtain ⟨hdlt, hdeq⟩ := h.index_lt hd
  rw [hceq, hdeq] at hmark
  exact h.eq_of_index_eq hc hd (generation_inj (by omega) (by omega) hmark)

theorem nodup_generations (h : s.Inv h3Policy) (hfew : s.made.length < 2 ^ 64) :
    (s.made.map Connection.mark).Nodup := by
  rw [h.made_eq, List.map_map]
  refine List.Nodup.map_on (fun n hn m hm heq ↦ ?_) List.nodup_range
  rw [List.mem_range] at hn hm
  exact generation_inj (by omega) (by omega) heq

/-- **The generation protocol**, in every state that an execution of any number of concurrent
requests reaches with fewer than `2 ^ 64` connections made:

* no two connections ever put into the slot have the same generation;
* a connection leaves the slot only in a step of a request that finds it dead, or reports a failed
  send on this very connection;
* every request is sent on at most two connections, and has returned an answer if and only if one of
  its sends has succeeded. -/
theorem generation_protocol (as : List SlotAction) (s : SlotState UInt64)
    (hrun : (SlotState.machine h3Policy).run (SlotState.empty UInt64) as = some s)
    (hfew : s.made.length < 2 ^ 64) :
    (s.made.map Connection.mark).Nodup ∧
    (∀ a t c, (SlotState.machine h3Policy).step s a = some t → s.slot = some c → t.slot ≠ some c →
      (∃ i, a = .acquire i ∧ c.index ∈ s.dead) ∨
        ∃ i r attempt error outcome, a = .report i ∧ s.requests[i]? = some r ∧
          r.phase = .reporting attempt c error ∧ (c, outcome) ∈ r.outcomes ∧ ¬outcome.isOk) ∧
    ∀ r ∈ s.requests, r.sent.length ≤ 2 ∧
      ((∃ body, r.phase = .returned (.ok body)) ↔ ∃ x ∈ r.outcomes, x.2.isOk) := by
  have h := SlotState.inv_of_run hrun
  refine ⟨nodup_generations h hfew, fun a t c hstep hc ht ↦ ?_,
    fun r hr ↦ ⟨(h.sound r hr).sends.le_two, (h.sound r hr).answered⟩⟩
  rcases SlotState.leaves_slot h hstep hc ht with ⟨i, rfl, -, hdead⟩ |
    ⟨i, r, attempt, failed, error, rfl, hi, hphase, hclears⟩
  · exact Or.inl ⟨i, rfl, hdead⟩
  · -- the generations agree, so what is removed is what has failed
    have hsound := h.sound r (List.mem_of_getElem? hi)
    have hmark : c.mark = failed.mark := of_decide_eq_true hclears
    obtain rfl := eq_of_generation_eq h hfew (h.newest c hc).1
      (hsound.connection failed (by rw [hphase]; rfl)) hmark
    obtain ⟨outcome, hmem, hresult⟩ := hsound.failed attempt c error hphase
    refine Or.inr ⟨i, r, attempt, error, outcome, rfl, hi, hphase, hmem, ?_⟩
    rw [SendOutcome.isOk, hresult]
    simp [Except.toBool]

/-- The schedule that loses a connection over HTTP/2: two requests on a dying connection, the second
report after the first one's reconnect. The new connection stays. -/
theorem generation_protocol_late_report :
    let as : List SlotAction :=
      [.call, .call, .acquire 0, .connected 0 true, .build 0 true, .acquire 1, .build 1 true,
        .sent 0 .failed, .sent 1 .failed, .report 0, .acquire 0, .connected 0 true, .report 1]
    ∃ s, (SlotState.machine h3Policy).run (SlotState.empty UInt64) as = some s ∧
      s.slot = some ⟨1, 1⟩ ∧ (s.made.map Connection.mark).Nodup := by
  intro as
  have hrun : ((SlotState.machine h3Policy).run (SlotState.empty UInt64) as).any fun s ↦
      s.slot = some ⟨1, 1⟩ ∧ s.made.length = 2 := by
    decide +kernel
  obtain ⟨s, hs, hprop⟩ := (Option.any_eq_true _ _).1 hrun
  obtain ⟨hslot, hmade⟩ := of_decide_eq_true hprop
  exact ⟨s, hs, hslot, (generation_protocol as s hs (by omega)).1⟩

end H3Conn

end DnsBuffer
