import DnsBuffer.Upstream.Connection

/-!
# The HTTP/2 connection of a DoH upstream

`DohResolver::resolve_h2` keeps no mark with its connection and does not test it before reuse: the
sender in the slot is used until a send on it fails. The failed request then empties the slot,
whatever the slot holds by that time.

That is one step too many. Between the failure and the report another request may have reported the
same connection and made a new one, and the late report throws the new one away. The slot always
holds the newest connection (`SlotState.Inv.newest`), so the reports that do this are those on a
connection that is no longer the newest while there is one in the slot (`LateReport`). An execution
spares newer connections exactly if it has no late report.
-/

namespace DnsBuffer

namespace DohResolver

/-- The slot of `resolve_h2`: only a failed `send_request` is held against the connection, and it
empties the slot. -/
def h2Policy : ConnectionPolicy Unit where
  testsLiveness := false
  mark _ := ()
  reports outcome := outcome = .failed
  clears _ _ := true

/-- A report takes nothing but the connection it is about out of the slot: it empties the slot only
if that connection is in it, and leaves a later one where it is. -/
def SparesOthers (s : SlotState Unit) : SlotAction → Prop
  | .report i => ∀ r attempt failed error t, s.requests[i]? = some r →
      r.phase = .reporting attempt failed error →
      (SlotState.machine h2Policy).step s (.report i) = some t →
      (s.slot ≠ none → t.slot = none → s.slot = some failed) ∧
        ∀ held, s.slot = some held → failed.index < held.index → t.slot = some held
  | _ => True

/-- The failure of a connection is reported after a newer one was made, and while there is one in
the slot. -/
def LateReport (s : SlotState Unit) : SlotAction → Prop
  | .report i => ∃ r attempt failed error, s.requests[i]? = some r ∧
      r.phase = .reporting attempt failed error ∧ s.slot ≠ none ∧
      failed.index + 1 < s.made.length
  | _ => False

/-- A report empties the slot. -/
theorem slot_of_report {s t : SlotState Unit} {i : ℕ}
    (hstep : (SlotState.machine h2Policy).step s (.report i) = some t) : t.slot = none := by
  have hnone : ∀ failed, s.invalidate h2Policy failed = none := by
    intro failed
    rcases hslot : s.slot with - | held <;> simp [SlotState.invalidate, hslot, h2Policy]
  cases SlotState.step_of_machine hstep with
  | retry hi hphase => exact hnone _
  | giveUp hi hphase => exact hnone _

/-- **When a report spares the other connections**: exactly when it is not late. -/
theorem sparesOthers_iff {s t : SlotState Unit} {a : SlotAction} (h : s.Inv h2Policy)
    (hstep : (SlotState.machine h2Policy).step s a = some t) :
    SparesOthers s a ↔ ¬LateReport s a := by
  rcases a with - | i | - | - | - | i | - | -
  case report =>
    constructor
    · rintro hspares ⟨r, attempt, failed, error, hi, hphase, hslot, hlate⟩
      obtain ⟨held, hheld⟩ := Option.ne_none_iff_exists'.1 hslot
      have hnewest := (h.newest held hheld).2
      have hkept := (hspares r attempt failed error t hi hphase hstep).2 held hheld (by omega)
      exact absurd ((slot_of_report hstep).symm.trans hkept) (by simp)
    · intro hnot r attempt failed error t' hi hphase hstep'
      -- without a newer connection the one in the slot is the one that failed
      have hsame : ∀ held, s.slot = some held → held = failed := by
        intro held hheld
        obtain ⟨hmade, hnewest⟩ := h.newest held hheld
        have hfailed : failed ∈ s.made :=
          (h.sound r (List.mem_of_getElem? hi)).connection failed (by rw [hphase]; rfl)
        have hlt := (h.index_lt hfailed).1
        have hlast : ¬failed.index + 1 < s.made.length := fun hlate ↦
          hnot ⟨r, attempt, failed, error, hi, hphase, by rw [hheld]; simp, hlate⟩
        exact h.eq_of_index_eq hmade hfailed (by omega)
      refine ⟨fun hsome _ ↦ ?_, fun held hheld hlt ↦ ?_⟩
      · obtain ⟨held, hheld⟩ := Option.ne_none_iff_exists'.1 hsome
        rw [hheld, hsame held hheld]
      · exact absurd hlt (by rw [hsame held hheld]; omega)
  all_goals exact iff_of_true trivial id

/-- **When newer connections are spared.** In an execution of any number of concurrent requests: no
report of a failure takes another connection than the failed one out of the slot, if and only if no
report is late. -/
theorem spares_newer_iff (as : List SlotAction) (s : SlotState Unit)
    (hrun : (SlotState.machine h2Policy).run (SlotState.empty Unit) as = some s) :
    (SlotState.machine h2Policy).Along SparesOthers (SlotState.empty Unit) as ↔
      (SlotState.machine h2Policy).Along (fun s a ↦ ¬LateReport s a) (SlotState.empty Unit) as :=
  Machine.along_congr (I := SlotState.Inv h2Policy) (fun _ _ _ h hstep ↦ sparesOthers_iff h hstep)
    (fun _ _ _ h _ hstep ↦ SlotState.Inv.step h hstep) hrun (SlotState.inv_empty h2Policy)

/-! ### A new connection thrown away

Two requests share a connection that dies. The first reports it and makes a new one; the report of
the second empties the slot again. -/

/-- Both requests are sent on the first connection and fail; the first one has connected again. -/
def reconnected : List SlotAction :=
  [.call, .call, .acquire 0, .connected 0 true, .build 0 true, .acquire 1, .build 1 true, .die 0,
    .sent 0 .failed, .sent 1 .failed, .report 0, .acquire 0, .connected 0 true]

/-- The second request fails on the first connection and removes the second one. -/
theorem late_report_removes_newer :
    ∃ s t, (SlotState.machine h2Policy).run (SlotState.empty Unit) reconnected = some s ∧
      (∃ sent outcomes, s.requests[1]? = some ⟨.reporting 0 ⟨0, ()⟩ .send, sent, outcomes⟩) ∧
      s.slot = some ⟨1, ()⟩ ∧ (SlotState.machine h2Policy).step s (.report 1) = some t ∧
      t.slot = none ∧ ¬SparesOthers s (.report 1) := by
  have hrun : ((SlotState.machine h2Policy).run (SlotState.empty Unit) reconnected).any fun s ↦
      s.requests[1]? = some ⟨.reporting 0 ⟨0, ()⟩ .send, [⟨0, ()⟩], [(⟨0, ()⟩, .failed)]⟩ ∧
        s.slot = some ⟨1, ()⟩ ∧ ((SlotState.machine h2Policy).step s (.report 1)).any fun t ↦
          t.slot = none := by
    decide +kernel
  obtain ⟨s, hs, hprop⟩ := (Option.any_eq_true _ _).1 hrun
  obtain ⟨hrequest, hslot, hany⟩ := of_decide_eq_true hprop
  obtain ⟨t, ht, hnone⟩ := (Option.any_eq_true _ _).1 hany
  have hgone : t.slot = none := of_decide_eq_true hnone
  refine ⟨s, t, hs, ⟨_, _, hrequest⟩, hslot, ht, hgone, fun hspares ↦ ?_⟩
  have hkept := (hspares _ 0 ⟨0, ()⟩ .send t hrequest rfl ht).2 ⟨1, ()⟩ hslot (by decide)
  exact absurd (hgone.symm.trans hkept) (by simp)

/-- A request that fails, reconnects and succeeds. -/
theorem spares_newer_alone :
    let as : List SlotAction :=
      [.call, .acquire 0, .connected 0 true, .build 0 true, .sent 0 .failed, .report 0, .acquire 0,
        .connected 0 true, .build 0 true, .sent 0 (.response 200 (some [1]))]
    (∃ s, (SlotState.machine h2Policy).run (SlotState.empty Unit) as = some s ∧
      s.slot = some ⟨1, ()⟩) ∧
      ((SlotState.machine h2Policy).Along SparesOthers (SlotState.empty Unit) as ↔
        (SlotState.machine h2Policy).Along (fun s a ↦ ¬LateReport s a)
          (SlotState.empty Unit) as) := by
  intro as
  have hrun : ((SlotState.machine h2Policy).run (SlotState.empty Unit) as).any fun s ↦
      s.slot = some ⟨1, ()⟩ := by
    decide +kernel
  obtain ⟨s, hs, hprop⟩ := (Option.any_eq_true _ _).1 hrun
  exact ⟨⟨s, hs, of_decide_eq_true hprop⟩, spares_newer_iff as s hs⟩

end DohResolver

end DnsBuffer
