import DnsBuffer.Dashboard.Event
import DnsBuffer.Foundation.Channel
import DnsBuffer.Foundation.Machine
import DnsBuffer.Foundation.Tasks

/-!
# How often the history warns

Two places keep the log readable while the history is in trouble, both with atomics that any number
of threads use at the same time.

* `WarningRateLimit::should_log` lets one warning through in an interval. It is a loop around a weak
  compare-exchange on one variable. The accesses are relaxed, so a load may return any value the
  variable has had, and so may a failed exchange, which may also fail for no reason; a successful
  one is about the latest value. The state keeps all values written (`written`), and the schedule
  says which of them a read returns.
* `Recorder::try_record` announces a full queue once until an event is accepted again, and a closed
  queue once for all. The send and the update of its flag are two steps, and other calls come in
  between: a call whose event was accepted may reset the flag of a later outage, which is then
  announced once more.
-/

namespace DnsBuffer

/-! ### The rate limit of the write warnings -/

/-- `u64::MAX`. -/
def u64Max : ℕ := 2 ^ 64 - 1

/-- `u64::saturating_add`. -/
def saturatingAdd (a b : ℕ) : ℕ := min (a + b) u64Max

/-- Where a call of `should_log` is: in front of its load, in front of the exchange with the value
it has read last, or back. -/
inductive LogCall
  | loading (nowMs : ℕ)
  | exchanging (nowMs next : ℕ)
  | returned (nowMs : ℕ) (log : Bool)
deriving DecidableEq

/-- The head of the loop: the value read is compared with the time of the call. -/
def LogCall.test (nowMs next : ℕ) : LogCall :=
  if nowMs < next then .returned nowMs false else .exchanging nowMs next

/-- The time of a call that returned `true`. -/
def LogCall.logged? : LogCall → Option ℕ
  | .returned nowMs true => some nowMs
  | _ => none

/-- `WarningRateLimit` and the calls of its `should_log`. -/
structure WarningRateLimit where
  intervalMs : ℕ
  /-- The values of `next_log_ms`, in the order in which they were written. -/
  written : List ℕ
  calls : List LogCall
  /-- The times of the calls whose exchange succeeded, in the order of the exchanges. -/
  logged : List ℕ
deriving DecidableEq

/-- A step of one of the calls. -/
inductive LogAction
  /-- `should_log(now_ms)` is called. -/
  | call (nowMs : ℕ)
  /-- Call `i` loads the `k`-th value written. -/
  | load (i k : ℕ)
  /-- The exchange of call `i` succeeds. -/
  | exchange (i : ℕ)
  /-- The exchange of call `i` fails and returns the `k`-th value written. -/
  | fail (i k : ℕ)
deriving DecidableEq

namespace WarningRateLimit

/-- `WarningRateLimit::new`. -/
def new (intervalMs : ℕ) : WarningRateLimit := ⟨intervalMs, [0], [], []⟩

/-- The calls of `should_log` as a machine. -/
def machine : Machine WarningRateLimit LogAction where
  step w
    | .call nowMs =>
      if nowMs ≤ u64Max then some { w with calls := w.calls ++ [.loading nowMs] } else none
    | .load i k =>
      match w.calls[i]?, w.written[k]? with
      | some (.loading nowMs), some next =>
        some { w with calls := w.calls.set i (.test nowMs next) }
      | _, _ => none
    | .exchange i =>
      match w.calls[i]? with
      | some (.exchanging nowMs next) =>
        if w.written.getLast? = some next then
          some { w with
            written := w.written ++ [saturatingAdd nowMs w.intervalMs]
            calls := w.calls.set i (.returned nowMs true)
            logged := w.logged ++ [nowMs] }
        else none
      | _ => none
    | .fail i k =>
      match w.calls[i]?, w.written[k]? with
      | some (.exchanging nowMs _), some next =>
        some { w with calls := w.calls.set i (.test nowMs next) }
      | _, _ => none

/-- The enabled steps and their effects. -/
inductive Step (w : WarningRateLimit) : LogAction → WarningRateLimit → Prop
  | call {nowMs : ℕ} (hmax : nowMs ≤ u64Max) :
      Step w (.call nowMs) { w with calls := w.calls ++ [.loading nowMs] }
  | load {i k nowMs next : ℕ} (hi : w.calls[i]? = some (.loading nowMs))
      (hk : w.written[k]? = some next) :
      Step w (.load i k) { w with calls := w.calls.set i (.test nowMs next) }
  | exchange {i nowMs next : ℕ} (hi : w.calls[i]? = some (.exchanging nowMs next))
      (hlast : w.written.getLast? = some next) :
      Step w (.exchange i)
        { w with
          written := w.written ++ [saturatingAdd nowMs w.intervalMs]
          calls := w.calls.set i (.returned nowMs true)
          logged := w.logged ++ [nowMs] }
  | fail {i k nowMs old next : ℕ} (hi : w.calls[i]? = some (.exchanging nowMs old))
      (hk : w.written[k]? = some next) :
      Step w (.fail i k) { w with calls := w.calls.set i (.test nowMs next) }

/-- **Inversion of the machine.** -/
theorem step_of_machine {w w' : WarningRateLimit} {a : LogAction}
    (h : machine.step w a = some w') : w.Step a w' := by
  cases a with
  | call nowMs =>
    simp only [machine] at h
    split at h
    · rename_i hmax
      cases h
      exact .call hmax
    · cases h
  | load i k =>
    simp only [machine] at h
    split at h
    · rename_i hi hk
      cases h
      exact .load hi hk
    · cases h
  | exchange i =>
    simp only [machine] at h
    split at h
    · rename_i hi
      split at h
      · rename_i hlast
        cases h
        exact .exchange hi hlast
      · cases h
    · cases h
  | fail i k =>
    simp only [machine] at h
    split at h
    · rename_i hi hk
      cases h
      exact .fail hi hk
    · cases h

/-! ### Warnings keep their distance -/

/-- What a call knows where it is: it exchanges a value that is not ahead of its time, and it was
refused because of one that is. -/
def Justified (w : WarningRateLimit) : LogCall → Prop
  | .loading nowMs => nowMs ≤ u64Max
  | .exchanging nowMs next => nowMs ≤ u64Max ∧ next ≤ nowMs
  | .returned _ true => True
  | .returned nowMs false => ∃ t ∈ w.logged, nowMs < saturatingAdd t w.intervalMs

/-- The values written belong to the warnings, in their order, and never fall. -/
structure Inv (w : WarningRateLimit) : Prop where
  written : w.written = 0 :: w.logged.map (saturatingAdd · w.intervalMs)
  ordered : w.written.Pairwise (· ≤ ·)
  spaced : w.logged.Pairwise fun t u ↦ saturatingAdd t w.intervalMs ≤ u
  won : (w.calls.filterMap LogCall.logged?).Perm w.logged
  justified : ∀ call ∈ w.calls, w.Justified call

theorem inv_new (intervalMs : ℕ) : (new intervalMs).Inv where
  written := rfl
  ordered := List.pairwise_singleton _ _
  spaced := .nil
  won := .nil
  justified := fun _ h ↦ absurd h List.not_mem_nil

theorem logged?_test (nowMs next : ℕ) : (LogCall.test nowMs next).logged? = none := by
  rw [LogCall.test]
  split <;> rfl

/-- A value that was read: the call goes on, or was refused because of a warning. -/
theorem Inv.justified_test {w : WarningRateLimit} (h : w.Inv) {k nowMs next : ℕ}
    (hmax : nowMs ≤ u64Max) (hk : w.written[k]? = some next) :
    w.Justified (.test nowMs next) := by
  rw [LogCall.test]
  split
  · rename_i hlt
    have hmem := List.mem_of_getElem? hk
    rw [h.written, List.mem_cons, List.mem_map] at hmem
    obtain rfl | ⟨t, ht, rfl⟩ := hmem
    · exact absurd hlt (Nat.not_lt_zero _)
    · exact ⟨t, ht, hlt⟩
  · rename_i hle
    exact ⟨hmax, Nat.le_of_not_lt hle⟩

/-- A call that has not exchanged reads a value. -/
theorem Inv.read {w : WarningRateLimit} (h : w.Inv) {i k nowMs next : ℕ} {call : LogCall}
    (hi : w.calls[i]? = some call) (hcall : call.logged? = none) (hmax : nowMs ≤ u64Max)
    (hk : w.written[k]? = some next) :
    Inv { w with calls := w.calls.set i (.test nowMs next) } where
  written := h.written
  ordered := h.ordered
  spaced := h.spaced
  won := by
    show ((w.calls.set i _).filterMap _).Perm w.logged
    rw [Tasks.filterMap_set_eq hi ((logged?_test nowMs next).trans hcall.symm)]
    exact h.won
  justified := Tasks.forall_set h.justified (h.justified_test hmax hk)

/-- The warnings so far are an interval behind a call that exchanges the latest value. -/
theorem Inv.le_of_getLast {w : WarningRateLimit} (h : w.Inv) {next : ℕ}
    (hlast : w.written.getLast? = some next) : ∀ x ∈ w.written, x ≤ next := by
  obtain ⟨front, hfront⟩ := List.getLast?_eq_some_iff.1 hlast
  have hordered := h.ordered
  rw [hfront, List.pairwise_append] at hordered
  intro x hx
  rw [hfront, List.mem_append, List.mem_singleton] at hx
  obtain hx | rfl := hx
  · exact hordered.2.2 x hx next (List.mem_singleton_self _)
  · exact le_rfl

theorem le_saturatingAdd {nowMs : ℕ} (hmax : nowMs ≤ u64Max) (intervalMs : ℕ) :
    nowMs ≤ saturatingAdd nowMs intervalMs :=
  le_min (Nat.le_add_right _ _) hmax

/-- A call exchanges the latest value. -/
theorem Inv.exchange {w : WarningRateLimit} (h : w.Inv) {i nowMs next : ℕ}
    (hi : w.calls[i]? = some (.exchanging nowMs next)) (hlast : w.written.getLast? = some next) :
    Inv { w with
      written := w.written ++ [saturatingAdd nowMs w.intervalMs]
      calls := w.calls.set i (.returned nowMs true)
      logged := w.logged ++ [nowMs] } := by
  obtain ⟨hmax, hnext⟩ := h.justified _ (List.mem_of_getElem? hi)
  have hbehind : ∀ x ∈ w.written, x ≤ nowMs := fun x hx ↦ (h.le_of_getLast hlast x hx).trans hnext
  refine ⟨?_, ?_, ?_, ?_, Tasks.forall_set (fun call hcall ↦ ?_) trivial⟩
  · show w.written ++ _ = 0 :: (w.logged ++ [nowMs]).map _
    rw [List.map_append, ← List.cons_append, ← h.written]
    rfl
  · refine List.pairwise_append.2 ⟨h.ordered, List.pairwise_singleton _ _, fun x hx y hy ↦ ?_⟩
    rw [List.mem_singleton.1 hy]
    exact (hbehind x hx).trans (le_saturatingAdd hmax _)
  · refine List.pairwise_append.2 ⟨h.spaced, List.pairwise_singleton _ _, fun t ht u hu ↦ ?_⟩
    rw [List.mem_singleton.1 hu]
    refine hbehind _ ?_
    rw [h.written]
    exact List.mem_cons_of_mem _ (List.mem_map_of_mem ht)
  · have hnew : (LogCall.returned nowMs true).logged? = some nowMs := rfl
    exact (Tasks.filterMap_set_perm hi rfl hnew).trans (h.won.append_right _)
  · have hold := h.justified call hcall
    match call with
    | .loading _ => exact hold
    | .exchanging _ _ => exact hold
    | .returned _ true => trivial
    | .returned _ false =>
      obtain ⟨t, ht, hlt⟩ := hold
      exact ⟨t, List.mem_append_left _ ht, hlt⟩

theorem Inv.step {w w' : WarningRateLimit} {a : LogAction} (h : w.Inv)
    (hstep : machine.step w a = some w') : w'.Inv := by
  cases step_of_machine hstep with
  | call hmax =>
    refine ⟨h.written, h.ordered, h.spaced, ?_, ?_⟩
    · show ((w.calls ++ [_]).filterMap _).Perm w.logged
      rw [List.filterMap_append]
      exact (List.append_nil _).symm ▸ h.won
    · rw [List.forall_mem_append, List.forall_mem_singleton]
      exact ⟨h.justified, hmax⟩
  | load hi hk => exact h.read hi rfl (h.justified _ (List.mem_of_getElem? hi)) hk
  | exchange hi hlast => exact h.exchange hi hlast
  | fail hi hk => exact h.read hi rfl (h.justified _ (List.mem_of_getElem? hi)).1 hk

/-- Two warnings in one interval would both have exchanged the value of the first. -/
theorem Inv.countP_window {w : WarningRateLimit} (h : w.Inv) {a : ℕ}
    (ha : a + w.intervalMs ≤ u64Max) :
    w.logged.countP (fun t ↦ a ≤ t ∧ t < a + w.intervalMs) ≤ 1 := by
  rw [List.countP_eq_length_filter]
  have hpair := h.spaced.filter (p := fun t ↦ decide (a ≤ t ∧ t < a + w.intervalMs))
  have hmem : ∀ t ∈ w.logged.filter (fun t ↦ decide (a ≤ t ∧ t < a + w.intervalMs)),
      a ≤ t ∧ t < a + w.intervalMs := fun t ht ↦ of_decide_eq_true (List.mem_filter.1 ht).2
  match w.logged.filter (fun t ↦ decide (a ≤ t ∧ t < a + w.intervalMs)), hpair, hmem with
  | [], _, _ => exact Nat.zero_le _
  | [_], _, _ => exact le_rfl
  | t :: u :: _, hpair, hmem =>
    have hle := List.rel_of_pairwise_cons hpair (List.mem_cons_self)
    have ht := hmem t List.mem_cons_self
    have hu := hmem u (List.mem_cons_of_mem _ List.mem_cons_self)
    rw [saturatingAdd] at hle
    omega

/-- What a log reader may rely on: the warnings are those of the calls that returned `true`, they
are an interval apart, no interval of the clock has two, and a call is refused only because of one
that is less than an interval back. -/
structure Spaced (w : WarningRateLimit) : Prop where
  won : (w.calls.filterMap LogCall.logged?).Perm w.logged
  apart : w.logged.Pairwise fun t u ↦ saturatingAdd t w.intervalMs ≤ u
  window : ∀ a, a + w.intervalMs ≤ u64Max →
    w.logged.countP (fun t ↦ a ≤ t ∧ t < a + w.intervalMs) ≤ 1
  refused : ∀ nowMs, .returned nowMs false ∈ w.calls → ∃ t ∈ w.logged, nowMs < t + w.intervalMs

/-- **Warnings keep their distance.** However the calls of `should_log` interleave, whatever old
values their relaxed loads return and however often an exchange fails for no reason. -/
theorem warnings_spaced {intervalMs : ℕ} {as : List LogAction} {w : WarningRateLimit}
    (hrun : machine.run (new intervalMs) as = some w) : w.Spaced := by
  have h : w.Inv := Machine.run_invariant (fun _ _ _ h hstep ↦ h.step hstep) hrun
    (inv_new intervalMs)
  refine ⟨h.won, h.spaced, fun a ha ↦ h.countP_window ha, fun nowMs hcall ↦ ?_⟩
  obtain ⟨t, ht, hlt⟩ := h.justified _ hcall
  exact ⟨t, ht, hlt.trans_le (min_le_left _ _)⟩

/-- Two calls read the same value; one exchanges it, the other is refused. -/
theorem warnings_spaced_race :
    machine.run (new 60000) [.call 5, .call 7, .load 0 0, .load 1 0, .exchange 0, .fail 1 1] =
      some ⟨60000, [0, 60005], [.returned 5 true, .returned 7 false], [5]⟩ ∧
    Spaced ⟨60000, [0, 60005], [.returned 5 true, .returned 7 false], [5]⟩ := by
  have hrun : machine.run (new 60000)
      [.call 5, .call 7, .load 0 0, .load 1 0, .exchange 0, .fail 1 1] =
        some ⟨60000, [0, 60005], [.returned 5 true, .returned 7 false], [5]⟩ := by decide
  exact ⟨hrun, warnings_spaced hrun⟩

end WarningRateLimit

/-! ### The warnings of the recorder -/

/-- How `try_send` comes back. -/
inductive SendResult
  | ok | full | closed
deriving DecidableEq

/-- `mpsc::Sender::try_send`: a closed channel is reported as closed, be it full or not. -/
def sendResult {ε : Type*} (c : Channel ε) (e : ε) : SendResult × Channel ε :=
  match c.trySend e with
  | some c' => (.ok, c')
  | none => (if c.rxClosed then .closed else .full, c)

/-- A `Recorder` with its clones, which share the channel and the flags, and the calls of
`try_record`. -/
structure RecorderWorld where
  channel : Channel QueryEvent
  fullLogged : Bool
  closedLogged : Bool
  /-- The results of the sends, in the order of the sends. -/
  sent : List SendResult
  /-- The calls that have sent and not yet looked at their flag. -/
  pending : List SendResult
  /-- The results that were dealt with, in this order, and whether a warning was written. -/
  handled : List (SendResult × Bool)
deriving DecidableEq

/-- A step of one of the calls, or of the receiver. -/
inductive RecorderAction
  /-- A call of `try_record` sends. -/
  | trySend (event : QueryEvent)
  /-- The `i`-th of the calls that have sent deals with the result. -/
  | finish (i : ℕ)
  /-- The worker receives an event. -/
  | recv
  /-- The worker closes the channel. -/
  | close
deriving DecidableEq

namespace RecorderWorld

/-- A recorder on a channel: `Recorder::channel`, and `Recorder::disabled` on a closed one. -/
def new (channel : Channel QueryEvent) : RecorderWorld := ⟨channel, false, false, [], [], []⟩

/-- What `try_record` does with the result of its send. -/
def finish (w : RecorderWorld) : SendResult → RecorderWorld
  | .ok => { w with fullLogged := false, handled := w.handled ++ [(.ok, false)] }
  | .full => { w with fullLogged := true, handled := w.handled ++ [(.full, !w.fullLogged)] }
  | .closed => { w with closedLogged := true, handled := w.handled ++ [(.closed, !w.closedLogged)] }

/-- The calls of `try_record` as a machine. -/
def machine : Machine RecorderWorld RecorderAction where
  step w
    | .trySend event =>
      let (result, channel) := sendResult w.channel event
      some { w with channel := channel, sent := w.sent ++ [result],
                    pending := w.pending ++ [result] }
    | .finish i =>
      w.pending[i]?.map fun result ↦ { w with pending := w.pending.eraseIdx i }.finish result
    | .recv => w.channel.recv.map fun received ↦ { w with channel := received.2 }
    | .close => some { w with channel := w.channel.close }

/-! #### What is counted -/

/-- The events that the queue has accepted. -/
def accepted (w : RecorderWorld) : ℕ := w.sent.count .ok

/-- The accepted events whose call has not reset the flag yet. -/
def late (w : RecorderWorld) : ℕ := w.pending.count .ok

/-- The accepted events whose call has reset the flag. -/
def reset (w : RecorderWorld) : ℕ := (w.handled.map Prod.fst).count .ok

/-- The refusals by a full queue that were dealt with. -/
def refused (w : RecorderWorld) : ℕ := (w.handled.map Prod.fst).count .full

/-- How often a full queue was announced. -/
def fullWarnings (w : RecorderWorld) : ℕ := w.handled.count (.full, true)

/-- How often a closed queue was announced. -/
def closedWarnings (w : RecorderWorld) : ℕ := w.handled.count (.closed, true)

/-- The announcements of a full queue, with the one that the flag still allows. -/
def chances (w : RecorderWorld) : ℕ := w.fullWarnings + if w.fullLogged then 0 else 1

/-- When a warning is due after these results: `closed_logged` is a flag of its own. -/
def Due (before : List SendResult) : SendResult → Prop
  | .ok => False
  | .full => (before.filter (· ≠ .closed)).getLast? ≠ some .full
  | .closed => .closed ∉ before

/-- The flags say what was dealt with last, every result is dealt with or waits for it, and the
warnings are those that were due. -/
structure Inv (w : RecorderWorld) : Prop where
  full : w.fullLogged = true ↔
    ((w.handled.map Prod.fst).filter (· ≠ .closed)).getLast? = some .full
  closed : w.closedLogged = true ↔ .closed ∈ w.handled.map Prod.fst
  sent : (w.handled.map Prod.fst ++ w.pending).Perm w.sent
  due : ∀ n result warned, w.handled[n]? = some (result, warned) →
    (warned = true ↔ Due ((w.handled.take n).map Prod.fst) result)
  closedCount : w.closedWarnings = if w.closedLogged then 1 else 0

theorem inv_new (channel : Channel QueryEvent) : (new channel).Inv where
  full := by simp [new]
  closed := by simp [new]
  sent := List.Perm.refl _
  due := by simp [new]
  closedCount := rfl

/-- An accepted event is one whose flag has been reset, or late. -/
theorem Inv.reset_add_late {w : RecorderWorld} (h : w.Inv) : w.reset + w.late = w.accepted := by
  rw [reset, late, ← List.count_append, h.sent.count_eq, accepted]

theorem map_fst_finish (w : RecorderWorld) (result : SendResult) :
    (w.finish result).handled.map Prod.fst = w.handled.map Prod.fst ++ [result] := by
  cases result <;> simp [finish]

theorem finish_sent (w : RecorderWorld) (result : SendResult) :
    (w.finish result).sent = w.sent ∧ (w.finish result).pending = w.pending := by
  cases result <;> exact ⟨rfl, rfl⟩

/-- One more result is dealt with. -/
theorem due_append {handled : List (SendResult × Bool)} {result : SendResult} {warned : Bool}
    (h : ∀ n result warned, handled[n]? = some (result, warned) →
      (warned = true ↔ Due ((handled.take n).map Prod.fst) result))
    (hnew : warned = true ↔ Due (handled.map Prod.fst) result) :
    ∀ n result' warned', (handled ++ [(result, warned)])[n]? = some (result', warned') →
      (warned' = true ↔ Due (((handled ++ [(result, warned)]).take n).map Prod.fst) result') := by
  intro n result' warned' hn
  have hle : n < handled.length + 1 := by
    simpa using (List.getElem?_eq_some_iff.1 hn).1
  obtain hlt | rfl := Nat.lt_or_eq_of_le (Nat.le_of_lt_succ hle)
  · rw [List.getElem?_append_left hlt] at hn
    rw [List.take_append_of_le_length hlt.le]
    exact h n result' warned' hn
  · rw [List.getElem?_concat_length, Option.some.injEq, Prod.mk.injEq] at hn
    obtain ⟨rfl, rfl⟩ := hn
    rw [List.take_left]
    exact hnew

/-- The flags and the warnings after one more result. -/
theorem Inv.finish {w : RecorderWorld} {i : ℕ} {result : SendResult} (h : w.Inv)
    (hi : w.pending[i]? = some result) :
    ({ w with pending := w.pending.eraseIdx i }.finish result).Inv where
  full := by
    rw [map_fst_finish, List.filter_append]
    cases result with
    | ok => exact iff_of_false Bool.false_ne_true (by simp)
    | full => exact iff_of_true rfl (by simp)
    | closed =>
      rw [List.filter_singleton, decide_eq_false (not_not_intro rfl), cond_false, List.append_nil]
      exact h.full
  closed := by
    rw [map_fst_finish, List.mem_append, List.mem_singleton]
    cases result with
    | ok => exact h.closed.trans (or_iff_left (by decide)).symm
    | full => exact h.closed.trans (or_iff_left (by decide)).symm
    | closed => exact iff_of_true rfl (Or.inr rfl)
  sent := by
    obtain ⟨hlt, rfl⟩ := List.getElem?_eq_some_iff.1 hi
    rw [map_fst_finish, (finish_sent _ _).1, (finish_sent _ _).2, List.append_assoc]
    exact ((List.perm_append_left_iff _).2 (List.getElem_cons_eraseIdx_perm hlt)).trans h.sent
  due := by
    cases result with
    | ok => exact due_append h.due (iff_of_false (by decide) id)
    | full =>
      refine due_append h.due ?_
      rw [Due, Ne, ← not_iff_not.2 h.full, Bool.not_eq_true, Bool.not_eq_true']
    | closed =>
      refine due_append h.due ?_
      rw [Due, ← not_iff_not.2 h.closed, Bool.not_eq_true, Bool.not_eq_true']
  closedCount := by
    have hcount := h.closedCount
    cases result <;>
      simp only [closedWarnings, RecorderWorld.finish, List.count_append,
        List.count_singleton] at hcount ⊢
    · exact hcount
    · exact hcount
    · cases hlogged : w.closedLogged <;> simp [hlogged] at hcount ⊢ <;> omega

theorem Inv.step {w w' : RecorderWorld} {a : RecorderAction} (h : w.Inv)
    (hstep : machine.step w a = some w') : w'.Inv := by
  cases a with
  | trySend event =>
    cases hstep
    exact ⟨h.full, h.closed, by rw [← List.append_assoc]; exact h.sent.append_right _, h.due,
      h.closedCount⟩
  | finish i =>
    obtain ⟨result, hi, rfl⟩ := Option.map_eq_some_iff.1 hstep
    exact h.finish hi
  | recv =>
    obtain ⟨received, -, rfl⟩ := Option.map_eq_some_iff.1 hstep
    exact ⟨h.full, h.closed, h.sent, h.due, h.closedCount⟩
  | close =>
    cases hstep
    exact ⟨h.full, h.closed, h.sent, h.due, h.closedCount⟩

theorem inv_of_run {channel : Channel QueryEvent} {as : List RecorderAction} {w : RecorderWorld}
    (hrun : machine.run (new channel) as = some w) : w.Inv :=
  Machine.run_invariant (fun _ _ _ h hstep ↦ h.step hstep) hrun (inv_new channel)

/-! #### Two states of a run -/

/-- What a run may change: each reset of the flag gives one more chance to announce a full queue;
without one, the flag goes up with the first refusal, which takes the chance that there was. With
the flag down, the first refusal is announced. -/
structure Between (w w' : RecorderWorld) : Prop where
  reset : w.reset ≤ w'.reset
  refused : w.refused ≤ w'.refused
  warnings : w.fullWarnings ≤ w'.fullWarnings
  chances : w'.chances + w.reset ≤ w.chances + w'.reset
  still : w'.reset = w.reset → w'.chances = w.chances ∧
    (w'.fullLogged = true ↔ w.fullLogged = true ∨ w.refused < w'.refused)
  down : w.fullLogged = false → w'.refused = w.refused → w'.fullLogged = false
  first : w.fullLogged = false → w.refused < w'.refused → w.fullWarnings < w'.fullWarnings

theorem Between.refl (w : RecorderWorld) : w.Between w where
  reset := le_rfl
  refused := le_rfl
  warnings := le_rfl
  chances := le_rfl
  still _ := ⟨rfl, (or_iff_left (lt_irrefl _)).symm⟩
  down hdown _ := hdown
  first _ hlt := absurd hlt (lt_irrefl _)

theorem Between.trans {w w' w'' : RecorderWorld} (h : w.Between w') (h' : w'.Between w'') :
    w.Between w'' where
  reset := h.reset.trans h'.reset
  refused := h.refused.trans h'.refused
  warnings := h.warnings.trans h'.warnings
  chances := by
    have hfirst := h.chances
    have hsecond := h'.chances
    omega
  still heq := by
    have hfirst := h.reset
    have hsecond := h'.reset
    obtain ⟨hchances, hflag⟩ := h.still (by omega)
    obtain ⟨hchances', hflag'⟩ := h'.still (by omega)
    have hrefused := h.refused
    have hrefused' := h'.refused
    refine ⟨hchances'.trans hchances, hflag'.trans ?_⟩
    rw [hflag, or_assoc]
    exact or_congr_right (by omega)
  down hdown heq := by
    have hfirst := h.refused
    have hsecond := h'.refused
    exact h'.down (h.down hdown (by omega)) (by omega)
  first hdown hlt := by
    obtain hfirst | hfirst := h.refused.eq_or_lt
    · have hrest := h'.first (h.down hdown hfirst.symm) (by omega)
      exact h.warnings.trans_lt hrest
    · exact (h.first hdown hfirst).trans_le h'.warnings

/-- What happens to the channel and to the calls in between is not announced. -/
theorem Between.of_handled {w w' w'' : RecorderWorld} (h : w.Between w')
    (hlogged : w''.fullLogged = w'.fullLogged) (hhandled : w''.handled = w'.handled) :
    w.Between w'' := by
  have hreset : w''.reset = w'.reset := by rw [RecorderWorld.reset, hhandled, RecorderWorld.reset]
  have hrefused : w''.refused = w'.refused := by
    rw [RecorderWorld.refused, hhandled, RecorderWorld.refused]
  have hwarnings : w''.fullWarnings = w'.fullWarnings := by
    rw [fullWarnings, hhandled, fullWarnings]
  have hchances : w''.chances = w'.chances := by
    rw [RecorderWorld.chances, hwarnings, hlogged, RecorderWorld.chances]
  refine ⟨by rw [hreset]; exact h.reset, by rw [hrefused]; exact h.refused,
    by rw [hwarnings]; exact h.warnings, by rw [hchances, hreset]; exact h.chances,
    fun heq ↦ ?_, fun hdown heq ↦ ?_, fun hdown hlt ↦ ?_⟩
  · rw [hchances, hlogged, hrefused]
    exact h.still (hreset ▸ heq)
  · rw [hlogged]
    exact h.down hdown (hrefused ▸ heq)
  · rw [hwarnings]
    exact h.first hdown (hrefused ▸ hlt)

theorem reset_finish (w : RecorderWorld) (result : SendResult) :
    (w.finish result).reset = w.reset + if result = .ok then 1 else 0 := by
  rw [reset, map_fst_finish, List.count_append, List.count_singleton, reset]
  cases result <;> rfl

theorem refused_finish (w : RecorderWorld) (result : SendResult) :
    (w.finish result).refused = w.refused + if result = .full then 1 else 0 := by
  rw [refused, map_fst_finish, List.count_append, List.count_singleton, refused]
  cases result <;> rfl

/-- A full queue is announced if the flag is down. -/
theorem fullWarnings_finish (w : RecorderWorld) (result : SendResult) :
    (w.finish result).fullWarnings =
      w.fullWarnings + if result = .full ∧ w.fullLogged = false then 1 else 0 := by
  cases result <;> cases hlogged : w.fullLogged <;> simp [fullWarnings, finish, hlogged]

/-- An accepted event resets the flag, a full queue spends the chance, and a closed one has a flag
of its own. -/
theorem chances_finish (w : RecorderWorld) (result : SendResult) :
    (w.finish result).chances =
      w.chances + if result = .ok ∧ w.fullLogged = true then 1 else 0 := by
  rw [chances, fullWarnings_finish, chances]
  cases result <;> cases hlogged : w.fullLogged <;> simp [finish, hlogged]

theorem Between.finish_ok {w w' : RecorderWorld} (h : w.Between w') :
    w.Between (w'.finish .ok) := by
  have hreset : (w'.finish .ok).reset = w'.reset + 1 := reset_finish w' .ok
  have hrefused : (w'.finish .ok).refused = w'.refused := refused_finish w' .ok
  have hwarnings : (w'.finish .ok).fullWarnings = w'.fullWarnings := by
    rw [fullWarnings_finish, if_neg (by simp), Nat.add_zero]
  have hmore : (w'.finish .ok).chances ≤ w'.chances + 1 := by
    rw [chances_finish]
    split <;> omega
  have hbefore := h.reset
  have hchances := h.chances
  exact ⟨by omega, hrefused ▸ h.refused, hwarnings ▸ h.warnings, by omega,
    -- The flag has been reset since.
    fun heq ↦ by omega, fun _ _ ↦ rfl,
    fun hdown hlt ↦ hwarnings ▸ h.first hdown (hrefused ▸ hlt)⟩

theorem Between.finish_full {w w' : RecorderWorld} (h : w.Between w') :
    w.Between (w'.finish .full) := by
  have hreset : (w'.finish .full).reset = w'.reset := reset_finish w' .full
  have hrefused : (w'.finish .full).refused = w'.refused + 1 := refused_finish w' .full
  have hchances : (w'.finish .full).chances = w'.chances := by
    rw [chances_finish, if_neg (by simp), Nat.add_zero]
  have hwarnings := fullWarnings_finish w' .full
  have hbefore := h.refused
  have hmore := h.warnings
  refine ⟨hreset ▸ h.reset, by omega, by omega, by rw [hchances, hreset]; exact h.chances,
    fun heq ↦ ⟨?_, ?_⟩, fun _ heq ↦ by omega, fun hdown hlt ↦ ?_⟩
  · rw [hchances]
    exact (h.still (hreset ▸ heq)).1
  · exact iff_of_true rfl (Or.inr (by omega))
  · obtain heq | hlt' := hbefore.eq_or_lt
    · -- This is the first one.
      rw [if_pos ⟨rfl, h.down hdown heq.symm⟩] at hwarnings
      omega
    · have hfirst := h.first hdown hlt'
      omega

theorem Between.finish_closed {w w' : RecorderWorld} (h : w.Between w') :
    w.Between (w'.finish .closed) := by
  have hreset : (w'.finish .closed).reset = w'.reset := reset_finish w' .closed
  have hrefused : (w'.finish .closed).refused = w'.refused := refused_finish w' .closed
  have hwarnings : (w'.finish .closed).fullWarnings = w'.fullWarnings := by
    rw [fullWarnings_finish, if_neg (by simp), Nat.add_zero]
  have hchances : (w'.finish .closed).chances = w'.chances := by
    rw [chances_finish, if_neg (by simp), Nat.add_zero]
  refine ⟨hreset ▸ h.reset, hrefused ▸ h.refused, hwarnings ▸ h.warnings,
    by rw [hchances, hreset]; exact h.chances, fun heq ↦ ?_, fun hdown heq ↦ ?_,
    fun hdown hlt ↦ hwarnings ▸ h.first hdown (hrefused ▸ hlt)⟩
  · rw [hchances, hrefused]
    exact h.still (hreset ▸ heq)
  · exact h.down hdown (hrefused ▸ heq)

theorem Between.finish {w w' : RecorderWorld} (h : w.Between w') (result : SendResult) :
    w.Between (w'.finish result) := by
  cases result with
  | ok => exact h.finish_ok
  | full => exact h.finish_full
  | closed => exact h.finish_closed

theorem Between.step {w w' w'' : RecorderWorld} {a : RecorderAction} (h : w.Between w')
    (hstep : machine.step w' a = some w'') : w.Between w'' := by
  cases a with
  | trySend event =>
    cases hstep
    exact h.of_handled rfl rfl
  | finish i =>
    obtain ⟨result, -, rfl⟩ := Option.map_eq_some_iff.1 hstep
    have hrest : w.Between { w' with pending := w'.pending.eraseIdx i } := h.of_handled rfl rfl
    exact hrest.finish result
  | recv =>
    obtain ⟨received, -, rfl⟩ := Option.map_eq_some_iff.1 hstep
    exact h.of_handled rfl rfl
  | close =>
    cases hstep
    exact h.of_handled rfl rfl

theorem between_of_run {as : List RecorderAction} {w w' : RecorderWorld}
    (hrun : machine.run w as = some w') : w.Between w' :=
  Machine.run_invariant (fun _ _ _ h hstep ↦ h.step hstep) hrun (Between.refl w)

/-! #### Outages -/

/-- The queue refuses: it is closed, or it is full. -/
def Refusing (w : RecorderWorld) : Prop :=
  w.channel.rxClosed = true ∨ w.channel.capacity ≤ w.channel.queue.length

instance (w : RecorderWorld) : Decidable w.Refusing :=
  inferInstanceAs (Decidable (_ ∨ _))

/-- A refusing queue accepts nothing, and refuses until the worker receives. -/
theorem Refusing.step {w w' : RecorderWorld} {a : RecorderAction} (h : w.Refusing)
    (hstep : machine.step w a = some w') (ha : a ≠ .recv) :
    w'.Refusing ∧ w'.accepted = w.accepted := by
  cases a with
  | trySend event =>
    cases hstep
    have hnone : w.channel.trySend event = none := by
      rw [Option.eq_none_iff_forall_ne_some]
      intro c hc
      obtain ⟨⟨hopen, hroom⟩, -⟩ := Channel.trySend_eq_some_iff.1 hc
      rcases h with h | h
      · simp [hopen] at h
      · omega
    simp only [hnone, accepted, List.count_append, List.count_singleton]
    exact ⟨h, by split <;> simp⟩
  | finish i =>
    obtain ⟨result, -, rfl⟩ := Option.map_eq_some_iff.1 hstep
    cases result <;> exact ⟨h, rfl⟩
  | recv => exact absurd rfl ha
  | close =>
    cases hstep
    exact ⟨Or.inl rfl, rfl⟩

/-- From a full or closed queue on, no event is accepted until the worker receives. -/
theorem Refusing.accepted_eq {w w' : RecorderWorld} {as : List RecorderAction} (h : w.Refusing)
    (hrun : machine.run w as = some w') (has : .recv ∉ as) : w'.accepted = w.accepted := by
  have hnot : machine.Along (fun _ a ↦ a ≠ .recv) w as := by
    refine Machine.along_of_forall_mem (fun a ha _ ↦ ?_) w
    rintro rfl
    exact has ha
  have hkept : w'.Refusing ∧ w'.accepted = w.accepted := by
    refine Machine.run_invariant_along (I := fun v ↦ v.Refusing ∧ v.accepted = w.accepted)
      (fun u a v hu ha hstep ↦ ?_) hrun hnot ⟨h, rfl⟩
    obtain ⟨hrefusing, heq⟩ := hu.1.step hstep ha
    exact ⟨hrefusing, heq.trans hu.2⟩
  exact hkept.2

/-- What a log reader may rely on in a stretch of a run in which the queue accepts nothing: a full
queue is announced at most once, and once more for each accepted event whose call is late. It is
announced if the flag is down and a refusal is dealt with; without late calls, then once and else
not. -/
structure Outage (w w' : RecorderWorld) : Prop where
  announced : w.fullLogged = false → w.refused < w'.refused → w.fullWarnings < w'.fullWarnings
  bound : w'.fullWarnings ≤ w.fullWarnings + w.late + 1
  flagged : w.fullLogged = true → w'.fullWarnings ≤ w.fullWarnings + w.late
  exact : w.late = 0 → w'.fullWarnings =
    w.fullWarnings + if w.fullLogged = false ∧ w.refused < w'.refused then 1 else 0

theorem Between.outage {w w' : RecorderWorld} (h : w.Between w') (hw : w.Inv) (hw' : w'.Inv)
    (haccepted : w'.accepted = w.accepted) : w.Outage w' := by
  have hsum := hw.reset_add_late
  have hsum' := hw'.reset_add_late
  have hreset := h.reset
  have hchances := h.chances
  rw [RecorderWorld.chances, RecorderWorld.chances] at hchances
  refine ⟨h.first, ?_, fun hlogged ↦ ?_, fun hlate ↦ ?_⟩
  · split at hchances <;> split at hchances <;> omega
  · rw [if_pos hlogged] at hchances
    omega
  · obtain ⟨heq, hflag⟩ := h.still (by omega)
    rw [RecorderWorld.chances, RecorderWorld.chances] at heq
    cases hlogged : w.fullLogged <;> cases hlogged' : w'.fullLogged <;>
      simp [hlogged, hlogged'] at heq hflag ⊢ <;> grind

/-! #### Calls that finish in order -/

/-- Every call deals with its result before a later one does. -/
def InOrder (as : List RecorderAction) : Prop := ∀ i, .finish i ∈ as → i = 0

/-- The results have been dealt with in the order of the sends. -/
def Ordered (w : RecorderWorld) : Prop := w.sent = w.handled.map Prod.fst ++ w.pending

theorem Ordered.step {w w' : RecorderWorld} {a : RecorderAction} (h : w.Ordered)
    (hstep : machine.step w a = some w') (ha : ∀ i, a = .finish i → i = 0) : w'.Ordered := by
  cases a with
  | trySend event =>
    cases hstep
    exact (congrArg (· ++ _) h).trans (List.append_assoc _ _ _)
  | finish i =>
    obtain rfl := ha i rfl
    obtain ⟨result, hi, rfl⟩ := Option.map_eq_some_iff.1 hstep
    rw [← List.head?_eq_getElem?] at hi
    obtain ⟨rest, hpending⟩ := List.head?_eq_some_iff.1 hi
    rw [Ordered, map_fst_finish, (finish_sent _ _).1, (finish_sent _ _).2, List.append_assoc]
    rw [Ordered, hpending] at h
    simpa [hpending] using h
  | recv =>
    obtain ⟨received, -, rfl⟩ := Option.map_eq_some_iff.1 hstep
    exact h
  | close =>
    cases hstep
    exact h

theorem ordered_of_run {as : List RecorderAction} {w w' : RecorderWorld} (h : w.Ordered)
    (hrun : machine.run w as = some w') (has : InOrder as) : w'.Ordered := by
  have hfirst : machine.Along (fun _ a ↦ ∀ i, a = .finish i → i = 0) w as := by
    refine Machine.along_of_forall_mem (fun a ha _ i ↦ ?_) w
    rintro rfl
    exact has i ha
  exact Machine.run_invariant_along (fun _ _ _ h ha hstep ↦ h.step hstep ha) hrun hfirst h

/-- A refusal is announced exactly if none came since the last accepted event or, of a closed queue,
if it is the first: `before` are the results before it. -/
def AnnouncedBy (w : RecorderWorld) (before : ℕ → List SendResult) : Prop :=
  ∀ n result warned, w.handled[n]? = some (result, warned) →
    (warned = true ↔ Due (before n) result)

theorem Inv.announced_in_order {w : RecorderWorld} (h : w.Inv) (hw : w.Ordered) :
    w.AnnouncedBy fun n ↦ w.sent.take n := by
  intro n result warned hn
  have hlt : n < w.handled.length := (List.getElem?_eq_some_iff.1 hn).1
  have htake : w.sent.take n = (w.handled.take n).map Prod.fst := by
    rw [show w.sent = _ from hw, List.take_append_of_le_length (by simpa using hlt.le),
      List.map_take]
  show warned = true ↔ Due (w.sent.take n) result
  rw [htake]
  exact h.due n result warned hn

/-- What a log reader may rely on at any time. -/
structure Announced (w : RecorderWorld) : Prop where
  /-- By the order in which the flags are updated. -/
  due : w.AnnouncedBy fun n ↦ (w.handled.take n).map Prod.fst
  total : w.fullWarnings + w.late ≤ w.accepted + 1
  closed : w.closedWarnings = if .closed ∈ w.handled.map Prod.fst then 1 else 0

theorem Inv.announced {channel : Channel QueryEvent} {w : RecorderWorld} (h : w.Inv)
    (hbetween : (new channel).Between w) : w.Announced where
  due := h.due
  total := by
    have hsum := h.reset_add_late
    have hchances : w.fullWarnings + (if w.fullLogged then 0 else 1) + 0 ≤ 1 + w.reset :=
      hbetween.chances
    omega
  closed := by
    rw [h.closedCount]
    exact if_congr h.closed rfl rfl

/-- **One warning for each outage.** However the calls of `try_record`, their flags and the worker
interleave, on a channel of any capacity, open or closed. -/
theorem warns_once_per_outage {channel : Channel QueryEvent} {before during : List RecorderAction}
    {w w' : RecorderWorld} (hbefore : machine.run (new channel) before = some w)
    (hduring : machine.run w during = some w') :
    w'.Announced ∧ (w'.accepted = w.accepted → w.Outage w') ∧
      (w.Refusing → .recv ∉ during → w'.accepted = w.accepted) ∧
      (InOrder before → w.AnnouncedBy fun n ↦ w.sent.take n) := by
  have hw := inv_of_run hbefore
  have hw' : w'.Inv := Machine.run_invariant (fun _ _ _ h hstep ↦ h.step hstep) hduring hw
  have hbetween := between_of_run hduring
  refine ⟨hw'.announced (Between.trans (between_of_run hbefore) hbetween),
    hbetween.outage hw hw', fun h ↦ h.accepted_eq hduring, fun h ↦ ?_⟩
  have hnew : (new channel).Ordered := rfl
  exact hw.announced_in_order (ordered_of_run hnew hbefore h)

/-- An event of a query for the root. -/
def rootEvent : QueryEvent := ⟨0, [], [], [], 0, false, false, [], none⟩

/-- The call of the accepted event is late: the full queue is announced before the flag is reset and
again after. -/
theorem warns_once_per_outage_late :
    ∃ w w' : RecorderWorld,
      machine.run (new ⟨1, [], 1, false⟩) [.trySend rootEvent] = some w ∧
      machine.run w [.trySend rootEvent, .finish 1, .finish 0, .trySend rootEvent, .finish 0] =
        some w' ∧
      w.accepted = 1 ∧ w.late = 1 ∧ w'.accepted = 1 ∧ w'.fullWarnings = 2 ∧ w.Outage w' := by
  have hbefore : machine.run (new ⟨1, [], 1, false⟩) [.trySend rootEvent] =
      some ⟨⟨1, [rootEvent], 1, false⟩, false, false, [.ok], [.ok], []⟩ := by decide
  have hduring : machine.run ⟨⟨1, [rootEvent], 1, false⟩, false, false, [.ok], [.ok], []⟩
      [.trySend rootEvent, .finish 1, .finish 0, .trySend rootEvent, .finish 0] =
      some ⟨⟨1, [rootEvent], 1, false⟩, true, false, [.ok, .full, .full], [],
        [(.full, true), (.ok, false), (.full, true)]⟩ := by decide
  obtain ⟨-, houtage, hrefusing, -⟩ := warns_once_per_outage hbefore hduring
  have haccepted := hrefusing (by decide) (by decide)
  exact ⟨_, _, hbefore, hduring, by decide, by decide, haccepted, by decide, houtage haccepted⟩

end RecorderWorld

end DnsBuffer
