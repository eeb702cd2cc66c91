import DnsBuffer.Dashboard.Deadline
import DnsBuffer.Foundation.Semaphore
import DnsBuffer.Foundation.Tasks

/-!
# The permits of the dashboard reads

All requests that read the database share one semaphore, `HttpState::database_reads`. A request
waits for a permit until its deadline, moves the permit into the closure of a blocking task, and
stops waiting for the task at the deadline. The closure drops the permit when it ends, whoever still
waits for its task, so that the semaphore bounds the threads that are at the database, and not the
requests.

The pool below is any number of requests, each of them the machine of one request
(`ReadCall.machine`), around a semaphore of which nothing is known but its laws
(`LawfulSemaphore`). What others may see in between is a step of its own: a request that has timed
out or was dropped by the server lets go of its acquisition later, and a task that has returned or
crashed drops its permit before the request can see that it has.
-/

namespace DnsBuffer

/-- A request of the pool. -/
structure PooledCall (ν : Type) where
  call : ReadCall ν
  /-- The server has dropped it. -/
  dropped : Bool
  /-- Its acquisition is with the semaphore. -/
  acquiring : Bool
  /-- The closure of its task owns a permit. -/
  owns : Bool

namespace PooledCall

variable {ν : Type}

/-- `database_operation` is called. -/
def start (ν : Type) (now timeout : ℕ) : PooledCall ν :=
  ⟨ReadCall.start ν now timeout, false, false, false⟩

/-- The clock of the request. -/
def advance (elapsed : ℕ) (c : PooledCall ν) : PooledCall ν :=
  { c with call := { c.call with now := c.call.now + elapsed } }

/-- Nothing is left to be done for the request but to drop what it has: it is answered or dropped,
and its task is over. -/
def Over (c : PooledCall ν) : Prop :=
  (c.dropped = true ∨ c.call.client.IsDone) ∧ ¬c.call.reader.Active

end PooledCall

/-- The semaphore and all requests. Requests are known by the order of their calls, and an
acquisition by its request. -/
structure ReadPool (σ : Type) (ν : Type) where
  now : ℕ
  permits : σ
  calls : List (PooledCall ν)

/-- A step of the pool. -/
inductive PoolAction (ν : Type)
  | tick (elapsed : ℕ)
  /-- `database_operation` is called. -/
  | enter (timeout : ℕ)
  | fire (i : ℕ)
  | thread (i : ℕ) (action : ThreadAction ν)
  | poll (i : ℕ)
  /-- The server drops a request. -/
  | drop (i : ℕ)
  /-- The acquisition of a request that needs no permit any more is dropped. -/
  | letGo (i : ℕ)
  /-- The closure of a task drops its permit. -/
  | dropPermit (i : ℕ)

namespace ReadPool

open Semaphore

variable {σ ν : Type} [Semaphore σ]

/-- A semaphore with all its permits. -/
def start (σ ν : Type) [Semaphore σ] (now capacity : ℕ) : ReadPool σ ν := ⟨now, new capacity, []⟩

/-- The first poll of an acquisition hands it to the semaphore. -/
def asked (p : ReadPool σ ν) (i : ℕ) (c : PooledCall ν) : σ :=
  if c.acquiring then p.permits else acquire p.permits i

/-- A poll of a request that waits for a permit. One that finds a permit moves it into the closure
of the task; any other looks at the timer. -/
def pollAcquire (p : ReadPool σ ν) (i : ℕ) (c : PooledCall ν) : Option (ReadPool σ ν) :=
  if i ∈ (view (p.asked i c)).assigned then
    { c.call with permit := .granted }.poll.map fun call ↦
      { p with
        permits := take (p.asked i c) i
        calls := p.calls.set i { c with call := call, acquiring := false, owns := true } }
  else some { p with
    permits := p.asked i c
    calls := p.calls.set i { c with call := c.call.wait, acquiring := true } }

/-- A poll of a request that waits for its task, which has not ended before its permit is
dropped. -/
def pollHandle (p : ReadPool σ ν) (i : ℕ) (c : PooledCall ν) : Option (ReadPool σ ν) :=
  (if c.owns then some c.call.wait else c.call.poll).map fun call ↦
    { p with calls := p.calls.set i { c with call := call } }

/-- The pool as a machine. -/
def machine (σ ν : Type) [Semaphore σ] : Machine (ReadPool σ ν) (PoolAction ν) where
  step p
    | .tick elapsed =>
      some { p with now := p.now + elapsed, calls := p.calls.map (PooledCall.advance elapsed) }
    | .enter timeout => some { p with calls := p.calls ++ [PooledCall.start ν p.now timeout] }
    | .fire i => do
      let c ← p.calls[i]?
      if c.dropped then none
      else
        let call ← (ReadCall.machine ν).step c.call .fire
        return { p with calls := p.calls.set i { c with call := call } }
    | .thread i action => do
      let c ← p.calls[i]?
      let call ← (ReadCall.machine ν).step c.call (.thread action)
      return { p with calls := p.calls.set i { c with call := call } }
    | .poll i => do
      let c ← p.calls[i]?
      if c.dropped then none
      else match c.call.client with
        | .acquiring => p.pollAcquire i c
        | .reading => p.pollHandle i c
        | .done _ _ => none
    | .drop i => p.calls[i]?.map fun c ↦
        { p with calls := p.calls.set i { c with dropped := true } }
    | .letGo i => do
      let c ← p.calls[i]?
      if c.acquiring ∧ (c.dropped ∨ c.call.client.IsDone) then
        some { p with permits := cancel p.permits i
                      calls := p.calls.set i { c with acquiring := false } }
      else none
    | .dropPermit i => do
      let c ← p.calls[i]?
      if c.owns ∧ ¬c.call.reader.Active then
        some { p with permits := release p.permits
                      calls := p.calls.set i { c with owns := false } }
      else none

/-! ### One request -/

/-- A request that waits for a permit has no task yet, and a task that is on its way has a
permit. -/
structure CallInv (c : PooledCall ν) : Prop where
  idle : c.call.client = .acquiring ∨ c.acquiring = true → c.call.reader = .idle
  owned : c.call.reader.Active → c.owns = true
  spawned : c.owns = true → c.call.reader ≠ .idle

theorem callInv_start (now timeout : ℕ) : CallInv (PooledCall.start ν now timeout) where
  idle _ := rfl
  owned hactive := hactive.elim
  spawned howns := by cases howns

/-- A step of the request or of its task that the semaphore has no part in. -/
structure Quiet (old new : PooledCall ν) : Prop where
  acquiring : new.acquiring = old.acquiring
  owns : new.owns = old.owns
  client : new.call.client = .acquiring → old.call.client = .acquiring
  idle : new.call.reader = .idle ↔ old.call.reader = .idle
  active : new.call.reader.Active → old.call.reader.Active

theorem CallInv.quiet {old new : PooledCall ν} (h : CallInv old) (hquiet : Quiet old new) :
    CallInv new where
  idle hnew := hquiet.idle.2 <| h.idle <| hnew.imp hquiet.client fun hacquiring ↦
    hquiet.acquiring ▸ hacquiring
  owned hactive := hquiet.owns.trans (h.owned (hquiet.active hactive))
  spawned howns := fun hidle ↦ h.spawned (hquiet.owns ▸ howns) (hquiet.idle.1 hidle)

/-- The clock, the timer and the answer leave the task alone. -/
theorem quiet_of_reader {c : PooledCall ν} {call : ReadCall ν}
    (hreader : call.reader = c.call.reader)
    (hclient : call.client = .acquiring → c.call.client = .acquiring) :
    Quiet c { c with call := call } where
  acquiring := rfl
  owns := rfl
  client := hclient
  idle := by rw [hreader]
  active := by rw [hreader]; exact id

theorem quiet_answer (c : PooledCall ν) (result : Except DashboardReadError ν) :
    Quiet c { c with call := c.call.answer result } := quiet_of_reader rfl (by rintro ⟨⟩)

theorem quiet_wait (c : PooledCall ν) : Quiet c { c with call := c.call.wait } := by
  rw [ReadCall.wait]
  split_ifs
  · exact quiet_answer c _
  · exact quiet_of_reader rfl id

theorem quiet_thread {c : PooledCall ν} {action : ThreadAction ν} {reader : BlockingRead ν}
    (h : c.call.reader.step c.call.deadline c.call.now action = some reader) :
    Quiet c { c with call := { c.call with reader := reader } } := by
  obtain ⟨hactive, hafter⟩ := BlockingRead.step_cases h
  refine ⟨rfl, rfl, id, iff_of_false ?_ ?_, fun _ ↦ hactive⟩
  · rintro (rfl : reader = .idle)
    obtain ⟨hidle, -⟩ | ⟨-, ⟨⟩⟩ | ⟨⟨⟩⟩ | ⟨-, -, -, ⟨⟩⟩ := hafter
    exact hidle
  · intro hidle
    rw [hidle] at hactive
    exact hactive

/-- A poll of a request that waits for its task. -/
theorem quiet_poll {c : PooledCall ν} {call : ReadCall ν} (hclient : c.call.client = .reading)
    (h : c.call.poll = some call) : Quiet c { c with call := call } := by
  obtain ⟨hacquiring, -⟩ | ⟨hacquiring, -⟩ | ⟨result, -, -, rfl⟩ | ⟨-, -, rfl⟩ | ⟨-, -, rfl⟩ :=
    ReadCall.poll_cases h
  · cases hclient.symm.trans hacquiring
  · cases hclient.symm.trans hacquiring
  · exact quiet_answer c _
  · exact quiet_answer c _
  · exact quiet_wait c

/-- How many permits are out after a step of request `i`. -/
theorem countP_owns_set {calls : List (PooledCall ν)} {i : ℕ} {c : PooledCall ν}
    (hi : calls[i]? = some c) (d : PooledCall ν) :
    (calls.set i d).countP (·.owns) + (if c.owns then 1 else 0) =
      calls.countP (·.owns) + (if d.owns then 1 else 0) := Tasks.countP_set hi d

/-! ### The books of the pool -/

/-- The permits that are out are those of the tasks, and the acquisitions are those of the
requests. -/
structure Balanced (capacity : ℕ) (p : ReadPool σ ν) : Prop where
  calls : ∀ c ∈ p.calls, CallInv c
  books : (view p.permits).Books capacity (p.calls.countP (·.owns))
  tickets : ∀ k, k ∈ (view p.permits).tickets ↔
    ∃ c, p.calls[k]? = some c ∧ c.acquiring = true

variable {capacity i : ℕ} {p p' : ReadPool σ ν} {c : PooledCall ν}

theorem Balanced.mem_tickets_iff (h : p.Balanced capacity) (hi : p.calls[i]? = some c) :
    i ∈ (view p.permits).tickets ↔ c.acquiring = true := by
  rw [h.tickets, hi]
  simp

/-- Request `i` moves on, and the semaphore with it. -/
theorem Balanced.set (h : p.Balanced capacity) (hi : p.calls[i]? = some c) {d : PooledCall ν}
    (hnew : CallInv d) {permits : σ}
    (hbooks : (view permits).Books capacity ((p.calls.set i d).countP (·.owns)))
    (hself : i ∈ (view permits).tickets ↔ d.acquiring = true)
    (hothers : ∀ k, k ≠ i → (k ∈ (view permits).tickets ↔ k ∈ (view p.permits).tickets)) :
    Balanced capacity { p with permits := permits, calls := p.calls.set i d } where
  calls := Tasks.forall_set h.calls hnew
  books := hbooks
  tickets k := by
    obtain rfl | hne := eq_or_ne k i
    · rw [hself, List.getElem?_set_self (List.getElem?_eq_some_iff.1 hi).1]
      simp
    · rw [hothers k hne, h.tickets, List.getElem?_set_ne hne.symm]

theorem Balanced.quiet (h : p.Balanced capacity) (hi : p.calls[i]? = some c) {c' : PooledCall ν}
    (hquiet : Quiet c c') : Balanced capacity { p with calls := p.calls.set i c' } := by
  have hcount := countP_owns_set hi c'
  rw [hquiet.owns, Nat.add_right_cancel_iff] at hcount
  refine h.set hi ((h.calls c (List.mem_of_getElem? hi)).quiet hquiet) ?_ ?_ fun k _ ↦ Iff.rfl
  · rw [hcount]
    exact h.books
  · rw [h.mem_tickets_iff hi, hquiet.acquiring]

theorem Balanced.pollHandle (h : p.Balanced capacity) (hi : p.calls[i]? = some c)
    (hclient : c.call.client = .reading) (hstep : p.pollHandle i c = some p') :
    p'.Balanced capacity := by
  obtain ⟨call, hcall, rfl⟩ := Option.map_eq_some_iff.1 hstep
  split at hcall
  · obtain rfl := Option.some.inj hcall
    exact h.quiet hi (quiet_wait c)
  · exact h.quiet hi (quiet_poll hclient hcall)

theorem Balanced.tick (h : p.Balanced capacity) (elapsed : ℕ) :
    Balanced capacity
      { p with now := p.now + elapsed, calls := p.calls.map (PooledCall.advance elapsed) } where
  calls c hc := by
    obtain ⟨c, hmem, rfl⟩ := List.mem_map.1 hc
    exact (h.calls c hmem).quiet (quiet_of_reader rfl id)
  books := by
    rw [List.countP_map]
    exact h.books
  tickets k := by
    rw [h.tickets, List.getElem?_map]
    cases p.calls[k]? <;> simp [PooledCall.advance]

theorem Balanced.enter (h : p.Balanced capacity) (timeout : ℕ) :
    Balanced capacity { p with calls := p.calls ++ [PooledCall.start ν p.now timeout] } where
  calls := by
    rw [List.forall_mem_append, List.forall_mem_singleton]
    exact ⟨h.calls, callInv_start p.now timeout⟩
  books := by
    have hnew : (PooledCall.start ν p.now timeout).owns = false := rfl
    rw [List.countP_append, List.countP_singleton, hnew, if_neg Bool.false_ne_true]
    exact h.books
  tickets k := by
    rw [h.tickets, Tasks.exists_append, or_iff_left fun hnew ↦ Bool.false_ne_true hnew.2]

section Lawful

variable [LawfulSemaphore σ]

theorem balanced_start (now capacity : ℕ) : (start σ ν now capacity).Balanced capacity where
  calls := by simp [start]
  books := by
    show (view (new capacity : σ)).Books capacity 0
    exact books_new capacity
  tickets k := by
    rw [start, LawfulSemaphore.view_new, SemaphoreView.mem_tickets]
    simp

/-- The semaphore once the acquisition of request `i` has been polled. -/
theorem Balanced.asked (h : p.Balanced capacity) (hi : p.calls[i]? = some c) :
    (view (p.asked i c)).Books capacity (p.calls.countP (·.owns)) ∧
      ∀ k, k ∈ (view (p.asked i c)).tickets ↔ k = i ∨ k ∈ (view p.permits).tickets := by
  rw [ReadPool.asked]
  have hmem := h.mem_tickets_iff hi
  by_cases hacquiring : c.acquiring = true
  · rw [if_pos hacquiring]
    exact ⟨h.books, fun k ↦ (or_iff_right_of_imp fun heq ↦ heq ▸ hmem.2 hacquiring).symm⟩
  · rw [if_neg hacquiring]
    have hnot := mt hmem.1 hacquiring
    exact ⟨books_acquire h.books hnot, fun k ↦ tickets_acquire hnot⟩

/-- A poll that finds a permit, or does not. -/
theorem Balanced.pollAcquire (h : p.Balanced capacity) (hi : p.calls[i]? = some c)
    (hclient : c.call.client = .acquiring) (hstep : p.pollAcquire i c = some p') :
    p'.Balanced capacity := by
  have hc := h.calls c (List.mem_of_getElem? hi)
  have hidle := hc.idle (Or.inl hclient)
  have howns : ¬c.owns = true := fun howns ↦ hc.spawned howns hidle
  obtain ⟨hbooks, htickets⟩ := h.asked hi
  rw [ReadPool.pollAcquire] at hstep
  split at hstep
  · rename_i hassigned
    obtain ⟨call, hcall, rfl⟩ := Option.map_eq_some_iff.1 hstep
    simp only [ReadCall.poll, hclient, Option.some.injEq] at hcall
    subst hcall
    have hcount := countP_owns_set hi
      { c with
        call := { c.call with client := .reading, permit := .granted, reader := .queued,
                              fired := false }
        acquiring := false, owns := true }
    rw [if_neg howns, if_pos rfl, Nat.add_zero] at hcount
    refine h.set hi ⟨?_, fun _ ↦ rfl, fun _ ↦ by rintro ⟨⟩⟩ ?_ ?_ fun k hne ↦ ?_
    · rintro (⟨⟨⟩⟩ | ⟨⟨⟩⟩)
    · rw [hcount]
      exact books_take hbooks hassigned
    · rw [tickets_take hbooks hassigned]
      simp
    · rw [tickets_take hbooks hassigned, htickets, and_iff_right hne, or_iff_right hne]
  · obtain rfl := Option.some.inj hstep
    have hquiet := quiet_wait c
    have hcount := countP_owns_set hi { c with call := c.call.wait, acquiring := true }
    rw [Nat.add_right_cancel_iff] at hcount
    refine h.set hi (d := { c with call := c.call.wait, acquiring := true })
      ⟨fun _ ↦ hquiet.idle.2 hidle, ?_, ?_⟩ ?_ ?_ fun k hne ↦ ?_
    · exact fun hactive ↦ hc.owned (hquiet.active hactive)
    · exact fun howns' ↦ absurd howns' howns
    · rw [hcount]
      exact hbooks
    · exact iff_of_true ((htickets i).2 (Or.inl rfl)) rfl
    · rw [htickets, or_iff_right hne]

/-- The acquisition of request `i` is dropped. -/
theorem Balanced.letGo (h : p.Balanced capacity) (hi : p.calls[i]? = some c)
    (hacquiring : c.acquiring = true) : Balanced capacity { p with
      permits := cancel p.permits i
      calls := p.calls.set i { c with acquiring := false } } := by
  have hc := h.calls c (List.mem_of_getElem? hi)
  have hmem := (h.mem_tickets_iff hi).2 hacquiring
  have hcount := countP_owns_set hi { c with acquiring := false }
  rw [Nat.add_right_cancel_iff] at hcount
  refine h.set hi (d := { c with acquiring := false })
    ⟨fun hidle ↦ hc.idle ?_, hc.owned, hc.spawned⟩ ?_ ?_ fun k hne ↦ ?_
  · exact hidle.imp_right fun hfalse ↦ by cases hfalse
  · rw [hcount]
    exact books_cancel h.books hmem
  · rw [tickets_cancel h.books hmem]
    simp
  · rw [tickets_cancel h.books hmem, and_iff_right hne]

/-- The closure of task `i` drops its permit. -/
theorem Balanced.dropPermit (h : p.Balanced capacity) (hi : p.calls[i]? = some c)
    (howns : c.owns = true) (hover : ¬c.call.reader.Active) : Balanced capacity { p with
      permits := release p.permits
      calls := p.calls.set i { c with owns := false } } := by
  have hc := h.calls c (List.mem_of_getElem? hi)
  have hcount := countP_owns_set hi { c with owns := false }
  rw [if_pos howns, if_neg Bool.false_ne_true] at hcount
  refine h.set hi (d := { c with owns := false })
    ⟨hc.idle, fun hactive ↦ absurd hactive hover, by rintro ⟨⟩⟩ ?_ ?_ fun k _ ↦ ?_
  · refine books_release ?_
    rw [hcount]
    exact h.books
  · rw [tickets_release, h.mem_tickets_iff hi]
  · exact tickets_release

/-! ### Whole runs -/

theorem Balanced.step (h : p.Balanced capacity) {a : PoolAction ν}
    (hstep : (machine σ ν).step p a = some p') : p'.Balanced capacity := by
  cases a with
  | tick elapsed =>
    cases hstep
    exact h.tick elapsed
  | enter timeout =>
    cases hstep
    exact h.enter timeout
  | fire i =>
    obtain ⟨c, hi, hstep⟩ := Option.bind_eq_some_iff.1 hstep
    split at hstep
    · cases hstep
    obtain ⟨call, hcall, hp'⟩ := Option.bind_eq_some_iff.1 hstep
    cases hp'
    simp only [ReadCall.machine] at hcall
    split at hcall
    · cases hcall
      exact h.quiet hi (quiet_of_reader rfl id)
    · cases hcall
  | thread i action =>
    obtain ⟨c, hi, hstep⟩ := Option.bind_eq_some_iff.1 hstep
    obtain ⟨call, hcall, hp'⟩ := Option.bind_eq_some_iff.1 hstep
    cases hp'
    obtain ⟨reader, hreader, rfl⟩ := Option.map_eq_some_iff.1 hcall
    exact h.quiet hi (quiet_thread hreader)
  | poll i =>
    obtain ⟨c, hi, hstep⟩ := Option.bind_eq_some_iff.1 hstep
    split at hstep
    · cases hstep
    split at hstep
    · exact h.pollAcquire hi ‹_› hstep
    · exact h.pollHandle hi ‹_› hstep
    · cases hstep
  | drop i =>
    obtain ⟨c, hi, rfl⟩ := Option.map_eq_some_iff.1 hstep
    exact h.quiet hi ⟨rfl, rfl, id, Iff.rfl, id⟩
  | letGo i =>
    obtain ⟨c, hi, hstep⟩ := Option.bind_eq_some_iff.1 hstep
    split at hstep
    · cases hstep
      exact h.letGo hi (And.left ‹_›)
    · cases hstep
  | dropPermit i =>
    obtain ⟨c, hi, hstep⟩ := Option.bind_eq_some_iff.1 hstep
    split at hstep
    · rename_i hover
      cases hstep
      exact h.dropPermit hi hover.1 hover.2
    · cases hstep

end Lawful

/-- The pool has nothing left to drop. -/
def Settled (p : ReadPool σ ν) : Prop :=
  ∀ i, (machine σ ν).step p (.letGo i) = none ∧ (machine σ ν).step p (.dropPermit i) = none

/-- What the semaphore guarantees to the reads. -/
structure Limited (capacity : ℕ) (p : ReadPool σ ν) : Prop where
  /-- No permit is lost, and none is used twice: each one is free, assigned to a request that has no
  task yet, or owned by a task. -/
  conserved : (view p.permits).available + (view p.permits).assigned.card +
    p.calls.countP (·.owns) = capacity
  assigned : ∀ i ∈ (view p.permits).assigned, ∃ c, p.calls[i]? = some c ∧ c.acquiring = true ∧
    c.call.reader = .idle
  /-- A task owns a permit as long as it is on its way, whoever waits for it. -/
  owned : ∀ c ∈ p.calls, c.call.reader.Active → c.owns = true
  /-- So the permits bound the tasks, of requests that still wait and of others. -/
  threads : p.calls.countP (fun c ↦ c.call.reader.Active) ≤ capacity
  /-- A request waits only while every permit is in use. -/
  eager : (view p.permits).waiting.Nonempty →
    (view p.permits).assigned.card + p.calls.countP (·.owns) = capacity
  /-- When all requests and tasks are over and have dropped what they had, all permits are back. -/
  restored : p.Settled → (∀ c ∈ p.calls, c.Over) → (view p.permits).available = capacity

/-- Whatever a request or task that is over still has, it can drop. -/
theorem Settled.free (h : p.Settled) (hi : p.calls[i]? = some c)
    (hover : c.Over) : ¬c.acquiring = true ∧ ¬c.owns = true := by
  obtain ⟨hletGo, hdrop⟩ := h i
  simp only [machine, hi, Option.bind_eq_bind, Option.bind_some, ite_eq_right_iff, reduceCtorEq,
    imp_false] at hletGo hdrop
  exact ⟨fun hacquiring ↦ hletGo ⟨hacquiring, hover.1⟩, fun howns ↦ hdrop ⟨howns, hover.2⟩⟩

theorem Balanced.restored (h : p.Balanced capacity) (hsettled : p.Settled)
    (hover : ∀ c ∈ p.calls, c.Over) : (view p.permits).available = capacity := by
  have hfree : ∀ {i : ℕ} {c : PooledCall ν}, p.calls[i]? = some c →
      ¬c.acquiring = true ∧ ¬c.owns = true :=
    fun hi ↦ hsettled.free hi (hover _ (List.mem_of_getElem? hi))
  have hassigned : (view p.permits).assigned = ∅ := by
    refine Finset.eq_empty_of_forall_notMem fun i hi ↦ ?_
    obtain ⟨c, hc, hacquiring⟩ := (h.tickets i).1 (SemaphoreView.mem_tickets.2 (Or.inr hi))
    exact (hfree hc).1 hacquiring
  have howns : p.calls.countP (·.owns) = 0 := by
    rw [List.countP_eq_zero]
    intro c hc
    obtain ⟨i, hi⟩ := List.getElem?_of_mem hc
    exact (hfree hi).2
  have hconserved := h.books.conserved
  rw [hassigned, Finset.card_empty, howns] at hconserved
  exact hconserved

/-- **The permits bound the reads.** However requests come, are given permits, time out, are
dropped, and however long their tasks run on after that; with any semaphore that keeps its laws. -/
theorem reads_limited [LawfulSemaphore σ] {now capacity : ℕ} {as : List (PoolAction ν)}
    {p : ReadPool σ ν}
    (hrun : (machine σ ν).run (start σ ν now capacity) as = some p) : p.Limited capacity := by
  have h : p.Balanced capacity :=
    Machine.run_invariant (fun _ _ _ h hstep ↦ h.step hstep) hrun (balanced_start now capacity)
  have hactive : p.calls.countP (fun c ↦ c.call.reader.Active) ≤ p.calls.countP (·.owns) :=
    List.countP_mono_left fun c hc hactive ↦ (h.calls c hc).owned (of_decide_eq_true hactive)
  have hconserved := h.books.conserved
  refine ⟨hconserved, fun i hi ↦ ?_, fun c hc ↦ (h.calls c hc).owned, by omega, fun hwaiting ↦ ?_,
    h.restored⟩
  · obtain ⟨c, hc, hacquiring⟩ := (h.tickets i).1 (SemaphoreView.mem_tickets.2 (Or.inr hi))
    exact ⟨c, hc, hacquiring, (h.calls c (List.mem_of_getElem? hc)).idle (Or.inr hacquiring)⟩
  · have havailable : (view p.permits).available = 0 := by
      by_contra hne
      exact hwaiting.ne_empty (h.books.eager hne)
    omega

/-- One permit, two requests: the first times out while its read goes on, and the second still
waits; it is given the permit when the read has crashed. -/
theorem reads_limited_one : ∃ p q : ReadPool QueueSemaphore Unit,
    (machine QueueSemaphore Unit).run (start QueueSemaphore Unit 0 1)
      [.enter 2000, .poll 0, .enter 3000, .poll 1, .thread 0 .start, .tick 2000, .fire 0,
        .poll 0] = some p ∧
    1 ∈ (view p.permits).waiting ∧ p.Limited 1 ∧
    (machine QueueSemaphore Unit).run p [.thread 0 .crash, .dropPermit 0] = some q ∧
    1 ∈ (view q.permits).assigned := by
  obtain ⟨p, hrun⟩ : ∃ p, (machine QueueSemaphore Unit).run (start QueueSemaphore Unit 0 1)
      [.enter 2000, .poll 0, .enter 3000, .poll 1, .thread 0 .start, .tick 2000, .fire 0,
        .poll 0] = some p := ⟨_, rfl⟩
  obtain ⟨q, hrest⟩ : ∃ q, (machine QueueSemaphore Unit).run p [.thread 0 .crash, .dropPermit 0] =
      some q := by
    cases hrun
    exact ⟨_, rfl⟩
  refine ⟨p, q, hrun, ?_, reads_limited hrun, hrest, ?_⟩
  · cases hrun
    decide
  · cases hrun
    cases hrest
    decide

end ReadPool

end DnsBuffer
