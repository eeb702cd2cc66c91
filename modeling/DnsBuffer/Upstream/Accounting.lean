import DnsBuffer.Upstream.Budget
import DnsBuffer.Upstream.Group
import Mathlib.Data.List.Perm.Basic

/-!
# Every attempt on a member is accounted once

The retry engine over an upstream group. Three places make calls on the statistics of a member — the
two return paths of `try_member` and the guard that is dropped with a cancelled attempt — and the
guard looks at a flag that another task raises.

The proof keeps three books. The *flag* agrees with the winner whenever something can be cancelled
(`Winner`): it is raised after the winner is accepted and before the others are aborted. The
*waiting list* matches the pending invocations with the running attempts, one to one (`Held`). And
the *ledger* says what each invocation has cost so far (`GroupWorld.Ledger`): nothing while it is
pending, one record once it has returned, and for a cancelled one a timeout or nothing, depending on
whether there is a winner. Since a winner is accepted only before anything is cancelled, "is" may be
read as "was at the time".
-/

namespace DnsBuffer

/-! ### The ledger -/

/-- What an invocation owes to the statistics of its member, given whether its query has a
winner. -/
def owedRecords {ε : Type} (won : Bool) : InvocationOutcome ε → List StatRecord
  | .pending => []
  | .returned (.ok _) latency => [.success latency]
  | .returned (.error _) _ => [.softFail]
  | .cancelled => if won then [] else [.timeout]

namespace GroupWorld

variable {ε : Type} {w : GroupWorld ε} {won : Bool}

/-- The calls invocation `v` has made on the statistics: on which member, and what. -/
def recordsOf (w : GroupWorld ε) (v : ℕ) : List (ℕ × StatRecord) :=
  (w.stats.filter fun c ↦ c.invocation = v).map fun c ↦ (c.member, c.record)

/-- Every call on the statistics belongs to an invocation, and every invocation has made exactly the
calls it owes, on its own member. -/
structure Ledger (won : Bool) (w : GroupWorld ε) : Prop where
  owner : ∀ c ∈ w.stats, c.invocation < w.invocations.length
  law : ∀ v i, w.invocations[v]? = some i →
    w.recordsOf v = (owedRecords won i.outcome).map fun record ↦ (i.member, record)

theorem ledger_empty (won : Bool) : (empty : GroupWorld ε).Ledger won :=
  ⟨by simp [empty], by simp [empty]⟩

theorem recordsOf_eq_nil_of_length_le (h : w.Ledger won) {v : ℕ} (hv : w.invocations.length ≤ v) :
    w.recordsOf v = [] := by
  rw [recordsOf, List.map_eq_nil_iff, List.filter_eq_nil_iff]
  intro c hc heq
  have hlt := h.owner c hc
  rw [of_decide_eq_true heq] at hlt
  omega

theorem Ledger.begin (h : w.Ledger won) (member : ℕ) : (w.begin member).Ledger won where
  owner c hc := by
    simp only [GroupWorld.begin, List.length_append, List.length_singleton]
    exact Nat.lt_succ_of_lt (h.owner c hc)
  law v i hi := by
    rw [GroupWorld.begin, List.getElem?_append] at hi
    split at hi
    · exact h.law v i hi
    · rename_i hlt
      have hpending : i = ⟨member, .pending⟩ := by
        rcases hk : v - w.invocations.length with - | k
        · rw [hk] at hi
          exact (Option.some.inj hi).symm
        · rw [hk] at hi
          cases hi
      rw [hpending]
      exact recordsOf_eq_nil_of_length_le h (Nat.not_lt.1 hlt)

/-- The calls of invocation `u` after invocation `v` has made some more. -/
theorem recordsOf_settle (w : GroupWorld ε) (u v member : ℕ) (outcome : InvocationOutcome ε)
    (records : List StatRecord) :
    (w.settle v member outcome records).recordsOf u =
      w.recordsOf u ++ if u = v then records.map fun record ↦ (member, record) else [] := by
  rw [recordsOf, settle, List.filter_append, List.map_append, recordsOf]
  congr 1
  rw [List.filter_map, List.map_map]
  split
  · rename_i heq
    subst heq
    rw [List.filter_eq_self.2 (fun _ _ ↦ by simp)]
    rfl
  · rename_i hne
    rw [List.filter_eq_nil_iff.2 (fun _ _ ↦ by simp [Ne.symm hne])]
    rfl

theorem Ledger.settle (h : w.Ledger won) {v member : ℕ}
    (hv : w.invocations[v]? = some ⟨member, .pending⟩) {outcome : InvocationOutcome ε}
    {records : List StatRecord} (hrecords : records = owedRecords won outcome) :
    (w.settle v member outcome records).Ledger won where
  owner c hc := by
    obtain ⟨hlt, -⟩ := List.getElem?_eq_some_iff.1 hv
    rw [GroupWorld.settle, List.length_set]
    rcases List.mem_append.1 hc with hc | hc
    · exact h.owner c hc
    · obtain ⟨record, -, rfl⟩ := List.mem_map.1 hc
      exact hlt
  law u i hi := by
    rw [recordsOf_settle]
    rcases eq_or_ne u v with rfl | hne
    · obtain ⟨hlt, -⟩ := List.getElem?_eq_some_iff.1 hv
      rw [GroupWorld.settle, List.getElem?_set_self hlt, Option.some.injEq] at hi
      rw [← hi, h.law u _ hv, if_pos rfl, hrecords]
      rfl
    · rw [GroupWorld.settle, List.getElem?_set_ne hne.symm] at hi
      rw [if_neg hne, List.append_nil]
      exact h.law u i hi

/-- Whether there is a winner matters only once something has been cancelled. -/
theorem Ledger.congr_won {won' : Bool} (h : w.Ledger won)
    (hnone : ∀ i ∈ w.invocations, i.outcome ≠ .cancelled) : w.Ledger won' where
  owner := h.owner
  law v i hi := by
    have hi' := hnone i (List.mem_of_getElem? hi)
    rw [h.law v i hi]
    rcases i with ⟨member, - | ⟨result | result, latency⟩ | -⟩
    · rfl
    · rfl
    · rfl
    · exact absurd rfl hi'

/-- An invocation that has returned is not touched any more. -/
theorem getElem?_settle_of_ne {u v member member' : ℕ} {outcome outcome' : InvocationOutcome ε}
    {records : List StatRecord} (hv : w.invocations[v]? = some ⟨member, .pending⟩)
    (hu : w.invocations[u]? = some ⟨member', outcome'⟩) (hne : outcome' ≠ .pending) :
    (w.settle v member outcome records).invocations[u]? = some ⟨member', outcome'⟩ := by
  have huv : v ≠ u := by
    rintro rfl
    rw [hv, Option.some.injEq, Invocation.mk.injEq] at hu
    exact hne hu.2.symm
  rw [settle, List.getElem?_set_ne huv]
  exact hu

theorem getElem?_begin {u member : ℕ} {i : Invocation ε} (hu : w.invocations[u]? = some i) :
    (w.begin member).invocations[u]? = some i := by
  obtain ⟨hlt, -⟩ := List.getElem?_eq_some_iff.1 hu
  rw [GroupWorld.begin, List.getElem?_append_left hlt]
  exact hu

end GroupWorld

/-! ### The waiting list -/

/-- The invocation a running attempt waits for, with its member. -/
def Attempt.waiting? {ε ρ ε' : Type} (a : Attempt (GroupTask ε) ρ ε') : Option (ℕ × ℕ) :=
  match a.status with
  | .running (.trying _ _ member v) => some (v, member)
  | _ => none

section Waiting

variable {ε ρ ε' : Type} {w : GroupWorld ε} {attempts : List (Attempt (GroupTask ε) ρ ε')} {i : ℕ}
  {old new : Attempt (GroupTask ε) ρ ε'}

/-- The invocations that running attempts wait for. -/
def waiting (attempts : List (Attempt (GroupTask ε) ρ ε')) : List (ℕ × ℕ) :=
  attempts.filterMap Attempt.waiting?

theorem waiting_cons (a : Attempt (GroupTask ε) ρ ε') :
    waiting (a :: attempts) = a.waiting?.toList ++ waiting attempts := by
  rcases h : a.waiting? with - | x <;> simp [waiting, h]

/-- What an attempt contributes to the list, apart from the others. -/
theorem waiting_perm_of_getElem? (hi : attempts[i]? = some old) :
    (waiting attempts).Perm (old.waiting?.toList ++ waiting (attempts.eraseIdx i)) := by
  obtain ⟨hlt, hget⟩ := List.getElem?_eq_some_iff.1 hi
  have hperm := (List.getElem_cons_eraseIdx_perm hlt).symm.filterMap Attempt.waiting?
  rw [hget] at hperm
  exact waiting_cons old ▸ hperm

theorem waiting_set_perm (hi : attempts[i]? = some old) (new : Attempt (GroupTask ε) ρ ε') :
    (waiting (attempts.set i new)).Perm
      (new.waiting?.toList ++ waiting (attempts.eraseIdx i)) := by
  obtain ⟨hlt, -⟩ := List.getElem?_eq_some_iff.1 hi
  exact waiting_cons new ▸ (List.set_perm_cons_eraseIdx hlt new).filterMap Attempt.waiting?

/-- The pending invocations are those that running attempts wait for, each of them one. -/
structure Held (w : GroupWorld ε) (attempts : List (Attempt (GroupTask ε) ρ ε')) : Prop where
  pending : ∀ v m, w.invocations[v]? = some ⟨m, .pending⟩ ↔ (v, m) ∈ waiting attempts
  distinct : (waiting attempts).Nodup

theorem Held.of_perm {attempts' : List (Attempt (GroupTask ε) ρ ε')} (h : Held w attempts)
    (hperm : (waiting attempts).Perm (waiting attempts')) : Held w attempts' :=
  ⟨fun v m ↦ (h.pending v m).trans hperm.mem_iff, hperm.nodup_iff.1 h.distinct⟩

/-- Removing or replacing an attempt that waits for nothing. -/
theorem Held.eraseIdx (h : Held w attempts) (hi : attempts[i]? = some old)
    (hold : old.waiting? = none) : Held w (attempts.eraseIdx i) := by
  refine h.of_perm ?_
  have hperm := waiting_perm_of_getElem? hi
  rwa [hold] at hperm

theorem Held.set_idle (h : Held w attempts) (hi : attempts[i]? = some old)
    (hold : old.waiting? = none) (hnew : new.waiting? = none) : Held w (attempts.set i new) := by
  refine (h.eraseIdx hi hold).of_perm (List.Perm.symm ?_)
  have hperm := waiting_set_perm hi new
  rwa [hnew] at hperm

theorem Held.append (h : Held w attempts) (hnew : new.waiting? = none) :
    Held w (attempts ++ [new]) := by
  refine h.of_perm ?_
  simp [waiting, hnew]

/-- An attempt begins to wait for a new invocation. -/
theorem Held.begin (h : Held w attempts) (hi : attempts[i]? = some old)
    (hold : old.waiting? = none) {member : ℕ}
    (hnew : new.waiting? = some (w.invocations.length, member)) :
    Held (w.begin member) (attempts.set i new) := by
  have hrest := h.eraseIdx hi hold
  have hperm := waiting_set_perm hi new
  rw [hnew] at hperm
  constructor
  · intro v m
    rw [hperm.mem_iff, GroupWorld.begin, List.getElem?_append]
    simp only [Option.toList_some, List.singleton_append, List.mem_cons, Prod.mk.injEq]
    rw [← hrest.pending v m]
    split
    · rename_i hlt
      exact ⟨Or.inr, fun hor ↦ hor.resolve_left fun heq ↦ by omega⟩
    · rename_i hlt
      have hnone : w.invocations[v]? = none := List.getElem?_eq_none (Nat.not_lt.1 hlt)
      rw [hnone]
      rcases hk : v - w.invocations.length with - | k
      · have hv : v = w.invocations.length := by omega
        simp [hv, eq_comm]
      · have hv : v ≠ w.invocations.length := by omega
        simp [hv]
  · rw [hperm.nodup_iff]
    refine List.nodup_cons.2 ⟨fun hmem ↦ ?_, hrest.distinct⟩
    have hbound := (hrest.pending _ _).2 hmem
    rw [List.getElem?_eq_none le_rfl] at hbound
    cases hbound

/-- The invocation an attempt waits for comes to its end. -/
theorem Held.settle (h : Held w attempts) (hi : attempts[i]? = some old) {v member : ℕ}
    (hold : old.waiting? = some (v, member)) (hnew : new.waiting? = none)
    {outcome : InvocationOutcome ε} (houtcome : outcome ≠ .pending) (records : List StatRecord) :
    w.invocations[v]? = some ⟨member, .pending⟩ ∧
      Held (w.settle v member outcome records) (attempts.set i new) := by
  have hperm := waiting_perm_of_getElem? hi
  rw [hold] at hperm
  have hv : w.invocations[v]? = some ⟨member, .pending⟩ :=
    (h.pending v member).2 (hperm.mem_iff.2 (by simp))
  obtain ⟨hnot, hdistinct⟩ := List.nodup_cons.1 (hperm.nodup_iff.1 h.distinct)
  have hrest : Held (w.settle v member outcome records) (attempts.eraseIdx i) := by
    refine ⟨fun u m ↦ ?_, hdistinct⟩
    rcases eq_or_ne v u with rfl | hne
    · obtain ⟨hlt, -⟩ := List.getElem?_eq_some_iff.1 hv
      rw [GroupWorld.settle, List.getElem?_set_self hlt]
      refine iff_of_false (fun heq ↦ ?_) fun hmem ↦ ?_
      · exact houtcome (Invocation.mk.inj (Option.some.inj heq)).2
      · have hm := (h.pending v m).2 (hperm.mem_iff.2 (List.mem_cons_of_mem _ hmem))
        rw [hv, Option.some.injEq, Invocation.mk.injEq] at hm
        exact hnot (hm.1 ▸ hmem)
    · rw [GroupWorld.settle, List.getElem?_set_ne hne, h.pending u m, hperm.mem_iff]
      simp [hne.symm]
  have hset := waiting_set_perm hi new
  rw [hnew] at hset
  exact ⟨hv, hrest.of_perm hset.symm⟩

end Waiting

/-! ### The winner and the flag -/

/-- The answer of a verdict. -/
def Verdict.answer? {ρ ε : Type} : Verdict ρ ε → Option ρ
  | .ok answer => some answer
  | .expired _ _ => none

namespace Engine

section Flag

variable {ω τ α ρ ε : Type} {r : HedgedResolver} {inner : AsyncTask ω τ α (Except ε ρ)}
  {s t : Engine ω τ ρ ε}

/-- There is a winner exactly if one was accepted, and the flag says so except in the moment between
the two. -/
structure Winner (s : Engine ω τ ρ ε) : Prop where
  looping : s.phase = .looping → s.winner = none
  verdict : ∀ verdict, s.phase.verdict? = some verdict → s.winner = verdict.answer?
  flag : (∀ answer, s.phase ≠ .accepted answer) → s.succeeded = s.winner.isSome

theorem winner_start (r : HedgedResolver) (inner : AsyncTask ω τ α (Except ε ρ)) (world : ω)
    (now : Instant) : (start r inner world now).Winner :=
  ⟨fun _ ↦ rfl, by simp [start, spawnAttempt, EnginePhase.verdict?], fun _ ↦ rfl⟩

/-- A winner is accepted only in the loop. -/
theorem winner_of_step {a : EngineAction α} (hstep : (machine r inner).step s a = some t)
    (hphase : s.phase ≠ .looping) : t.winner = s.winner := by
  cases step_of_machine hstep with
  | join hloop => exact absurd hloop hphase
  | _ => rfl

/-- A step that only moves the phase on, out of the loop and with the verdict kept. -/
theorem Winner.move (h : s.Winner) {phase : EnginePhase ρ ε} (succeeded : Bool)
    (hloop : phase ≠ .looping) (hverdict : phase.verdict? = s.phase.verdict?)
    (hflag : succeeded = s.winner.isSome) :
    { s with succeeded := succeeded, phase := phase }.Winner :=
  ⟨fun hphase ↦ absurd hphase hloop, fun verdict hv ↦ h.verdict verdict (hverdict ▸ hv),
    fun _ ↦ hflag⟩

theorem Winner.step {a : EngineAction α} (h : s.Winner)
    (hstep : (machine r inner).step s a = some t) : t.Winner := by
  cases step_of_machine hstep with
  | tick => exact ⟨h.looping, h.verdict, h.flag⟩
  | advance => exact ⟨h.looping, h.verdict, h.flag⟩
  | complete => exact ⟨h.looping, h.verdict, h.flag⟩
  | cancel => exact ⟨h.looping, h.verdict, h.flag⟩
  | panic hphase =>
    exact ⟨by simp, by simp [EnginePhase.verdict?], fun _ ↦ h.flag (by simp [hphase])⟩
  | @join i id result hphase hflight hi =>
    cases result with
    | ok answer =>
      refine ⟨by simp [joined], fun verdict hv ↦ ?_, fun hnot ↦ absurd rfl (hnot answer)⟩
      cases hv
      rfl
    | error error => exact ⟨h.looping, h.verdict, h.flag⟩
  | expire hphase =>
    refine ⟨by simp, fun verdict hv ↦ ?_, fun _ ↦ h.flag (by simp [hphase])⟩
    cases hv
    exact h.looping hphase
  | hedge => exact ⟨h.looping, h.verdict, h.flag⟩
  | hedgeFull => exact ⟨h.looping, h.verdict, h.flag⟩
  | retry => exact ⟨h.looping, h.verdict, h.flag⟩
  | @raiseFlag answer hphase =>
    have hwinner : s.winner = some answer := h.verdict (.ok answer) (by rw [hphase]; rfl)
    exact h.move true (by simp) (by rw [hphase]; rfl) (by rw [hwinner]; rfl)
  | abortWon hphase =>
    exact h.move s.succeeded (by simp) (by rw [hphase]; rfl) (h.flag (by simp [hphase]))
  | abortExpired hphase =>
    exact h.move s.succeeded (by simp) (by rw [hphase]; rfl) (h.flag (by simp [hphase]))
  | joinStopped => exact ⟨h.looping, h.verdict, h.flag⟩
  | finish hphase =>
    exact h.move s.succeeded (by simp) (by rw [hphase]; rfl) (h.flag (by simp [hphase]))
  | drop hphase =>
    refine ⟨by simp, by simp [EnginePhase.verdict?], fun _ ↦ h.flag ?_⟩
    rcases hphase with hphase | ⟨verdict, hphase⟩ <;> simp [hphase]

/-- When something can be cancelled, the flag tells whether there is a winner. -/
theorem Winner.flag_of_aborting (h : s.Winner) (habort : s.aborting) :
    s.succeeded = s.winner.isSome := by
  refine h.flag fun answer hphase ↦ ?_
  simp [aborting, hphase] at habort

end Flag

/-! ### All books together -/

section Group

variable {ε : Type} {r : HedgedResolver} {members : List Member}
  {s t : Engine (GroupWorld ε) (GroupTask ε) (Message × Option Text) (GroupError ε)}

/-- The books of a query over a group. -/
structure Accounts (members : List Member)
    (s : Engine (GroupWorld ε) (GroupTask ε) (Message × Option Text) (GroupError ε)) : Prop where
  engine : s.Inv
  winner : s.Winner
  held : Held s.world s.attempts
  ledger : s.world.Ledger s.winner.isSome
  uncancelled : s.phase.inLoop → ∀ i ∈ s.world.invocations, i.outcome ≠ .cancelled
  named : ∀ id response name, (id, .ok (response, name)) ∈ s.results →
    ∃ (v m latency : ℕ) (member : Member),
      s.world.invocations[v]? = some ⟨m, .returned (.ok response) latency⟩ ∧
      members[m]? = some member ∧ name = some member.name

theorem accounts_start (r : HedgedResolver) (members : List Member) (now : Instant) :
    Accounts members (start r (groupTask (ε := ε) members) GroupWorld.empty now) where
  engine := inv_start r _ _ now
  winner := winner_start r _ _ now
  held := ⟨by simp [start, spawnAttempt, GroupWorld.empty, groupTask, waiting, Attempt.waiting?],
    List.nodup_nil⟩
  ledger := GroupWorld.ledger_empty _
  uncancelled := by simp [start, spawnAttempt, GroupWorld.empty]
  named := by simp [start, spawnAttempt]

/-- The records of a completed `try_member` are those it owes. -/
theorem tryMemberRecords_eq_owed (won : Bool) (result : Except ε Message) (latency : ℕ) :
    tryMemberRecords latency result = owedRecords won (.returned result latency) := by
  cases result <;> rfl

/-- A step of an attempt: its effect on the world, on the attempt, and what it is owed for. -/
theorem books_of_groupStep {i id : ℕ} {task : GroupTask ε} {action : GroupAction ε}
    {world : GroupWorld ε} {next : GroupTask ε ⊕ Except (GroupError ε) (Message × Option Text)}
    {status : TaskStatus (GroupTask ε) (Except (GroupError ε) (Message × Option Text))}
    (h : Accounts members s) (hi : s.attempts[i]? = some ⟨id, .running task⟩)
    (hstep : groupStep members s.world task action = some (world, next))
    (hstatus : status = next.elim TaskStatus.running TaskStatus.finished) :
    Held world (s.attempts.set i ⟨id, status⟩) ∧ world.Ledger s.winner.isSome ∧
      (s.phase.inLoop → ∀ i ∈ world.invocations, i.outcome ≠ .cancelled) ∧
      (∀ (v m : ℕ) (outcome : InvocationOutcome ε), s.world.invocations[v]? = some ⟨m, outcome⟩ →
        outcome ≠ .pending → world.invocations[v]? = some ⟨m, outcome⟩) ∧
      ∀ response name, next = .inr (.ok (response, name)) →
        ∃ (v m latency : ℕ) (member : Member),
          world.invocations[v]? = some ⟨m, .returned (.ok response) latency⟩ ∧
          members[m]? = some member ∧ name = some member.name := by
  subst hstatus
  rcases groupStep_cases hstep with ⟨tried, last, left, error, rfl, rfl, rfl⟩ |
    ⟨tried, last, left, tried', left', member, rfl, rfl, rfl⟩ |
    ⟨tried, left, member, v, result, latency, rfl, rfl, hnext⟩
  · exact ⟨h.held.set_idle hi rfl rfl, h.ledger, h.uncancelled, fun _ _ _ hv _ ↦ hv, by simp⟩
  · refine ⟨h.held.begin hi rfl rfl, h.ledger.begin member, fun hphase inv hinv ↦ ?_,
      fun _ _ _ hv _ ↦ GroupWorld.getElem?_begin hv, by simp⟩
    rcases List.mem_append.1 hinv with hinv | hinv
    · exact h.uncancelled hphase inv hinv
    · rw [List.mem_singleton.1 hinv]
      simp
  · have hidle : (⟨id, next.elim TaskStatus.running TaskStatus.finished⟩ :
        Attempt (GroupTask ε) (Message × Option Text) (GroupError ε)).waiting? = none := by
      rcases hnext with ⟨_, _, _, _, rfl⟩ | ⟨_, _, _, rfl⟩ | ⟨_, _, _, _, _, rfl⟩ <;> rfl
    have hreturned : InvocationOutcome.returned result latency ≠ .pending := by simp
    obtain ⟨hv, hheld⟩ := h.held.settle hi rfl hidle hreturned (tryMemberRecords latency result)
    refine ⟨hheld, h.ledger.settle hv (tryMemberRecords_eq_owed _ result latency),
      fun hphase inv hinv ↦ ?_, fun u m outcome hu hne ↦ GroupWorld.getElem?_settle_of_ne hv hu hne,
      fun response name hok ↦ ?_⟩
    · rcases List.mem_or_eq_of_mem_set hinv with hinv | rfl
      · exact h.uncancelled hphase inv hinv
      · simp
    · obtain ⟨hlt, -⟩ := List.getElem?_eq_some_iff.1 hv
      rcases hnext with ⟨response', m, rfl, hm, rfl⟩ | ⟨_, _, _, rfl⟩ | ⟨_, _, _, _, _, rfl⟩
      · cases hok
        exact ⟨v, member, latency, m, List.getElem?_set_self hlt, hm, rfl⟩
      · cases hok
      · cases hok

theorem waiting?_of_not_running {a : Attempt (GroupTask ε) (Message × Option Text) (GroupError ε)}
    (h : a.status.isRunning = false) : a.waiting? = none := by
  rcases a with ⟨id, task | result | _⟩
  · cases h
  · rfl
  · rfl

/-- **One step keeps the books.** -/
theorem Accounts.step {a : EngineAction (GroupAction ε)} (h : Accounts members s)
    (hstep : (machine r (groupTask members)).step s a = some t) : Accounts members t := by
  have hengine := h.engine.step hstep
  have hwinner := h.winner.step hstep
  cases step_of_machine hstep with
  | tick => exact ⟨hengine, hwinner, h.held, h.ledger, h.uncancelled, h.named⟩
  | @advance i id task task' action world hi hinner =>
    obtain ⟨hheld, hledger, huncancelled, hkeep, -⟩ := books_of_groupStep h hi hinner rfl
    refine ⟨hengine, hwinner, hheld, hledger, huncancelled, fun id' response name hmem ↦ ?_⟩
    obtain ⟨v, m, latency, member, hv, hrest⟩ := h.named id' response name hmem
    exact ⟨v, m, latency, member, hkeep v m _ hv (by simp), hrest⟩
  | @complete i id task action world result hi hinner =>
    obtain ⟨hheld, hledger, huncancelled, hkeep, hok⟩ := books_of_groupStep h hi hinner rfl
    refine ⟨hengine, hwinner, hheld, hledger, huncancelled, fun id' response name hmem ↦ ?_⟩
    rcases List.mem_append.1 hmem with hmem | hmem
    · obtain ⟨v, m, latency, member, hv, hrest⟩ := h.named id' response name hmem
      exact ⟨v, m, latency, member, hkeep v m _ hv (by simp), hrest⟩
    · cases List.mem_singleton.1 hmem
      exact hok response name rfl
  | @cancel i id task habort hi =>
    have hloop : s.phase.inLoop = false := by
      rcases hphase : s.phase <;> simp_all [aborting, EnginePhase.inLoop]
    cases task with
    | choosing tried last left =>
      exact ⟨hengine, hwinner, h.held.set_idle hi rfl rfl, h.ledger,
        fun hp ↦ absurd hp (by simp [hloop]), h.named⟩
    | trying tried left member v =>
      -- the guard sees the flag, and the flag tells whether there is a winner
      have howed : AttemptGuard.onDrop true (some s.succeeded) =
          owedRecords (ε := ε) s.winner.isSome .cancelled := by
        rw [h.winner.flag_of_aborting habort]
        cases s.winner <;> rfl
      have hidle : (⟨id, .cancelled⟩ :
          Attempt (GroupTask ε) (Message × Option Text) (GroupError ε)).waiting? = none := rfl
      have hcancelled : (.cancelled : InvocationOutcome ε) ≠ .pending := by simp
      obtain ⟨hv, hheld⟩ := h.held.settle hi rfl hidle hcancelled
        (AttemptGuard.onDrop true (some s.succeeded))
      refine ⟨hengine, hwinner, hheld, h.ledger.settle hv howed,
        fun hp ↦ absurd hp (by simp [hloop]), fun id' response name hmem ↦ ?_⟩
      obtain ⟨u, m, latency, mem, hu, hrest⟩ := h.named id' response name hmem
      exact ⟨u, m, latency, mem, GroupWorld.getElem?_settle_of_ne hv hu (by simp), hrest⟩
  | panic hphase =>
    exact ⟨hengine, hwinner, h.held, h.ledger, by simp [EnginePhase.inLoop], h.named⟩
  | @join i id result hphase hflight hi =>
    have huncancelled := h.uncancelled (by rw [hphase]; rfl)
    have hheld := h.held.eraseIdx hi rfl
    cases result with
    | ok answer =>
      -- nothing has been cancelled yet, so the new winner changes nothing that is owed
      exact ⟨hengine, hwinner, hheld, h.ledger.congr_won huncancelled, fun _ ↦ huncancelled,
        h.named⟩
    | error error => exact ⟨hengine, hwinner, hheld, h.ledger, fun _ ↦ huncancelled, h.named⟩
  | expire hphase =>
    exact ⟨hengine, hwinner, h.held, h.ledger, fun _ ↦ h.uncancelled (by rw [hphase]; rfl),
      h.named⟩
  | hedge => exact ⟨hengine, hwinner, h.held.append rfl, h.ledger, h.uncancelled, h.named⟩
  | hedgeFull => exact ⟨hengine, hwinner, h.held, h.ledger, h.uncancelled, h.named⟩
  | retry => exact ⟨hengine, hwinner, h.held.append rfl, h.ledger, h.uncancelled, h.named⟩
  | raiseFlag hphase =>
    exact ⟨hengine, hwinner, h.held, h.ledger, fun _ ↦ h.uncancelled (by rw [hphase]; rfl),
      h.named⟩
  | abortWon =>
    exact ⟨hengine, hwinner, h.held, h.ledger, by simp [EnginePhase.inLoop], h.named⟩
  | abortExpired =>
    exact ⟨hengine, hwinner, h.held, h.ledger, by simp [EnginePhase.inLoop], h.named⟩
  | joinStopped hphase hi hended =>
    exact ⟨hengine, hwinner, h.held.eraseIdx hi (waiting?_of_not_running hended), h.ledger,
      h.uncancelled, h.named⟩
  | finish =>
    exact ⟨hengine, hwinner, h.held, h.ledger, by simp [EnginePhase.inLoop], h.named⟩
  | drop =>
    exact ⟨hengine, hwinner, h.held, h.ledger, by simp [EnginePhase.inLoop], h.named⟩

theorem accounts_of_run {now : Instant} {as : List (EngineAction (GroupAction ε))}
    (hrun : (machine r (groupTask members)).run
      (start r (groupTask members) GroupWorld.empty now) as = some s) : Accounts members s :=
  Machine.run_invariant (fun _ _ _ h hstep ↦ Accounts.step h hstep) hrun
    (accounts_start r members now)

/-! ### What the books say -/

/-- A step of an attempt cancels nothing. -/
theorem not_cancelled_of_groupStep {w w' : GroupWorld ε} {task : GroupTask ε}
    {action : GroupAction ε} {next : GroupTask ε ⊕ Except (GroupError ε) (Message × Option Text)}
    (hstep : groupStep members w task action = some (w', next)) {v m m' : ℕ}
    (hv : w.invocations[v]? = some ⟨m, .pending⟩) : w'.invocations[v]? ≠ some ⟨m', .cancelled⟩ := by
  obtain ⟨hlt, -⟩ := List.getElem?_eq_some_iff.1 hv
  rcases groupStep_cases hstep with ⟨tried, last, left, error, rfl, rfl, rfl⟩ |
    ⟨tried, last, left, tried', left', member, rfl, rfl, rfl⟩ |
    ⟨tried, left, member, u, result, latency, rfl, rfl, hnext⟩
  · simp [hv]
  · simp [GroupWorld.begin, List.getElem?_append_left hlt, hv]
  · rcases eq_or_ne u v with rfl | hne
    · simp [GroupWorld.settle, List.getElem?_set_self hlt]
    · simp [GroupWorld.settle, List.getElem?_set_ne hne, hv]

/-- An invocation is cancelled only by a cancellation, which comes after the loop. -/
theorem cancel_of_cancelled {a : EngineAction (GroupAction ε)} {v m m' : ℕ}
    (hstep : (machine r (groupTask members)).step s a = some t)
    (hv : s.world.invocations[v]? = some ⟨m, .pending⟩)
    (hv' : t.world.invocations[v]? = some ⟨m', .cancelled⟩) :
    (∃ i, a = .cancel i) ∧ s.phase ≠ .looping := by
  cases step_of_machine hstep with
  | advance hi hinner => exact absurd hv' (not_cancelled_of_groupStep hinner hv)
  | complete hi hinner => exact absurd hv' (not_cancelled_of_groupStep hinner hv)
  | @cancel i id task habort hi =>
    refine ⟨⟨i, rfl⟩, fun hphase ↦ ?_⟩
    simp [aborting, hphase] at habort
  | @join i id result hphase hflight hi => cases result <;> cases hv.symm.trans hv'
  | _ => cases hv.symm.trans hv'

/-- A record is one of those its invocation owes. -/
theorem Accounts.mem_owed (h : Accounts members s) {c : StatCall} (hc : c ∈ s.world.stats) :
    ∃ i, s.world.invocations[c.invocation]? = some i ∧
      c.record ∈ owedRecords s.winner.isSome i.outcome := by
  have hlt := h.ledger.owner c hc
  refine ⟨s.world.invocations[c.invocation], List.getElem?_eq_getElem hlt, ?_⟩
  have hlaw := h.ledger.law c.invocation _ (List.getElem?_eq_getElem hlt)
  have hmem : (c.member, c.record) ∈ s.world.recordsOf c.invocation :=
    List.mem_map.2 ⟨c, List.mem_filter.2 ⟨hc, by simp⟩, rfl⟩
  rw [hlaw] at hmem
  obtain ⟨record, hrecord, heq⟩ := List.mem_map.1 hmem
  exact (Prod.mk.inj heq).2 ▸ hrecord

/-- A call that has returned waits for nothing. -/
theorem Accounts.not_pending (h : Accounts members s) {verdict : Verdict _ _}
    (hphase : s.phase = .returned verdict) {v : ℕ} {i : Invocation ε}
    (hi : s.world.invocations[v]? = some i) : i.outcome ≠ .pending := by
  rcases i with ⟨m, outcome⟩
  rintro rfl
  have hmem := (h.held.pending v m).1 hi
  rw [h.engine.returned verdict hphase] at hmem
  cases hmem

/-- **Each attempt is accounted once.** For a retry engine over an upstream group and every
schedule:

* every call on the statistics belongs to an invocation of `try_member`, and every invocation has
  made exactly the calls it owes, on its own member: one success if the resolver returned an answer,
  one soft failure if it returned an error, and if it was cancelled one timeout without a winner and
  nothing with one;
* an invocation is cancelled only after the loop, and then it records a timeout exactly if no
  attempt has been accepted as the winner by then;
* a call that returns an answer has recorded no timeout;
* a call that ends at its deadline has recorded exactly one timeout for each cancelled invocation,
  no other, and leaves none pending;
* the name returned with an answer is that of a member whose resolver returned this message. -/
theorem attempts_accounted_once (r : HedgedResolver) (members : List Member) (now : Instant)
    (as : List (EngineAction (GroupAction ε)))
    (s : Engine (GroupWorld ε) (GroupTask ε) (Message × Option Text) (GroupError ε))
    (hrun : (machine r (groupTask members)).run
      (start r (groupTask members) GroupWorld.empty now) as = some s) :
    ((∀ c ∈ s.world.stats, c.invocation < s.world.invocations.length) ∧
      ∀ v i, s.world.invocations[v]? = some i → s.world.recordsOf v =
        (owedRecords s.winner.isSome i.outcome).map fun record ↦ (i.member, record)) ∧
    (∀ (a : EngineAction (GroupAction ε)) t (v m m' : ℕ),
      (machine r (groupTask members)).step s a = some t →
      s.world.invocations[v]? = some ⟨m, .pending⟩ →
      t.world.invocations[v]? = some ⟨m', .cancelled⟩ →
      (∃ i, a = .cancel i) ∧ s.phase ≠ .looping ∧
        t.world.recordsOf v = if s.winner.isSome then [] else [(m', .timeout)]) ∧
    (∀ answer, s.phase = .returned (.ok answer) → ∀ c ∈ s.world.stats, c.record ≠ .timeout) ∧
    (∀ lastError inFlight, s.phase = .returned (.expired lastError inFlight) →
      ∀ v i, s.world.invocations[v]? = some i → i.outcome ≠ .pending ∧
        (i.outcome = .cancelled → s.world.recordsOf v = [(i.member, .timeout)]) ∧
        (i.outcome ≠ .cancelled → ∀ m, (m, .timeout) ∉ s.world.recordsOf v)) ∧
    (∀ response name, s.phase = .returned (.ok (response, name)) →
      ∃ (v m latency : ℕ) (member : Member),
        s.world.invocations[v]? = some ⟨m, .returned (.ok response) latency⟩ ∧
        members[m]? = some member ∧ name = some member.name) := by
  have h := accounts_of_run hrun
  refine ⟨⟨h.ledger.owner, h.ledger.law⟩, fun a t v m m' hstep hv hv' ↦ ?_,
    fun answer hphase c hc htimeout ↦ ?_, fun lastError inFlight hphase v i hi ↦ ⟨?_, ?_, ?_⟩,
    fun response name hphase ↦ ?_⟩
  · obtain ⟨ha, hloop⟩ := cancel_of_cancelled hstep hv hv'
    refine ⟨ha, hloop, ?_⟩
    rw [(h.step hstep).ledger.law v _ hv', winner_of_step hstep hloop]
    cases s.winner <;> rfl
  · obtain ⟨i, -, hmem⟩ := h.mem_owed hc
    have hwinner : s.winner = some answer := h.winner.verdict (.ok answer) (by rw [hphase]; rfl)
    rw [htimeout, hwinner] at hmem
    rcases i with ⟨m, - | ⟨result | result, latency⟩ | -⟩ <;> simp [owedRecords] at hmem
  · exact h.not_pending hphase hi
  · intro hcancelled
    have hwinner : s.winner = none :=
      h.winner.verdict (.expired lastError inFlight) (by rw [hphase]; rfl)
    rw [h.ledger.law v i hi, hcancelled, hwinner]
    rfl
  · intro hne m hmem
    rw [h.ledger.law v i hi] at hmem
    rcases i with ⟨m', - | ⟨result | result, latency⟩ | -⟩
    · simp [owedRecords] at hmem
    · simp [owedRecords] at hmem
    · simp [owedRecords] at hmem
    · exact hne rfl
  · obtain ⟨id, hid⟩ := h.engine.answered (response, name) (by rw [hphase]; rfl)
    exact h.named id response name hid

end Group

end Engine

/-- Two members, hedged: the second answers, the first is cancelled and owes nothing. -/
theorem attempts_accounted_once_hedged :
    let members : List Member := [⟨"one".toList⟩, ⟨"two".toList⟩]
    let M := Engine.machine ⟨10, 100⟩ (groupTask (ε := Unit) members)
    let response := Message.new 7 .response .query
    let schedule : List (EngineAction (GroupAction Unit)) :=
      [.progress 0 (.choose (some 0)), .tick 10, .wake 0, .progress 1 (.choose (some 1)),
        .progress 1 (.memberDone (.ok response) 5), .wake 1, .raiseFlag, .abortAll, .cancel 0,
        .join 0, .finish]
    ∃ s, M.run (Engine.start ⟨10, 100⟩ (groupTask members) GroupWorld.empty 0) schedule = some s ∧
      s.phase = .returned (.ok (response, some "two".toList)) ∧
      s.world.stats = [⟨1, 1, .success 5⟩] ∧ ∀ c ∈ s.world.stats, c.record ≠ .timeout := by
  intro members M response schedule
  have hrun : (M.run (Engine.start ⟨10, 100⟩ (groupTask members) GroupWorld.empty 0) schedule).any
      fun s ↦ s.phase = .returned (.ok (response, some "two".toList)) ∧
        s.world.stats = [⟨1, 1, .success 5⟩] := by
    decide +kernel
  obtain ⟨s, hs, hprop⟩ := (Option.any_eq_true _ _).1 hrun
  obtain ⟨hphase, hstats⟩ := of_decide_eq_true hprop
  obtain ⟨-, -, hok, -, -⟩ :=
    Engine.attempts_accounted_once ⟨10, 100⟩ members 0 schedule s hs
  exact ⟨s, hs, hphase, hstats, hok _ hphase⟩

end DnsBuffer
