import DnsBuffer.Dns.Text
import DnsBuffer.Foundation.Machine

/-!
# The deadline of a dashboard read

`database_call` gives a read two seconds and watches them at four places: the wait for a permit, the
connection step of the blocking read, the progress handler of SQLite, and the timer of the task that
waits for the read. Each place ends the read in a way of its own.

The request is a machine (`ReadCall.machine`) whose actions are the clock, the permit, the firing of
the timer, the steps of the blocking thread and the polls of the waiting task, in any order. Two
things are read off the source:

* `timeout_at` polls what it waits for before it looks at its timer, so a poll that finds the read
  returned passes its result on, however late it is;
* the classification of errors knows the errors of SQLite. The connection step that finds no time
  left fails with an error of its own, which is not one of them.

So a read that the connection step ended at the deadline is a database error to the client if a poll
sees it before the timer does (`ReadCall.FindsOwnDeadline`), and that is the only way in which a
missed deadline is misreported (`ReadCall.timeoutReported_iff_along`).
-/

namespace DnsBuffer

/-! ### Errors -/

/-- `rusqlite::ErrorCode`. -/
inductive SqliteCode
  | internalMalfunction | permissionDenied | operationAborted | databaseBusy | databaseLocked
  | outOfMemory | readOnly | operationInterrupted | systemIoFailure | databaseCorrupt | notFound
  | diskFull | cannotOpen | fileLockingProtocolFailed | schemaChanged | tooBig
  | constraintViolation | typeMismatch | apiMisuse | noLargeFileSupport
  | authorizationForStatementDenied | parameterOutOfRange | notADatabase | unknown
deriving DecidableEq

/-- `rusqlite::Error`: the code of a `SqliteFailure`, and the text of the error. -/
structure SqliteError where
  code : Option SqliteCode
  text : Text
deriving DecidableEq

/-- `DashboardReadError`. -/
inductive DashboardReadError
  | timeout
  | database (text : Text)
  | join
deriving DecidableEq

/-- The codes of a read that was stopped. -/
def SqliteError.isStop (error : SqliteError) : Bool :=
  error.code = some .operationInterrupted ∨ error.code = some .databaseBusy ∨
    error.code = some .databaseLocked

/-- `classify_sqlite_error_ref`. -/
def classifySqliteErrorRef (error : SqliteError) (deadlineExhausted : Bool) :
    DashboardReadError :=
  if deadlineExhausted ∧ error.isStop then .timeout else .database error.text

/-- `ApiError`, by its status and the message for the client. -/
structure ApiFailure where
  status : ℕ
  clientMessage : Text
deriving DecidableEq

namespace ApiFailure

/-- `ApiError::database`. -/
def database : ApiFailure := ⟨500, "dashboard database unavailable".toList⟩

/-- `ApiError::database_timeout`. -/
def databaseTimeout : ApiFailure := ⟨503, "dashboard database request timed out".toList⟩

/-- `ApiError::from_read`. -/
def fromRead : DashboardReadError → ApiFailure
  | .timeout => databaseTimeout
  | .database _ => database
  | .join => database

end ApiFailure

/-- An error of the store that is not its own deadline: of SQLite, or any other. -/
inductive OperationError
  | sqlite (error : SqliteError)
  | other (text : Text)
deriving DecidableEq

/-- How a read fails. The connection step that finds no time left fails by itself. -/
inductive ReadFailure
  | deadlineExceeded
  | store (error : OperationError)
deriving DecidableEq

/-- What `database_call` makes of the failure of a read. -/
def ReadFailure.report (deadlineExhausted : Bool) : ReadFailure → DashboardReadError
  | .deadlineExceeded => .database "dashboard database read deadline exceeded".toList
  | .store (.sqlite error) => classifySqliteErrorRef error deadlineExhausted
  | .store (.other text) => .database text

/-! ### The blocking read -/

/-- A failure that was reported: when the read failed, and whether the deadline had passed when
`database_call` looked. -/
structure Failed where
  failure : ReadFailure
  failedAt : ℕ
  deadlineExhausted : Bool
deriving DecidableEq

/-- The blocking task. -/
inductive BlockingRead (ν : Type)
  | idle
  | queued
  | running
  | querying
  | failing (failure : ReadFailure) (failedAt : ℕ)
  | returned (result : Except Failed ν)
  | crashed

/-- What the blocking thread does next. -/
inductive ThreadAction (ν : Type)
  | start
  /-- `read_connection`, with all that is checked before it. -/
  | connect (result : Except OperationError Unit)
  | query (result : Except OperationError ν)
  | report
  | crash

namespace BlockingRead

variable {ν : Type}

/-- One step of the blocking thread. -/
def step (deadline now : ℕ) : BlockingRead ν → ThreadAction ν → Option (BlockingRead ν)
  | .queued, .start => some .running
  | .running, .connect (.error e) => some (.failing (.store e) now)
  | .running, .connect (.ok ()) =>
    -- `deadline.checked_duration_since(Instant::now())` has no value behind the deadline
    if deadline < now then some (.failing .deadlineExceeded now) else some .querying
  | .querying, .query (.error e) => some (.failing (.store e) now)
  | .querying, .query (.ok value) => some (.returned (.ok value))
  | .failing failure failedAt, .report =>
    some (.returned (.error ⟨failure, failedAt, deadline ≤ now⟩))
  | .queued, .crash => some .crashed
  | .running, .crash => some .crashed
  | .querying, .crash => some .crashed
  | _, _ => none

/-- The result the task is joined with. -/
def result (r : Except Failed ν) : Except DashboardReadError ν :=
  r.mapError fun failed ↦ failed.failure.report failed.deadlineExhausted

/-- How the read failed and when, if it did. -/
def failed? : BlockingRead ν → Option (ReadFailure × ℕ)
  | .failing failure failedAt => some (failure, failedAt)
  | .returned (.error failed) => some (failed.failure, failed.failedAt)
  | _ => none

/-- The task is on its way. -/
def Active : BlockingRead ν → Prop
  | .idle => False
  | .returned _ => False
  | .crashed => False
  | _ => True

instance : DecidablePred (Active (ν := ν))
  | .idle | .returned _ | .crashed => .isFalse id
  | .queued | .running | .querying | .failing _ _ => .isTrue trivial

@[simp] theorem not_active_idle : ¬(idle : BlockingRead ν).Active := id

@[simp] theorem not_active_returned (result : Except Failed ν) : ¬(returned result).Active := id

@[simp] theorem not_active_crashed : ¬(crashed : BlockingRead ν).Active := id

/-- **What the blocking thread does.** It moves on from a task that is on its way. What fails, fails
now; what has failed is reported with a look at the clock. -/
theorem step_cases {deadline now : ℕ} {r r' : BlockingRead ν} {a : ThreadAction ν}
    (h : r.step deadline now a = some r') :
    r.Active ∧ ((r'.Active ∧ ∀ failure failedAt, r' = .failing failure failedAt → failedAt = now) ∨
      (∃ value, r' = .returned (.ok value)) ∨ r' = .crashed ∨
      ∃ failure failedAt, r = .failing failure failedAt ∧
        r' = .returned (.error ⟨failure, failedAt, deadline ≤ now⟩)) := by
  unfold step at h
  split at h
  case h_1 =>
    obtain rfl := Option.some.inj h
    exact ⟨trivial, Or.inl ⟨trivial, by rintro _ _ ⟨⟩⟩⟩
  case h_2 =>
    obtain rfl := Option.some.inj h
    exact ⟨trivial, Or.inl ⟨trivial, fun _ _ heq ↦ (failing.inj heq).2.symm⟩⟩
  case h_3 =>
    split_ifs at h
    · obtain rfl := Option.some.inj h
      exact ⟨trivial, Or.inl ⟨trivial, fun _ _ heq ↦ (failing.inj heq).2.symm⟩⟩
    · obtain rfl := Option.some.inj h
      exact ⟨trivial, Or.inl ⟨trivial, by rintro _ _ ⟨⟩⟩⟩
  case h_4 =>
    obtain rfl := Option.some.inj h
    exact ⟨trivial, Or.inl ⟨trivial, fun _ _ heq ↦ (failing.inj heq).2.symm⟩⟩
  case h_5 =>
    obtain rfl := Option.some.inj h
    exact ⟨trivial, Or.inr (Or.inl ⟨_, rfl⟩)⟩
  case h_6 =>
    obtain rfl := Option.some.inj h
    exact ⟨trivial, Or.inr (Or.inr (Or.inr ⟨_, _, rfl, rfl⟩))⟩
  case h_10 => cases h
  all_goals
    obtain rfl := Option.some.inj h
    exact ⟨trivial, Or.inr (Or.inr (Or.inl rfl))⟩

/-- Only a late connection step fails by the deadline. -/
theorem late_of_deadlineExceeded {deadline now failedAt : ℕ} {r r' : BlockingRead ν}
    {a : ThreadAction ν} (h : r.step deadline now a = some r')
    (hr' : r'.failed? = some (.deadlineExceeded, failedAt)) :
    r.failed? = some (.deadlineExceeded, failedAt) ∨ (a = .connect (.ok ()) ∧ deadline < now) := by
  unfold step at h
  split at h
  case h_3 =>
    split_ifs at h with hlate
    · exact Or.inr ⟨rfl, hlate⟩
    · obtain rfl := Option.some.inj h
      cases hr'
  case h_6 =>
    obtain rfl := Option.some.inj h
    exact Or.inl hr'
  all_goals
    cases h <;> cases hr'

end BlockingRead

/-! ### The request -/

/-- The permit a request waits for. -/
inductive Permit
  | pending | granted | closed
deriving DecidableEq

/-- The task of the request. -/
inductive Client (ν : Type)
  | acquiring
  | reading
  | done (result : Except DashboardReadError ν) (doneAt : ℕ)

/-- The request is answered. -/
def Client.IsDone {ν : Type} : Client ν → Prop
  | .done _ _ => True
  | _ => False

instance {ν : Type} : DecidablePred (Client.IsDone (ν := ν))
  | .acquiring | .reading => .isFalse id
  | .done _ _ => .isTrue trivial

/-- A request that reads the database. -/
structure ReadCall (ν : Type) where
  now : ℕ
  deadline : ℕ
  permit : Permit
  /-- The timer of the current wait has fired. -/
  fired : Bool
  reader : BlockingRead ν
  client : Client ν

/-- What happens next. -/
inductive ReadAction (ν : Type)
  | tick (elapsed : ℕ)
  | grant
  | close
  | fire
  | thread (action : ThreadAction ν)
  | poll

namespace ReadCall

variable {ν : Type}

/-- `database_operation` at its start. -/
def start (ν : Type) (now timeout : ℕ) : ReadCall ν where
  now := now
  deadline := now + timeout
  permit := .pending
  fired := false
  reader := .idle
  client := .acquiring

/-- The request is answered. -/
def answer (s : ReadCall ν) (result : Except DashboardReadError ν) : ReadCall ν :=
  { s with client := .done result s.now }

/-- A poll of a `timeout_at` whose future is not ready. -/
def wait (s : ReadCall ν) : ReadCall ν := if s.fired then s.answer (.error .timeout) else s

/-- A poll of the task of the request. -/
def poll (s : ReadCall ν) : Option (ReadCall ν) :=
  match s.client with
  | .acquiring =>
    match s.permit with
    | .granted => some { s with client := .reading, reader := .queued, fired := false }
    | .closed => some (s.answer (.error (.database "database read limiter closed".toList)))
    | .pending => some s.wait
  | .reading =>
    match s.reader with
    | .returned result => some (s.answer (BlockingRead.result result))
    | .crashed => some (s.answer (.error .join))
    | _ => some s.wait
  | .done _ _ => none

/-- The machine of a request. A timer fires at its deadline or later. -/
def machine (ν : Type) : Machine (ReadCall ν) (ReadAction ν) where
  step s
    | .tick elapsed => some { s with now := s.now + elapsed }
    | .grant => if s.permit = .pending then some { s with permit := .granted } else none
    | .close => if s.permit = .pending then some { s with permit := .closed } else none
    | .fire => if s.deadline ≤ s.now then some { s with fired := true } else none
    | .thread action =>
      (s.reader.step s.deadline s.now action).map fun reader ↦ { s with reader := reader }
    | .poll => s.poll

/-! ### What is to be reported -/

/-- The read failed because its deadline had passed: the connection step found no time left, or
SQLite reported at the deadline or later that the read was stopped. -/
def DueToDeadline (deadline : ℕ) : ReadFailure → ℕ → Prop
  | .deadlineExceeded, _ => True
  | .store (.sqlite error), failedAt => error.isStop ∧ deadline ≤ failedAt
  | .store (.other _), _ => False

/-- A read that failed because of its deadline is a timeout to the client. -/
def TimeoutReported (s : ReadCall ν) : Prop :=
  ∀ failure failedAt, s.reader.failed? = some (failure, failedAt) →
    DueToDeadline s.deadline failure failedAt → ∀ result doneAt, s.client = .done result doneAt →
      ∃ e, result = .error e ∧ ApiFailure.fromRead e = .databaseTimeout

/-- A failure, of the permit, of the read or of its task. -/
def Failing (s : ReadCall ν) : Prop :=
  s.permit = .closed ∨ s.reader.failed?.isSome ∨ s.reader = .crashed

/-- What the client hears of before the deadline: a failure is an error to it, and every error is a
database error. -/
def OthersReported (s : ReadCall ν) : Prop :=
  ∀ result doneAt, s.client = .done result doneAt → doneAt < s.deadline →
    (s.Failing → ∃ e, result = .error e) ∧
      ∀ e, result = .error e → ApiFailure.fromRead e = .database

/-! ### One step -/

variable {s t : ReadCall ν} {a : ReadAction ν}

/-- **What a poll does.** -/
theorem poll_cases (h : s.poll = some t) :
    (s.client = .acquiring ∧ s.permit = .granted ∧
      t = { s with client := .reading, reader := .queued, fired := false }) ∨
    (s.client = .acquiring ∧ s.permit = .closed ∧
      t = s.answer (.error (.database "database read limiter closed".toList))) ∨
    (∃ result, s.client = .reading ∧ s.reader = .returned result ∧
      t = s.answer (BlockingRead.result result)) ∨
    (s.client = .reading ∧ s.reader = .crashed ∧ t = s.answer (.error .join)) ∨
    ((∀ result doneAt, s.client ≠ .done result doneAt) ∧
      (s.client = .reading → ∀ result, s.reader ≠ .returned result) ∧ t = s.wait) := by
  rw [poll] at h
  split at h
  · rename_i hclient
    split at h
    · rename_i hpermit
      exact Or.inl ⟨hclient, hpermit, (Option.some.inj h).symm⟩
    · rename_i hpermit
      exact Or.inr (Or.inl ⟨hclient, hpermit, (Option.some.inj h).symm⟩)
    · refine Or.inr (Or.inr (Or.inr (Or.inr ⟨?_, ?_, (Option.some.inj h).symm⟩)))
      · simp [hclient]
      · simp [hclient]
  · rename_i hclient
    split at h
    · rename_i result hreader
      exact Or.inr (Or.inr (Or.inl ⟨result, hclient, hreader, (Option.some.inj h).symm⟩))
    · rename_i hreader
      exact Or.inr (Or.inr (Or.inr (Or.inl ⟨hclient, hreader, (Option.some.inj h).symm⟩)))
    · rename_i hreturned hcrashed
      refine Or.inr (Or.inr (Or.inr (Or.inr ⟨?_, ?_, (Option.some.inj h).symm⟩)))
      · simp [hclient]
      · exact fun _ result ↦ hreturned result
  · cases h

theorem reader_of_poll (h : s.poll = some t) : t.reader = s.reader ∨ t.reader = .queued := by
  obtain ⟨-, -, rfl⟩ | ⟨-, -, rfl⟩ | ⟨result, -, -, rfl⟩ | ⟨-, -, rfl⟩ | ⟨-, -, rfl⟩ := poll_cases h
  · exact Or.inr rfl
  · exact Or.inl rfl
  · exact Or.inl rfl
  · exact Or.inl rfl
  · rw [wait]
    split_ifs
    · exact Or.inl rfl
    · exact Or.inl rfl

/-- **What an action does**: all but a poll leave the client alone. -/
theorem step_cases (h : (machine ν).step s a = some t) :
    (a = .poll ∧ s.poll = some t) ∨ (a ≠ .poll ∧
      ((∃ now, s.now ≤ now ∧ t = { s with now := now }) ∨
        (∃ permit, s.permit = .pending ∧ t = { s with permit := permit }) ∨
        (s.deadline ≤ s.now ∧ t = { s with fired := true }) ∨
        ∃ action reader, a = .thread action ∧
          s.reader.step s.deadline s.now action = some reader ∧
          t = { s with reader := reader })) := by
  cases a with
  | tick elapsed =>
    exact Or.inr ⟨by simp, Or.inl ⟨_, Nat.le_add_right _ _, (Option.some.inj h).symm⟩⟩
  | grant =>
    simp only [machine] at h
    split_ifs at h with hpending
    exact Or.inr ⟨by simp, Or.inr (Or.inl ⟨_, hpending, (Option.some.inj h).symm⟩)⟩
  | close =>
    simp only [machine] at h
    split_ifs at h with hpending
    exact Or.inr ⟨by simp, Or.inr (Or.inl ⟨_, hpending, (Option.some.inj h).symm⟩)⟩
  | fire =>
    simp only [machine] at h
    split_ifs at h with hdue
    exact Or.inr ⟨by simp, Or.inr (Or.inr (Or.inl ⟨hdue, (Option.some.inj h).symm⟩))⟩
  | thread action =>
    obtain ⟨reader, hreader, rfl⟩ := Option.map_eq_some_iff.1 h
    exact Or.inr ⟨by simp, Or.inr (Or.inr (Or.inr ⟨action, reader, rfl, hreader, rfl⟩))⟩
  | poll => exact Or.inl ⟨rfl, h⟩

/-! ### Bookkeeping -/

/-- Where an answer comes from: the timer, the permit, the read, or its task. -/
inductive Answered (s : ReadCall ν) : Except DashboardReadError ν → ℕ → Prop
  | timer {doneAt : ℕ} : s.deadline ≤ doneAt → Answered s (.error .timeout) doneAt
  | limiter {text : Text} {doneAt : ℕ} : s.permit = .closed → s.reader = .idle →
      Answered s (.error (.database text)) doneAt
  | read {result : Except Failed ν} {doneAt : ℕ} : s.reader = .returned result →
      (∀ f, result = .error f → f.deadlineExhausted = true → s.deadline ≤ doneAt) →
      Answered s (BlockingRead.result result) doneAt
  | task {doneAt : ℕ} : s.reader = .crashed → Answered s (.error .join) doneAt

structure Inv (s : ReadCall ν) : Prop where
  idle : s.client = .acquiring → s.reader = .idle
  granted : s.reader ≠ .idle → s.permit = .granted
  fired : s.fired = true → s.deadline ≤ s.now
  failing : ∀ failure failedAt, s.reader = .failing failure failedAt → failedAt ≤ s.now
  returned : ∀ f, s.reader = .returned (.error f) →
    (s.deadline ≤ f.failedAt → f.deadlineExhausted = true) ∧
      (f.deadlineExhausted = true → s.deadline ≤ s.now)
  done : ∀ result doneAt, s.client = .done result doneAt → s.Answered result doneAt

theorem inv_start (now timeout : ℕ) : (start ν now timeout).Inv where
  idle _ := rfl
  granted h := absurd rfl h
  fired h := by cases h
  failing failure failedAt h := by cases h
  returned f h := by cases h
  done result doneAt h := by cases h

/-- A request that was answered stays answered in the same way while its task does not move. -/
theorem Answered.of_eq {result : Except DashboardReadError ν} {doneAt : ℕ}
    (h : s.Answered result doneAt) (hdeadline : t.deadline = s.deadline)
    (hpermit : s.permit = .closed → t.permit = .closed) (hreader : t.reader = s.reader) :
    t.Answered result doneAt := by
  cases h with
  | timer hdue => exact .timer (hdeadline ▸ hdue)
  | limiter hclosed hidle => exact .limiter (hpermit hclosed) (hreader.trans hidle)
  | read hreturned hdue =>
    refine .read (hreader.trans hreturned) fun f hf hexhausted ↦ ?_
    exact hdeadline ▸ hdue f hf hexhausted
  | task hcrashed => exact .task (hreader.trans hcrashed)

/-- A task that is on its way has answered nothing: a request that was answered was so by its
timer. -/
theorem Answered.timeout_of_active {result : Except DashboardReadError ν} {doneAt : ℕ}
    (h : s.Answered result doneAt) (hactive : s.reader.Active) :
    result = .error .timeout ∧ s.deadline ≤ doneAt := by
  cases h with
  | timer hdue => exact ⟨rfl, hdue⟩
  | limiter hclosed hidle => simp [hidle] at hactive
  | read hreturned hdue => simp [hreturned] at hactive
  | task hcrashed => simp [hcrashed] at hactive

/-- An answer that is given now. -/
theorem Inv.answer (h : s.Inv) {result : Except DashboardReadError ν}
    (hanswered : s.Answered result s.now) : (s.answer result).Inv where
  idle hclient := by cases hclient
  granted := h.granted
  fired := h.fired
  failing := h.failing
  returned := h.returned
  done result' doneAt hclient := by
    obtain ⟨rfl, rfl⟩ := Client.done.inj hclient
    exact hanswered.of_eq rfl id rfl

theorem Inv.poll (h : s.Inv) (hpoll : s.poll = some t) : t.Inv := by
  obtain ⟨hclient, hpermit, rfl⟩ | ⟨hclient, hpermit, rfl⟩ | ⟨result, hclient, hreader, rfl⟩ |
    ⟨hclient, hreader, rfl⟩ | ⟨-, -, rfl⟩ := poll_cases hpoll
  · exact {
      idle := by rintro ⟨⟩
      granted := fun _ ↦ hpermit
      fired := by rintro ⟨⟩
      failing := by rintro failure failedAt ⟨⟩
      returned := by rintro f ⟨⟩
      done := by rintro result doneAt ⟨⟩ }
  · exact h.answer (.limiter hpermit (h.idle hclient))
  · refine h.answer (.read hreader ?_)
    rintro f rfl
    exact (h.returned f hreader).2
  · exact h.answer (.task hreader)
  · rw [wait]
    split_ifs with hfired
    · exact h.answer (.timer (h.fired hfired))
    · exact h

/-- The blocking thread moves. -/
theorem Inv.thread (h : s.Inv) {action : ThreadAction ν} {reader : BlockingRead ν}
    (hreader : s.reader.step s.deadline s.now action = some reader) :
    { s with reader := reader }.Inv := by
  obtain ⟨hactive, hmoves⟩ := BlockingRead.step_cases hreader
  constructor
  · intro hclient
    simp [h.idle hclient] at hactive
  · intro _
    refine h.granted fun hidle ↦ ?_
    simp [hidle] at hactive
  · exact h.fired
  · rintro failure failedAt rfl
    obtain ⟨-, hnow⟩ | ⟨value, hr⟩ | hr | ⟨_, _, -, hr⟩ := hmoves
    · exact (hnow failure failedAt rfl).le
    · cases hr
    · cases hr
    · cases hr
  · rintro f rfl
    obtain ⟨hactive', -⟩ | ⟨value, hr⟩ | hr | ⟨failure, failedAt, hfailing, hr⟩ := hmoves
    · exact absurd hactive' (BlockingRead.not_active_returned _)
    · cases hr
    · cases hr
    · obtain rfl := Except.error.inj (BlockingRead.returned.inj hr)
      have hpast : failedAt ≤ s.now := h.failing failure failedAt hfailing
      exact ⟨fun hdue ↦ decide_eq_true (hdue.trans hpast), of_decide_eq_true⟩
  · intro result doneAt hclient
    obtain ⟨rfl, hdue⟩ := (h.done result doneAt hclient).timeout_of_active hactive
    exact .timer hdue

theorem Inv.step (h : s.Inv) (hstep : (machine ν).step s a = some t) : t.Inv := by
  obtain ⟨-, hpoll⟩ | ⟨-, hother⟩ := step_cases hstep
  · exact h.poll hpoll
  obtain ⟨now, hnow, rfl⟩ | ⟨permit, hpending, rfl⟩ | ⟨hdue, rfl⟩ |
    ⟨action, reader, -, hreader, rfl⟩ := hother
  · exact {
      idle := h.idle
      granted := h.granted
      fired hfired := (h.fired hfired).trans hnow
      failing failure failedAt hfailing := (h.failing failure failedAt hfailing).trans hnow
      returned f hf := ⟨(h.returned f hf).1, fun hex ↦ ((h.returned f hf).2 hex).trans hnow⟩
      done result doneAt hclient := (h.done result doneAt hclient).of_eq rfl id rfl }
  · refine { h with granted := fun hreader ↦ ?_, done := fun result doneAt hclient ↦ ?_ }
    · cases hpending.symm.trans (h.granted hreader)
    · refine (h.done result doneAt hclient).of_eq rfl (fun hclosed ↦ ?_) rfl
      cases hpending.symm.trans hclosed
  · refine { h with fired := fun _ ↦ hdue, done := fun result doneAt hclient ↦ ?_ }
    exact (h.done result doneAt hclient).of_eq rfl id rfl
  · exact h.thread hreader

theorem inv_of_run {now timeout : ℕ} {as : List (ReadAction ν)}
    (hrun : (machine ν).run (start ν now timeout) as = some s) : s.Inv :=
  Machine.run_invariant (fun _ _ _ h hstep ↦ h.step hstep) hrun (inv_start now timeout)

/-! ### What is reported -/

theorem report_of_due {deadline : ℕ} {f : Failed}
    (hexhausted : deadline ≤ f.failedAt → f.deadlineExhausted = true)
    (hdue : DueToDeadline deadline f.failure f.failedAt) :
    f.failure = .deadlineExceeded ∨ f.failure.report f.deadlineExhausted = .timeout := by
  obtain ⟨failure, failedAt, exhausted⟩ := f
  cases failure with
  | deadlineExceeded => exact Or.inl rfl
  | store error =>
    cases error with
    | sqlite error =>
      refine Or.inr ?_
      show classifySqliteErrorRef error exhausted = .timeout
      rw [classifySqliteErrorRef, if_pos ⟨hexhausted hdue.2, hdue.1⟩]
    | other text => cases hdue

/-- The poll finds a read that its own connection step ended at the deadline. -/
def FindsOwnDeadline (s : ReadCall ν) : ReadAction ν → Prop
  | .poll => s.client = .reading ∧
      ∃ f, s.reader = .returned (.error f) ∧ f.failure = .deadlineExceeded
  | _ => False

/-- The request was answered with the error of the connection step. -/
def Misreported (s : ReadCall ν) : Prop :=
  ∃ result doneAt f, s.client = .done result doneAt ∧ s.reader = .returned (.error f) ∧
    f.failure = .deadlineExceeded ∧ result ≠ .error .timeout

theorem fromRead_eq_databaseTimeout {e : DashboardReadError}
    (h : ApiFailure.fromRead e = .databaseTimeout) : e = .timeout := by
  have hne : ApiFailure.database ≠ .databaseTimeout := by decide
  cases e with
  | timeout => rfl
  | database text => exact absurd h hne
  | join => exact absurd h hne

/-- The error of the connection step is not classified as a timeout. -/
theorem result_ne_timeout {f : Failed} (h : f.failure = .deadlineExceeded) :
    (BlockingRead.result (.error f) : Except DashboardReadError ν) ≠ .error .timeout := by
  show (Except.error (f.failure.report f.deadlineExhausted) : Except _ ν) ≠ _
  rw [h]
  rintro ⟨⟩

/-- **A missed deadline is misreported in one way only.** -/
theorem Inv.timeoutReported_iff (h : s.Inv) : s.TimeoutReported ↔ ¬s.Misreported := by
  constructor
  · rintro hreported ⟨result, doneAt, f, hclient, hreader, hfailure, hne⟩
    have hfailed : s.reader.failed? = some (f.failure, f.failedAt) := by
      rw [hreader]
      rfl
    have hdue : DueToDeadline s.deadline f.failure f.failedAt := by
      rw [hfailure]
      trivial
    obtain ⟨e, rfl, he⟩ := hreported _ _ hfailed hdue result doneAt hclient
    exact hne (congrArg Except.error (fromRead_eq_databaseTimeout he))
  · intro hnot failure failedAt hfailed hdue result doneAt hclient
    cases h.done result doneAt hclient with
    | timer _ => exact ⟨_, rfl, rfl⟩
    | limiter _ hidle =>
      rw [hidle] at hfailed
      cases hfailed
    | task hcrashed =>
      rw [hcrashed] at hfailed
      cases hfailed
    | @read r _ hreader _ =>
      cases r with
      | ok value =>
        rw [hreader] at hfailed
        cases hfailed
      | error f =>
        rw [hreader] at hfailed
        obtain ⟨rfl, rfl⟩ := Prod.mk.inj (Option.some.inj hfailed)
        obtain hown | htimeout := report_of_due (h.returned f hreader).1 hdue
        · exact absurd ⟨_, _, f, hclient, hreader, hown, result_ne_timeout hown⟩ hnot
        · exact ⟨_, congrArg Except.error htimeout, rfl⟩

/-- A task that is on its way was not misreported. -/
theorem not_misreported_of_active (hactive : s.reader.Active) : ¬s.Misreported := by
  rintro ⟨result, doneAt, f, -, hreader, -, -⟩
  simp [hreader] at hactive

theorem not_misreported_of_not_done (hclient : ∀ result doneAt, s.client ≠ .done result doneAt) :
    ¬s.Misreported := by
  rintro ⟨result, doneAt, f, hdone, -⟩
  exact hclient result doneAt hdone

theorem misreported_answer_iff {result : Except DashboardReadError ν} :
    (s.answer result).Misreported ↔ result ≠ .error .timeout ∧
      ∃ f, s.reader = .returned (.error f) ∧ f.failure = .deadlineExceeded := by
  constructor
  · rintro ⟨result', doneAt, f, hclient, hreader, hfailure, hne⟩
    obtain ⟨rfl, rfl⟩ := Client.done.inj hclient
    exact ⟨hne, f, hreader, hfailure⟩
  · rintro ⟨hne, f, hreader, hfailure⟩
    exact ⟨result, s.now, f, rfl, hreader, hfailure, hne⟩

/-- A poll misreports exactly if it finds a read that its own connection step ended. -/
theorem Inv.misreported_poll_iff (h : s.Inv) (hpoll : s.poll = some t) :
    t.Misreported ↔ s.FindsOwnDeadline .poll := by
  obtain ⟨hclient, -, rfl⟩ | ⟨hclient, -, rfl⟩ | ⟨result, hclient, hreader, rfl⟩ |
    ⟨-, hreader, rfl⟩ | ⟨hclient, hreader, rfl⟩ := poll_cases hpoll
  · refine iff_of_false (not_misreported_of_active trivial) ?_
    rintro ⟨hreading, -⟩
    cases hclient.symm.trans hreading
  · rw [misreported_answer_iff, h.idle hclient]
    refine iff_of_false ?_ ?_
    · rintro ⟨-, f, hf, -⟩
      cases hf
    · rintro ⟨hreading, -⟩
      cases hclient.symm.trans hreading
  · rw [misreported_answer_iff]
    constructor
    · rintro ⟨-, f, hf, hfailure⟩
      exact ⟨hclient, f, hf, hfailure⟩
    · rintro ⟨-, f, hf, hfailure⟩
      refine ⟨?_, f, hf, hfailure⟩
      obtain rfl := BlockingRead.returned.inj (hreader.symm.trans hf)
      exact result_ne_timeout hfailure
  · rw [misreported_answer_iff]
    refine iff_of_false ?_ ?_
    · rintro ⟨-, f, hf, -⟩
      cases hreader.symm.trans hf
    · rintro ⟨-, f, hf, -⟩
      cases hreader.symm.trans hf
  · refine iff_of_false ?_ ?_
    · rw [wait]
      split_ifs
      · rw [misreported_answer_iff]
        exact fun hne ↦ hne.1 rfl
      · exact not_misreported_of_not_done hclient
    · rintro ⟨hreading, f, hf, -⟩
      exact hreader hreading _ hf

/-- **One action**: what was misreported stays so, and a poll that finds such a read adds to it. -/
theorem Inv.misreported_iff (h : s.Inv) (hstep : (machine ν).step s a = some t) :
    t.Misreported ↔ s.Misreported ∨ s.FindsOwnDeadline a := by
  obtain ⟨rfl, hpoll⟩ | ⟨hne, hother⟩ := step_cases hstep
  · rw [h.misreported_poll_iff hpoll]
    have hclient : ∀ result doneAt, s.client ≠ .done result doneAt := by
      intro result doneAt hdone
      rw [ReadCall.poll, hdone] at hpoll
      cases hpoll
    exact (or_iff_right (not_misreported_of_not_done hclient)).symm
  · have hfinds : ¬s.FindsOwnDeadline a := by
      cases a with
      | poll => exact absurd rfl hne
      | _ => exact id
    rw [or_iff_left hfinds]
    obtain ⟨now, -, rfl⟩ | ⟨permit, -, rfl⟩ | ⟨-, rfl⟩ | ⟨action, reader, -, hreader, rfl⟩ := hother
    · exact Iff.rfl
    · exact Iff.rfl
    · exact Iff.rfl
    · have hactive := (BlockingRead.step_cases hreader).1
      refine iff_of_false ?_ (not_misreported_of_active hactive)
      rintro ⟨result, doneAt, f, hclient, -, -, hne⟩
      exact hne ((h.done result doneAt hclient).timeout_of_active hactive).1

/-- Before the deadline nothing is classified as a timeout. -/
theorem fromRead_report_false (failure : ReadFailure) :
    ApiFailure.fromRead (failure.report false) = .database := by
  cases failure with
  | deadlineExceeded => rfl
  | store error =>
    cases error with
    | sqlite error => rfl
    | other text => rfl

theorem Inv.othersReported (h : s.Inv) : s.OthersReported := by
  intro result doneAt hclient hbefore
  cases h.done result doneAt hclient with
  | timer hdue => exact absurd hdue (not_le.2 hbefore)
  | limiter hclosed hidle =>
    refine ⟨fun _ ↦ ⟨_, rfl⟩, ?_⟩
    rintro e ⟨⟩
    rfl
  | task hcrashed =>
    refine ⟨fun _ ↦ ⟨_, rfl⟩, ?_⟩
    rintro e ⟨⟩
    rfl
  | @read r _ hreader hdue =>
    cases r with
    | ok value =>
      refine ⟨?_, by rintro e ⟨⟩⟩
      rintro (hclosed | hfailed | hcrashed)
      · have hgranted := h.granted (by rw [hreader]; rintro ⟨⟩)
        cases hgranted.symm.trans hclosed
      · rw [hreader] at hfailed
        cases hfailed
      · cases hreader.symm.trans hcrashed
    | error f =>
      refine ⟨fun _ ↦ ⟨_, rfl⟩, ?_⟩
      rintro e ⟨⟩
      have hexhausted : f.deadlineExhausted = false := by
        rw [← Bool.not_eq_true]
        exact fun hex ↦ not_le.2 hbefore (hdue f rfl hex)
      show ApiFailure.fromRead (f.failure.report f.deadlineExhausted) = .database
      rw [hexhausted]
      exact fromRead_report_false f.failure

/-! ### Whole runs -/

/-- Exactly the polls that find a read ended by its own connection step make a run misreport a
missed deadline. -/
theorem timeoutReported_iff_along {now timeout : ℕ} {as : List (ReadAction ν)}
    (hrun : (machine ν).run (start ν now timeout) as = some s) :
    s.TimeoutReported ↔
      (machine ν).Along (fun s a ↦ ¬s.FindsOwnDeadline a) (start ν now timeout) as := by
  have hstart : ¬(start ν now timeout).Misreported :=
    not_misreported_of_not_done (by rintro result doneAt ⟨⟩)
  have hstep : ∀ (s : ReadCall ν) a t, s.Inv → True → (machine ν).step s a = some t →
      (¬t.Misreported ↔ ¬s.Misreported ∧ ¬s.FindsOwnDeadline a) := by
    intro s a t h _ hstep
    rw [h.misreported_iff hstep, not_or]
  rw [(inv_of_run hrun).timeoutReported_iff,
    Machine.run_iff_along_under (fun s a t h _ hstep ↦ h.step hstep) hstep hrun
      (Machine.along_of_forall (fun _ _ ↦ trivial) _ _) (inv_start now timeout)]
  exact and_iff_right hstart

/-- The connection step has not ended the read. -/
def InTime (s : ReadCall ν) : Prop :=
  ∀ failedAt, s.reader.failed? ≠ some (.deadlineExceeded, failedAt)

theorem InTime.step (h : s.InTime)
    (hintime : a = .thread (.connect (.ok ())) → s.now ≤ s.deadline)
    (hstep : (machine ν).step s a = some t) : t.InTime := by
  intro failedAt hfailed
  obtain ⟨-, hpoll⟩ | ⟨-, hother⟩ := step_cases hstep
  · obtain hreader | hreader := reader_of_poll hpoll
    · exact h failedAt (hreader ▸ hfailed)
    · rw [hreader] at hfailed
      cases hfailed
  · obtain ⟨now, -, rfl⟩ | ⟨permit, -, rfl⟩ | ⟨-, rfl⟩ | ⟨action, reader, rfl, hreader, rfl⟩ :=
      hother
    · exact h failedAt hfailed
    · exact h failedAt hfailed
    · exact h failedAt hfailed
    · obtain hbefore | ⟨rfl, hlate⟩ := BlockingRead.late_of_deadlineExceeded hreader hfailed
      · exact h failedAt hbefore
      · exact not_le.2 hlate (hintime rfl)

/-- Where the connection step is never taken behind the deadline, every missed deadline is a
timeout to the client. -/
theorem timeoutReported_of_punctual {now timeout : ℕ} {as : List (ReadAction ν)}
    (hrun : (machine ν).run (start ν now timeout) as = some s)
    (hpunctual : (machine ν).Along
      (fun s a ↦ a = .thread (.connect (.ok ())) → s.now ≤ s.deadline) (start ν now timeout) as) :
    s.TimeoutReported := by
  have hstart : (start ν now timeout).InTime := by
    rintro failedAt ⟨⟩
  have hintime : s.InTime :=
    Machine.run_invariant_along (fun s a t h hcond hstep ↦ h.step hcond hstep) hrun hpunctual hstart
  rw [(inv_of_run hrun).timeoutReported_iff]
  rintro ⟨result, doneAt, f, -, hreader, hfailure, -⟩
  refine hintime f.failedAt ?_
  rw [hreader, ← hfailure]
  rfl

/-- **What the client is told of a read that fails.** Every missed deadline is a timeout to it
exactly if no poll finds a read that its own connection step ended, and so wherever the connection
step comes in time. Every other failure that it hears of before the deadline is a database error, in
every run. -/
theorem missed_deadline_reported_iff {now timeout : ℕ} {as : List (ReadAction ν)}
    (hrun : (machine ν).run (start ν now timeout) as = some s) :
    (s.TimeoutReported ↔
      (machine ν).Along (fun s a ↦ ¬s.FindsOwnDeadline a) (start ν now timeout) as) ∧
    ((machine ν).Along (fun s a ↦ a = .thread (.connect (.ok ())) → s.now ≤ s.deadline)
      (start ν now timeout) as → s.TimeoutReported) ∧
    s.OthersReported :=
  ⟨timeoutReported_iff_along hrun, timeoutReported_of_punctual hrun,
    (inv_of_run hrun).othersReported⟩

/-- A read that SQLite stops at the deadline. -/
def stoppedRun : List (ReadAction Unit) :=
  [.grant, .poll, .thread .start, .thread (.connect (.ok ())), .tick 2000,
    .thread (.query (.error (.sqlite ⟨some .operationInterrupted, "interrupted".toList⟩))),
    .thread .report, .poll]

/-- Its end. -/
def stoppedCall : ReadCall Unit where
  now := 2000
  deadline := 2000
  permit := .granted
  fired := false
  reader := .returned (.error
    ⟨.store (.sqlite ⟨some .operationInterrupted, "interrupted".toList⟩), 2000, true⟩)
  client := .done (.error .timeout) 2000

theorem missed_deadline_reported_iff_stopped :
    (machine Unit).run (start Unit 0 2000) stoppedRun = some stoppedCall ∧
      (machine Unit).Along (fun s a ↦ ¬s.FindsOwnDeadline a) (start Unit 0 2000) stoppedRun ∧
      stoppedCall.OthersReported := by
  have hrun : (machine Unit).run (start Unit 0 2000) stoppedRun = some stoppedCall := rfl
  have hreported : stoppedCall.TimeoutReported := by
    rintro failure failedAt - - result doneAt ⟨⟩
    exact ⟨.timeout, rfl, rfl⟩
  obtain ⟨hiff, -, hothers⟩ := missed_deadline_reported_iff hrun
  exact ⟨hrun, hiff.1 hreported, hothers⟩

/-- A read that is taken up a millisecond behind the deadline and polled before the timer. -/
def lateRun : List (ReadAction Unit) :=
  [.grant, .poll, .tick 2001, .thread .start, .thread (.connect (.ok ())), .thread .report, .poll]

/-- Its end. -/
def lateCall : ReadCall Unit where
  now := 2001
  deadline := 2000
  permit := .granted
  fired := false
  reader := .returned (.error ⟨.deadlineExceeded, 2001, true⟩)
  client := .done (.error (.database "dashboard database read deadline exceeded".toList)) 2001

/-- The error of the connection step reaches the client as a database error. -/
theorem missed_deadline_misreported :
    ¬∀ (now timeout : ℕ) (as : List (ReadAction Unit)) (s : ReadCall Unit),
      (machine Unit).run (start Unit now timeout) as = some s →
        s.TimeoutReported ∧ s.OthersReported := by
  intro hall
  have hrun : (machine Unit).run (start Unit 0 2000) lateRun = some lateCall := rfl
  have hreported := (hall 0 2000 lateRun lateCall hrun).1
  obtain ⟨e, he, htimeout⟩ := hreported .deadlineExceeded 2001 rfl trivial _ _ rfl
  obtain rfl := Except.error.inj he
  exact absurd htimeout (by decide)

end ReadCall

end DnsBuffer
