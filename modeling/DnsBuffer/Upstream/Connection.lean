import DnsBuffer.Foundation.Machine
import Mathlib.Data.List.Basic
import Mathlib.Data.Nat.Basic

/-!
# A reused connection

`DohResolver::resolve_h2` and `H3Conn::request` share one design: a slot behind a lock holds at most
one connection; a request takes the connection out of the slot under the lock, or makes one there,
sends outside the lock, and after a failed send goes back to the slot to throw the connection away
before it tries once more. Any number of requests do this at the same time.

The two differ in four places, which are the fields of `ConnectionPolicy`: whether a connection is
tested before it is used again, what is noted about a new connection, which outcomes of a send count
as a failure of the connection, and whether a failure of one connection empties a slot that holds
another. Everything else is one machine.

```
locking --acquire--> connecting --connected--> ready        the lock is held while connecting
locking --acquire--> ready --build--> sending --sent--> returned
sending --sent--> reporting --report--> locking             on the first attempt
reporting --report--> returned                              on the second
```

The lock is free whenever nobody is connecting, so taking the connection out of the slot and
throwing it away are one step each. A connection may die at any moment, and a call may be dropped
wherever it waits, which releases the lock if it holds it.
-/

namespace DnsBuffer

/-! ### Sending -/

/-- How sending on a connection ends: it fails, or there is a response with a status and a body,
which may break off. -/
inductive SendOutcome
  | failed
  | response (status : ℕ) (body : Option (List UInt8))
deriving DecidableEq

/-- How a request fails. -/
inductive ConnectionError
  | connect
  | build
  | send
  | status (code : ℕ)
  | body
deriving DecidableEq

/-- What the caller gets out of a send. -/
def SendOutcome.result : SendOutcome → Except ConnectionError (List UInt8)
  | .failed => .error .send
  | .response status body =>
    if status ≠ 200 then .error (.status status)
    else body.elim (.error .body) .ok

/-- The send has succeeded. -/
def SendOutcome.isOk (o : SendOutcome) : Bool := o.result.toBool

/-! ### The slot and its requests -/

/-- A connection that was put into the slot: how many were made before it, and the mark noted with
it. -/
structure Connection (μ : Type) where
  index : ℕ
  mark : μ
deriving DecidableEq

/-- Where the two users of a slot differ. -/
structure ConnectionPolicy (μ : Type) where
  /-- A connection that has died is thrown away before reuse. -/
  testsLiveness : Bool
  /-- The mark of a new connection, from the number of connections made before it. -/
  mark : ℕ → μ
  /-- The outcome counts as a failure of the connection. -/
  reports : SendOutcome → Bool
  /-- A failure on a connection with the first mark empties a slot that holds the second. -/
  clears : μ → μ → Bool

/-- How far a request has got; `attempt` counts from zero. -/
inductive RequestPhase (μ : Type)
  | locking (attempt : ℕ)
  | connecting (attempt : ℕ)
  | ready (attempt : ℕ) (connection : Connection μ)
  | sending (attempt : ℕ) (connection : Connection μ)
  | reporting (attempt : ℕ) (connection : Connection μ) (error : ConnectionError)
  | returned (result : Except ConnectionError (List UInt8))
  | dropped
deriving DecidableEq

/-- A request, with the connections it was sent on and how its sends ended. -/
structure Request (μ : Type) where
  phase : RequestPhase μ
  sent : List (Connection μ)
  outcomes : List (Connection μ × SendOutcome)
deriving DecidableEq

/-- The slot, its lock, the connections ever put into the slot, those that have died, and the
requests. -/
structure SlotState (μ : Type) where
  slot : Option (Connection μ)
  lock : Option ℕ
  made : List (Connection μ)
  dead : List ℕ
  requests : List (Request μ)
deriving DecidableEq

/-- Nothing connected, nothing asked. -/
def SlotState.empty (μ : Type) : SlotState μ := ⟨none, none, [], [], []⟩

/-- One atomic piece of a concurrent execution. -/
inductive SlotAction
  /-- A request is made. -/
  | call
  /-- Request `i` gets the lock, and takes the connection if there is one it may use. -/
  | acquire (i : ℕ)
  /-- The connection attempt of request `i` ends. -/
  | connected (i : ℕ) (ok : Bool)
  /-- Request `i` builds its message. -/
  | build (i : ℕ) (ok : Bool)
  /-- The send of request `i` ends. -/
  | sent (i : ℕ) (outcome : SendOutcome)
  /-- Request `i` gets the lock to report its failed send. -/
  | report (i : ℕ)
  /-- A connection dies. -/
  | die (index : ℕ)
  /-- The caller of request `i` gives up. -/
  | drop (i : ℕ)
deriving DecidableEq

/-! ### The machine -/

namespace SlotState

variable {μ : Type}

/-- Request `i` moves on. -/
def move (s : SlotState μ) (i : ℕ) (r : Request μ) (phase : RequestPhase μ) : SlotState μ :=
  { s with requests := s.requests.set i { r with phase := phase } }

/-- The connection that a request finds in the slot and may use. -/
def usable (p : ConnectionPolicy μ) (s : SlotState μ) : Option (Connection μ) :=
  s.slot.filter fun c ↦ ¬(p.testsLiveness ∧ c.index ∈ s.dead)

/-- The slot after a failure on a connection was reported. -/
def invalidate (p : ConnectionPolicy μ) (s : SlotState μ) (failed : Connection μ) :
    Option (Connection μ) :=
  s.slot.filter fun held ↦ ¬p.clears failed.mark held.mark

/-- Request `i` with the lock: the connection is taken, or the lock is kept to make one. -/
def acquire (p : ConnectionPolicy μ) (s : SlotState μ) (i : ℕ) (r : Request μ) (attempt : ℕ) :
    SlotState μ :=
  match s.usable p with
  | some c => { s with slot := some c }.move i r (.ready attempt c)
  | none => { s with slot := none, lock := some i }.move i r (.connecting attempt)

/-- The connection attempt of request `i` ends; either way the lock is released. -/
def connected (p : ConnectionPolicy μ) (s : SlotState μ) (i : ℕ) (r : Request μ) (attempt : ℕ) :
    Bool → SlotState μ
  | true =>
    let c := ⟨s.made.length, p.mark s.made.length⟩
    { s with slot := some c, lock := none, made := s.made ++ [c] }.move i r (.ready attempt c)
  | false => { s with lock := none }.move i r (.returned (.error .connect))

/-- Request `i` sends, unless its message cannot be built. -/
def build (s : SlotState μ) (i : ℕ) (r : Request μ) (attempt : ℕ) (c : Connection μ) :
    Bool → SlotState μ
  | true => s.move i { r with sent := r.sent ++ [c] } (.sending attempt c)
  | false => s.move i r (.returned (.error .build))

/-- The send of request `i` ends: a failure of the connection is still to be reported. -/
def finishSend (p : ConnectionPolicy μ) (s : SlotState μ) (i : ℕ) (r : Request μ) (attempt : ℕ)
    (c : Connection μ) (outcome : SendOutcome) : SlotState μ :=
  let r := { r with outcomes := r.outcomes ++ [(c, outcome)] }
  match p.reports outcome, outcome.result with
  | true, .error error => s.move i r (.reporting attempt c error)
  | _, result => s.move i r (.returned result)

/-- Request `i` reports its failure, and tries once more if this was its first attempt. -/
def report (p : ConnectionPolicy μ) (s : SlotState μ) (i : ℕ) (r : Request μ) (attempt : ℕ)
    (c : Connection μ) (error : ConnectionError) : SlotState μ :=
  let s := { s with slot := s.invalidate p c }
  if attempt = 1 then s.move i r (.returned (.error error)) else s.move i r (.locking (attempt + 1))

/-- The caller of request `i` gives up: wherever the request waits, its future is dropped. -/
def dropRequest (s : SlotState μ) (i : ℕ) (r : Request μ) : SlotState μ :=
  { s with lock := s.lock.filter (· ≠ i) }.move i r .dropped

/-- The slot and its requests as a machine. -/
def machine (p : ConnectionPolicy μ) : Machine (SlotState μ) SlotAction where
  step s
    | .call => some { s with requests := s.requests ++ [⟨.locking 0, [], []⟩] }
    | .acquire i =>
      s.requests[i]?.bind fun r ↦
        match s.lock, r.phase with
        | none, .locking attempt => some (s.acquire p i r attempt)
        | _, _ => none
    | .connected i ok =>
      s.requests[i]?.bind fun r ↦
        match r.phase with
        | .connecting attempt => some (s.connected p i r attempt ok)
        | _ => none
    | .build i ok =>
      s.requests[i]?.bind fun r ↦
        match r.phase with
        | .ready attempt c => some (s.build i r attempt c ok)
        | _ => none
    | .sent i outcome =>
      s.requests[i]?.bind fun r ↦
        match r.phase with
        | .sending attempt c => some (s.finishSend p i r attempt c outcome)
        | _ => none
    | .report i =>
      s.requests[i]?.bind fun r ↦
        match s.lock, r.phase with
        | none, .reporting attempt c error => some (s.report p i r attempt c error)
        | _, _ => none
    | .die index => if index < s.made.length then some { s with dead := index :: s.dead } else none
    | .drop i =>
      s.requests[i]?.bind fun r ↦
        match r.phase with
        | .returned _ => none
        | .dropped => none
        | _ => some (s.dropRequest i r)

/-! ### What one step can do -/

/-- The enabled steps and their effects. -/
inductive Step (p : ConnectionPolicy μ) (s : SlotState μ) : SlotAction → SlotState μ → Prop
  | call : Step p s .call { s with requests := s.requests ++ [⟨.locking 0, [], []⟩] }
  | take {i attempt : ℕ} {r : Request μ} {c : Connection μ} (hi : s.requests[i]? = some r)
      (hphase : r.phase = .locking attempt) (hslot : s.slot = some c) :
      Step p s (.acquire i) (s.move i r (.ready attempt c))
  | make {i attempt : ℕ} {r : Request μ} (hlock : s.lock = none) (hi : s.requests[i]? = some r)
      (hphase : r.phase = .locking attempt)
      (hdead : ∀ c, s.slot = some c → p.testsLiveness ∧ c.index ∈ s.dead) :
      Step p s (.acquire i)
        ({ s with slot := none, lock := some i }.move i r (.connecting attempt))
  | connect {i attempt : ℕ} {r : Request μ} {c : Connection μ} (hi : s.requests[i]? = some r)
      (hphase : r.phase = .connecting attempt)
      (hc : c = ⟨s.made.length, p.mark s.made.length⟩) :
      Step p s (.connected i true)
        ({ s with slot := some c, lock := none, made := s.made ++ [c] }.move i r (.ready attempt c))
  | connectFailed {i attempt : ℕ} {r : Request μ} (hi : s.requests[i]? = some r)
      (hphase : r.phase = .connecting attempt) :
      Step p s (.connected i false) ({ s with lock := none }.move i r (.returned (.error .connect)))
  | send {i attempt : ℕ} {r : Request μ} {c : Connection μ} (hi : s.requests[i]? = some r)
      (hphase : r.phase = .ready attempt c) :
      Step p s (.build i true) (s.move i { r with sent := r.sent ++ [c] } (.sending attempt c))
  | buildFailed {i attempt : ℕ} {r : Request μ} {c : Connection μ} (hi : s.requests[i]? = some r)
      (hphase : r.phase = .ready attempt c) :
      Step p s (.build i false) (s.move i r (.returned (.error .build)))
  | fail {i attempt : ℕ} {r : Request μ} {c : Connection μ} {outcome : SendOutcome}
      {error : ConnectionError} (hi : s.requests[i]? = some r)
      (hphase : r.phase = .sending attempt c) (hreports : p.reports outcome)
      (hresult : outcome.result = .error error) :
      Step p s (.sent i outcome)
        (s.move i { r with outcomes := r.outcomes ++ [(c, outcome)] } (.reporting attempt c error))
  | finish {i attempt : ℕ} {r : Request μ} {c : Connection μ} {outcome : SendOutcome}
      (hi : s.requests[i]? = some r) (hphase : r.phase = .sending attempt c) :
      Step p s (.sent i outcome)
        (s.move i { r with outcomes := r.outcomes ++ [(c, outcome)] } (.returned outcome.result))
  | retry {i attempt : ℕ} {r : Request μ} {c : Connection μ} {error : ConnectionError}
      (hi : s.requests[i]? = some r) (hphase : r.phase = .reporting attempt c error)
      (hfirst : attempt ≠ 1) :
      Step p s (.report i)
        ({ s with slot := s.invalidate p c }.move i r (.locking (attempt + 1)))
  | giveUp {i : ℕ} {r : Request μ} {c : Connection μ} {error : ConnectionError}
      (hi : s.requests[i]? = some r) (hphase : r.phase = .reporting 1 c error) :
      Step p s (.report i)
        ({ s with slot := s.invalidate p c }.move i r (.returned (.error error)))
  | die {index : ℕ} : Step p s (.die index) { s with dead := index :: s.dead }
  | drop {i : ℕ} {r : Request μ} (hi : s.requests[i]? = some r)
      (hopen : ∀ result, r.phase ≠ .returned result) : Step p s (.drop i) (s.dropRequest i r)

variable {p : ConnectionPolicy μ} {s t : SlotState μ} {a : SlotAction}

theorem step_acquire {i attempt : ℕ} {r : Request μ} (hlock : s.lock = none)
    (hi : s.requests[i]? = some r) (hphase : r.phase = .locking attempt) :
    Step p s (.acquire i) (s.acquire p i r attempt) := by
  rcases husable : s.usable p with - | c
  · have hdead : ∀ c, s.slot = some c → p.testsLiveness ∧ c.index ∈ s.dead := by
      intro c hc
      rw [usable, hc] at husable
      simpa using husable
    simpa only [acquire, husable] using Step.make hlock hi hphase hdead
  · have hslot : s.slot = some c := (Option.filter_eq_some_iff.1 husable).1
    have hsame : { s with slot := some c } = s := by rw [← hslot]
    simpa only [acquire, husable, hsame] using Step.take (p := p) hi hphase hslot

theorem step_finishSend {i attempt : ℕ} {r : Request μ} {c : Connection μ}
    (hi : s.requests[i]? = some r) (hphase : r.phase = .sending attempt c)
    (outcome : SendOutcome) :
    Step p s (.sent i outcome) (s.finishSend p i r attempt c outcome) := by
  rcases hreports : p.reports outcome with - | -
  · simpa only [finishSend, hreports] using Step.finish (p := p) hi hphase
  · rcases hresult : outcome.result with error | body
    · simpa only [finishSend, hreports, hresult] using Step.fail hi hphase hreports hresult
    · have hfinish : Step p s (.sent i outcome) _ := Step.finish hi hphase
      simpa only [finishSend, hreports, hresult] using hfinish

theorem step_report {i attempt : ℕ} {r : Request μ} {c : Connection μ} {error : ConnectionError}
    (hi : s.requests[i]? = some r) (hphase : r.phase = .reporting attempt c error) :
    Step p s (.report i) (s.report p i r attempt c error) := by
  by_cases hfirst : attempt = 1
  · subst hfirst
    simpa only [report, if_true] using Step.giveUp hi hphase
  · simpa only [report, if_neg hfirst] using Step.retry hi hphase hfirst

/-- **Inversion of the machine.** -/
theorem step_of_machine (h : (machine p).step s a = some t) : Step p s a t := by
  rcases a with - | i | ⟨i, - | -⟩ | ⟨i, - | -⟩ | ⟨i, outcome⟩ | i | index | i
  · obtain rfl := Option.some.inj h
    exact .call
  · obtain ⟨r, hi, hr⟩ := Option.bind_eq_some_iff.1 h
    split at hr
    · rename_i attempt hlock hphase
      obtain rfl := Option.some.inj hr
      exact step_acquire hlock hi hphase
    · exact absurd hr (by simp)
  · obtain ⟨r, hi, hr⟩ := Option.bind_eq_some_iff.1 h
    split at hr
    · rename_i attempt hphase
      obtain rfl := Option.some.inj hr
      exact .connectFailed hi hphase
    · exact absurd hr (by simp)
  · obtain ⟨r, hi, hr⟩ := Option.bind_eq_some_iff.1 h
    split at hr
    · rename_i attempt hphase
      obtain rfl := Option.some.inj hr
      exact .connect hi hphase rfl
    · exact absurd hr (by simp)
  · obtain ⟨r, hi, hr⟩ := Option.bind_eq_some_iff.1 h
    split at hr
    · rename_i attempt c hphase
      obtain rfl := Option.some.inj hr
      exact .buildFailed hi hphase
    · exact absurd hr (by simp)
  · obtain ⟨r, hi, hr⟩ := Option.bind_eq_some_iff.1 h
    split at hr
    · rename_i attempt c hphase
      obtain rfl := Option.some.inj hr
      exact .send hi hphase
    · exact absurd hr (by simp)
  · obtain ⟨r, hi, hr⟩ := Option.bind_eq_some_iff.1 h
    split at hr
    · rename_i attempt c hphase
      obtain rfl := Option.some.inj hr
      exact step_finishSend hi hphase outcome
    · exact absurd hr (by simp)
  · obtain ⟨r, hi, hr⟩ := Option.bind_eq_some_iff.1 h
    split at hr
    · rename_i attempt c error hlock hphase
      obtain rfl := Option.some.inj hr
      exact step_report hi hphase
    · exact absurd hr (by simp)
  · obtain ⟨-, hsome⟩ := Option.ite_none_right_eq_some.1 h
    obtain rfl := Option.some.inj hsome
    exact .die
  · obtain ⟨r, hi, hr⟩ := Option.bind_eq_some_iff.1 h
    split at hr
    · exact absurd hr (by simp)
    · exact absurd hr (by simp)
    · rename_i hopen _
      obtain rfl := Option.some.inj hr
      exact .drop hi hopen

end SlotState

/-! ### The invariant -/

/-- The connection a request holds on to. -/
def RequestPhase.connection? {μ : Type} : RequestPhase μ → Option (Connection μ)
  | .ready _ c => some c
  | .sending _ c => some c
  | .reporting _ c _ => some c
  | _ => none

/-- How many sends a request in a phase has made: one for each attempt behind it, and the one it is
at. -/
def RequestPhase.Sends {μ : Type} (n : ℕ) : RequestPhase μ → Prop
  | .locking attempt => attempt ≤ 1 ∧ n = attempt
  | .connecting attempt => attempt ≤ 1 ∧ n = attempt
  | .ready attempt _ => attempt ≤ 1 ∧ n = attempt
  | .sending attempt _ => attempt ≤ 1 ∧ n = attempt + 1
  | .reporting attempt _ _ => attempt ≤ 1 ∧ n = attempt + 1
  | .returned _ => n ≤ 2
  | .dropped => n ≤ 2

theorem RequestPhase.Sends.le_two {μ : Type} {n : ℕ} {phase : RequestPhase μ}
    (h : phase.Sends n) : n ≤ 2 := by
  rcases phase with k | k | ⟨k, c⟩ | ⟨k, c⟩ | ⟨k, c, e⟩ | result | - <;>
    simp only [RequestPhase.Sends] at h <;> omega

/-- What a request knows is true: its connection was made, its sends are counted, it has returned
an answer exactly if one of its sends has succeeded, and what it reports has happened. -/
structure Request.Sound {μ : Type} (made : List (Connection μ)) (r : Request μ) : Prop where
  connection : ∀ c, r.phase.connection? = some c → c ∈ made
  sends : r.phase.Sends r.sent.length
  answered : (∃ body, r.phase = .returned (.ok body)) ↔ ∃ x ∈ r.outcomes, x.2.isOk
  failed : ∀ attempt c error, r.phase = .reporting attempt c error →
    ∃ outcome, (c, outcome) ∈ r.outcomes ∧ outcome.result = .error error

namespace Request.Sound

variable {μ : Type} {made made' : List (Connection μ)} {r : Request μ} {c : Connection μ}

theorem mono (h : r.Sound made) (hsub : made ⊆ made') : r.Sound made' :=
  ⟨fun c hc ↦ hsub (h.connection c hc), h.sends, h.answered, h.failed⟩

/-- A request that has not returned an answer has had no success. -/
theorem not_isOk (h : r.Sound made) (hphase : ∀ result, r.phase ≠ .returned result)
    {x : Connection μ × SendOutcome} (hx : x ∈ r.outcomes) : ¬x.2.isOk := by
  intro hok
  obtain ⟨body, hbody⟩ := h.answered.2 ⟨x, hx, hok⟩
  exact hphase _ hbody

/-- A phase without an answer, entered from such a phase without a send ending. -/
theorem move (h : r.Sound made) (hopen : ∀ result, r.phase ≠ .returned result)
    {phase : RequestPhase μ} {sent : List (Connection μ)}
    (hclosed : ∀ body, phase ≠ .returned (.ok body))
    (hreport : ∀ attempt c error, phase ≠ .reporting attempt c error)
    (hmade : ∀ c, phase.connection? = some c → c ∈ made) (hsends : phase.Sends sent.length) :
    Request.Sound made ⟨phase, sent, r.outcomes⟩ where
  connection := hmade
  sends := hsends
  answered := by
    constructor
    · rintro ⟨body, hbody⟩
      exact absurd hbody (hclosed body)
    · rintro ⟨x, hx, hok⟩
      exact absurd hok (h.not_isOk hopen hx)
  failed attempt c error hphase := absurd hphase (hreport attempt c error)

/-- The end of a send that is passed on to the caller. -/
theorem finish (h : r.Sound made) {attempt : ℕ} (hphase : r.phase = .sending attempt c)
    (outcome : SendOutcome) :
    Request.Sound made ⟨.returned outcome.result, r.sent, r.outcomes ++ [(c, outcome)]⟩ where
  connection _ hc := absurd hc (by simp [RequestPhase.connection?])
  sends := by
    have hsends := h.sends
    rw [hphase] at hsends
    have : attempt ≤ 1 ∧ r.sent.length = attempt + 1 := hsends
    show r.sent.length ≤ 2
    omega
  answered := by
    constructor
    · rintro ⟨body, hbody⟩
      refine ⟨(c, outcome), List.mem_append_right _ (List.mem_singleton.2 rfl), ?_⟩
      rw [SendOutcome.isOk, RequestPhase.returned.inj hbody]
      rfl
    · rintro ⟨x, hx, hok⟩
      rcases List.mem_append.1 hx with hx | hx
      · exact absurd hok (h.not_isOk (by simp [hphase]) hx)
      · rw [List.mem_singleton.1 hx] at hok
        rcases hresult : outcome.result with error | body
        · rw [SendOutcome.isOk, hresult] at hok
          exact absurd hok (by simp [Except.toBool])
        · exact ⟨body, rfl⟩
  failed _ _ _ hreporting := absurd hreporting (by simp)

/-- The end of a send that is to be reported. -/
theorem fail (h : r.Sound made) {attempt : ℕ} (hphase : r.phase = .sending attempt c)
    {outcome : SendOutcome} {error : ConnectionError} (hresult : outcome.result = .error error) :
    Request.Sound made
      ⟨.reporting attempt c error, r.sent, r.outcomes ++ [(c, outcome)]⟩ where
  connection d hd := h.connection d (by rw [hphase]; exact hd)
  sends := by
    have hsends := h.sends
    rw [hphase] at hsends
    exact hsends
  answered := by
    refine iff_of_false (by simp) ?_
    rintro ⟨x, hx, hok⟩
    rcases List.mem_append.1 hx with hx | hx
    · exact absurd hok (h.not_isOk (by simp [hphase]) hx)
    · rw [List.mem_singleton.1 hx, SendOutcome.isOk, hresult] at hok
      exact absurd hok (by simp [Except.toBool])
  failed k d e hreporting := by
    obtain ⟨-, rfl, rfl⟩ := RequestPhase.reporting.inj hreporting
    exact ⟨outcome, List.mem_append_right _ (List.mem_singleton.2 rfl), hresult⟩

end Request.Sound

namespace SlotState

variable {μ : Type} {p : ConnectionPolicy μ} {s t : SlotState μ} {a : SlotAction}

/-- Connections are numbered as they were made, the slot holds the newest one, the lock is held by
whoever connects, nothing is in the slot meanwhile, and requests are sound. -/
structure Inv (p : ConnectionPolicy μ) (s : SlotState μ) : Prop where
  numbered : ∀ (n : ℕ) (c : Connection μ), s.made[n]? = some c → c = ⟨n, p.mark n⟩
  newest : ∀ c, s.slot = some c → c ∈ s.made ∧ c.index + 1 = s.made.length
  locked : ∀ (i attempt : ℕ) (r : Request μ), s.requests[i]? = some r →
    r.phase = .connecting attempt → s.lock = some i
  vacant : s.lock.isSome → s.slot = none
  sound : ∀ r ∈ s.requests, r.Sound s.made

theorem inv_empty (p : ConnectionPolicy μ) : (SlotState.empty μ).Inv p where
  numbered n c h := absurd h (by simp [SlotState.empty])
  newest c h := absurd h (by simp [SlotState.empty])
  locked i attempt r h := absurd h (by simp [SlotState.empty])
  vacant h := rfl
  sound r h := absurd h (by simp [SlotState.empty])

theorem getElem?_concat_eq_some {α : Type*} {l : List α} {x y : α} {n : ℕ}
    (h : (l ++ [x])[n]? = some y) : l[n]? = some y ∨ (n = l.length ∧ y = x) := by
  rcases Nat.lt_or_ge n l.length with hlt | hge
  · rw [List.getElem?_append_left hlt] at h
    exact Or.inl h
  · rw [List.getElem?_append_right hge, List.getElem?_singleton] at h
    obtain ⟨hn, hx⟩ := Option.ite_none_right_eq_some.1 h
    exact Or.inr ⟨by omega, (Option.some.inj hx).symm⟩

/-- Moving one request on: the others keep their phase. -/
theorem getElem?_move {i j : ℕ} {r r' : Request μ} {phase : RequestPhase μ}
    (h : (s.move i r phase).requests[j]? = some r') :
    (i = j ∧ r' = { r with phase := phase }) ∨ (i ≠ j ∧ s.requests[j]? = some r') := by
  rw [move, List.getElem?_set] at h
  split at h
  · rename_i hij
    refine Or.inl ⟨hij, ?_⟩
    exact (Option.some.inj (Option.ite_none_right_eq_some.1 h).2).symm
  · rename_i hij
    exact Or.inr ⟨hij, h⟩

/-- **Moving a request**, together with what its step does to the slot and the lock. -/
theorem Inv.update (h : s.Inv p) {i : ℕ} {r : Request μ} {phase : RequestPhase μ}
    {slot : Option (Connection μ)} {lock : Option ℕ} {made : List (Connection μ)}
    (hgrown : s.made <+: made)
    (hnumbered : ∀ (n : ℕ) (c : Connection μ), made[n]? = some c → c = ⟨n, p.mark n⟩)
    (hnewest : ∀ c, slot = some c → c ∈ made ∧ c.index + 1 = made.length)
    (hlock : ∀ j, j ≠ i → s.lock = some j → lock = some j)
    (hself : ∀ attempt, phase = .connecting attempt → lock = some i)
    (hvacant : lock.isSome → slot = none)
    (hsound : Request.Sound made { r with phase := phase }) :
    ({ s with slot := slot, lock := lock, made := made }.move i r phase).Inv p where
  numbered := hnumbered
  newest := hnewest
  locked j attempt r' hj hphase := by
    rcases getElem?_move hj with ⟨rfl, rfl⟩ | ⟨hij, hj⟩
    · exact hself attempt hphase
    · exact hlock j hij.symm (h.locked j attempt r' hj hphase)
  vacant := hvacant
  sound r' hr' := by
    rcases List.mem_or_eq_of_mem_set hr' with hr' | rfl
    · exact (h.sound r' hr').mono hgrown.subset
    · exact hsound

theorem invalidate_eq_some {c held : Connection μ} (h : s.invalidate p c = some held) :
    s.slot = some held :=
  (Option.filter_eq_some_iff.1 h).1

/-- Reporting a failure leaves the lock and the connections alone. -/
theorem Inv.report (h : s.Inv p) {i : ℕ} {r : Request μ} (c : Connection μ)
    {phase : RequestPhase μ} (hnot : ∀ attempt, phase ≠ .connecting attempt)
    (hsound : Request.Sound s.made { r with phase := phase }) :
    ({ s with slot := s.invalidate p c }.move i r phase).Inv p := by
  refine h.update (List.prefix_refl _) h.numbered (fun d hd ↦ h.newest d (invalidate_eq_some hd))
    (fun _ _ hj ↦ hj) (fun attempt hphase ↦ absurd hphase (hnot attempt)) (fun hlock ↦ ?_) hsound
  rw [invalidate, h.vacant hlock]
  rfl

/-- A step of one request that touches neither slot nor lock. -/
theorem Inv.move (h : s.Inv p) {i : ℕ} {r : Request μ} {phase : RequestPhase μ}
    (hnot : ∀ attempt, phase ≠ .connecting attempt)
    (hsound : Request.Sound s.made { r with phase := phase }) : (s.move i r phase).Inv p :=
  h.update (List.prefix_refl _) h.numbered h.newest (fun _ _ hj ↦ hj)
    (fun attempt hphase ↦ absurd hphase (hnot attempt)) h.vacant hsound

/-- A new request has sent nothing. -/
theorem Inv.call (h : s.Inv p) :
    Inv p { s with requests := s.requests ++ [⟨.locking 0, [], []⟩] } where
  numbered := h.numbered
  newest := h.newest
  locked j attempt r hj hphase := by
    rcases getElem?_concat_eq_some hj with hj | ⟨-, rfl⟩
    · exact h.locked j attempt r hj hphase
    · exact absurd hphase (by simp)
  vacant := h.vacant
  sound r hr := by
    rcases List.mem_append.1 hr with hr | hr
    · exact h.sound r hr
    · rw [List.mem_singleton.1 hr]
      exact ⟨by simp [RequestPhase.connection?], ⟨Nat.zero_le 1, rfl⟩, by simp, by simp⟩

/-- The connection that is put into the slot is the newest one. -/
theorem Inv.connect (h : s.Inv p) {i attempt : ℕ} {r : Request μ} (hi : s.requests[i]? = some r)
    (hphase : r.phase = .connecting attempt) {c : Connection μ}
    (hc : c = ⟨s.made.length, p.mark s.made.length⟩) :
    ({ s with slot := some c, lock := none, made := s.made ++ [c] }.move i r
      (.ready attempt c)).Inv p := by
  subst hc
  have hsound := h.sound r (List.mem_of_getElem? hi)
  have hcount : r.phase.Sends r.sent.length := hsound.sends
  rw [hphase] at hcount
  have hheld := h.locked _ _ _ hi hphase
  refine h.update (List.prefix_append _ _) (fun n c hn ↦ ?_) (fun c hc ↦ ?_) (fun j hne hj ↦ ?_)
    (by simp) (by simp) (hsound.mono (List.subset_append_left _ _) |>.move
      (by simp [hphase]) (by simp) (by simp) (fun c hc ↦ ?_) hcount)
  · rcases getElem?_concat_eq_some hn with hn | ⟨rfl, rfl⟩
    · exact h.numbered n c hn
    · rfl
  · obtain rfl := Option.some.inj hc
    simp
  · exact absurd (Option.some.inj (hheld.symm.trans hj)).symm hne
  · obtain rfl := Option.some.inj hc
    simp

theorem Inv.step (h : s.Inv p) (hstep : (machine p).step s a = some t) : t.Inv p := by
  have hsound : ∀ {i : ℕ} {r : Request μ}, s.requests[i]? = some r → r.Sound s.made :=
    fun hi ↦ h.sound _ (List.mem_of_getElem? hi)
  -- what the phase of a request says about the sends it has made
  have hsends : ∀ {i : ℕ} {r : Request μ} {phase : RequestPhase μ}, s.requests[i]? = some r →
      r.phase = phase → phase.Sends r.sent.length := by
    rintro i r - hi rfl
    exact (hsound hi).sends
  cases step_of_machine hstep with
  | call => exact h.call
  | take hi hphase hslot =>
    have hcount : _ ≤ 1 ∧ _ = _ := hsends hi hphase
    exact h.move (by simp) ((hsound hi).move (by simp [hphase]) (by simp) (by simp)
      (fun c hc ↦ Option.some.inj hc ▸ (h.newest _ hslot).1) hcount)
  | make hlock hi hphase hdead =>
    have hcount : _ ≤ 1 ∧ _ = _ := hsends hi hphase
    refine h.update (List.prefix_refl _) h.numbered (by simp) (fun j _ hj ↦ ?_) (fun _ _ ↦ rfl)
      (fun _ ↦ rfl) ((hsound hi).move (by simp [hphase]) (by simp) (by simp)
        (by simp [RequestPhase.connection?]) hcount)
    exact absurd (hlock.symm.trans hj) (by simp)
  | connect hi hphase hc => exact h.connect hi hphase hc
  | connectFailed hi hphase =>
    have hcount : _ ≤ 1 ∧ _ = _ := hsends hi hphase
    have hheld := h.locked _ _ _ hi hphase
    refine h.update (List.prefix_refl _) h.numbered h.newest (fun j hne hj ↦ ?_) (by simp)
      (by simp) ((hsound hi).move (by simp [hphase]) (by simp) (by simp)
        (by simp [RequestPhase.connection?]) ?_)
    · exact absurd (Option.some.inj (hheld.symm.trans hj)).symm hne
    · show _ ≤ 2
      omega
  | send hi hphase =>
    have hcount : _ ≤ 1 ∧ _ = _ := hsends hi hphase
    refine h.move (by simp) ((hsound hi).move (by simp [hphase]) (by simp) (by simp)
      (fun c hc ↦ (hsound hi).connection c (by rw [hphase]; exact hc)) ⟨hcount.1, ?_⟩)
    rw [List.length_append, List.length_singleton, hcount.2]
  | buildFailed hi hphase =>
    have hcount : _ ≤ 1 ∧ _ = _ := hsends hi hphase
    refine h.move (by simp) ((hsound hi).move (by simp [hphase]) (by simp) (by simp)
      (by simp [RequestPhase.connection?]) ?_)
    show _ ≤ 2
    omega
  | fail hi hphase hreports hresult =>
    exact h.move (by simp) ((hsound hi).fail hphase hresult)
  | finish hi hphase =>
    exact h.move (by simp) ((hsound hi).finish hphase _)
  | retry hi hphase hfirst =>
    have hcount : _ ≤ 1 ∧ _ = _ := hsends hi hphase
    refine h.report _ (by simp) ((hsound hi).move (by simp [hphase]) (by simp) (by simp)
      (by simp [RequestPhase.connection?]) ?_)
    show _ ≤ 1 ∧ _ = _
    omega
  | giveUp hi hphase =>
    refine h.report _ (by simp) ((hsound hi).move (by simp [hphase]) (by simp) (by simp)
      (by simp [RequestPhase.connection?]) ?_)
    exact (hsends hi hphase).le_two
  | die =>
    exact ⟨h.numbered, h.newest, h.locked, h.vacant, h.sound⟩
  | drop hi hopen =>
    refine h.update (List.prefix_refl _) h.numbered h.newest (fun j hne hj ↦ ?_) (by simp)
      (fun hlock ↦ ?_) ((hsound hi).move hopen (by simp) (by simp)
        (by simp [RequestPhase.connection?]) ?_)
    · rw [hj]
      exact Option.filter_some_pos (by simpa using hne)
    · obtain ⟨j, hj⟩ := Option.isSome_iff_exists.1 hlock
      exact h.vacant (by rw [(Option.filter_eq_some_iff.1 hj).1]; rfl)
    · exact (hsound hi).sends.le_two

theorem inv_of_run {as : List SlotAction} (hrun : (machine p).run (SlotState.empty μ) as = some s) :
    s.Inv p :=
  Machine.run_invariant (fun _ _ _ h hstep ↦ Inv.step h hstep) hrun (inv_empty p)

/-- **How a connection leaves the slot**: a request finds it dead and the policy tests for that, or
a request reports a failure that clears it. -/
theorem leaves_slot (h : s.Inv p) (hstep : (machine p).step s a = some t) {c : Connection μ}
    (hc : s.slot = some c) (ht : t.slot ≠ some c) :
    (∃ i, a = .acquire i ∧ p.testsLiveness ∧ c.index ∈ s.dead) ∨
      ∃ i r attempt failed error, a = .report i ∧ s.requests[i]? = some r ∧
        r.phase = .reporting attempt failed error ∧ p.clears failed.mark c.mark := by
  -- a report leaves the slot alone unless it clears what is there
  have hclears : ∀ {failed : Connection μ}, s.invalidate p failed ≠ some c →
      p.clears failed.mark c.mark := by
    intro failed hne
    by_contra hkeep
    exact hne (by rw [invalidate, hc]; exact Option.filter_some_pos (by simpa using hkeep))
  cases step_of_machine hstep with
  | make _ hi hphase hdead => exact Or.inl ⟨_, rfl, hdead c hc⟩
  | connect hi hphase =>
    -- who connects holds the lock, and then nothing is in the slot
    have hlock := h.locked _ _ _ hi hphase
    exact absurd (hc.symm.trans (h.vacant (by rw [hlock]; rfl))) (by simp)
  | retry hi hphase => exact Or.inr ⟨_, _, _, _, _, rfl, hi, hphase, hclears ht⟩
  | giveUp hi hphase => exact Or.inr ⟨_, _, _, _, _, rfl, hi, hphase, hclears ht⟩
  | _ => exact absurd hc ht

/-- The connections made so far, by number. -/
theorem Inv.made_eq (h : s.Inv p) :
    s.made = (List.range s.made.length).map fun n ↦ ⟨n, p.mark n⟩ := by
  refine List.ext_getElem (by simp) fun n hn _ ↦ ?_
  rw [List.getElem_map, List.getElem_range]
  exact h.numbered n _ (List.getElem?_eq_getElem hn)

/-- A connection that was made is given by its number. -/
theorem Inv.index_lt (h : s.Inv p) {c : Connection μ} (hc : c ∈ s.made) :
    c.index < s.made.length ∧ c = ⟨c.index, p.mark c.index⟩ := by
  obtain ⟨n, hn⟩ := List.mem_iff_getElem?.1 hc
  obtain rfl := h.numbered n c hn
  exact ⟨(List.getElem?_eq_some_iff.1 hn).1, rfl⟩

theorem Inv.eq_of_index_eq (h : s.Inv p) {c d : Connection μ} (hc : c ∈ s.made) (hd : d ∈ s.made)
    (hindex : c.index = d.index) : c = d := by
  rw [(h.index_lt hc).2, (h.index_lt hd).2, hindex]

end SlotState

end DnsBuffer
