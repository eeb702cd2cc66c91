import DnsBuffer.Dns.Message
import DnsBuffer.Upstream.Hedged

/-!
# An upstream group as a task of the retry engine

`UpstreamGroup::resolve_member` chooses a member, waits for its resolver inside `try_member`, and
tries another one when it fails. Seen from the engine this is a cancellable task (`groupTask`): it
yields only while it waits for a member, and that is where dropping it is observable.

The statistics are a log of the calls made on them (`StatCall`), each with the invocation of
`try_member` it was made by and the member it was made on. The invocations are logged too, with how
each of them ended, so that "each invocation is accounted once" is a statement about two logs.

The draw of a member by weight is the schedule's choice; it is an index into the members, or
nothing.
-/

namespace DnsBuffer

/-- `MAX_ATTEMPTS`. -/
def maxAttempts : ℕ := 2

/-- A member of a group; its resolver belongs to the environment. -/
structure Member where
  name : Text
deriving DecidableEq

/-- How `resolve_member` fails: with the error of a member, or without one. -/
inductive GroupError (ε : Type)
  | empty
  | exhausted
  | member (error : ε)
deriving DecidableEq

/-- A call on the statistics of a member. -/
inductive StatRecord
  | success (latency : ℕ)
  | softFail
  | timeout
deriving DecidableEq

/-- How an invocation of `try_member` stands. -/
inductive InvocationOutcome (ε : Type)
  | pending
  | returned (result : Except ε Message) (latency : ℕ)
  | cancelled
deriving DecidableEq

/-- An invocation of `try_member`. -/
structure Invocation (ε : Type) where
  member : ℕ
  outcome : InvocationOutcome ε
deriving DecidableEq

/-- A call on the statistics, with the invocation that made it and the member it was made on. -/
structure StatCall where
  invocation : ℕ
  member : ℕ
  record : StatRecord
deriving DecidableEq

/-- What the attempts of one query share: the invocations and the statistics. -/
structure GroupWorld (ε : Type) where
  invocations : List (Invocation ε)
  stats : List StatCall
deriving DecidableEq

/-! ### One member -/

/-- Dropping an `AttemptGuard`: nothing once it is disarmed, nothing after a sibling has won, a
timeout otherwise — also where no engine has provided the flag. -/
def AttemptGuard.onDrop (armed : Bool) (succeeded : Option Bool) : List StatRecord :=
  if !armed then [] else if succeeded.any id then [] else [.timeout]

/-- What `try_member` does to the statistics when the resolver returns: the guard is disarmed, the
result recorded, and the guard dropped. -/
def tryMemberRecords {ε : Type} (latency : ℕ) : Except ε Message → List StatRecord
  | .ok _ => .success latency :: AttemptGuard.onDrop false none
  | .error _ => .softFail :: AttemptGuard.onDrop false none

namespace GroupWorld

variable {ε : Type}

/-- Nothing has been tried. -/
def empty : GroupWorld ε := ⟨[], []⟩

/-- `try_member` begins on a member. -/
def begin (w : GroupWorld ε) (member : ℕ) : GroupWorld ε :=
  { w with invocations := w.invocations ++ [⟨member, .pending⟩] }

/-- Invocation `v` on a member ends, with these calls on the statistics. -/
def settle (w : GroupWorld ε) (v member : ℕ) (outcome : InvocationOutcome ε)
    (records : List StatRecord) : GroupWorld ε where
  invocations := w.invocations.set v ⟨member, outcome⟩
  stats := w.stats ++ records.map fun record ↦ ⟨v, member, record⟩

end GroupWorld

/-! ### The group -/

/-- Where `resolve_member` is: about to choose a member, or waiting for one. `left` counts the
iterations of the loop that are left. -/
inductive GroupTask (ε : Type)
  | choosing (tried : List ℕ) (last : Option ε) (left : ℕ)
  | trying (tried : List ℕ) (left : ℕ) (member invocation : ℕ)
deriving DecidableEq

/-- The environment of `resolve_member`: the weighted draw, and the return of a member's resolver
after some time. -/
inductive GroupAction (ε : Type)
  | choose (pick : Option ℕ)
  | memberDone (result : Except ε Message) (latency : ℕ)
deriving DecidableEq

section Group

variable {ε : Type}

/-- The error after the loop. -/
def groupError (last : Option ε) : GroupError ε :=
  match last with
  | some error => .member error
  | none => .exhausted

/-- The member an iteration tries: the drawn one, or the first untried one if the drawn one has been
tried already. -/
def chosenMember (members : List Member) (tried : List ℕ) (pick : Option ℕ) : Option ℕ :=
  pick.bind fun idx ↦
    if idx ∈ tried then (List.range members.length).find? fun i ↦ i ∉ tried else some idx

/-- One step of `resolve_member`. -/
def groupStep (members : List Member) (w : GroupWorld ε) :
    GroupTask ε → GroupAction ε →
      Option (GroupWorld ε × (GroupTask ε ⊕ Except (GroupError ε) (Message × Option Text)))
  | .choosing tried last left, .choose pick =>
    if members = [] then some (w, .inr (.error .empty))
    else if pick.any fun idx ↦ members.length ≤ idx then none
    else match left, chosenMember members tried pick with
    | left + 1, some member =>
      some (w.begin member, .inl (.trying (tried ++ [member]) left member w.invocations.length))
    | _, _ => some (w, .inr (.error (groupError last)))
  | .trying tried left member v, .memberDone result latency =>
    let w := w.settle v member (.returned result latency) (tryMemberRecords latency result)
    match result with
    | .ok response =>
      match members[member]? with
      | some m => some (w, .inr (.ok (response, some m.name)))
      | none => none
    | .error error =>
      if left = 0 then some (w, .inr (.error (.member error)))
      else some (w, .inl (.choosing tried (some error) left))
  | _, _ => none

/-- Dropping `resolve_member`: the guard of the member it waits for is dropped. -/
def groupCancel (succeeded : Bool) (w : GroupWorld ε) : GroupTask ε → GroupWorld ε
  | .choosing _ _ _ => w
  | .trying _ _ member v =>
    w.settle v member .cancelled (AttemptGuard.onDrop true (some succeeded))

/-- `UpstreamGroup::resolve_attributed` as a task. -/
def groupTask (members : List Member) :
    AsyncTask (GroupWorld ε) (GroupTask ε) (GroupAction ε)
      (Except (GroupError ε) (Message × Option Text)) where
  start := .choosing [] none (min members.length maxAttempts)
  step := groupStep members
  cancel := groupCancel

/-- What one step of `resolve_member` can do: end without a member, begin with one, get an answer,
or get an error and end or go on. -/
theorem groupStep_cases {members : List Member} {w w' : GroupWorld ε} {task : GroupTask ε}
    {action : GroupAction ε}
    {next : GroupTask ε ⊕ Except (GroupError ε) (Message × Option Text)}
    (h : groupStep members w task action = some (w', next)) :
    (∃ tried last left error, task = .choosing tried last left ∧ w' = w ∧
      next = .inr (.error error)) ∨
    (∃ tried last left tried' left' member, task = .choosing tried last left ∧
      w' = w.begin member ∧ next = .inl (.trying tried' left' member w.invocations.length)) ∨
    (∃ tried left member v result latency, task = .trying tried left member v ∧
      w' = w.settle v member (.returned result latency) (tryMemberRecords latency result) ∧
      ((∃ response m, result = .ok response ∧ members[member]? = some m ∧
          next = .inr (.ok (response, some m.name))) ∨
        (∃ error error', result = .error error ∧ next = .inr (.error error')) ∨
        (∃ error tried' last left', result = .error error ∧
          next = .inl (.choosing tried' last left')))) := by
  cases task with
  | choosing tried last left =>
    cases action with
    | memberDone result latency => cases h
    | choose pick =>
      simp only [groupStep] at h
      split at h
      · cases h
        exact Or.inl ⟨tried, last, left, _, rfl, rfl, rfl⟩
      · split at h
        · cases h
        · split at h
          · cases h
            exact Or.inr (Or.inl ⟨tried, last, _, _, _, _, rfl, rfl, rfl⟩)
          · cases h
            exact Or.inl ⟨tried, last, _, _, rfl, rfl, rfl⟩
  | trying tried left member v =>
    cases action with
    | choose pick => cases h
    | memberDone result latency =>
      refine Or.inr (Or.inr ⟨tried, left, member, v, result, latency, rfl, ?_⟩)
      cases result with
      | ok response =>
        simp only [groupStep] at h
        split at h
        · rename_i m hm
          cases h
          exact ⟨rfl, Or.inl ⟨response, m, rfl, hm, rfl⟩⟩
        · cases h
      | error error =>
        simp only [groupStep] at h
        split at h
        · cases h
          exact ⟨rfl, Or.inr (Or.inl ⟨error, _, rfl, rfl⟩)⟩
        · cases h
          exact ⟨rfl, Or.inr (Or.inr ⟨error, _, _, _, rfl, rfl⟩)⟩

end Group

end DnsBuffer
