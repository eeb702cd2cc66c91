import DnsBuffer.Upstream.Group
import Mathlib.Algebra.Order.Floor.Defs
import Mathlib.Data.List.Perm.Subperm
import Mathlib.Data.Rat.Floor

/-!
# Choosing a member

`UpstreamGroup::resolve_member` draws members by weight. A member that was tried gets the weight 0,
which excludes it only as long as some other weight is positive: if none is, the draw is uniform and
may land on it again, and the first untried member takes its place.

What matters of floating point is little, so the draw is over any arithmetic (`FloatArith`) and any
weights: every draw among at least one weight gives an index in range (`exists_pickWeighted`), so an
iteration always finds an untried member while there is one (`exists_chosenMember`), and the loop
ends by a success or after all its iterations have failed (`reselection`).
-/

namespace DnsBuffer

/-! ### The draw -/

/-- The operations of `f64` that the draw uses, with the one fact about them it relies on: the sum
over nothing is a zero. -/
class FloatArith (F : Type) where
  zero : F
  /-- What `Sum` starts with. -/
  sumStart : F
  isFinite : F → Bool
  lt : F → F → Bool
  le : F → F → Bool
  add : F → F → F
  mul : F → F → F
  /-- `usize as f64`. -/
  ofUsize : ℕ → F
  /-- `f64 as usize`. -/
  toUsize : F → ℕ
  sumStart_le_zero : le sumStart zero = true

section Draw

variable {F : Type} [FloatArith F]

/-- `w.is_finite() && *w > 0.0`. -/
def isPositive (w : F) : Bool := FloatArith.isFinite w && FloatArith.lt FloatArith.zero w

/-- The sum of the weights that count. -/
def totalWeight (weights : List F) : F :=
  (weights.filter isPositive).foldl FloatArith.add FloatArith.sumStart

/-- The loop of `pick_weighted`, from index `i` on. -/
def pickFrom (target : F) : F → ℕ → List F → Option ℕ
  | _, _, [] => none
  | acc, i, w :: weights =>
    if isPositive w then
      let acc := FloatArith.add acc w
      if FloatArith.lt target acc then some i else pickFrom target acc (i + 1) weights
    else pickFrom target acc (i + 1) weights

/-- `weights.iter().rposition(..)` for the weights that count. -/
def lastPositive (weights : List F) : Option ℕ :=
  (List.range weights.length).reverse.find? fun i ↦ weights[i]?.any isPositive

/-- `pick_weighted`. -/
def pickWeighted (weights : List F) (roll : F) : Option ℕ :=
  if weights = [] then none
  else
    let total := totalWeight weights
    if FloatArith.le total FloatArith.zero then
      some (min (FloatArith.toUsize (FloatArith.mul roll (FloatArith.ofUsize weights.length)))
        (weights.length - 1))
    else
      match pickFrom (FloatArith.mul roll total) FloatArith.zero 0 weights with
      | some i => some i
      | none => lastPositive weights

theorem lt_of_pickFrom {target acc : F} {i j : ℕ} {weights : List F}
    (h : pickFrom target acc i weights = some j) : j < i + weights.length := by
  induction weights generalizing acc i with
  | nil => cases h
  | cons w weights ih =>
    rw [List.length_cons]
    simp only [pickFrom] at h
    split at h
    · split at h
      · cases h
        omega
      · have := ih h
        omega
    · have := ih h
      omega

/-- A weight that counts makes the fallback succeed. -/
theorem exists_lastPositive {weights : List F} {w : F} (hw : w ∈ weights)
    (hpositive : isPositive w = true) :
    ∃ i, lastPositive weights = some i ∧ i < weights.length := by
  obtain ⟨i, hi, rfl⟩ := List.mem_iff_getElem.1 hw
  have hsome : (lastPositive weights).isSome := by
    rw [lastPositive, List.find?_isSome]
    exact ⟨i, by simpa using hi, by simpa [hi] using hpositive⟩
  obtain ⟨j, hj⟩ := Option.isSome_iff_exists.1 hsome
  refine ⟨j, hj, ?_⟩
  simpa using List.mem_of_find?_eq_some hj

/-- **A draw among at least one weight gives an index in range**, whatever the weights and the roll
are. -/
theorem exists_pickWeighted {weights : List F} (hne : weights ≠ []) (roll : F) :
    ∃ i, pickWeighted weights roll = some i ∧ i < weights.length := by
  have hlength : 0 < weights.length := List.length_pos_iff.2 hne
  rw [pickWeighted, if_neg hne]
  by_cases htotal : FloatArith.le (totalWeight weights) FloatArith.zero = true
  · simp only [htotal, if_true]
    exact ⟨_, rfl, by omega⟩
  simp only [htotal, Bool.false_eq_true, if_false]
  -- a total that is not zero has a weight that counts
  have hcounts : weights.filter isPositive ≠ [] := by
    intro hnil
    rw [totalWeight, hnil, List.foldl_nil] at htotal
    exact htotal FloatArith.sumStart_le_zero
  rcases hpick : pickFrom _ _ _ _ with - | i
  · obtain ⟨w, hw⟩ := List.exists_mem_of_ne_nil _ hcounts
    rw [List.mem_filter] at hw
    exact exists_lastPositive hw.1 hw.2
  · have hlt := lt_of_pickFrom hpick
    exact ⟨i, rfl, by omega⟩

/-! ### The loop -/

variable {ε : Type}

/-- `UpstreamGroup::weights`, where `stats i` is the weight by the statistics of member `i`, or
nothing if their lock is poisoned. -/
def groupWeights (members : List Member) (stats : ℕ → Option F) (exclude : List ℕ) : List F :=
  (List.range members.length).map fun i ↦
    if i ∈ exclude then FloatArith.zero else (stats i).getD FloatArith.zero

/-- What one iteration meets: the statistics and the roll at the draw, and what the member that is
called returns. -/
structure Round (F ε : Type) where
  stats : ℕ → Option F
  roll : F
  result : Except ε Message
  latency : ℕ

/-- What `resolve_member` meets where it is, in the iteration after those of the tried members. -/
def nextAction (members : List Member) (rounds : ℕ → Round F ε) : GroupTask ε → GroupAction ε
  | .choosing tried _ _ =>
    let round := rounds tried.length
    .choose (pickWeighted (groupWeights members round.stats tried) round.roll)
  | .trying tried _ _ _ =>
    let round := rounds (tried.length - 1)
    .memberDone round.result round.latency

/-- `resolve_member` for at most so many steps. -/
def resolveMember (members : List Member) (rounds : ℕ → Round F ε) :
    ℕ → GroupWorld ε → GroupTask ε →
      Option (GroupWorld ε × Except (GroupError ε) (Message × Option Text))
  | 0, _, _ => none
  | fuel + 1, w, task =>
    match groupStep members w task (nextAction members rounds task) with
    | none => none
    | some (w', .inl task') => resolveMember members rounds fuel w' task'
    | some (w', .inr result) => some (w', result)

end Draw

/-- An invocation of `try_member` that failed. -/
def Invocation.Failed {ε : Type} (v : Invocation ε) : Prop :=
  ∃ error latency, v.outcome = .returned (.error error) latency

/-- The members that were called. -/
def GroupWorld.called {ε : Type} (w : GroupWorld ε) : List ℕ := w.invocations.map Invocation.member

/-- While fewer members than there are have been tried, an iteration with a draw in range tries one
of the others. -/
theorem exists_chosenMember {members : List Member} {tried : List ℕ}
    (hlength : tried.length < members.length) {idx : ℕ} (hidx : idx < members.length) :
    ∃ member, chosenMember members tried (some idx) = some member ∧ member < members.length ∧
      member ∉ tried := by
  rw [chosenMember, Option.bind_some]
  split
  · have hsome : ((List.range members.length).find? fun i ↦ i ∉ tried).isSome := by
      rw [List.find?_isSome]
      by_contra hall
      push Not at hall
      -- otherwise the tried members are all there are
      have hsub : List.range members.length ⊆ tried := fun i hi ↦ by simpa using hall i hi
      have hle := (List.subperm_of_subset List.nodup_range hsub).length_le
      rw [List.length_range] at hle
      omega
    obtain ⟨member, hmember⟩ := Option.isSome_iff_exists.1 hsome
    refine ⟨member, hmember, ?_, ?_⟩
    · exact List.mem_range.1 (List.mem_of_find?_eq_some hmember)
    · simpa using List.find?_some hmember
  · rename_i hidx'
    exact ⟨idx, rfl, hidx, hidx'⟩

section Loop

variable {F : Type} [FloatArith F] {ε : Type} {members : List Member}

/-- A whole call of `try_member`, in one round. -/
def GroupWorld.call (w : GroupWorld ε) (member : ℕ) (round : Round F ε) : GroupWorld ε :=
  (w.begin member).settle w.invocations.length member (.returned round.result round.latency)
    (tryMemberRecords round.latency round.result)

omit [FloatArith F] in
theorem invocations_call (w : GroupWorld ε) (member : ℕ) (round : Round F ε) :
    (w.call member round).invocations =
      w.invocations ++ [⟨member, .returned round.result round.latency⟩] := by
  show (w.invocations ++ [_]).set w.invocations.length _ = _
  rw [List.set_append_right _ _ le_rfl, Nat.sub_self]
  rfl

/-- What an iteration does once a member has been called. -/
def afterCall (members : List Member) (rounds : ℕ → Round F ε) (fuel : ℕ) (w : GroupWorld ε)
    (tried : List ℕ) (name : Text) (left : ℕ) :
    Except ε Message → Option (GroupWorld ε × Except (GroupError ε) (Message × Option Text))
  | .ok response => some (w, .ok (response, some name))
  | .error error =>
    if left = 0 then some (w, .error (.member error))
    else resolveMember members rounds fuel w (.choosing tried (some error) left)

/-- **One iteration** calls an untried member, while there is one. -/
theorem resolveMember_round (rounds : ℕ → Round F ε) {tried : List ℕ}
    (hlength : tried.length < members.length) (last : Option ε) (left fuel : ℕ)
    (w : GroupWorld ε) : ∃ member m, members[member]? = some m ∧ member ∉ tried ∧
      resolveMember members rounds (fuel + 2) w (.choosing tried last (left + 1)) =
        afterCall members rounds fuel (w.call member (rounds tried.length)) (tried ++ [member])
          m.name left (rounds tried.length).result := by
  have hne : members ≠ [] := List.ne_nil_of_length_pos (by omega)
  have hweights : groupWeights members (rounds tried.length).stats tried ≠ [] := by
    simpa [groupWeights] using hne
  obtain ⟨idx, hpick, hidx⟩ := exists_pickWeighted hweights (rounds tried.length).roll
  rw [groupWeights, List.length_map, List.length_range] at hidx
  obtain ⟨member, hchosen, hlt, hnot⟩ := exists_chosenMember hlength hidx
  have hm : members[member]? = some (members.get ⟨member, hlt⟩) := List.getElem?_eq_getElem hlt
  have hchoose : groupStep members w (.choosing tried last (left + 1))
      (nextAction members rounds (.choosing tried last (left + 1))) =
        some (w.begin member, .inl (.trying (tried ++ [member]) left member
          w.invocations.length)) := by
    simp only [nextAction, hpick, groupStep, if_neg hne, Option.any_some, hchosen]
    rw [if_neg (by simpa using hidx)]
  refine ⟨member, _, hm, hnot, ?_⟩
  rw [resolveMember, hchoose]
  show resolveMember members rounds (fuel + 1) _ _ = _
  rw [resolveMember]
  simp only [nextAction, List.length_append, List.length_singleton, Nat.add_sub_cancel]
  rcases (rounds tried.length) with ⟨stats, roll, error | response, latency⟩
  · by_cases hleft : left = 0
    · simp only [groupStep, afterCall, if_pos hleft]
      rfl
    · simp only [groupStep, afterCall, if_neg hleft]
      rfl
  · simp only [groupStep, hm, afterCall]
    rfl

/-- How `resolve_member` ends: no member is called twice or beyond the bound, a success ends it and
is what is returned, and it fails exactly if as many members as the bound allows have been called
and all have failed. -/
structure Reselected (members : List Member) (bound : ℕ) (w : GroupWorld ε)
    (result : Except (GroupError ε) (Message × Option Text)) : Prop where
  nodup : w.called.Nodup
  range : ∀ i ∈ w.called, i < members.length
  bounded : w.called.length ≤ bound
  stops : ∀ response name, result = .ok (response, name) → ∃ failed member m latency,
    w.invocations = failed ++ [⟨member, .returned (.ok response) latency⟩] ∧
      (∀ v ∈ failed, v.Failed) ∧ members[member]? = some m ∧ name = some m.name
  fails : (∃ error, result = .error error) ↔
    w.called.length = bound ∧ ∀ v ∈ w.invocations, v.Failed

/-- The calls so far: different members, all of which failed. -/
structure AllFailed (members : List Member) (tried : List ℕ) (w : GroupWorld ε) : Prop where
  called : w.called = tried
  nodup : tried.Nodup
  range : ∀ i ∈ tried, i < members.length
  failed : ∀ v ∈ w.invocations, v.Failed

namespace AllFailed

variable {tried : List ℕ} {w : GroupWorld ε} {member : ℕ} {m : Member} {round : Round F ε}

omit [FloatArith F] in
/-- A call of another member. -/
theorem called_call (h : AllFailed members tried w) (hm : members[member]? = some m)
    (hnot : member ∉ tried) (round : Round F ε) :
    (w.call member round).called = tried ++ [member] ∧ (tried ++ [member]).Nodup ∧
      ∀ i ∈ tried ++ [member], i < members.length := by
  refine ⟨?_, ?_, ?_⟩
  · rw [GroupWorld.called, invocations_call, List.map_append, List.map_singleton]
    exact congrArg (· ++ [member]) h.called
  · rw [← List.concat_eq_append]
    exact h.nodup.concat hnot
  · rw [List.forall_mem_append, List.forall_mem_singleton]
    exact ⟨h.range, (List.getElem?_eq_some_iff.1 hm).1⟩

omit [FloatArith F] in
/-- It fails too. -/
theorem call (h : AllFailed members tried w) (hm : members[member]? = some m)
    (hnot : member ∉ tried) {error : ε} (hresult : round.result = .error error) :
    AllFailed members (tried ++ [member]) (w.call member round) := by
  obtain ⟨hcalled, hnodup, hrange⟩ := h.called_call hm hnot round
  refine ⟨hcalled, hnodup, hrange, ?_⟩
  rw [invocations_call, List.forall_mem_append, List.forall_mem_singleton]
  exact ⟨h.failed, error, round.latency, by rw [hresult]⟩

/-- The loop ends without a success. -/
theorem reselected_error (h : AllFailed members tried w) (error : GroupError ε) :
    Reselected members tried.length w (.error error) where
  nodup := h.called ▸ h.nodup
  range := h.called ▸ h.range
  bounded := h.called ▸ le_rfl
  stops _ _ hok := by cases hok
  fails := iff_of_true ⟨error, rfl⟩ ⟨congrArg List.length h.called, h.failed⟩

omit [FloatArith F] in
/-- The loop ends with a success. -/
theorem reselected_ok (h : AllFailed members tried w) (hm : members[member]? = some m)
    (hnot : member ∉ tried) {response : Message} (hresult : round.result = .ok response)
    {bound : ℕ} (hbound : tried.length < bound) :
    Reselected members bound (w.call member round) (.ok (response, some m.name)) := by
  obtain ⟨hcalled, hnodup, hrange⟩ := h.called_call hm hnot round
  have hinvocations := invocations_call w member round
  rw [hresult] at hinvocations
  refine ⟨hcalled ▸ hnodup, hcalled ▸ hrange, ?_, ?_, ?_⟩
  · rw [hcalled, List.length_append, List.length_singleton]
    exact hbound
  · rintro _ _ ⟨⟩
    exact ⟨w.invocations, member, m, round.latency, hinvocations, h.failed, hm, rfl⟩
  · refine iff_of_false ?_ ?_
    · rintro ⟨error, herror⟩
      cases herror
    · rintro ⟨-, hall⟩
      rw [hinvocations, List.forall_mem_append, List.forall_mem_singleton] at hall
      obtain ⟨error, latency, houtcome⟩ := hall.2
      cases houtcome

/-- **One iteration** ends the loop with a success, or one more member has failed. -/
theorem iteration (h : AllFailed members tried w) (hlength : tried.length < members.length)
    (rounds : ℕ → Round F ε) (last : Option ε) (left fuel : ℕ) :
    (∃ w' answer, resolveMember members rounds (fuel + 2) w (.choosing tried last (left + 1)) =
        some (w', .ok answer) ∧
      ∀ bound, tried.length < bound → Reselected members bound w' (.ok answer)) ∨
    ∃ member w' error, AllFailed members (tried ++ [member]) w' ∧
      resolveMember members rounds (fuel + 2) w (.choosing tried last (left + 1)) =
        if left = 0 then some (w', .error (.member error))
        else resolveMember members rounds fuel w'
          (.choosing (tried ++ [member]) (some error) left) := by
  obtain ⟨member, m, hm, hnot, hround⟩ := resolveMember_round rounds hlength last left fuel w
  rw [hround]
  rcases hresult : (rounds tried.length).result with error | response
  · exact Or.inr ⟨member, _, error, h.call hm hnot hresult, rfl⟩
  · exact Or.inl ⟨_, _, rfl, fun _ ↦ h.reselected_ok hm hnot hresult⟩

end AllFailed

/-- **All iterations.** -/
theorem exists_reselected (rounds : ℕ → Round F ε) (left : ℕ) {tried : List ℕ} {w : GroupWorld ε}
    {fuel : ℕ} (last : Option ε) (h : AllFailed members tried w)
    (hbound : tried.length + (left + 1) ≤ members.length) (hfuel : 2 * (left + 1) ≤ fuel) :
    ∃ w' result, resolveMember members rounds fuel w (.choosing tried last (left + 1)) =
        some (w', result) ∧ Reselected members (tried.length + (left + 1)) w' result := by
  induction left generalizing tried w fuel last with
  | zero =>
    obtain ⟨fuel, rfl⟩ : ∃ k, fuel = k + 2 := ⟨fuel - 2, by omega⟩
    rcases h.iteration (by omega) rounds last 0 fuel with
      ⟨w', answer, hrun, hend⟩ | ⟨member, w', error, hfailed, hrun⟩
    · exact ⟨w', _, hrun, hend _ (by omega)⟩
    · have hend := hfailed.reselected_error (.member error)
      rw [List.length_append, List.length_singleton] at hend
      exact ⟨w', _, hrun, hend⟩
  | succ left ih =>
    obtain ⟨fuel, rfl⟩ : ∃ k, fuel = k + 2 := ⟨fuel - 2, by omega⟩
    rcases h.iteration (by omega) rounds last (left + 1) fuel with
      ⟨w', answer, hrun, hend⟩ | ⟨member, w', error, hfailed, hrun⟩
    · exact ⟨w', _, hrun, hend _ (by omega)⟩
    · have hlength : (tried ++ [member]).length + (left + 1) = tried.length + (left + 1 + 1) := by
        rw [List.length_append, List.length_singleton]
        omega
      rw [hrun, if_neg (Nat.succ_ne_zero left), ← hlength]
      exact ih (some error) hfailed (by omega) (by omega)

/-- **Reselection never repeats a member and never gives up early.** For a group of at least one
member and whatever the weights, the rolls and the results of the members are, `resolve_member` ends
as `Reselected` says; so a group of one or two members fails only if all its members have failed. -/
theorem reselection (hne : members ≠ []) (rounds : ℕ → Round F ε) {fuel : ℕ}
    (hfuel : 2 * min members.length maxAttempts ≤ fuel) :
    ∃ w result, resolveMember members rounds fuel GroupWorld.empty (groupTask members).start =
        some (w, result) ∧ Reselected members (min members.length maxAttempts) w result ∧
      (members.length ≤ 2 → (∃ error, result = .error error) →
        ∀ i < members.length, ∃ v ∈ w.invocations, v.member = i ∧ v.Failed) := by
  have hlength : 0 < members.length := List.length_pos_iff.2 hne
  have hstart : AllFailed members [] (GroupWorld.empty : GroupWorld ε) :=
    ⟨rfl, List.nodup_nil, fun i hi ↦ absurd hi List.not_mem_nil,
      fun v hv ↦ absurd hv List.not_mem_nil⟩
  obtain ⟨left, hleft⟩ : ∃ k, min members.length maxAttempts = k + 1 :=
    ⟨min members.length maxAttempts - 1, by unfold maxAttempts; omega⟩
  obtain ⟨w, result, hrun, hend⟩ := exists_reselected rounds left none hstart
    (by rw [← hleft]; simp) (hleft ▸ hfuel)
  rw [List.length_nil, Nat.zero_add] at hend
  refine ⟨w, result, ?_, hleft ▸ hend, fun hsmall herror i hi ↦ ?_⟩
  · show resolveMember members rounds fuel _ (.choosing [] none _) = _
    rw [hleft]
    exact hrun
  · obtain ⟨hall, hfailed⟩ := hend.fails.1 herror
    -- as many different members as there are
    have hmem : i ∈ w.called := by
      have hsub : w.called ⊆ List.range members.length := fun j hj ↦
        List.mem_range.2 (hend.range j hj)
      have hperm := (List.subperm_of_subset hend.nodup hsub).perm_of_length_le (by
        rw [List.length_range, hall, ← hleft]
        unfold maxAttempts
        omega)
      exact hperm.mem_iff.2 (List.mem_range.2 hi)
    obtain ⟨v, hv, rfl⟩ := List.mem_map.1 hmem
    exact ⟨v, hv, rfl, hfailed v hv⟩

end Loop

/-! ### Two members without weight -/

/-- Numbers that are exact, and one that is no number. -/
@[reducible] def exactArith : FloatArith (Option ℚ) where
  zero := some 0
  sumStart := some 0
  isFinite x := x.isSome
  lt x y := (Option.map₂ (fun a b ↦ decide (a < b)) x y).getD false
  le x y := (Option.map₂ (fun a b ↦ decide (a ≤ b)) x y).getD false
  add := Option.map₂ (· + ·)
  mul := Option.map₂ (· * ·)
  ofUsize n := some n
  toUsize x := (x.map fun a ↦ ⌊a⌋.toNat).getD 0
  sumStart_le_zero := rfl

/-- Weights that are no numbers; the first call fails and the second succeeds. -/
def twoRounds (i : ℕ) : Round (Option ℚ) Unit where
  stats _ := some none
  roll := some 0
  result := if i = 0 then .error () else .ok (.new 1 .response .query)
  latency := 1

/-- Both draws land on the first member; the second one is called instead, and answers. -/
theorem reselection_two :
    let _arith := exactArith
    ∃ w result, resolveMember [⟨"a".toList⟩, ⟨"b".toList⟩] twoRounds 4 GroupWorld.empty
        (groupTask [⟨"a".toList⟩, ⟨"b".toList⟩]).start = some (w, result) ∧
      Reselected [⟨"a".toList⟩, ⟨"b".toList⟩] 2 w result ∧ w.called = [0, 1] ∧
      result = .ok (.new 1 .response .query, some "b".toList) := by
  intro _arith
  have hfuel : 2 * min [Member.mk "a".toList, ⟨"b".toList⟩].length maxAttempts ≤ 4 := by decide
  obtain ⟨w, result, hrun, hend, -⟩ := reselection (by decide) twoRounds hfuel
  refine ⟨w, result, hrun, hend, ?_⟩
  have heval : resolveMember [⟨"a".toList⟩, ⟨"b".toList⟩] twoRounds 4 GroupWorld.empty
      (groupTask [⟨"a".toList⟩, ⟨"b".toList⟩]).start =
        some (⟨[⟨0, .returned (.error ()) 1⟩, ⟨1, .returned (.ok (.new 1 .response .query)) 1⟩],
          [⟨0, 0, .softFail⟩, ⟨1, 1, .success 1⟩]⟩,
          .ok (.new 1 .response .query, some "b".toList)) := by
    decide +kernel
  rw [hrun, Option.some.injEq, Prod.mk.injEq] at heval
  obtain ⟨rfl, rfl⟩ := heval
  exact ⟨rfl, rfl⟩

end DnsBuffer
