import DnsBuffer.Cache.Accounting
import DnsBuffer.Foundation.Tasks
import DnsBuffer.Pipeline.Model

/-!
# What one action of the pipeline can do

The machine's transition function, inverted once: `Pipeline.Step` lists its enabled actions with
their effects, and `Pipeline.step_of_machine` is the only place that takes the function apart. Every
invariant below is a case analysis on `Step`.

The remaining lemmas are the frame: which part of the state an action leaves alone. Only the cache
step of a call hands messages to the upstream (`calls_of_step`), and only a completed wait writes
to the cache (`cache_of_step`).
-/

namespace DnsBuffer

namespace Pipeline

theorem toOption_map_eq_some {ε α β : Type*} {x : Except ε α} {f : α → β} {b : β}
    (h : x.toOption.map f = some b) : ∃ a, x = .ok a ∧ b = f a := by
  rcases x with e | a
  · cases h
  · exact ⟨a, rfl, (Option.some.inj h).symm⟩

/-- An action of a call finds the result in the call's place. -/
theorem getElem?_set_of_some {α : Type*} {tasks : List α} {i : ℕ} {old : α}
    (hi : tasks[i]? = some old) (new : α) : (tasks.set i new)[i]? = some new := by
  obtain ⟨hlt, -⟩ := List.getElem?_eq_some_iff.1 hi
  exact List.getElem?_set_self hlt

/-- Replacing a task that has the property: the list keeps it exactly if the new task has it. -/
theorem forall_mem_set_iff {α : Type*} {P : α → Prop} {tasks : List α} {i : ℕ} {old new : α}
    (hi : tasks[i]? = some old) (hold : P old) :
    (∀ task ∈ tasks.set i new, P task) ↔ (∀ task ∈ tasks, P task) ∧ P new := by
  constructor
  · intro h
    refine ⟨fun task htask ↦ ?_, h new (List.mem_of_getElem? (getElem?_set_of_some hi new))⟩
    obtain ⟨j, hj⟩ := List.mem_iff_getElem?.1 htask
    rcases eq_or_ne i j with rfl | hne
    · exact Option.some.inj (hi.symm.trans hj) ▸ hold
    · exact h task (List.mem_of_getElem? ((List.getElem?_set_ne hne).trans hj))
  · exact fun ⟨htasks, hnew⟩ ↦ Tasks.forall_set htasks hnew

variable [Lowercase]

/-- What the cache step answers with, seen from the state before it. -/
theorem consult_fst (now : Instant) (cache : Cache) (query : Message) :
    (consult now cache query).1 = (CacheKey.fromQuery query).bind fun key ↦
      (cache.map.entries.lookup key).map fun entry ↦
        (entry.message.withId query.metadata.id, decide (entry.expiresAt ≤ now)) := by
  rcases h : CacheKey.fromQuery query with - | key
  · simp [consult, h]
  · simp [consult, h, Cache.get_fst]

variable [WireFormat] [Display]

/-- The enabled actions and their effects. -/
inductive Step (p : Pipeline) (s : PipelineState) : PipelineAction → PipelineState → Prop
  | tick (nanos : ℕ) : Step p s (.tick nanos) { s with now := s.now + nanos }
  | storeRules (rules : RuleSet) :
      Step p s (.storeRules rules) { s with filter := s.filter.store rules }
  | receive (query : Message) (startedAtMs : ℤ) :
      Step p s (.receive query startedAtMs)
        { s with handles := s.handles ++ [⟨⟨query, s.now, startedAtMs⟩, .received⟩] }
  | screen {i : ℕ} {call : ClientCall} (hi : s.handles[i]? = some ⟨call, .received⟩) :
      Step p s (.screen i) (p.stepScreen s i call)
  | lookUp {i : ℕ} {call : ClientCall} (hi : s.handles[i]? = some ⟨call, .screened⟩) :
      Step p s (.lookUp i) (p.stepLookUp s i call)
  | upstreamDone {i : ℕ} {call : ClientCall} (outcome : UpstreamOutcome) (env : PutEnv)
      {cache : Cache} (hi : s.handles[i]? = some ⟨call, .awaiting⟩)
      (hstore : store s.now s.cache env (CacheKey.fromQuery call.query) outcome = .ok cache) :
      Step p s (.upstreamDone i outcome env)
        (reply { s with
          cache := cache
          exchanges := s.exchanges ++ exchangeOf (preparedQuery p.ecs call.query) outcome }
          i call (upstreamReply call.query outcome))
  | refreshDone {j : ℕ} {task : RefreshTask} (outcome : UpstreamOutcome) (env : PutEnv)
      {cache : Cache} (hj : s.refreshes[j]? = some task)
      (hstore : store s.now s.cache env (some task.key) outcome = .ok cache) :
      Step p s (.refreshDone j outcome env)
        { s with
          cache := cache
          refreshes := s.refreshes.eraseIdx j
          exchanges := s.exchanges ++ exchangeOf (refreshQuery p.ecs task.query) outcome }

/-- **Inversion of the machine.** -/
theorem step_of_machine {p : Pipeline} {s t : PipelineState} {a : PipelineAction}
    (h : p.machine.step s a = some t) : p.Step s a t := by
  cases a with
  | tick nanos =>
    cases h
    exact .tick nanos
  | storeRules rules =>
    cases h
    exact .storeRules rules
  | receive query startedAtMs =>
    cases h
    exact .receive query startedAtMs
  | screen i =>
    simp only [machine] at h
    split at h
    · rename_i call hi
      cases h
      exact .screen hi
    · cases h
  | lookUp i =>
    simp only [machine] at h
    split at h
    · rename_i call hi
      cases h
      exact .lookUp hi
    · cases h
  | upstreamDone i outcome env =>
    simp only [machine] at h
    split at h
    · rename_i call hi
      obtain ⟨cache, hstore, rfl⟩ := toOption_map_eq_some h
      exact .upstreamDone outcome env hi hstore
    · cases h
  | refreshDone j outcome env =>
    simp only [machine] at h
    split at h
    · rename_i task hj
      obtain ⟨cache, hstore, rfl⟩ := toOption_map_eq_some h
      exact .refreshDone outcome env hj hstore
    · cases h

/-- The actions that end a wait for the upstream, with the message that was sent. -/
inductive Completes (p : Pipeline) (s : PipelineState) :
    PipelineAction → Message → UpstreamOutcome → PutEnv → Prop
  | foreground {i : ℕ} {call : ClientCall} (outcome : UpstreamOutcome) (env : PutEnv)
      (hi : s.handles[i]? = some ⟨call, .awaiting⟩) :
      Completes p s (.upstreamDone i outcome env) (preparedQuery p.ecs call.query) outcome env
  | refresh {j : ℕ} {task : RefreshTask} (outcome : UpstreamOutcome) (env : PutEnv)
      (hj : s.refreshes[j]? = some task) :
      Completes p s (.refreshDone j outcome env) (refreshQuery p.ecs task.query) outcome env

/-! ### The pieces of a step -/

omit [WireFormat] in
@[simp] theorem reply_refreshes (s : PipelineState) (i : ℕ) (call : ClientCall)
    (answer : Message × AnswerSource × QueryOutcome) :
    (reply s i call answer).refreshes = s.refreshes := rfl

omit [WireFormat] in
@[simp] theorem reply_exchanges (s : PipelineState) (i : ℕ) (call : ClientCall)
    (answer : Message × AnswerSource × QueryOutcome) :
    (reply s i call answer).exchanges = s.exchanges := rfl

omit [WireFormat] in
@[simp] theorem stepScreen_cache (p : Pipeline) (s : PipelineState) (i : ℕ) (call : ClientCall) :
    (p.stepScreen s i call).cache = s.cache := by
  unfold stepScreen
  split <;> rfl

omit [WireFormat] in
@[simp] theorem stepScreen_calls (p : Pipeline) (s : PipelineState) (i : ℕ) (call : ClientCall) :
    (p.stepScreen s i call).calls = s.calls := by
  unfold stepScreen
  split <;> rfl

omit [WireFormat] in
@[simp] theorem stepScreen_exchanges (p : Pipeline) (s : PipelineState) (i : ℕ)
    (call : ClientCall) : (p.stepScreen s i call).exchanges = s.exchanges := by
  unfold stepScreen
  split <;> rfl

omit [WireFormat] in
@[simp] theorem stepScreen_refreshes (p : Pipeline) (s : PipelineState) (i : ℕ)
    (call : ClientCall) : (p.stepScreen s i call).refreshes = s.refreshes := by
  unfold stepScreen
  split <;> rfl

omit [WireFormat] in
@[simp] theorem stepLookUp_cache (p : Pipeline) (s : PipelineState) (i : ℕ) (call : ClientCall) :
    (p.stepLookUp s i call).cache = (consult s.now s.cache call.query).2 := by
  unfold stepLookUp
  dsimp only
  split <;> rfl

omit [WireFormat] in
@[simp] theorem stepLookUp_calls (p : Pipeline) (s : PipelineState) (i : ℕ) (call : ClientCall) :
    (p.stepLookUp s i call).calls = s.calls ++
      (p.upstreamMessages s.now s.cache call.query).map (UpstreamCall.mk call.query) := by
  unfold stepLookUp
  dsimp only
  split <;> rfl

omit [WireFormat] in
@[simp] theorem stepLookUp_exchanges (p : Pipeline) (s : PipelineState) (i : ℕ)
    (call : ClientCall) : (p.stepLookUp s i call).exchanges = s.exchanges := by
  unfold stepLookUp
  dsimp only
  split <;> rfl

omit [WireFormat] in
/-- Screening a call leaves it replied to, or screened. -/
theorem stepScreen_handles (p : Pipeline) (s : PipelineState) (i : ℕ) (call : ClientCall) :
    (p.stepScreen s i call).handles = s.handles.set i ⟨call,
      ((p.screen s.filter call.query).map fun answer ↦ .replied answer.1 answer.2.1).getD
        .screened⟩ := by
  unfold stepScreen
  rcases p.screen s.filter call.query with - | answer <;> rfl

omit [WireFormat] in
/-- A lookup leaves the call replied to from the cache, or awaiting the upstream. -/
theorem stepLookUp_handles (p : Pipeline) (s : PipelineState) (i : ℕ) (call : ClientCall) :
    (p.stepLookUp s i call).handles = s.handles.set i ⟨call,
      ((consult s.now s.cache call.query).1.map fun found ↦ .replied found.1 .cache).getD
        .awaiting⟩ := by
  unfold stepLookUp
  dsimp only
  rcases (consult s.now s.cache call.query).1 with - | ⟨cached, expired⟩ <;> rfl

/-- The clock of the pipeline does not go backwards. -/
theorem now_le_of_step {p : Pipeline} {s t : PipelineState} {a : PipelineAction}
    (hstep : p.machine.step s a = some t) : s.now ≤ t.now := by
  cases step_of_machine hstep with
  | tick nanos => exact Nat.le_add_right _ _
  | @screen i call =>
    rw [stepScreen]
    split <;> exact le_rfl
  | @lookUp i call =>
    rw [stepLookUp]
    dsimp only
    split <;> exact le_rfl
  | _ => exact le_rfl

end Pipeline

/-! ### A small execution

What the concrete runs below are made of: one question, asked under some id and class, and the
actions of a call that misses the cache. -/

namespace Sample

def ask (id : UInt16) (queryClass : DnsClass) : Message :=
  { Message.new id .query .query with
    queries := [⟨⟨"a.example.".toList⟩, .A, queryClass⟩] }

/-- The answer `1.2.3.4` to a query. -/
def answer (query : Message) (ttl : UInt32) : Message :=
  { query.replyTo .noError with
    queries := query.queries
    answers := query.queries.map fun q ↦ ⟨q.name, ttl, .a 0x01020304#32⟩ }

def start [Lowercase] : PipelineState := .init 0 (Filter.new []) (Cache.new 1)

/-- Call `i` misses the cache and gets an answer. -/
def missed (i : ℕ) (query response : Message) : List PipelineAction :=
  [.receive query 0, .screen i, .lookUp i,
    .upstreamDone i (.answered response none) ⟨0, fun _ ↦ false⟩]

/-- Call `i` finds an entry. -/
def found (i : ℕ) (query : Message) : List PipelineAction :=
  [.receive query 0, .screen i, .lookUp i]

end Sample

end DnsBuffer
