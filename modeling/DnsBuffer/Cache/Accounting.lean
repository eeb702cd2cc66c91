import DnsBuffer.Cache.Model

/-!
# The cache's byte accounting

The running total is the sum of the costs of the stored entries, keys are unique, and the total
stays within the budget — after every sequence of calls and whatever the allocator refuses. Each of
the four places of `put` that touch the total has one specification lemma, which says at the same
time that its arithmetic succeeds and what it leaves behind:

* `CacheMap.removeOld_spec` — replacement,
* `CacheMap.reserveOrEvict_spec` — eviction while the allocator refuses,
* `CacheMap.insertTail_spec` — insertion, the only addition,
* `CacheMap.evictOver_spec` — eviction while over the budget.

`Cache.put_spec` composes them. No subtraction can fail on an accounted map, for the same reason
everywhere: what is subtracted is a summand of the total. The addition is the one operation that
needs a bound on the budget, since the new entry is accounted for before the old ones are evicted.
-/

namespace DnsBuffer

/-! ### Maps -/

/-- **The accounting invariant of the map**: unique keys, and a total that is the sum of the
costs. -/
structure CacheMap.Accounted (m : CacheMap) : Prop where
  nodup : m.entries.keys.Nodup
  used : m.usedBytes = m.entries.weight CacheEntry.cost

namespace CacheMap

theorem accounted_empty : Accounted ⟨[], 0⟩ := ⟨List.nodup_nil, rfl⟩

/-- Dropping the front entry together with its bytes keeps the map accounted. -/
theorem Accounted.tail {b : CacheKey × CacheEntry} {rest : LinkedMap CacheKey CacheEntry}
    {used : ℕ} (h : Accounted ⟨b :: rest, used⟩) :
    usizeSub used b.2.cost = .ok (used - b.2.cost) ∧ Accounted ⟨rest, used - b.2.cost⟩ := by
  have hused : used = b.2.cost + rest.weight CacheEntry.cost := h.used
  refine ⟨if_pos (by omega), (List.nodup_cons.1 h.nodup).2, ?_⟩
  show used - b.2.cost = rest.weight CacheEntry.cost
  omega

theorem removeOld_spec {m : CacheMap} (h : m.Accounted) (key : CacheKey) :
    ∃ m', m.removeOld key = .ok m' ∧ m'.Accounted ∧ m'.entries = m.entries.erase key ∧
      m'.usedBytes ≤ m.usedBytes := by
  rcases hold : m.entries.lookup key with - | old
  · have hkey : key ∉ m.entries.keys := by
      rw [← LinkedMap.lookup_isSome_iff_mem_keys, hold]
      simp
    refine ⟨m, by rw [removeOld, hold], h, (LinkedMap.erase_eq_self hkey).symm, le_rfl⟩
  · have hweight := LinkedMap.weight_erase CacheEntry.cost h.nodup hold
    have hused := h.used
    refine ⟨⟨m.entries.erase key, m.usedBytes - old.cost⟩, ?_, ⟨?_, ?_⟩, rfl, Nat.sub_le _ _⟩
    · simp only [removeOld, hold, usizeSub, if_pos (show old.cost ≤ m.usedBytes by omega)]
      rfl
    · exact LinkedMap.nodup_keys_erase h.nodup key
    · show m.usedBytes - old.cost = (m.entries.erase key).weight CacheEntry.cost
      omega

/-- The reservation loop leaves a back segment of the entries, and all of them are gone when it
gives up. -/
theorem reserveOrEvictFrom_spec (refuse : ℕ → Bool) :
    ∀ (entries : LinkedMap CacheKey CacheEntry) (i used : ℕ), Accounted ⟨entries, used⟩ →
      ∃ reserved m', reserveOrEvictFrom refuse i entries used = .ok (reserved, m') ∧
        m'.Accounted ∧ m'.entries <:+ entries ∧ m'.usedBytes ≤ used ∧
        (reserved = false → m'.entries = [])
  | [], i, used, h => ⟨!refuse i, ⟨[], used⟩, rfl, h, List.suffix_rfl, le_rfl, fun _ ↦ rfl⟩
  | b :: rest, i, used, h => by
    by_cases hrefuse : refuse i = true
    · obtain ⟨hsub, htail⟩ := h.tail
      -- one eviction, then the loop from the next request on
      obtain ⟨reserved, m', hm', hacc, hsuf, hle, hempty⟩ :=
        reserveOrEvictFrom_spec refuse rest (i + 1) _ htail
      refine ⟨reserved, m', ?_, hacc, hsuf.trans (List.suffix_cons b rest), by omega, hempty⟩
      rw [reserveOrEvictFrom, if_pos hrefuse, hsub]
      exact hm'
    · refine ⟨true, ⟨b :: rest, used⟩, ?_, h, List.suffix_rfl, le_rfl, by simp⟩
      rw [reserveOrEvictFrom, if_neg hrefuse]

theorem reserveOrEvict_spec (refuse : ℕ → Bool) {m : CacheMap} (h : m.Accounted) :
    ∃ reserved m', m.reserveOrEvict refuse = .ok (reserved, m') ∧ m'.Accounted ∧
      m'.entries <:+ m.entries ∧ m'.usedBytes ≤ m.usedBytes ∧
      (reserved = false → m'.entries = []) :=
  reserveOrEvictFrom_spec refuse m.entries 0 m.usedBytes h

/-- Insertion of a fresh key: the addition is the only thing that can go wrong. -/
theorem insertTail_spec {m : CacheMap} (h : m.Accounted) {key : CacheKey} (entry : CacheEntry)
    (hkey : key ∉ m.entries.keys) :
    (m.usedBytes + entry.cost ≤ usizeMax →
      ∃ m', m.insertTail key entry = .ok m' ∧ m'.Accounted ∧
        m'.entries = m.entries ++ [(key, entry)]) ∧
    (¬m.usedBytes + entry.cost ≤ usizeMax → m.insertTail key entry = .error .overflow) := by
  have hpush : m.entries.pushBack key entry = m.entries ++ [(key, entry)] := by
    rw [LinkedMap.pushBack, LinkedMap.erase_eq_self hkey]
  constructor
  · intro hadd
    refine ⟨⟨m.entries.pushBack key entry, m.usedBytes + entry.cost⟩, ?_, ⟨?_, ?_⟩, hpush⟩
    · rw [insertTail, usizeAdd, if_pos hadd]
      rfl
    · exact LinkedMap.nodup_keys_pushBack h.nodup key entry
    · show m.usedBytes + entry.cost = _
      rw [hpush, LinkedMap.weight_append, ← h.used]
      simp
  · intro hadd
    rw [insertTail, usizeAdd, if_neg hadd]
    rfl

theorem evictOverFrom_spec (maxBytes : ℕ) :
    ∀ (entries : LinkedMap CacheKey CacheEntry) (used : ℕ), Accounted ⟨entries, used⟩ →
      ∃ m', evictOverFrom maxBytes entries used = .ok m' ∧ m'.Accounted ∧
        m'.entries <:+ entries ∧ m'.usedBytes ≤ maxBytes
  | [], used, h => ⟨⟨[], used⟩, rfl, h, List.suffix_rfl, by rw [h.used]; exact Nat.zero_le _⟩
  | b :: rest, used, h => by
    by_cases hover : used > maxBytes
    · obtain ⟨hsub, htail⟩ := h.tail
      obtain ⟨m', hm', hacc, hsuf, hle⟩ := evictOverFrom_spec maxBytes rest _ htail
      refine ⟨m', ?_, hacc, hsuf.trans (List.suffix_cons b rest), hle⟩
      rw [evictOverFrom, if_pos hover, hsub]
      exact hm'
    · refine ⟨⟨b :: rest, used⟩, ?_, h, List.suffix_rfl, Nat.le_of_not_lt hover⟩
      rw [evictOverFrom, if_neg hover]

theorem evictOver_spec (maxBytes : ℕ) {m : CacheMap} (h : m.Accounted) :
    ∃ m', m.evictOver maxBytes = .ok m' ∧ m'.Accounted ∧ m'.entries <:+ m.entries ∧
      m'.usedBytes ≤ maxBytes :=
  evictOverFrom_spec maxBytes m.entries m.usedBytes h

end CacheMap

/-! ### Caches -/

/-- **The accounting invariant of the cache**: the map is accounted and within the budget. -/
structure Cache.Accounted (c : Cache) : Prop where
  map : c.map.Accounted
  le_maxBytes : c.map.usedBytes ≤ c.maxBytes

namespace Cache

variable [WireFormat]

omit [WireFormat] in
theorem accounted_withMaxBytes (maxBytes : ℕ) : (withMaxBytes maxBytes).Accounted :=
  ⟨CacheMap.accounted_empty, Nat.zero_le _⟩

/-! #### `get` -/

omit [WireFormat] in
/-- What a lookup returns, read off the entry of the key. -/
theorem get_fst (c : Cache) (now : Instant) (key : CacheKey) (id : UInt16) :
    (c.get now key id).1 = (c.map.entries.lookup key).map fun entry ↦
      (entry.message.withId id, decide (entry.expiresAt ≤ now)) := by
  rcases h : c.map.entries.lookup key with - | entry <;> simp [get, LinkedMap.toBack, h]

omit [WireFormat] in
@[simp] theorem get_maxBytes (c : Cache) (now : Instant) (key : CacheKey) (id : UInt16) :
    (c.get now key id).2.maxBytes = c.maxBytes := by
  unfold get
  split <;> rfl

omit [WireFormat] in
@[simp] theorem get_usedBytes (c : Cache) (now : Instant) (key : CacheKey) (id : UInt16) :
    (c.get now key id).2.map.usedBytes = c.map.usedBytes := by
  unfold get
  split <;> rfl

omit [WireFormat] in
/-- Every lookup is counted, and every hit. -/
theorem get_counters (c : Cache) (now : Instant) (key : CacheKey) (id : UInt16) :
    (c.get now key id).2.lookups = c.lookups + 1 ∧
      (c.get now key id).2.hits = c.hits + (c.get now key id).1.isSome.toNat := by
  rcases h : c.map.entries.toBack key with - | ⟨entry, entries⟩ <;> simp [get, h]

omit [WireFormat] in
/-- **A lookup rearranges the entries and changes none.** -/
theorem get_entries_perm {c : Cache} (h : c.map.entries.keys.Nodup) (now : Instant)
    (key : CacheKey) (id : UInt16) : (c.get now key id).2.map.entries.Perm c.map.entries := by
  unfold get
  split
  · exact List.Perm.refl _
  · rename_i hback
    exact LinkedMap.perm_toBack h hback

omit [WireFormat] in
theorem Accounted.get {c : Cache} (h : c.Accounted) (now : Instant) (key : CacheKey)
    (id : UInt16) : (c.get now key id).2.Accounted := by
  have hperm := get_entries_perm h.map.nodup now key id
  refine ⟨⟨(hperm.map Prod.fst).nodup_iff.2 h.map.nodup, ?_⟩, ?_⟩
  · rw [get_usedBytes, h.map.used, LinkedMap.weight_perm _ hperm]
  · rw [get_usedBytes, get_maxBytes]
    exact h.le_maxBytes

/-! #### `put` -/

/-- What a `put` leaves behind: the key's old entry is gone, some of the least recently used entries
may be, and if anything was added it is the new entry, at the back. -/
structure PutResult (c c' : Cache) (key : CacheKey) (entry : CacheEntry) : Prop where
  accounted : c'.Accounted
  maxBytes : c'.maxBytes = c.maxBytes
  lookups : c'.lookups = c.lookups
  hits : c'.hits = c.hits
  entries : c'.map.entries = c.map.entries ∨
    c'.map.entries <:+ c.map.entries.erase key ++ [(key, entry)]

omit [WireFormat] in
theorem not_mem_keys_of_suffix_erase {entries rest : LinkedMap CacheKey CacheEntry} {key : CacheKey}
    (h : rest <:+ entries.erase key) : key ∉ rest.keys :=
  fun hmem ↦ LinkedMap.not_mem_keys_erase _ _ ((h.map Prod.fst).subset hmem)

omit [WireFormat] in
/-- The locked part of `put` after replacement and reservation. -/
theorem putEntry_of_reserve {c : Cache} {refuse : ℕ → Bool} {key : CacheKey} {m₁ m₂ : CacheMap}
    {reserved : Bool} (h₁ : c.map.removeOld key = .ok m₁)
    (h₂ : m₁.reserveOrEvict refuse = .ok (reserved, m₂)) (entry : CacheEntry) :
    c.putEntry refuse key entry =
      if reserved then
        (m₂.insertTail key entry).bind fun m₃ ↦
          (m₃.evictOver c.maxBytes).bind fun m₄ ↦ .ok { c with map := m₄ }
      else .ok { c with map := m₂ } := by
  simp only [putEntry, h₁, h₂, bind, Except.bind, pure, Except.pure]

omit [WireFormat] in
/-- The locked part of `put` on an accounted cache: it succeeds, or the one addition overflows —
which takes entries whose bytes do not fit a machine word together, and so a budget above half of
the address space. -/
theorem putEntry_spec {c : Cache} (h : c.Accounted) (refuse : ℕ → Bool) (key : CacheKey)
    {entry : CacheEntry} (hcost : entry.cost ≤ c.maxBytes) :
    (∃ c', c.putEntry refuse key entry = .ok c' ∧ c.PutResult c' key entry) ∨
      (c.putEntry refuse key entry = .error .overflow ∧ usizeMax < 2 * c.maxBytes ∧
        usizeMax < (c.map.entries.erase key).weight CacheEntry.cost + entry.cost) := by
  obtain ⟨m₁, h₁, hacc₁, hent₁, hle₁⟩ := CacheMap.removeOld_spec h.map key
  obtain ⟨reserved, m₂, h₂, hacc₂, hsuf₂, hle₂, hempty⟩ := CacheMap.reserveOrEvict_spec refuse hacc₁
  have hmax := h.le_maxBytes
  have hput := putEntry_of_reserve h₁ h₂ entry
  have hused := hacc₁.used
  rw [hent₁] at hused
  rcases Bool.eq_false_or_eq_true reserved with hres | hres
  · have hkey : key ∉ m₂.entries.keys := not_mem_keys_of_suffix_erase (hent₁ ▸ hsuf₂)
    have hins := CacheMap.insertTail_spec hacc₂ entry hkey
    -- both summands are within the budget, so an overflow takes a budget above half of a machine
    -- word
    by_cases hadd : m₂.usedBytes + entry.cost ≤ usizeMax
    · obtain ⟨m₃, h₃, hacc₃, hent₃⟩ := hins.1 hadd
      obtain ⟨m₄, h₄, hacc₄, hsuf₄, hle₄⟩ := CacheMap.evictOver_spec c.maxBytes hacc₃
      refine Or.inl ⟨{ c with map := m₄ }, ?_, ⟨⟨hacc₄, hle₄⟩, rfl, rfl, rfl, Or.inr ?_⟩⟩
      · rw [hput, if_pos hres, h₃]
        simp only [Except.bind, h₄]
      · rw [hent₁] at hsuf₂
        obtain ⟨front, hfront⟩ := hsuf₂
        refine hsuf₄.trans ⟨front, ?_⟩
        rw [hent₃, ← hfront, List.append_assoc]
    · refine Or.inr ⟨?_, by omega, by omega⟩
      rw [hput, if_pos hres, hins.2 hadd]
      rfl
  · refine Or.inl ⟨{ c with map := m₂ }, ?_, ⟨⟨hacc₂, ?_⟩, rfl, rfl, rfl, Or.inr ?_⟩⟩
    · rw [hput, if_neg (by simp [hres])]
    · exact (hle₂.trans hle₁).trans hmax
    -- the reservation has failed, and by then nothing is left to evict
    · show m₂.entries <:+ _
      rw [hempty hres]
      exact List.nil_suffix

/-- **`put` on an accounted cache.** -/
theorem put_spec {c : Cache} (h : c.Accounted) (now : Instant) (refuse : ℕ → Bool)
    (key : CacheKey) (message : Message) :
    (∃ c', c.put now refuse key message = .ok c' ∧ c.PutResult c' key (entryOf now key message)) ∨
      (c.put now refuse key message = .error .overflow ∧ usizeMax < 2 * c.maxBytes ∧
        usizeMax < (c.map.entries.erase key).weight CacheEntry.cost + entryCost key message) := by
  by_cases hcost : entryCost key message > c.maxBytes
  · exact Or.inl ⟨c, by rw [put, if_pos hcost], h, rfl, rfl, rfl, Or.inl rfl⟩
  · rw [put, if_neg hcost]
    exact putEntry_spec h refuse key (Nat.le_of_not_lt hcost)

theorem putResult_of_ok {c c' : Cache} (h : c.Accounted) {now : Instant} {refuse : ℕ → Bool}
    {key : CacheKey} {message : Message} (hput : c.put now refuse key message = .ok c') :
    c.PutResult c' key (entryOf now key message) := by
  rcases put_spec h now refuse key message with ⟨c₁, h₁, hres⟩ | ⟨herr, -⟩
  · rw [h₁, Except.ok.injEq] at hput
    exact hput ▸ hres
  · rw [herr] at hput
    cases hput

end Cache

/-! ### Every sequence of calls -/

section Runs

variable [WireFormat]

@[simp] theorem cacheMachine_step_get (c : Cache) (now : Instant) (key : CacheKey) (id : UInt16) :
    cacheMachine.step c (.get now key id) = some (c.get now key id).2 := rfl

theorem cacheMachine_step_put {c c' : Cache} {now : Instant} {refuse : ℕ → Bool} {key : CacheKey}
    {message : Message} : cacheMachine.step c (.put now refuse key message) = some c' ↔
      c.put now refuse key message = .ok c' := by
  show (c.put now refuse key message).toOption = some c' ↔ _
  rcases c.put now refuse key message with e | c₁ <;> simp [Except.toOption]

theorem cacheMachine_step_accounted {c c' : Cache} {op : CacheOp} (h : c.Accounted)
    (hstep : cacheMachine.step c op = some c') : c'.Accounted ∧ c'.maxBytes = c.maxBytes := by
  cases op with
  | get now key id =>
    rw [cacheMachine_step_get, Option.some.injEq] at hstep
    subst hstep
    exact ⟨h.get now key id, c.get_maxBytes now key id⟩
  | put now refuse key message =>
    have hres := Cache.putResult_of_ok h (cacheMachine_step_put.1 hstep)
    exact ⟨hres.accounted, hres.maxBytes⟩

theorem cacheMachine_run_accounted {c c' : Cache} {ops : List CacheOp} (h : c.Accounted)
    (hrun : cacheMachine.run c ops = some c') : c'.Accounted ∧ c'.maxBytes = c.maxBytes :=
  Machine.run_invariant (I := fun d ↦ d.Accounted ∧ d.maxBytes = c.maxBytes)
    (fun _ _ _ hd hstep ↦
      ⟨(cacheMachine_step_accounted hd.1 hstep).1,
        (cacheMachine_step_accounted hd.1 hstep).2.trans hd.2⟩)
    hrun ⟨h, rfl⟩

/-- **The accounting theorem.** After every sequence of calls on a fresh cache, whatever the
allocator refused on the way: keys are unique, the total is the sum of the stored costs and within
the budget; so the next `put` can never subtract below zero, and if twice the budget fits a machine
word it succeeds outright. -/
theorem cache_accounting_of_run (maxBytes : ℕ) (ops : List CacheOp) (c : Cache)
    (hrun : cacheMachine.run (Cache.withMaxBytes maxBytes) ops = some c) :
    c.map.entries.keys.Nodup ∧
      c.map.usedBytes = (c.map.entries.map fun b ↦ b.2.cost).sum ∧
      c.map.usedBytes ≤ maxBytes ∧
      (∀ now refuse key message, c.put now refuse key message ≠ .error .underflow) ∧
      (2 * maxBytes ≤ usizeMax →
        ∀ now refuse key message, ∃ c', c.put now refuse key message = .ok c') := by
  obtain ⟨hacc, hmax⟩ := cacheMachine_run_accounted (Cache.accounted_withMaxBytes maxBytes) hrun
  replace hmax : c.maxBytes = maxBytes := hmax
  refine ⟨hacc.map.nodup, hacc.map.used, hmax ▸ hacc.le_maxBytes, ?_, ?_⟩
  · intro now refuse key message herr
    rcases Cache.put_spec hacc now refuse key message with ⟨c', hok, -⟩ | ⟨hover, -⟩
    · rw [hok] at herr
      cases herr
    · rw [hover] at herr
      cases herr
  · intro hfit now refuse key message
    rcases Cache.put_spec hacc now refuse key message with ⟨c', hok, -⟩ | ⟨-, hover⟩
    · exact ⟨c', hok⟩
    · omega

end Runs

/-- A run that stores, reads, gives up on a replacement the allocator refuses, and
stores again. -/
theorem cache_accounting_of_run_sample :
    let _wire : WireFormat := ⟨fun _ ↦ some 20⟩
    let key (n : Char) : CacheKey := ⟨[n, '.', 'c'], 1⟩
    let message := Message.new 7 .response .query
    let ops : List CacheOp :=
      [.put 0 (fun _ ↦ false) (key 'a') message, .get 5 (key 'a') 9,
        .put 6 (fun i ↦ i < 2) (key 'a') message, .put 7 (fun _ ↦ false) (key 'b') message]
    ∃ c, cacheMachine.run (Cache.withMaxBytes 400) ops = some c ∧
      c.map.usedBytes = (c.map.entries.map fun b ↦ b.2.cost).sum := by
  intro _wire key message ops
  have hsome : (cacheMachine.run (Cache.withMaxBytes 400) ops).isSome := by decide +kernel
  obtain ⟨c, hc⟩ := Option.isSome_iff_exists.1 hsome
  exact ⟨c, hc, (cache_accounting_of_run 400 ops c hc).2.1⟩

end DnsBuffer
