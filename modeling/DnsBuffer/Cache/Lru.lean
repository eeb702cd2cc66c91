import DnsBuffer.Cache.Accounting

/-!
# The cache as a list

What the cache is for: a list of entries from least to most recently used, of which a lookup moves
one to the back, and to which an insertion adds one at the back, as much being kept from the back on
as the budget allows. The list is `map.entries`, and everything else the cache keeps (the running
total, the loops over it, the reservations) is there to arrive at this list.

`refines_lru` says so for every state a sequence of calls leads to. Which entry a key has is part of
it: the one of the last insertion of the key that the budget allows (`lastPut`), so a lookup tells
whether the time since that insertion has exceeded the time to live of what was inserted.
-/

namespace DnsBuffer

/-! ### The two loops -/

namespace CacheMap

/-- If the allocator grants the first request, nothing is evicted for it. -/
theorem reserveOrEvict_granted {refuse : ℕ → Bool} (h : refuse 0 = false) (m : CacheMap) :
    m.reserveOrEvict refuse = .ok (true, m) := by
  obtain ⟨_ | ⟨b, rest⟩, used⟩ := m <;> simp [reserveOrEvict, reserveOrEvictFrom, h]

/-- If it refuses every request that is made, the loop gives up. -/
theorem reserveOrEvictFrom_refused {refuse : ℕ → Bool} {entries : LinkedMap CacheKey CacheEntry}
    {i used : ℕ} (h : ∀ j ≤ entries.length, refuse (i + j) = true) {reserved : Bool} {m : CacheMap}
    (hloop : reserveOrEvictFrom refuse i entries used = .ok (reserved, m)) : reserved = false := by
  have hfirst := h 0 (Nat.zero_le _)
  rw [Nat.add_zero] at hfirst
  induction entries generalizing i used with
  | nil =>
    rw [reserveOrEvictFrom, Except.ok.injEq, Prod.mk.injEq, hfirst] at hloop
    exact hloop.1.symm
  | cons b rest ih =>
    rw [reserveOrEvictFrom, if_pos hfirst] at hloop
    rcases hsub : usizeSub used b.2.cost with e | used' <;> rw [hsub] at hloop
    · cases hloop
    · have hrest : ∀ j ≤ rest.length, refuse (i + 1 + j) = true := by
        intro j hj
        rw [Nat.add_assoc, Nat.add_comm 1 j]
        exact h (j + 1) (Nat.succ_le_succ hj)
      exact ih hrest hloop (hrest 0 (Nat.zero_le _))

theorem insertTail_of_ok {m m' : CacheMap} (h : m.Accounted) {key : CacheKey} {entry : CacheEntry}
    (hkey : key ∉ m.entries.keys) (hinsert : m.insertTail key entry = .ok m') :
    m'.Accounted ∧ m'.entries = m.entries ++ [(key, entry)] := by
  obtain ⟨hfits, hover⟩ := insertTail_spec h entry hkey
  by_cases hadd : m.usedBytes + entry.cost ≤ usizeMax
  · obtain ⟨m₁, h₁, hacc, hentries⟩ := hfits hadd
    obtain rfl := Except.ok.inj (hinsert.symm.trans h₁)
    exact ⟨hacc, hentries⟩
  · exact nomatch hinsert.symm.trans (hover hadd)

/-- **The closing loop leaves what the budget allows.** -/
theorem evictOverFrom_eq_fit (maxBytes : ℕ) {entries : LinkedMap CacheKey CacheEntry} {used : ℕ}
    (h : Accounted ⟨entries, used⟩) {m : CacheMap}
    (hloop : evictOverFrom maxBytes entries used = .ok m) :
    m.entries = entries.fit CacheEntry.cost maxBytes := by
  induction entries generalizing used with
  | nil =>
    rw [evictOverFrom, Except.ok.injEq] at hloop
    exact hloop ▸ rfl
  | cons b rest ih =>
    have hused : used = LinkedMap.weight CacheEntry.cost (b :: rest) := h.used
    rw [evictOverFrom] at hloop
    rw [LinkedMap.fit, ← hused]
    rcases Nat.lt_or_ge maxBytes used with hover | hfits
    · rw [if_pos hover, h.tail.1] at hloop
      rw [if_neg (Nat.not_le.2 hover)]
      exact ih h.tail.2 hloop
    · rw [if_neg (Nat.not_lt.2 hfits), Except.ok.injEq] at hloop
      rw [if_pos hfits, ← hloop]

end CacheMap

/-! ### Insertion -/

namespace Cache

/-- **What an insertion leaves.** If the allocator refuses nothing, this is the longest back segment
within the budget of the entries with the new one behind them, and otherwise a back segment of
that. -/
theorem putEntry_entries {c c' : Cache} (h : c.Accounted) {refuse : ℕ → Bool} {key : CacheKey}
    {entry : CacheEntry} (hput : c.putEntry refuse key entry = .ok c') :
    let kept := LinkedMap.fit CacheEntry.cost c.maxBytes (c.map.entries.pushBack key entry)
    (refuse 0 = false → c'.map.entries = kept) ∧ c'.map.entries <:+ kept ∧
      ((∀ i ≤ (c.map.entries.erase key).length, refuse i = true) → c'.map.entries = []) := by
  intro kept
  obtain ⟨m₁, h₁, hacc₁, hent₁, -⟩ := CacheMap.removeOld_spec h.map key
  obtain ⟨reserved, m₂, h₂, hacc₂, hsuf₂, -, hempty⟩ := CacheMap.reserveOrEvict_spec refuse hacc₁
  rw [putEntry_of_reserve h₁ h₂] at hput
  have hgranted : refuse 0 = false → reserved = true ∧ m₂ = m₁ := by
    intro hrefuse
    rw [CacheMap.reserveOrEvict_granted hrefuse, Except.ok.injEq, Prod.mk.injEq] at h₂
    exact ⟨h₂.1.symm, h₂.2.symm⟩
  have hrefused : (∀ i ≤ (c.map.entries.erase key).length, refuse i = true) → reserved = false := by
    intro hrefuse
    rw [← hent₁] at hrefuse
    exact CacheMap.reserveOrEvictFrom_refused (by simpa using hrefuse) h₂
  cases reserved with
  | false =>
    rw [if_neg Bool.false_ne_true, Except.ok.injEq] at hput
    have hnil : c'.map.entries = [] := hput ▸ hempty rfl
    rw [hnil]
    exact ⟨fun hrefuse ↦ absurd (hgranted hrefuse).1 Bool.false_ne_true, List.nil_suffix,
      fun _ ↦ rfl⟩
  | true =>
    rw [hent₁] at hsuf₂
    have hkey := not_mem_keys_of_suffix_erase hsuf₂
    rw [if_pos rfl] at hput
    rcases h₃ : m₂.insertTail key entry with e | m₃ <;> rw [h₃] at hput
    · exact nomatch hput
    rcases h₄ : m₃.evictOver c.maxBytes with e | m₄ <;> simp only [Except.bind, h₄] at hput
    · exact nomatch hput
    obtain rfl := Except.ok.inj hput
    obtain ⟨hacc₃, hent₃⟩ := CacheMap.insertTail_of_ok hacc₂ hkey h₃
    have hent₄ : m₄.entries = LinkedMap.fit CacheEntry.cost c.maxBytes m₃.entries :=
      CacheMap.evictOverFrom_eq_fit c.maxBytes hacc₃ h₄
    refine ⟨fun hrefuse ↦ ?_, ?_, fun hrefuse ↦ absurd (hrefused hrefuse) (by decide)⟩
    · show m₄.entries = kept
      rw [hent₄, hent₃, (hgranted hrefuse).2, hent₁]
      rfl
    · show m₄.entries <:+ kept
      rw [hent₄, hent₃]
      obtain ⟨front, hfront⟩ := hsuf₂
      refine LinkedMap.fit_suffix_fit _ _ ⟨front, ?_⟩
      rw [← List.append_assoc, hfront]
      rfl

/-- A lookup leaves the entries, with the one that is found at the back. -/
theorem get_entries (c : Cache) (now : Instant) (key : CacheKey) (id : UInt16) :
    (c.get now key id).2.map.entries = ((c.map.entries.lookup key).elim c.map.entries fun entry ↦
      c.map.entries.pushBack key entry) := by
  rcases h : c.map.entries.lookup key with _ | entry <;> simp [get, LinkedMap.toBack, h]

end Cache

/-! ### Which entry a key has -/

section Runs

variable [WireFormat]

/-- What a call puts under a key, and when, if it is within the budget. -/
def CacheOp.puts (maxBytes : ℕ) (key : CacheKey) : CacheOp → Option (Instant × Message)
  | .put now _ key' message =>
    if key' = key ∧ entryCost key' message ≤ maxBytes then some (now, message) else none
  | .get .. => none

/-- What was last put under a key, and when. -/
def lastPut (maxBytes : ℕ) (key : CacheKey) (ops : List CacheOp) : Option (Instant × Message) :=
  ops.reverse.findSome? (CacheOp.puts maxBytes key)

theorem lastPut_append (maxBytes : ℕ) (key : CacheKey) (ops : List CacheOp) (op : CacheOp) :
    lastPut maxBytes key (ops ++ [op]) =
      (op.puts maxBytes key).or (lastPut maxBytes key ops) := by
  rw [lastPut, List.reverse_append, List.reverse_singleton, List.singleton_append,
    List.findSome?_cons, lastPut]
  rcases op.puts maxBytes key with _ | put <;> rfl

/-- The entries after a sequence of calls are what was last put under their keys. -/
structure Recorded (maxBytes : ℕ) (ops : List CacheOp) (c : Cache) : Prop where
  accounted : c.Accounted
  maxBytes_eq : c.maxBytes = maxBytes
  last : ∀ key entry, (key, entry) ∈ c.map.entries → ∃ putAt,
    lastPut maxBytes key ops = some (putAt, entry.message) ∧
      entry = Cache.entryOf putAt key entry.message

/-- **The record is kept** by every call. -/
theorem Recorded.step {maxBytes : ℕ} {ops : List CacheOp} {c c' : Cache} {op : CacheOp}
    (h : Recorded maxBytes ops c) (hstep : cacheMachine.step c op = some c') :
    Recorded maxBytes (ops ++ [op]) c' := by
  obtain ⟨hacc, hmax⟩ := cacheMachine_step_accounted h.accounted hstep
  refine ⟨hacc, hmax.trans h.maxBytes_eq, fun key entry hmem ↦ ?_⟩
  cases op with
  | get now key' id =>
    rw [cacheMachine_step_get, Option.some.injEq] at hstep
    subst hstep
    rw [lastPut_append, CacheOp.puts, Option.none_or]
    exact h.last key entry ((Cache.get_entries_perm h.accounted.map.nodup now key' id).subset hmem)
  | put now refuse key' message =>
    rw [cacheMachine_step_put, Cache.put] at hstep
    rw [lastPut_append, CacheOp.puts]
    split at hstep
    · rename_i hover
      rw [h.maxBytes_eq] at hover
      obtain rfl := Except.ok.inj hstep
      rw [if_neg fun hc ↦ absurd hc.2 (Nat.not_le.2 hover), Option.none_or]
      exact h.last key entry hmem
    · rename_i hfits
      rw [h.maxBytes_eq, Nat.not_lt] at hfits
      obtain ⟨-, hsuffix, -⟩ := Cache.putEntry_entries h.accounted hstep
      have hmem' := (hsuffix.trans (LinkedMap.isLongestFit_fit _ _ _).suffix).subset hmem
      rcases List.mem_append.1 hmem' with hold | hnew
      · obtain ⟨hold, hne⟩ := LinkedMap.mem_erase.1 hold
        rw [if_neg fun hc ↦ hne hc.1.symm, Option.none_or]
        exact h.last key entry hold
      · obtain ⟨rfl, rfl⟩ := Prod.mk.inj (List.mem_singleton.1 hnew)
        rw [if_pos ⟨rfl, hfits⟩, Option.some_or]
        exact ⟨now, rfl, rfl⟩

theorem recorded_of_run {maxBytes : ℕ} {ops : List CacheOp} {c : Cache}
    (hrun : cacheMachine.run (Cache.withMaxBytes maxBytes) ops = some c) :
    Recorded maxBytes ops c :=
  Machine.run_history (I := Recorded maxBytes) (fun _ _ _ _ h hstep ↦ h.step hstep) hrun
    ⟨Cache.accounted_withMaxBytes maxBytes, rfl, fun _ _ hmem ↦ nomatch hmem⟩

/-! ### Every sequence of calls -/

/-- **The cache is a list of recently used entries within a budget**, after a sequence of calls. -/
structure RefinesLru (maxBytes : ℕ) (ops : List CacheOp) (c : Cache) : Prop where
  /-- A lookup returns what was last put under the key, under the id that asks, and tells whether it
  is older than its time to live; its entry is the most recently used one then. -/
  get_present : ∀ now key id entry, c.map.entries.lookup key = some entry → ∃ putAt,
    lastPut maxBytes key ops = some (putAt, entry.message) ∧
      (c.get now key id).1 = some (entry.message.withId id,
        decide (putAt + entryTtl entry.message * nanosPerSecond ≤ now)) ∧
      (c.get now key id).2.map.entries = c.map.entries.erase key ++ [(key, entry)]
  get_absent : ∀ now key id, c.map.entries.lookup key = none →
    (c.get now key id).1 = none ∧ (c.get now key id).2.map.entries = c.map.entries
  /-- An insertion leaves the longest back segment within the budget, where the new entry is found,
  if no reservation is refused, a back segment of that in any case, and nothing if all reservations
  are refused; unless the bytes of the list it starts from do not fit a machine word. -/
  put : ∀ now refuse key message, entryCost key message ≤ maxBytes →
    let new := (key, Cache.entryOf now key message)
    (∃ c' longest, c.put now refuse key message = .ok c' ∧
      LinkedMap.IsLongestFit CacheEntry.cost maxBytes (c.map.entries.erase key ++ [new]) longest ∧
      longest.lookup key = some new.2 ∧ (refuse 0 = false → c'.map.entries = longest) ∧
      c'.map.entries <:+ longest ∧
      ((∀ i ≤ (c.map.entries.erase key).length, refuse i = true) → c'.map.entries = [])) ∨
    (c.put now refuse key message = .error .overflow ∧ usizeMax < 2 * maxBytes ∧
      usizeMax < LinkedMap.weight CacheEntry.cost (c.map.entries.erase key ++ [new] : List _))
  put_above : ∀ now refuse key message, maxBytes < entryCost key message →
    c.put now refuse key message = .ok c

/-- An entry of usual size is within the budget of every cache that is configured. -/
theorem entryCost_le_new (maxMemoryMb : ℕ) {key : CacheKey} {message : Message}
    (hname : key.name.utf8Len ≤ 4096)
    (hencoded : ∀ n, WireFormat.encodedLen message = some n → n ≤ 65535) :
    entryCost key message ≤ (Cache.new maxMemoryMb).maxBytes := by
  have hlen : (WireFormat.encodedLen message).getD 512 ≤ 65535 := by
    rcases h : WireFormat.encodedLen message with _ | n
    · decide
    · exact hencoded n h
  have hbudget : 1048576 ≤ (Cache.new maxMemoryMb).maxBytes := by
    show 1048576 ≤ min (max maxMemoryMb 1 * (1024 * 1024)) usizeMax
    refine le_min ?_ (by decide)
    have := le_max_right maxMemoryMb 1
    omega
  rw [entryCost]
  omega

/-- **The refinement**: after every sequence of calls on a fresh cache, whatever the allocator
refused on the way; and a configured cache takes every entry of usual size. -/
theorem refines_lru (maxBytes : ℕ) (ops : List CacheOp) (c : Cache)
    (hrun : cacheMachine.run (Cache.withMaxBytes maxBytes) ops = some c) :
    RefinesLru maxBytes ops c ∧ ∀ maxMemoryMb key message, key.name.utf8Len ≤ 4096 →
      (∀ n, WireFormat.encodedLen message = some n → n ≤ 65535) →
      entryCost key message ≤ (Cache.new maxMemoryMb).maxBytes := by
  obtain ⟨hacc, rfl, hlast⟩ := recorded_of_run hrun
  refine ⟨⟨fun now key id entry hlookup ↦ ?_, fun now key id hlookup ↦ ?_,
    fun now refuse key message hcost ↦ ?_, fun now refuse key message hcost ↦ if_pos hcost⟩,
    fun mb key message ↦ entryCost_le_new mb⟩
  · obtain ⟨putAt, hput, hentry⟩ := hlast key entry (LinkedMap.mem_of_lookup hlookup)
    have hexpires : entry.expiresAt = putAt + entryTtl entry.message * nanosPerSecond := by
      conv_lhs => rw [hentry]
      rfl
    refine ⟨putAt, hput, ?_, ?_⟩
    · rw [Cache.get_fst, hlookup, Option.map_some, hexpires]
    · rw [Cache.get_entries, hlookup]
      rfl
  · rw [Cache.get_fst, Cache.get_entries, hlookup]
    exact ⟨rfl, rfl⟩
  · intro new
    rcases Cache.put_spec hacc now refuse key message with ⟨c', hok, -⟩ | ⟨herror, hbudget, hbytes⟩
    · have hentry := hok
      rw [Cache.put, if_neg (Nat.not_lt.2 hcost)] at hentry
      obtain ⟨hgranted, hsuffix, hrefused⟩ := Cache.putEntry_entries hacc hentry
      exact Or.inl ⟨c', _, hok, LinkedMap.isLongestFit_fit _ _ _,
        LinkedMap.lookup_fit_pushBack CacheEntry.cost _ key hcost, hgranted, hsuffix, hrefused⟩
    · refine Or.inr ⟨herror, hbudget, ?_⟩
      rw [LinkedMap.weight_append]
      exact hbytes

end Runs

/-- Two entries of which one is read again, and a third one for which there is no room beside both:
the one that was not read is gone. -/
theorem refines_lru_reread :
    let _wire : WireFormat := ⟨fun _ ↦ some 20⟩
    let key (n : Char) : CacheKey := ⟨[n, '.', 'c'], 1⟩
    let message := Message.new 7 .response .query
    let ops : List CacheOp :=
      [.put 0 (fun _ ↦ false) (key 'a') message, .put 1 (fun _ ↦ false) (key 'b') message,
        .get 5 (key 'a') 9, .put 6 (fun _ ↦ false) (key 'c') message]
    ∃ c, cacheMachine.run (Cache.withMaxBytes 400) ops = some c ∧
      c.map.entries.keys = [key 'a', key 'c'] ∧ RefinesLru 400 ops c := by
  intro _wire key message ops
  have hsome : (cacheMachine.run (Cache.withMaxBytes 400) ops).isSome := by decide +kernel
  obtain ⟨c, hrun⟩ := Option.isSome_iff_exists.1 hsome
  have hkeys : ((cacheMachine.run (Cache.withMaxBytes 400) ops).map fun c ↦ c.map.entries.keys) =
      some [key 'a', key 'c'] := by decide +kernel
  rw [hrun, Option.map_some, Option.some.injEq] at hkeys
  exact ⟨c, hrun, hkeys, (refines_lru 400 ops c hrun).1⟩

end DnsBuffer
