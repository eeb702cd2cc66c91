import DnsBuffer.Dashboard.Search
import DnsBuffer.Foundation.Simulation

/-!
# Reading a page while the store is written

`queries_with_deadline` runs three statements: how many rows match, the rows of the page, and the
addresses of these rows. They are no transaction, so that the worker may write or clean up between
them, and each of them sees the store of its own moment.

The number may then be that of another moment than the rows. But the rows are the page of one
moment, and a row never gets the addresses of another one: ids are not given out twice, so it has
the addresses it was inserted with, all of them, or none if a cleanup has taken the row in the
meantime (`rows_keep_their_addresses`).
-/

namespace DnsBuffer

/-- `Store::queries_with_deadline`, with the store as each of its statements sees it. -/
def Db.queriesAcross (counted listed addressed : Db) (page pageSize : ℕ) (search : Option Text) :
    Except QueryError QueryPage :=
  (queryOffset page pageSize).map fun offset ↦
    let selected := ((Table.orderBy newestFirst (listed.matching search)).drop offset).take pageSize
    { page := max page 1
      pageSize := pageSize
      total := (counted.matching search).length
      records := addressed.withAddresses (selected.map fun row ↦ ⟨row, []⟩) }

/-- Of one state of the store it reads what `Db.queries` does. -/
theorem Db.queriesAcross_self (db : Db) (page pageSize : ℕ) (search : Option Text) :
    db.queriesAcross db db page pageSize search = db.queries page pageSize search := rfl

/-! ### What a store keeps -/

/-- No id is given out twice, and what was inserted is remembered. -/
structure Db.Grows (db db' : Db) : Prop where
  inserted : db.inserted <+: db'.inserted
  lastId : db.lastId ≤ db'.lastId

namespace Db.Grows

theorem refl (db : Db) : db.Grows db := ⟨List.prefix_refl _, le_rfl⟩

theorem trans {db db' db'' : Db} (h : db.Grows db') (h' : db'.Grows db'') : db.Grows db'' :=
  ⟨h.inserted.trans h'.inserted, h.lastId.trans h'.lastId⟩

variable [Chrono]

theorem insertEvents {db db' : Db} {events : List QueryEvent}
    (hok : db.insertEvents events = .ok db') : db.Grows db' := by
  induction events generalizing db with
  | nil =>
    rw [← Except.ok.inj hok]
    exact refl db
  | cons e events ih =>
    rw [Db.insertEvents, List.foldlM_cons, Db.insertEvent] at hok
    split at hok
    · cases hok
    · split at hok
      · exact trans ⟨List.prefix_append _ _, Nat.le_succ _⟩ (ih hok)
      · cases hok

theorem step {s s' : StoreState} {op : StoreOp}
    (hstep : StoreState.machine.step s op = some s') : s.db.Grows s'.db := by
  rcases StoreState.db_of_step hstep with hsame | ⟨events, hok⟩ | ⟨cutoff, hdeleted⟩
  · rw [hsame]
    exact refl s.db
  · exact insertEvents hok
  · rw [hdeleted]
    exact ⟨List.prefix_refl _, le_rfl⟩

theorem run {s s' : StoreState} {ops : List StoreOp}
    (hrun : StoreState.machine.run s ops = some s') : s.db.Grows s'.db :=
  Machine.run_invariant (I := fun t ↦ s.db.Grows t.db) (fun _ _ _ h hstep ↦ h.trans (step hstep))
    hrun (refl s.db)

end Db.Grows

/-- **Rows keep their addresses.** A page is read while any calls on the store come between the
statements. It says how many rows matched at the first of them, its rows are the page at the second,
and every row is the one of an event and has the addresses of this event, in order: all of them if
the row is still there at the third, and none otherwise. -/
theorem rows_keep_their_addresses [Chrono] {ops₁ ops₂ ops₃ : List StoreOp} {s₁ s₂ s₃ : StoreState}
    (hrun₁ : StoreState.machine.run StoreState.empty ops₁ = some s₁)
    (hrun₂ : StoreState.machine.run s₁ ops₂ = some s₂)
    (hrun₃ : StoreState.machine.run s₂ ops₃ = some s₃) (hfits : s₃.db.lastId < 2 ^ 63)
    {page pageSize : ℕ} (search : Option Text) (hpage : 1 ≤ page)
    (hsize : 1 ≤ pageSize ∧ pageSize ≤ 200) (hoffset : (page - 1) * pageSize < 2 ^ 63) :
    ∃ p, s₁.db.queriesAcross s₂.db s₃.db page pageSize search = .ok p ∧
      p.page = page ∧ p.pageSize = pageSize ∧ p.total = (s₁.db.matching search).length ∧
      p.records.map QueryRecord.toLogRow = s₂.db.listedPage pageSize search (page - 1) ∧
      ∀ r ∈ p.records, ∃ e, (r.id, e) ∈ s₂.db.inserted ∧ r.toLogRow = LogRow.ofEvent r.id e ∧
        r.responseIps.Pairwise (· < ·) ∧
        ∀ ip, ip ∈ r.responseIps ↔
          (∃ row ∈ s₃.db.queryLogs, row.id = r.id) ∧ ip ∈ e.responseIps := by
  have hreach₂ := Machine.run_append_eq_some hrun₁ hrun₂
  have hreach₃ := Machine.run_append_eq_some hreach₂ hrun₃
  have hgrows := Db.Grows.run hrun₃
  have hkeyed₂ : s₂.db.Keyed := Db.keyed_of_run hreach₂ (hgrows.lastId.trans_lt hfits)
  have hkeyed₃ : s₃.db.Keyed := Db.keyed_of_run hreach₃ hfits
  have hips₂ := (Consistent.of_run hreach₂).ips
  have hips₃ := (Consistent.of_run hreach₃).ips
  have hnodup : ((s₂.db.listedPage pageSize search (page - 1)).map LogRow.id).Nodup :=
    (Db.listed_ids_nodup hkeyed₂ search).sublist
      (((List.take_sublist _ _).trans (List.drop_sublist _ _)).map _)
  refine ⟨_, by rw [Db.queriesAcross, Db.queryOffset_eq hpage hsize hoffset]; rfl,
    max_eq_left hpage, rfl, rfl, ?_, ?_⟩
  · show (s₃.db.withAddresses ((s₂.db.listedPage pageSize search (page - 1)).map
      fun row ↦ ⟨row, []⟩)).map QueryRecord.toLogRow = _
    rw [Db.withAddresses_eq hnodup, List.map_map]
    exact List.map_id _
  · show ∀ r ∈ s₃.db.withAddresses ((s₂.db.listedPage pageSize search (page - 1)).map
      fun row ↦ ⟨row, []⟩), _
    rw [Db.withAddresses_eq hnodup, List.forall_mem_map]
    intro row hrow
    have hlisted : row ∈ s₂.db.queryLogs :=
      (s₂.db.matching_sublist search).subset ((s₂.db.listed_perm search).subset
        (List.mem_of_mem_drop (List.mem_of_mem_take hrow)))
    obtain ⟨e, he, heq⟩ := hips₂.rows row hlisted
    obtain ⟨hsorted, hmem⟩ := Db.addresses_spec hkeyed₃ (List.mem_map_of_mem hrow)
    refine ⟨e, he, heq, hsorted, fun ip ↦ (hmem ip).trans ((hips₃.ips row.id ip).trans ?_)⟩
    -- the id still belongs to the event it was given to
    refine and_congr_right fun _ ↦ ⟨fun ⟨e', he', hip⟩ ↦ ?_, fun hip ↦ ?_⟩
    · rw [hips₃.ids_unique row.id e e' (hgrows.inserted.subset he) he']
      exact hip
    · exact ⟨e, hgrows.inserted.subset he, hip⟩

/-- The first row is cleaned up between the statements: the page still has three rows, and the two
that are left have their addresses. -/
theorem rows_keep_their_addresses_cleanup :
    let ops : List StoreOp := [.insertEvents
      [Sample.event 5400000 true, Sample.event 86400000 false, Sample.event 90000000 false] true]
    ∃ s₁ s₃ p, (@StoreState.machine Chrono.utc).run StoreState.empty ops = some s₁ ∧
      (@StoreState.machine Chrono.utc).run s₁ [.cleanup 1 172800000 true] = some s₃ ∧
      s₁.db.queriesAcross s₁.db s₃.db 1 10 none = .ok p ∧
      p.records.map QueryRecord.toLogRow = s₁.db.listedPage 10 none 0 ∧
      s₁.db.queryLogs.length = 3 ∧ s₃.db.queryLogs.length = 2 := by
  intro ops
  have hsome : ((@StoreState.machine Chrono.utc).run StoreState.empty ops).any fun s₁ ↦
      s₁.db.queryLogs.length = 3 ∧
        ((@StoreState.machine Chrono.utc).run s₁ [.cleanup 1 172800000 true]).any fun s₃ ↦
          s₃.db.lastId < 2 ^ 63 ∧ s₃.db.queryLogs.length = 2 := by
    decide +kernel
  obtain ⟨s₁, hs₁, hprop⟩ := (Option.any_eq_true _ _).1 hsome
  obtain ⟨hthree, hany⟩ := of_decide_eq_true hprop
  obtain ⟨s₃, hs₃, hprop⟩ := (Option.any_eq_true _ _).1 hany
  obtain ⟨hfits, htwo⟩ := of_decide_eq_true hprop
  obtain ⟨p, hp, -, -, -, hrows, -⟩ :=
    @rows_keep_their_addresses Chrono.utc ops [] _ s₁ s₁ s₃ hs₁ rfl hs₃ hfits 1 10 none le_rfl
      (by decide) (by decide)
  exact ⟨s₁, s₃, p, hs₁, hs₃, hp, hrows, hthree, htwo⟩

end DnsBuffer
