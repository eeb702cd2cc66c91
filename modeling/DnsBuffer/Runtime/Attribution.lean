import DnsBuffer.Pipeline.Identity
import DnsBuffer.Runtime.Validation

/-!
# Upstreams and their rows

The chain of resolvers and the table of upstreams are built in one pass and used apart: queries run
through the chain, the dashboard reads the table. What has to hold across the two is that they tell
the same story. Every row is about one entry of the configuration, in the order of the
configuration, with an id of its own although two entries may have one name; after any calls on the
statistics it shows the calls made on the member of that entry and no others (`rows_show_entries`);
and the name that an answer is attributed to is the name of the row for the entry whose server has
sent the answer (`answers_name_their_row`).
-/

namespace DnsBuffer

variable {F : Type}

/-! ### The rows show the calls of their entries -/

section Rows

variable {env : Startup} {config : Config} {p q : BuiltPipeline F}

/-- The calls on the member of one entry. -/
def callsOn (kind : GroupKind) (i : ℕ) (calls : List (GroupKind × ℕ × StatsOp F)) :
    List (StatsOp F) :=
  calls.filterMap fun call ↦ if call.1 = kind ∧ call.2.1 = i then some call.2.2 else none

theorem callsOn_concat (kind kind' : GroupKind) (i i' : ℕ) (op : StatsOp F)
    (calls : List (GroupKind × ℕ × StatsOp F)) :
    callsOn kind' i' (calls ++ [(kind, i, op)]) =
      callsOn kind' i' calls ++ if kind = kind' ∧ i = i' then [op] else [] := by
  rw [callsOn, List.filterMap_append]
  split_ifs with h <;> simp [callsOn, h]

/-- The places are all different. -/
theorem Config.place_inj {kind kind' : GroupKind} {i i' : ℕ} (hi : i < (config.entries kind).length)
    (hi' : i' < (config.entries kind').length)
    (h : config.place kind i = config.place kind' i') : kind = kind' ∧ i = i' := by
  cases kind <;> cases kind' <;> simp only [Config.place, Config.entries] at h hi hi' <;>
    first | exact ⟨rfl, by omega⟩ | omega

theorem Config.place_lt {kind : GroupKind} {i : ℕ} (hi : i < (config.entries kind).length) :
    config.place kind i < config.upstream.length + config.fallback.length := by
  cases kind <;> simp only [Config.place, Config.entries] at hi ⊢ <;> omega

theorem BuiltFrom.length [UriSyntax] [NameSyntax] (h : BuiltFrom env config p)
    (kind : GroupKind) : (p.members kind).length = (config.entries kind).length := by
  have hnames := congrArg List.length (h.names kind)
  rwa [List.length_map, List.length_map] at hnames

variable [Zero F] [Add F]

/-- After some calls: the members and the rows are as they were built, and the statistics of every
entry are what the calls on it have made of them. -/
structure Tallied (env : Startup) (config : Config) (calls : List (GroupKind × ℕ × StatsOp F))
    (q : BuiltPipeline F) : Prop where
  length : ∀ kind, (q.members kind).length = (config.entries kind).length
  places : ∀ kind i m, (q.members kind)[i]? = some m → m.stats = config.place kind i
  metrics : q.assembly.metrics = config.rows env
  stats : ∀ kind i, i < (config.entries kind).length → q.assembly.stats[config.place kind i]? =
    some (.after config.window config.retentionDays (callsOn kind i calls))

theorem BuiltFrom.tallied [UriSyntax] [NameSyntax] (h : BuiltFrom env config p) :
    Tallied env config [] p where
  length := h.length
  places := h.places
  metrics := h.metrics
  stats kind i hi := by
    rw [h.stats, List.getElem?_replicate, if_pos (config.place_lt hi)]
    rfl

theorem Tallied.step {calls : List (GroupKind × ℕ × StatsOp F)} {call : GroupKind × ℕ × StatsOp F}
    {q' : BuiltPipeline F} (h : Tallied env config calls q)
    (hstep : BuiltPipeline.machine.step q call = some q') :
    Tallied env config (calls ++ [call]) q' := by
  obtain ⟨kind, index, op⟩ := call
  obtain ⟨m, hm, rfl⟩ := Option.map_eq_some_iff.1 hstep
  have hindex : index < (config.entries kind).length := by
    rw [← h.length]
    exact (List.getElem?_eq_some_iff.1 hm).1
  refine ⟨h.length, h.places, h.metrics, fun kind' i hi ↦ ?_⟩
  show (q.assembly.stats.modify m.stats _)[config.place kind' i]? = _
  rw [List.getElem?_modify, h.stats kind' i hi, h.places kind index m hm, callsOn_concat]
  by_cases hsame : kind = kind' ∧ index = i
  · obtain ⟨rfl, rfl⟩ := hsame
    simp [UpstreamStats.after, List.foldl_append]
  · have hne : config.place kind index ≠ config.place kind' i :=
      fun heq ↦ hsame (config.place_inj hindex hi heq)
    simp [hne, hsame]

variable [Div F] [NatCast F]

/-- The table that the configuration and the calls on its entries call for. -/
def Config.table (config : Config) (env : Startup) (calls : List (GroupKind × ℕ × StatsOp F))
    (now : ℤ) : List (UpstreamSnapshot F) :=
  groupKinds.flatMap fun kind ↦ (config.entries kind).mapIdx fun i u ↦
    ⟨kind.id i, env.memberName u, kind, UpstreamStats.snapshotAt
      (.after config.window config.retentionDays (callsOn kind i calls)) now⟩

theorem Tallied.snapshot_eq {calls : List (GroupKind × ℕ × StatsOp F)}
    (h : Tallied env config calls q) (now : ℤ) :
    q.assembly.snapshot now = config.table env calls now := by
  rw [Assembly.snapshot, h.metrics, Config.rows, List.filterMap_flatMap, Config.table]
  refine List.flatMap_congr fun kind _ ↦ ?_
  rw [List.mapIdx_eq_zipIdx_map, List.mapIdx_eq_zipIdx_map, List.filterMap_map]
  refine List.filterMap_eq_map_iff_forall_eq_some.2 fun entry hentry ↦ ?_
  show (q.assembly.stats[config.place kind entry.2]?).map _ = _
  rw [h.stats kind entry.2 (List.snd_lt_of_mem_zipIdx hentry)]
  rfl

end Rows

/-! ### Ids -/

theorem ofNat_injective : Function.Injective Text.ofNat := by
  intro n n' h
  have hdigits := congrArg (fun s ↦ Nat.ofDigitChars 10 s 0) h
  simpa only [Text.ofNat, Nat.ofDigitChars_ten_toDigits] using hdigits

/-- The groups are told apart by the first letter. -/
theorem GroupKind.head?_id (kind : GroupKind) (i : ℕ) :
    (kind.id i).head? = some (match kind with | .primary => 'p' | .fallback => 'f') := by
  cases kind <;> rfl

/-- A group and a place have an id of their own. -/
theorem GroupKind.id_inj {kind kind' : GroupKind} {i i' : ℕ} (h : kind.id i = kind'.id i') :
    kind = kind' ∧ i = i' := by
  have hhead := congrArg List.head? h
  rw [GroupKind.head?_id, GroupKind.head?_id, Option.some.injEq] at hhead
  have hkind : kind = kind' := by
    cases kind <;> cases kind' <;> first | rfl | exact absurd hhead (by decide)
  subst hkind
  rw [GroupKind.id, GroupKind.id] at h
  rw [List.append_cancel_left_eq, List.cons.injEq] at h
  exact ⟨rfl, ofNat_injective h.2⟩

theorem nodup_ids (config : Config) :
    (groupKinds.flatMap fun kind ↦ (config.entries kind).mapIdx fun i _ ↦ kind.id i).Nodup := by
  have hgroup (kind : GroupKind) (xs : List UpstreamConfig) :
      (xs.mapIdx fun i _ ↦ kind.id i).Nodup := by
    rw [List.nodup_iff_pairwise_ne, List.pairwise_iff_getElem]
    intro i j hi hj hij heq
    rw [List.getElem_mapIdx, List.getElem_mapIdx] at heq
    exact hij.ne (GroupKind.id_inj heq).2
  rw [groupKinds, List.flatMap_cons, List.flatMap_cons, List.flatMap_nil, List.append_nil,
    List.nodup_append']
  refine ⟨hgroup _ _, hgroup _ _, fun id hid hid' ↦ ?_⟩
  obtain ⟨i, -, rfl⟩ := List.mem_mapIdx.1 hid
  obtain ⟨j, -, heq⟩ := List.mem_mapIdx.1 hid'
  cases (GroupKind.id_inj heq).1

section Table

variable {env : Startup} {config : Config} {p q : BuiltPipeline F} [UriSyntax] [NameSyntax]
  [Zero F] [Add F] [Div F] [NatCast F]

omit [Div F] [NatCast F] in
theorem tallied_of_run (hbuild : env.buildPipeline config = .ok p)
    {calls : List (GroupKind × ℕ × StatsOp F)}
    (hrun : BuiltPipeline.machine.run p calls = some q) : Tallied env config calls q :=
  Machine.run_history (fun _ _ _ _ h hstep ↦ h.step hstep) hrun (builtFrom_of_build hbuild).tallied

/-- **The rows show their entries.** Whatever chain is built and whatever calls its members get, in
any order: the table has one row for each entry of the configuration, the primary group first and
each group in the order of its entries, with the name of the entry and the statistics of the calls
on its member alone; and no two rows have one id. -/
theorem rows_show_entries (hbuild : env.buildPipeline config = .ok p)
    {calls : List (GroupKind × ℕ × StatsOp F)}
    (hrun : BuiltPipeline.machine.run p calls = some q) (now : ℤ) :
    q.assembly.snapshot now = config.table env calls now ∧
      ((q.assembly.snapshot now).map UpstreamSnapshot.id).Nodup := by
  have htable := (tallied_of_run hbuild hrun).snapshot_eq now
  refine ⟨htable, ?_⟩
  rw [htable, Config.table, List.map_flatMap]
  convert nodup_ids config using 1
  refine List.flatMap_congr fun kind _ ↦ List.ext_getElem? fun i ↦ ?_
  rw [List.getElem?_map, List.getElem?_mapIdx, List.getElem?_mapIdx, Option.map_map]
  rfl

end Table

/-! ### Answers name their row -/

/-- A group waits for an invocation that it has logged; what it answers is the answer of a member,
under its name. -/
def GroupNamed {ε : Type} (members : List Member) :
    GroupWorld ε × (GroupTask ε ⊕ Except (GroupError ε) (Message × Option Text)) → Prop
  | (w, .inl (.trying _ _ _ v)) => v < w.invocations.length
  | (w, .inr (.ok answer)) => ∃ (v member latency : ℕ) (m : Member),
      w.invocations[v]? = some ⟨member, .returned (.ok answer.1) latency⟩ ∧
        members[member]? = some m ∧ answer.2 = some m.name
  | _ => True

theorem groupNamed_step {ε : Type} {members : List Member}
    {s t : GroupWorld ε × (GroupTask ε ⊕ Except (GroupError ε) (Message × Option Text))}
    {a : GroupAction ε} (h : GroupNamed members s)
    (hstep : (groupTask members).alone.step s a = some t) : GroupNamed members t := by
  obtain ⟨w, task | result⟩ := s
  · obtain ⟨w', next⟩ := t
    rcases groupStep_cases hstep with ⟨tried, last, left, error, rfl, rfl, rfl⟩ |
      ⟨tried, last, left, tried', left', member, rfl, rfl, rfl⟩ |
      ⟨tried, left, member, v, result, latency, rfl, rfl, hnext⟩
    · trivial
    · show w.invocations.length < (w.begin member).invocations.length
      simp [GroupWorld.begin]
    · rcases hnext with ⟨response, m, rfl, hm, rfl⟩ | ⟨error, error', rfl, rfl⟩ |
        ⟨error, tried', last, left', rfl, rfl⟩
      · exact ⟨v, member, latency, m, List.getElem?_set_self h, hm, rfl⟩
      · trivial
      · trivial
  · exact absurd hstep (by simp [AsyncTask.alone])

section Answers

variable [Codec] [Network] {query response : Message} {name : Option Text}

/-- What a leaf returns has no name. -/
theorem Leaf.returns_of_returns {leaf : Leaf} {named : Except ResolveError (Message × Option Text)}
    (h : (Resolver.leaf leaf).Returns query named) (hok : withoutName named = .ok response) :
    leaf.Returns query (.ok response) := by
  cases h with
  | @leaf _ _ result hleaf =>
    rcases result with error | message
    · cases hok
    · cases hok
      exact hleaf

/-- The answer of a chain is the answer of a member, under its name. -/
theorem BuiltPipeline.chain_answer {p : BuiltPipeline F} {kind : GroupKind}
    (h : (p.chain kind).Returns query (.ok (response, name))) :
    ∃ (i : ℕ) (m : GroupMember), (p.members kind)[i]? = some m ∧ name = some m.name ∧
      m.resolver.Returns query (.ok response) := by
  rw [chain] at h
  generalize hresult : Except.ok (response, name) = result at h
  cases h with
  | @hedged _ _ _ now as s verdict hrun hphase hreturns =>
    rcases verdict with won | ⟨- | error, inFlight⟩
    · obtain ⟨id, hmem⟩ := (Engine.inv_of_run hrun).answered won (by rw [hphase]; rfl)
      have hgroup := hreturns _ hmem (by simp)
      obtain rfl := Except.ok.inj hresult
      generalize hresult' : Except.ok (response, name) = result' at hgroup
      cases hgroup with
      | @group members _ as w result named hrun' hmembers hreturns' =>
        rcases result with error | answer
        · cases hresult'
        · obtain rfl := Except.ok.inj hresult'
          obtain ⟨v, member, latency, m, hv, hm, hname⟩ :=
            Machine.run_invariant (I := GroupNamed (namesOf _))
              (fun _ _ _ h hstep ↦ groupNamed_step h hstep) hrun' trivial
          rw [namesOf, List.map_map, List.getElem?_map, Option.map_eq_some_iff] at hm
          obtain ⟨gm, hgm, rfl⟩ := hm
          refine ⟨member, gm, hgm, hname, ?_⟩
          have hleaf := hreturns' v member _ latency _ hv (by rw [List.getElem?_map, hgm]; rfl)
          exact Leaf.returns_of_returns hleaf (hmembers v member _ latency hv)
    · cases hresult
    · cases hresult

variable {env : Startup} {config : Config} {p q : BuiltPipeline F} [UriSyntax] [NameSyntax]
  [Zero F] [Add F] [Div F] [NatCast F]

/-- **Answers name their row.** Whatever chain is built, an answer that it returns for a query is
what the resolver for the server of one entry of the configuration has returned, and of the fallback
group only after the primary group has returned an error. The answer comes with the name of that
entry, and at any time this is the name in the row for it. -/
theorem answers_name_their_row (hbuild : env.buildPipeline config = .ok p)
    (h : p.resolver.Returns query (.ok (response, name)))
    {calls : List (GroupKind × ℕ × StatsOp F)}
    (hrun : BuiltPipeline.machine.run p calls = some q) (now : ℤ) :
    ∃ kind i u leaf, (config.entries kind)[i]? = some u ∧ env.Serves config kind i u leaf ∧
      leaf.Returns query (.ok response) ∧
      (kind = .fallback → ∃ error, (p.chain .primary).Returns query (.error error)) ∧
      ∃ row ∈ q.assembly.snapshot now, row.id = kind.id i ∧ row.group = kind ∧
        row.name = env.memberName u ∧ name = some row.name := by
  have hbuilt := builtFrom_of_build hbuild
  have hchain : ∃ kind, (p.chain kind).Returns query (.ok (response, name)) ∧
      (kind = .fallback → ∃ error, (p.chain .primary).Returns query (.error error)) := by
    rw [BuiltPipeline.resolver] at h
    split_ifs at h
    · generalize hresult : Except.ok (response, name) = result at h
      cases h with
      | primary hprimary => exact ⟨.primary, hresult ▸ hprimary, nofun⟩
      | fallback hprimary hfallback => exact ⟨.fallback, hresult ▸ hfallback, fun _ ↦ ⟨_, hprimary⟩⟩
    · exact ⟨.primary, h, nofun⟩
  obtain ⟨kind, hreturns, hfirst⟩ := hchain
  obtain ⟨i, m, hm, rfl, hleaf⟩ := BuiltPipeline.chain_answer hreturns
  have hentry := congrArg (·[i]?) (hbuilt.names kind)
  rw [List.getElem?_map, List.getElem?_map, hm, Option.map_some, eq_comm,
    Option.map_eq_some_iff] at hentry
  obtain ⟨u, hu, hname⟩ := hentry
  refine ⟨kind, i, u, m.resolver, hu, hbuilt.serves kind i m u hm hu, hleaf, hfirst, ?_⟩
  rw [(tallied_of_run hbuild hrun).snapshot_eq now]
  obtain ⟨hi, rfl⟩ := List.getElem?_eq_some_iff.1 hu
  refine ⟨_, List.mem_flatMap.2 ⟨kind, by cases kind <;> decide,
    List.mem_mapIdx.2 ⟨i, hi, rfl⟩⟩, rfl, rfl, rfl, ?_⟩
  rw [hname]

end Answers

/-! ### Two entries with one name -/

/-- Each of the two rows with one name has an id and the calls of its own. -/
theorem rows_show_entries_same_name :
    let _ := genericUri
    let _ := anyName
    let calls : List (GroupKind × ℕ × StatsOp ℚ) :=
      [(.primary, 1, .success 5 ⟨0, by decide⟩), (.fallback, 0, .timeout ⟨0, by decide⟩),
        (.primary, 1, .timeout ⟨0, by decide⟩)]
    ∃ p q, Sample.startup.buildPipeline Sample.chainConfig = .ok p ∧
      BuiltPipeline.machine.run p calls = some q ∧
      ((q.assembly.snapshot 0).map fun row ↦ (row.id, row.name)) =
        [("primary-0".toList, Sample.plainName), ("primary-1".toList, Sample.plainName),
          ("fallback-0".toList, "doh:https://dns.example/dns-query@9.9.9.9".toList)] ∧
      ((q.assembly.snapshot 0).map fun row ↦ row.stats.toOption.map StatsSnapshot.samples) =
        [some 0, some 2, some 1] := by
  intro _ _ calls
  obtain ⟨p, hbuild⟩ := Sample.exists_chain
  have hrun : ((Sample.startup.buildPipeline Sample.chainConfig).toOption.bind fun p ↦
      BuiltPipeline.machine.run p calls).isSome := by
    decide +kernel
  rw [hbuild] at hrun
  obtain ⟨q, hq⟩ := Option.isSome_iff_exists.1 hrun
  obtain ⟨htable, -⟩ := rows_show_entries hbuild hq 0
  refine ⟨p, q, hbuild, hq, ?_, ?_⟩
  · rw [htable]
    decide +kernel
  · rw [htable]
    decide +kernel

/-! ### The server that answers -/

namespace Sample

/-- Two plain upstreams at different addresses. -/
def pairConfig : Config :=
  { chainConfig with upstream := [.plain ⟨.v4 0x08080808#32, 53⟩, .plain server], fallback := [] }

/-- The members that are built from it. -/
def pair : List (Text × Leaf) :=
  [("plain:8.8.8.8:53".toList, .plain ⟨.v4 0x08080808#32, 53⟩), (plainName, .plain server)]

theorem exists_pair :
    ∃ p : BuiltPipeline ℚ,
      @Startup.buildPipeline ℚ startup genericUri anyName pairConfig = .ok p ∧
        (p.members .primary).map (fun m ↦ (m.name, m.resolver)) = pair := by
  have hbuilt : (@Startup.buildPipeline ℚ startup genericUri anyName pairConfig).toOption.any
      fun p ↦ (p.members .primary).map (fun m ↦ (m.name, m.resolver)) = pair := by
    decide +kernel
  rcases hcase : @Startup.buildPipeline ℚ startup genericUri anyName pairConfig with error | p
  · rw [hcase] at hbuilt
    cases hbuilt
  · rw [hcase] at hbuilt
    exact ⟨p, rfl, of_decide_eq_true hbuilt⟩

/-- The second of them answers their group. -/
theorem group_answers :
    let _ := codec
    let _ := network
    (Resolver.group (pair.map fun m ↦ (m.1, .leaf m.2))).Returns request.1
      (.ok (reply.1, some plainName)) := by
  intro _ _
  obtain ⟨w, hrun, hinvocations⟩ : ∃ w : GroupWorld ResolveError,
      (groupTask (namesOf (pair.map fun m ↦ (m.1, .leaf m.2)))).alone.run
        (GroupWorld.empty, .inl (groupTask (namesOf (pair.map fun m ↦ (m.1, .leaf m.2)))).start)
        [.choose (some 1), .memberDone (.ok reply.1) 5] =
          some (w, .inr (.ok (reply.1, some plainName))) ∧
      w.invocations = [⟨1, .returned (.ok reply.1) 5⟩] := ⟨_, rfl, rfl⟩
  refine .group (fun _ ↦ .ok (reply.1, none)) hrun ?_ ?_
  · intro v member r latency hv
    rw [hinvocations, List.getElem?_singleton] at hv
    split_ifs at hv
    cases hv
    rfl
  · intro v member r latency m hv hm
    rw [hinvocations, List.getElem?_singleton] at hv
    split_ifs at hv
    cases hv
    cases hm
    exact .leaf server_returns

/-- An engine over a resolver that answers its first attempt answers. -/
theorem hedged_answers [Codec] [Network] {inner : Resolver} (engine : HedgedResolver)
    {answer : Message × Option Text} (h : inner.Returns request.1 (.ok answer)) :
    (Resolver.hedged engine inner).Returns request.1 (.ok answer) := by
  obtain ⟨s, hrun, hphase, hresults⟩ : ∃ s, (Engine.machine engine (.attempt _)).run
      (.start engine (.attempt _) () 0) [.progress 0 (.ok answer), .wake 0, .raiseFlag, .abortAll,
        .finish] = some s ∧ s.phase = .returned (.ok answer) ∧
      s.results = [(0, (.ok answer : Except ResolveError _))] := ⟨_, rfl, rfl, rfl⟩
  refine .hedged hrun hphase ?_
  rw [hresults]
  intro x hx _
  rw [List.mem_singleton.1 hx]
  exact h

end Sample

/-- Of two plain upstreams only the second sends anything: an answer comes with the name of its row,
and no other row is the one for it. -/
theorem answers_name_their_row_second :
    let _ := genericUri
    let _ := anyName
    let _ := Sample.codec
    let _ := Sample.network
    ∃ p : BuiltPipeline ℚ, Sample.startup.buildPipeline Sample.pairConfig = .ok p ∧
      p.resolver.Returns Sample.request.1 (.ok (Sample.reply.1, some Sample.plainName)) ∧
      ∃ row ∈ p.assembly.snapshot 0, row.id = "primary-1".toList ∧
        row.name = Sample.plainName := by
  intro _ _ _ _
  obtain ⟨p, hbuild, hpair⟩ := Sample.exists_pair
  have hchain : p.chain .primary =
      .hedged p.engine (.group (Sample.pair.map fun m ↦ (m.1, .leaf m.2))) := by
    rw [BuiltPipeline.chain, ← hpair, List.map_map]
    rfl
  have hresolver : p.resolver.Returns Sample.request.1
      (.ok (Sample.reply.1, some Sample.plainName)) := by
    have hsingle : ¬p.hasFallback = true := fun hfallback ↦
      (builtFrom_of_build hbuild).hasFallback.1 hfallback rfl
    rw [BuiltPipeline.resolver, if_neg hsingle, hchain]
    exact Sample.hedged_answers p.engine Sample.group_answers
  have hidle : BuiltPipeline.machine.run p ([] : List (GroupKind × ℕ × StatsOp ℚ)) = some p := rfl
  obtain ⟨kind, i, u, leaf, hu, hserves, hleaf, -, row, hrow, hid, -, -, hname⟩ :=
    answers_name_their_row hbuild hresolver hidle 0
  refine ⟨p, hbuild, hresolver, row, hrow, ?_, (Option.some.inj hname).symm⟩
  rw [hid]
  obtain ⟨bytes, hsent⟩ := hleaf.exists_sent
  match kind, i, hu with
  | .primary, 0, hu =>
    -- the first server sends nothing
    cases hu
    cases hserves
    exact absurd hsent.1 (by decide)
  | .primary, 1, _ => rfl

end DnsBuffer
