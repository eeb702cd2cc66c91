import DnsBuffer.Runtime.Build

/-!
# What validation rules out

`Config::validate` looks at the configuration before anything is built, and the code that builds
relies on it: bootstrap servers are built without a lookup because validation has seen their
addresses, and a group is built without a further thought because it has an entry. The checks that
would notice are still there, deep inside the building. After validation they never fire
(`validated_chain_dials`).
-/

namespace DnsBuffer

variable {F : Type}

/-! ### Failures -/

section Validated

variable {env : Startup} {config : Config}

/-- The two failures that only a configuration that is not validated can bring about. -/
def BuildError.Internal : BuildError → Prop
  | .noUpstreams => True
  | .withoutIps _ => True
  | _ => False

theorem Startup.tlsConfig_not_internal {ech : Option (List UInt8)} {e : BuildError}
    (h : env.tlsConfig ech = .error e) : ¬e.Internal := by
  obtain ⟨reason, -, rfl⟩ := Work.mapError_eq_error.1 h
  exact not_false

theorem Startup.dotResolver_not_internal {ip : IpAddr} {domain : Text} {e : BuildError}
    (h : env.dotResolver ip domain = .error e) : ¬e.Internal := by
  rcases Work.bind_eq_error.1 h with h | ⟨⟨host, port⟩, -, h⟩
  · rw [splitDomainPort] at h
    split at h
    · split at h
      · cases h
      · cases h
        exact not_false
    · cases h
  · rcases Work.bind_eq_error.1 h with h | ⟨-, -, h⟩
    · exact tlsConfig_not_internal h
    · split_ifs at h
      cases h
      exact not_false

variable [UriSyntax]

theorem Startup.dohResolver_not_internal {url : Text} {ips : List IpAddr}
    {ech : Option (List UInt8)} {http3 preferIpv6 : Bool} {e : BuildError} (hips : ips ≠ [])
    (h : env.dohResolver url ips ech http3 preferIpv6 = .error e) : ¬e.Internal := by
  unfold dohResolver at h
  split at h
  · cases h
    exact not_false
  · split at h
    · cases h
      exact not_false
    · split at h
      · cases h
        exact not_false
      · rcases Work.bind_eq_error.1 h with h | ⟨-, -, h⟩
        · exact tlsConfig_not_internal h
        · rcases Work.bind_eq_error.1 h with h | ⟨-, -, h⟩
          · rw [h3Conn] at h
            split_ifs at h
            rcases Work.bind_eq_error.1 h with h | ⟨-, -, h⟩
            · exact tlsConfig_not_internal h
            · obtain ⟨reason, -, rfl⟩ := Work.mapError_eq_error.1 h
              exact not_false
          · cases h

theorem Startup.bootstrapResolver_not_internal {preferIpv6 : Bool} {u : UpstreamConfig}
    {e : BuildError} (hip : u.dohWithoutIp? = none)
    (h : env.bootstrapResolver preferIpv6 u = .error e) : ¬e.Internal := by
  cases u with
  | plain addr => cases h
  | dot ip domain =>
    rcases hdot : env.dotResolver ip domain with e' | built
    · rw [bootstrapResolver, hdot] at h
      cases h
      exact dotResolver_not_internal hdot
    · rw [bootstrapResolver, hdot] at h
      cases h
  | doh url ech http3 ip =>
    cases ip with
    | none => cases hip
    | some ip => exact dohResolver_not_internal (List.cons_ne_nil _ _) h

/-- Bootstrap servers that have an address are built, or fail for another reason. -/
theorem Startup.bootstrap_not_internal {servers : List UpstreamConfig} {preferIpv6 : Bool}
    {e : BuildError} (hips : servers.findSome? UpstreamConfig.dohWithoutIp? = none)
    (h : env.bootstrap servers preferIpv6 = .error e) : ¬e.Internal := by
  rcases Work.bind_eq_error.1 h with h | ⟨-, -, h⟩
  · clear * - hips h
    induction servers with
    | nil => cases h
    | cons u servers ih =>
      rw [List.findSome?_cons] at hips
      rcases hip : u.dohWithoutIp? with - | url
      · rw [hip] at hips
        rw [List.mapM_cons] at h
        rcases Work.bind_eq_error.1 h with h | ⟨r, -, h⟩
        · exact bootstrapResolver_not_internal hip h
        · rcases Work.bind_eq_error.1 h with h | ⟨rs, -, h⟩
          · exact ih hips h
          · cases h
      · rw [hip] at hips
        cases hips
  · cases h

variable [NameSyntax]

omit [UriSyntax] in
theorem Startup.memberEch_not_internal {b : Bootstrap} {id : UInt16} {url host ech : Text}
    {e : BuildError} (h : env.memberEch b id url host ech = .error e) : ¬e.Internal := by
  rw [memberEch] at h
  split at h
  · split at h
    · cases h
    · split at h
      · cases h
      · cases h
  · split at h
    · cases h
    · cases h
      exact not_false

theorem Startup.buildMember_not_internal {b : Bootstrap} {preferIpv6 : Bool}
    {ids : RecordType → UInt16} {u : UpstreamConfig} {e : BuildError}
    (h : env.buildMember b preferIpv6 ids u = .error e) : ¬e.Internal := by
  cases u with
  | plain addr => cases h
  | dot ip domain =>
    rcases Work.bind_eq_error.1 h with h | ⟨⟨host, port, r⟩, -, h⟩
    · exact dotResolver_not_internal h
    · cases h
  | doh url ech http3 ip =>
    simp only [buildMember] at h
    split at h
    · cases h
      exact not_false
    · rcases Work.bind_eq_error.1 h with h | ⟨ips, hips, h⟩
      · obtain ⟨error, -, rfl⟩ := Work.mapError_eq_error.1 h
        exact not_false
      · rcases Work.bind_eq_error.1 h with h | ⟨echBytes, -, h⟩
        · exact memberEch_not_internal h
        · rcases Work.bind_eq_error.1 h with h | ⟨r, -, h⟩
          · exact dohResolver_not_internal
              (Bootstrap.memberIps_ne_nil (Work.mapError_eq_ok.1 hips)) h
          · cases h

theorem Startup.buildMembers_not_internal {b : Bootstrap} {preferIpv6 : Bool} {kind : GroupKind}
    {i : ℕ} {entries : List UpstreamConfig} {e : BuildError}
    (h : env.buildMembers b preferIpv6 kind i entries = .error e) : ¬e.Internal := by
  induction entries generalizing i with
  | nil => cases h
  | cons u entries ih =>
    rcases Work.bind_eq_error.1 h with h | ⟨member, -, h⟩
    · exact buildMember_not_internal h
    · rcases Work.bind_eq_error.1 h with h | ⟨members, -, h⟩
      · exact ih h
      · cases h

/-- A group with an entry is built, or fails for another reason. -/
theorem Startup.buildGroup_not_internal {b : Bootstrap} {kind : GroupKind} {a : Assembly F}
    {e : BuildError} (hentries : config.entries kind ≠ [])
    (h : env.buildGroup b config kind a = .error e) : ¬e.Internal := by
  rcases Work.bind_eq_error.1 h with h | ⟨members, hmembers, h⟩
  · exact buildMembers_not_internal h
  · have hspec := congrArg List.length (buildMembers_names hmembers)
    rw [List.length_map, List.length_map] at hspec
    have hne : members ≠ [] := by
      rintro rfl
      exact hentries (List.length_eq_zero_iff.1 hspec.symm)
    rw [if_neg hne] at h
    cases h

/-! ### Addresses to dial -/

/-- A resolver that has an address to dial, if it is one that dials by address, and that dials the
preferred family first. -/
def Leaf.Dials (preferIpv6 : Bool) (r : Leaf) : Prop :=
  ∀ target, r = .doh target → target.ips ≠ [] ∧ ∃ preferred others,
    target.ips = preferred ++ others ∧ (∀ ip ∈ preferred, ip.isIpv6 = preferIpv6) ∧
      ∀ ip ∈ others, ip.isIpv6 ≠ preferIpv6

omit [NameSyntax] in
theorem Startup.dohResolver_dials {url : Text} {ips : List IpAddr} {ech : Option (List UInt8)}
    {http3 preferIpv6 : Bool} {r : Leaf}
    (h : env.dohResolver url ips ech http3 preferIpv6 = .ok r) : r.Dials preferIpv6 := by
  obtain ⟨-, target, rfl, -, -, -, -, -, -, htarget, hips⟩ := dohResolver_spec h
  rintro _ ⟨⟩
  rw [htarget]
  have hne : sortByFamily preferIpv6 ips ≠ [] :=
    fun hnil ↦ hips ((sortByFamily_perm preferIpv6 ips).symm.trans (hnil ▸ .nil)).eq_nil
  refine ⟨hne, _, _, sortByFamily_eq preferIpv6 ips, fun ip hip ↦ ?_, fun ip hip ↦ ?_⟩
  · exact eq_of_beq (List.mem_filter.1 hip).2
  · exact bne_iff_ne.1 (List.mem_filter.1 hip).2

theorem Startup.buildMember_dials {b : Bootstrap} {preferIpv6 : Bool} {ids : RecordType → UInt16}
    {u : UpstreamConfig} {member : Text × Leaf}
    (h : env.buildMember b preferIpv6 ids u = .ok member) : member.2.Dials preferIpv6 := by
  cases u with
  | plain addr =>
    cases h
    rintro target ⟨⟩
  | dot ip domain =>
    obtain ⟨⟨host, port, r⟩, hdot, h⟩ := Work.bind_eq_ok.1 h
    obtain ⟨-, rfl⟩ := dotResolver_spec hdot
    cases h
    rintro target ⟨⟩
  | doh url ech http3 ip =>
    simp only [buildMember] at h
    split at h
    · cases h
    · obtain ⟨ips, -, h⟩ := Work.bind_eq_ok.1 h
      obtain ⟨echBytes, -, h⟩ := Work.bind_eq_ok.1 h
      obtain ⟨r, hdoh, h⟩ := Work.bind_eq_ok.1 h
      cases h
      exact dohResolver_dials hdoh

theorem Startup.buildMembers_dials {b : Bootstrap} {preferIpv6 : Bool} {kind : GroupKind} {i : ℕ}
    {entries : List UpstreamConfig} {members : List (Text × Leaf)}
    (h : env.buildMembers b preferIpv6 kind i entries = .ok members) :
    ∀ m ∈ members, m.2.Dials preferIpv6 := by
  induction entries generalizing i members with
  | nil =>
    cases h
    exact fun m hm ↦ (List.not_mem_nil hm).elim
  | cons u entries ih =>
    obtain ⟨member, hmember, h⟩ := Work.bind_eq_ok.1 h
    obtain ⟨rest, hrest, h⟩ := Work.bind_eq_ok.1 h
    cases h
    exact List.forall_mem_cons.2 ⟨buildMember_dials hmember, ih hrest⟩

theorem Startup.buildGroup_dials {b : Bootstrap} {kind : GroupKind} {a a' : Assembly F}
    {members : List GroupMember} (h : env.buildGroup b config kind a = .ok (members, a')) :
    members ≠ [] ∧ ∀ m ∈ members, m.resolver.Dials config.preferIpv6 := by
  obtain ⟨built, hbuilt, h⟩ := Work.bind_eq_ok.1 h
  split_ifs at h with hne
  rw [groupMembers_eq] at h
  cases h
  refine ⟨fun hnil ↦ hne (List.mapIdx_eq_nil_iff.1 hnil), fun m hm ↦ ?_⟩
  obtain ⟨i, hi, rfl⟩ := List.mem_mapIdx.1 hm
  exact buildMembers_dials hbuilt _ (List.getElem_mem hi)

omit [UriSyntax] [NameSyntax] in
theorem Config.validate_spec (h : config.validate = .ok ()) :
    config.upstream ≠ [] ∧ config.bootstrap.findSome? UpstreamConfig.dohWithoutIp? = none := by
  unfold Config.validate at h
  split_ifs at h with hupstream
  split at h
  · cases h
  · exact ⟨hupstream, by assumption⟩

/-- **A validated configuration never trips over its own checks.** Where building fails, it is not
for want of an upstream or of an address; and where it succeeds, the primary group has a member, and
every DoH member of both groups has an address to dial, with those of the preferred family first. -/
theorem validated_chain_dials (hvalid : config.validate = .ok ()) :
    (∀ e, env.buildPipeline (F := F) config = .error e → ¬e.Internal) ∧
    ∀ p : BuiltPipeline F, env.buildPipeline config = .ok p → p.members .primary ≠ [] ∧
      ∀ kind, ∀ m ∈ p.members kind, m.resolver.Dials config.preferIpv6 := by
  obtain ⟨hupstream, hips⟩ := config.validate_spec hvalid
  refine ⟨fun e h ↦ ?_, fun p h ↦ ?_⟩
  · rcases Work.bind_eq_error.1 h with h | ⟨b, -, h⟩
    · exact Startup.bootstrap_not_internal hips h
    · rcases Work.bind_eq_error.1 h with h | ⟨⟨primary, a⟩, -, h⟩
      · exact Startup.buildGroup_not_internal (show config.entries .primary ≠ [] from hupstream) h
      · dsimp only at h
        split_ifs at h with hfallback
        · cases h
        · rcases Work.bind_eq_error.1 h with h | ⟨⟨fallback, a'⟩, -, h⟩
          · exact Startup.buildGroup_not_internal
              (show config.entries .fallback ≠ [] from hfallback) h
          · cases h
  · obtain ⟨b, -, h⟩ := Work.bind_eq_ok.1 h
    obtain ⟨⟨primary, a⟩, hprimary, h⟩ := Work.bind_eq_ok.1 h
    obtain ⟨hne, hdials⟩ := Startup.buildGroup_dials hprimary
    dsimp only at h
    split_ifs at h with hfallback
    · cases h
      refine ⟨hne, fun kind ↦ ?_⟩
      cases kind with
      | primary => exact hdials
      | fallback => exact fun m hm ↦ (List.not_mem_nil hm).elim
    · obtain ⟨⟨fallback, a'⟩, hbuilt, h⟩ := Work.bind_eq_ok.1 h
      cases h
      refine ⟨hne, fun kind ↦ ?_⟩
      cases kind with
      | primary => exact hdials
      | fallback => exact (Startup.buildGroup_dials hbuilt).2

end Validated

/-! ### A chain of three -/

namespace Sample

/-- A start at which every library call succeeds; addresses are written as in `dottedQuad`. -/
def startup : Startup where
  display := dottedQuad
  isServerName _ := true
  decodeBase64 _ := .ok []
  clientConfig _ := .ok ()
  endpoint := .ok ()
  echConfigList? _ := none
  answer _ _ := .error .connect
  ids _ _ _ := 0

/-- One plain upstream twice, and a DoH upstream to fall back on. -/
def chainConfig : Config where
  upstream := [.plain ⟨.v4 0x01010101#32, 53⟩, .plain ⟨.v4 0x01010101#32, 53⟩]
  fallback := [.doh "https://dns.example/dns-query".toList [] false (some (.v4 0x09090909#32))]
  bootstrap := []
  preferIpv6 := false
  hedgedRetryMs := 1000
  upstreamTimeoutMs := 5000
  window := 32
  databasePath := "dnsbuffer.db".toList
  retentionDays := 7

/-- The name of both plain upstreams. -/
def plainName : Text := "plain:1.1.1.1:53".toList

/-- The chain is built. -/
theorem exists_chain :
    ∃ p : BuiltPipeline ℚ,
      @Startup.buildPipeline ℚ startup genericUri anyName chainConfig = .ok p := by
  have hbuilt : (@Startup.buildPipeline ℚ startup genericUri anyName chainConfig).isOk := by
    decide +kernel
  rcases hcase : @Startup.buildPipeline ℚ startup genericUri anyName chainConfig with error | p
  · rw [hcase] at hbuilt
    cases hbuilt
  · exact ⟨p, rfl⟩

end Sample

/-- The configuration is valid, and what is built from it has addresses to dial. -/
theorem validated_chain_dials_sample :
    let _ := genericUri
    let _ := anyName
    Sample.chainConfig.validate = .ok () ∧
      ∃ p : BuiltPipeline ℚ, Sample.startup.buildPipeline Sample.chainConfig = .ok p ∧
        p.members .primary ≠ [] ∧ ∀ kind, ∀ m ∈ p.members kind, m.resolver.Dials false := by
  intro _ _
  have hvalid : Sample.chainConfig.validate = .ok () := by decide +kernel
  obtain ⟨p, hbuild⟩ := Sample.exists_chain
  exact ⟨hvalid, p, hbuild, (validated_chain_dials hvalid).2 p hbuild⟩

end DnsBuffer
