import DnsBuffer.Dns.Subnet
import DnsBuffer.Filter.Fetch
import DnsBuffer.Foundation.Transaction
import DnsBuffer.Upstream.Stats

/-!
# Building the chain

`build_pipeline` turns the configuration into the tree of resolvers that answers queries and into
the table of upstreams that the dashboard shows. Both are built in one pass: a member of a group and
its row of the table share the statistics, and the row gets its id from its place in the group. What
comes out is described by `BuiltFrom`: for every entry of the configuration a member of its name
that talks to its server, with statistics of its own, and a row (`builtFrom_of_build`).

What the libraries and the network contribute to a start is `Startup`. Locks are not poisoned, and
an address of the configuration has no IPv6 scope.
-/

namespace DnsBuffer

/-! ### The configuration -/

/-- `UpstreamConfig`. -/
inductive UpstreamConfig
  | plain (addr : SocketAddr)
  | doh (url ech : Text) (http3 : Bool) (ip : Option IpAddr)
  | dot (ip : IpAddr) (domain : Text)
deriving DecidableEq

/-- `Config`, as far as the chain and its validation read it. -/
structure Config where
  upstream : List UpstreamConfig
  fallback : List UpstreamConfig
  bootstrap : List UpstreamConfig
  preferIpv6 : Bool
  hedgedRetryMs : ℕ
  upstreamTimeoutMs : ℕ
  window : ℕ
  databasePath : Text
  retentionDays : ℕ

/-- The url of a DoH server that has no address. -/
def UpstreamConfig.dohWithoutIp? : UpstreamConfig → Option Text
  | .doh url _ _ none => some url
  | _ => none

/-- `Config::validate`. -/
def Config.validate (config : Config) : Except Text Unit :=
  if config.upstream = [] then .error "config must define at least one [[upstream]]".toList
  else if config.databasePath = [] then .error "dashboard database_path must not be empty".toList
  else if 9999 < config.retentionDays then
    .error "dashboard retention_days must be between 0 and 9999".toList
  else match config.bootstrap.findSome? UpstreamConfig.dohWithoutIp? with
  | some url =>
    .error ("bootstrap doh ".toList ++ url ++ " must specify ip (chicken-and-egg)".toList)
  | none => .ok ()

/-- The two groups of a chain, `group_kind`. -/
inductive GroupKind
  | primary
  | fallback
deriving DecidableEq

/-- The text of `group_kind`. -/
def GroupKind.text : GroupKind → Text
  | .primary => "primary".toList
  | .fallback => "fallback".toList

/-- The entries of a group. -/
def Config.entries (config : Config) : GroupKind → List UpstreamConfig
  | .primary => config.upstream
  | .fallback => config.fallback

/-! ### Members -/

/-- How building fails: for a reason of its own, each with its message, or with the error of a
part. -/
inductive BuildError
  /-- "invalid port in dot domain" and the domain. -/
  | invalidPort (domain : Text)
  /-- "invalid DoT server name" and the name. -/
  | invalidServerName (host : Text)
  /-- "invalid DoH url" and the url. -/
  | invalidUrl (url : Text)
  /-- "DoH url must be https:" and the url. -/
  | notHttps (url : Text)
  /-- "DoH url missing host". -/
  | missingHost
  /-- "DoH resolver for", the host, "constructed without ips (bootstrap it first)". -/
  | withoutIps (host : Text)
  /-- "invalid base64 ech for", the url and the reason. -/
  | invalidEch (url reason : Text)
  /-- "no upstreams configured". -/
  | noUpstreams
  | uri
  | bootstrap (error : BootstrapError)
  | tls (reason : Text)
  | quic (reason : Text)
deriving DecidableEq

/-- What the libraries and the network contribute. -/
structure Startup where
  /-- `Display` of an address. -/
  display : IpAddr → Text
  /-- `ServerName::try_from` accepts the name. -/
  isServerName : Text → Bool
  /-- The decoder of base64, or the text of its error. -/
  decodeBase64 : Text → Except Text (List UInt8)
  /-- Whether `tls::client_config` succeeds, with these ECH configurations or with none. -/
  clientConfig : Option (List UInt8) → Except Text Unit
  /-- Whether `H3Conn::new` gets its endpoint. -/
  endpoint : Except Text Unit
  /-- The configurations of the first ECH parameter of an HTTPS record. -/
  echConfigList? : RData → Option (List UInt8)
  /-- What the bootstrap server at a position returns. -/
  answer : ℕ → Message → Except ResolveError Message
  /-- The random ids of the bootstrap queries for an entry. -/
  ids : GroupKind → ℕ → RecordType → UInt16

/-- `str::rsplit_once`. -/
def Text.rsplitOnce (c : Char) (s : Text) : Option (Text × Text) :=
  (Text.splitOnce c s.reverse).map fun (back, front) ↦ (front.reverse, back.reverse)

/-- `split_domain_port`. -/
def splitDomainPort (domain : Text) : Except BuildError (Text × ℕ) :=
  match Text.rsplitOnce ':' domain with
  | some (host, port) =>
    match Text.parseUnsigned (2 ^ 16) port with
    | some port => .ok (host, port)
    | none => .error (.invalidPort domain)
  | none => .ok (domain, 853)

namespace Startup

variable (env : Startup)

/-- An address as it stands before a port or after `@`. -/
def bracketed : IpAddr → Text
  | .v4 bits => env.display (.v4 bits)
  | .v6 bits => '[' :: env.display (.v6 bits) ++ [']']

/-- `Display` of a socket address. -/
def displaySocket (addr : SocketAddr) : Text :=
  env.bracketed addr.ip ++ ':' :: Text.ofNat addr.port.toNat

/-- The name of a plain upstream. -/
def plainName (addr : SocketAddr) : Text := "plain:".toList ++ env.displaySocket addr

/-- The name of a DoT upstream. -/
def dotName (host : Text) (port : ℕ) (ip : IpAddr) : Text :=
  "dot:".toList ++ host ++ ':' :: Text.ofNat port ++ '@' :: env.bracketed ip

/-- The name of a DoH upstream, with its address where it is configured. -/
def dohName (url : Text) : Option IpAddr → Text
  | some ip => "doh:".toList ++ url ++ '@' :: env.bracketed ip
  | none => "doh:".toList ++ url

/-- `tls::client_config`. -/
def tlsConfig (ech : Option (List UInt8)) : Except BuildError Unit :=
  (env.clientConfig ech).mapError .tls

/-- What both `build_member` and `from_config` do for a DoT server: the host, the port, the
resolver. -/
def dotResolver (ip : IpAddr) (domain : Text) : Except BuildError (Text × ℕ × Leaf) := do
  let (host, port) ← splitDomainPort domain
  env.tlsConfig none
  if env.isServerName host then .ok (host, port, .dot ⟨ip, UInt16.ofNat port⟩ host)
  else .error (.invalidServerName host)

/-- The HTTP/3 half of `DohResolver::new`. -/
def h3Conn (ech : Option (List UInt8)) (http3 : Bool) : Except BuildError Unit :=
  if http3 then do
    env.tlsConfig ech
    env.endpoint.mapError .quic
  else .ok ()

/-- The path that queries are posted to. -/
def dohPath (uri : Uri) : Text :=
  if uri.path = [] ∨ uri.path = ['/'] then "/dns-query".toList else uri.path

variable [UriSyntax]

/-- `DohResolver::new`. -/
def dohResolver (url : Text) (ips : List IpAddr) (ech : Option (List UInt8))
    (http3 preferIpv6 : Bool) : Except BuildError Leaf :=
  match UriSyntax.parse url with
  | none => .error (.invalidUrl url)
  | some uri =>
    if uri.schemeStr ≠ some "https".toList then .error (.notHttps url)
    else match uri.host with
    | none => .error .missingHost
    | some host =>
      if ips = [] then .error (.withoutIps host)
      else do
        env.tlsConfig ech
        env.h3Conn ech http3
        return .doh {
          host := host
          port := uri.portU16.getD 443
          path := dohPath uri
          ips := sortByFamily preferIpv6 ips
          ech := ech
          http3 := http3 }

/-- The resolver of a bootstrap server. -/
def bootstrapResolver (preferIpv6 : Bool) : UpstreamConfig → Except BuildError Leaf
  | .plain addr => .ok (.plain addr)
  | .dot ip domain => (env.dotResolver ip domain).map fun built ↦ built.2.2
  | .doh url _ http3 ip => env.dohResolver url ip.toList none http3 preferIpv6

/-- `Bootstrap::from_config`. -/
def bootstrap (servers : List UpstreamConfig) (preferIpv6 : Bool) :
    Except BuildError Bootstrap := do
  let _ ← servers.mapM (env.bootstrapResolver preferIpv6)
  return ⟨servers.mapIdx fun i _ ↦ env.answer i, preferIpv6⟩

variable [NameSyntax]

/-- `Bootstrap::fetch_ech`. -/
def fetchEch (b : Bootstrap) (id : UInt16) (domain : Text) :
    Except BootstrapError (Option (List UInt8)) :=
  (b.query id domain ⟨65⟩).map fun resp ↦ resp.answers.findSome? fun r ↦ env.echConfigList? r.data

/-- The ECH configurations of a DoH upstream: the configured ones, or what bootstrap finds. A lookup
that fails leaves the upstream without. -/
def memberEch (b : Bootstrap) (id : UInt16) (url host ech : Text) :
    Except BuildError (Option (List UInt8)) :=
  if ech = [] then
    if b.isEmpty then .ok none
    else match env.fetchEch b id host with
    | .ok found => .ok found
    | .error _ => .ok none
  else match env.decodeBase64 ech with
  | .ok bytes => .ok (some bytes)
  | .error reason => .error (.invalidEch url reason)

/-- `build_member`. -/
def buildMember (b : Bootstrap) (preferIpv6 : Bool) (ids : RecordType → UInt16) :
    UpstreamConfig → Except BuildError (Text × Leaf)
  | .plain addr => .ok (env.plainName addr, .plain addr)
  | .dot ip domain => do
    let (host, port, resolver) ← env.dotResolver ip domain
    return (env.dotName host port ip, resolver)
  | .doh url ech http3 ip =>
    match UriSyntax.parse url with
    | none => .error .uri
    | some uri => do
      let host := uri.host.getD []
      let ips ← (b.memberIps ids url host ip).mapError .bootstrap
      let echBytes ← env.memberEch b (ids ⟨65⟩) url host ech
      let resolver ← env.dohResolver url ips echBytes http3 preferIpv6
      return (env.dohName url ip, resolver)

/-- The loop of `build_group`, from a position on. -/
def buildMembers (b : Bootstrap) (preferIpv6 : Bool) (kind : GroupKind) :
    ℕ → List UpstreamConfig → Except BuildError (List (Text × Leaf))
  | _, [] => .ok []
  | i, u :: entries => do
    let member ← env.buildMember b preferIpv6 (env.ids kind i) u
    let members ← buildMembers b preferIpv6 kind (i + 1) entries
    return member :: members

end Startup

/-! ### Groups and the table -/

variable {F : Type}

/-- `MetricMember`: a row of the table, with the place of its statistics. -/
structure MetricMember where
  id : Text
  name : Text
  group : GroupKind
  stats : ℕ
deriving DecidableEq

/-- A member of a group, with the place of its statistics. -/
structure GroupMember where
  name : Text
  resolver : Leaf
  stats : ℕ
deriving DecidableEq

/-- What has been built: the statistics, each shared by a member and a row, and the rows,
`UpstreamMetricsBuilder`. -/
structure Assembly (F : Type) where
  stats : List (UpstreamStats F)
  metrics : List MetricMember

/-- The id of a row: the group and the place in it. -/
def GroupKind.id (kind : GroupKind) (index : ℕ) : Text := kind.text ++ '-' :: Text.ofNat index

/-- `UpstreamMetricsBuilder::register`. -/
def register (metrics : List MetricMember) (name : Text) (kind : GroupKind) (stats : ℕ) :
    List MetricMember :=
  metrics ++ [⟨kind.id (metrics.countP fun m ↦ m.group = kind), name, kind, stats⟩]

/-- `UpstreamGroup::new`: new statistics for every member, registered under its name. -/
def groupMembers (window retentionDays : ℕ) (kind : GroupKind) :
    List (Text × Leaf) → Assembly F → List GroupMember × Assembly F
  | [], a => ([], a)
  | (name, resolver) :: rest, a =>
    let built := groupMembers window retentionDays kind rest
      ⟨a.stats ++ [.withRetention window retentionDays],
        register a.metrics name kind a.stats.length⟩
    (⟨name, resolver, a.stats.length⟩ :: built.1, built.2)

/-- `BuiltPipeline`, as far as it is about upstreams. -/
structure BuiltPipeline (F : Type) where
  engine : HedgedResolver
  members : GroupKind → List GroupMember
  hasFallback : Bool
  assembly : Assembly F

namespace Startup

variable (env : Startup) [UriSyntax] [NameSyntax]

/-- `build_group`. -/
def buildGroup (b : Bootstrap) (config : Config) (kind : GroupKind) (a : Assembly F) :
    Except BuildError (List GroupMember × Assembly F) := do
  let members ← env.buildMembers b config.preferIpv6 kind 0 (config.entries kind)
  if members = [] then .error .noUpstreams
  else return groupMembers config.window config.retentionDays kind members a

/-- `build_pipeline`: bootstrap, the primary group, and the fallback group if there is one. -/
def buildPipeline (config : Config) : Except BuildError (BuiltPipeline F) := do
  let b ← env.bootstrap config.bootstrap config.preferIpv6
  let engine : HedgedResolver :=
    ⟨config.hedgedRetryMs * 1000000, config.upstreamTimeoutMs * 1000000⟩
  let (primary, a) ← env.buildGroup b config .primary ⟨[], []⟩
  if config.fallback = [] then
    return ⟨engine, fun | .primary => primary | .fallback => [], false, a⟩
  else do
    let (fallback, a) ← env.buildGroup b config .fallback a
    return ⟨engine, fun | .primary => primary | .fallback => fallback, true, a⟩

end Startup

namespace BuiltPipeline

/-- A group behind its engine. -/
def chain (p : BuiltPipeline F) (kind : GroupKind) : Resolver :=
  .hedged p.engine (.group ((p.members kind).map fun m ↦ (m.name, .leaf m.resolver)))

/-- The resolver of the pipeline. -/
def resolver (p : BuiltPipeline F) : Resolver :=
  if p.hasFallback then .fallback (p.chain .primary) (p.chain .fallback) else p.chain .primary

variable [Zero F] [Add F]

/-- Calls on the statistics, by the group and the index of the member they are made on. -/
def machine : Machine (BuiltPipeline F) (GroupKind × ℕ × StatsOp F) where
  step p
    | (kind, index, op) => (p.members kind)[index]?.map fun m ↦
      { p with assembly :=
        { p.assembly with stats := p.assembly.stats.modify m.stats fun s ↦ s.apply op } }

end BuiltPipeline

/-- `UpstreamSnapshot`. -/
structure UpstreamSnapshot (F : Type) where
  id : Text
  name : Text
  group : GroupKind
  stats : Except UsizeError (StatsSnapshot F)

/-- `UpstreamMetrics::snapshot`. -/
def Assembly.snapshot [Zero F] [Add F] [Div F] [NatCast F] (a : Assembly F) (now : ℤ) :
    List (UpstreamSnapshot F) :=
  a.metrics.filterMap fun m ↦ a.stats[m.stats]?.map fun s ↦
    ⟨m.id, m.name, m.group, s.snapshotAt now⟩

/-! ### What is built -/

/-- The bootstrap servers of a configuration. -/
def Startup.bootstrapOf (env : Startup) (config : Config) : Bootstrap :=
  ⟨config.bootstrap.mapIdx fun i _ ↦ env.answer i, config.preferIpv6⟩

/-- **The server that an entry names**, at its place in a group: a plain or DoT server by the
address of the entry, a DoT server also by the host of its domain; a DoH server by its url, at the
address of the entry or, without one, at those that bootstrap has found for the host. -/
def Startup.Serves [UriSyntax] [NameSyntax] (env : Startup) (config : Config) (kind : GroupKind)
    (i : ℕ) : UpstreamConfig → Leaf → Prop
  | .plain addr, leaf => leaf = .plain addr
  | .dot ip domain, leaf => ∃ host port, splitDomainPort domain = .ok (host, port) ∧
      leaf = .dot ⟨ip, UInt16.ofNat port⟩ host
  | .doh url _ http3 ip, leaf => ∃ uri target ips, leaf = .doh target ∧
      UriSyntax.parse url = some uri ∧ uri.schemeStr = some "https".toList ∧
      uri.host = some target.host ∧ target.port = uri.portU16.getD 443 ∧
      target.path = dohPath uri ∧ target.http3 = http3 ∧
      (env.bootstrapOf config).memberIps (env.ids kind i) url target.host ip = .ok ips ∧
      target.ips = sortByFamily config.preferIpv6 ips

/-- The name that an entry gets. -/
def Startup.memberName (env : Startup) : UpstreamConfig → Text
  | .plain addr => env.plainName addr
  | .dot ip domain =>
    match splitDomainPort domain with
    | .ok (host, port) => env.dotName host port ip
    | .error _ => []
  | .doh url _ _ ip => env.dohName url ip

/-- Where the statistics of an entry are: the groups follow one another. -/
def Config.place (config : Config) : GroupKind → ℕ → ℕ
  | .primary, i => i
  | .fallback, i => config.upstream.length + i

/-- The groups, in the order of the table. -/
def groupKinds : List GroupKind := [.primary, .fallback]

/-- The rows for the entries of the configuration, in their order. -/
def Config.rows (config : Config) (env : Startup) : List MetricMember :=
  groupKinds.flatMap fun kind ↦ (config.entries kind).mapIdx fun i u ↦
    ⟨kind.id i, env.memberName u, kind, config.place kind i⟩

section Members

variable {env : Startup}

theorem Startup.dotResolver_spec {ip : IpAddr} {domain host : Text} {port : ℕ} {r : Leaf}
    (h : env.dotResolver ip domain = .ok (host, port, r)) :
    splitDomainPort domain = .ok (host, port) ∧ r = .dot ⟨ip, UInt16.ofNat port⟩ host := by
  obtain ⟨⟨host', port'⟩, hsplit, h⟩ := Work.bind_eq_ok.1 h
  obtain ⟨-, -, h⟩ := Work.bind_eq_ok.1 h
  split_ifs at h
  cases h
  exact ⟨hsplit, rfl⟩

variable [UriSyntax]

/-- A DoH resolver talks to the server of its url, at the addresses it was given. -/
theorem Startup.dohResolver_spec {url : Text} {ips : List IpAddr} {ech : Option (List UInt8)}
    {http3 preferIpv6 : Bool} {r : Leaf}
    (h : env.dohResolver url ips ech http3 preferIpv6 = .ok r) :
    ∃ uri target, r = .doh target ∧ UriSyntax.parse url = some uri ∧
      uri.schemeStr = some "https".toList ∧ uri.host = some target.host ∧
      target.port = uri.portU16.getD 443 ∧ target.path = dohPath uri ∧ target.http3 = http3 ∧
      target.ips = sortByFamily preferIpv6 ips ∧ ips ≠ [] := by
  unfold dohResolver at h
  split at h
  · cases h
  · rename_i uri hparse
    split at h
    · cases h
    · rename_i hscheme
      split at h
      · cases h
      · rename_i host hhost
        split at h
        · cases h
        · rename_i hips
          obtain ⟨-, h⟩ := Work.unit_bind_eq_ok.1 h
          obtain ⟨-, h⟩ := Work.unit_bind_eq_ok.1 h
          cases h
          exact ⟨uri, _, rfl, hparse, not_not.1 hscheme, hhost, rfl, rfl, rfl, rfl, hips⟩

variable [NameSyntax]

/-- A member has the name of its entry. -/
theorem Startup.buildMember_name {b : Bootstrap} {preferIpv6 : Bool} {ids : RecordType → UInt16}
    {u : UpstreamConfig} {member : Text × Leaf}
    (h : env.buildMember b preferIpv6 ids u = .ok member) : member.1 = env.memberName u := by
  cases u with
  | plain addr =>
    cases h
    rfl
  | dot ip domain =>
    obtain ⟨⟨host, port, r⟩, hdot, h⟩ := Work.bind_eq_ok.1 h
    obtain ⟨hsplit, -⟩ := Startup.dotResolver_spec hdot
    cases h
    rw [memberName, hsplit]
  | doh url ech http3 ip =>
    simp only [buildMember] at h
    split at h
    · cases h
    · obtain ⟨ips, -, h⟩ := Work.bind_eq_ok.1 h
      obtain ⟨echBytes, -, h⟩ := Work.bind_eq_ok.1 h
      obtain ⟨r, -, h⟩ := Work.bind_eq_ok.1 h
      cases h
      rfl

/-- A member talks to the server of its entry. -/
theorem Startup.buildMember_serves {config : Config} {kind : GroupKind} {i : ℕ}
    {u : UpstreamConfig} {member : Text × Leaf}
    (h : env.buildMember (env.bootstrapOf config) config.preferIpv6 (env.ids kind i) u =
      .ok member) : env.Serves config kind i u member.2 := by
  cases u with
  | plain addr =>
    cases h
    rfl
  | dot ip domain =>
    obtain ⟨⟨host, port, r⟩, hdot, h⟩ := Work.bind_eq_ok.1 h
    cases h
    exact ⟨host, port, Startup.dotResolver_spec hdot⟩
  | doh url ech http3 ip =>
    simp only [buildMember] at h
    split at h
    · cases h
    · rename_i uri hparse
      obtain ⟨ips, hips, h⟩ := Work.bind_eq_ok.1 h
      obtain ⟨echBytes, -, h⟩ := Work.bind_eq_ok.1 h
      obtain ⟨r, hdoh, h⟩ := Work.bind_eq_ok.1 h
      cases h
      obtain ⟨uri', target, rfl, hparse', hscheme, hhost, hport, hpath, hversion, htarget, -⟩ :=
        Startup.dohResolver_spec hdoh
      obtain rfl := Option.some.inj (hparse.symm.trans hparse')
      have hfound := Work.mapError_eq_ok.1 hips
      rw [hhost, Option.getD_some] at hfound
      exact ⟨uri, target, ips, rfl, hparse, hscheme, hhost, hport, hpath, hversion, hfound, htarget⟩

/-- The members of a group, one for each entry and in the order of the entries. -/
theorem Startup.buildMembers_names {b : Bootstrap} {preferIpv6 : Bool} {kind : GroupKind} {i : ℕ}
    {entries : List UpstreamConfig} {members : List (Text × Leaf)}
    (h : env.buildMembers b preferIpv6 kind i entries = .ok members) :
    members.map Prod.fst = entries.map env.memberName := by
  induction entries generalizing i members with
  | nil =>
    cases h
    rfl
  | cons u entries ih =>
    obtain ⟨member, hmember, h⟩ := Work.bind_eq_ok.1 h
    obtain ⟨rest, hrest, h⟩ := Work.bind_eq_ok.1 h
    cases h
    rw [List.map_cons, List.map_cons, ih hrest, Startup.buildMember_name hmember]

/-- Each of them talks to the server of its entry. -/
theorem Startup.buildMembers_serves {config : Config} {kind : GroupKind} {i : ℕ}
    {entries : List UpstreamConfig} {members : List (Text × Leaf)}
    (h : env.buildMembers (env.bootstrapOf config) config.preferIpv6 kind i entries =
      .ok members) {j : ℕ} {m : Text × Leaf} {u : UpstreamConfig} (hm : members[j]? = some m)
    (hu : entries[j]? = some u) : env.Serves config kind (i + j) u m.2 := by
  induction entries generalizing i j members with
  | nil => cases hu
  | cons u' entries ih =>
    obtain ⟨member, hmember, h⟩ := Work.bind_eq_ok.1 h
    obtain ⟨rest, hrest, h⟩ := Work.bind_eq_ok.1 h
    cases h
    cases j with
    | zero =>
      cases hm
      cases hu
      exact Startup.buildMember_serves hmember
    | succ j =>
      have hserves := ih hrest hm hu
      rwa [Nat.add_right_comm, Nat.add_assoc] at hserves

end Members

/-- The members of a group and what is added to the assembly, in closed form. -/
theorem groupMembers_eq (window days : ℕ) (kind : GroupKind)
    (members : List (Text × Leaf)) (a : Assembly F) :
    groupMembers window days kind members a =
      (members.mapIdx fun i m ↦ ⟨m.1, m.2, a.stats.length + i⟩,
        ⟨a.stats ++ List.replicate members.length (.withRetention window days),
          a.metrics ++ members.mapIdx fun i m ↦
            ⟨kind.id ((a.metrics.countP fun row ↦ row.group = kind) + i), m.1, kind,
              a.stats.length + i⟩⟩) := by
  induction members generalizing a with
  | nil => simp [groupMembers]
  | cons m members ih =>
    obtain ⟨name, resolver⟩ := m
    rw [groupMembers, ih]
    have hcount : ((register a.metrics name kind a.stats.length).countP fun row ↦
        row.group = kind) = (a.metrics.countP fun row ↦ row.group = kind) + 1 := by
      simp [register]
    simp only [hcount, List.length_append, List.length_singleton, List.mapIdx_cons]
    simp only [register, List.length_cons, List.replicate_succ, List.append_assoc,
      List.singleton_append, Nat.add_zero, Nat.add_assoc, Nat.add_comm 1]

/-- What `build_pipeline` has built from a configuration: for every entry a member of its name that
talks to its server, with statistics of its own, and a row. -/
structure BuiltFrom [UriSyntax] [NameSyntax] (env : Startup) (config : Config)
    (p : BuiltPipeline F) : Prop where
  names : ∀ kind, (p.members kind).map GroupMember.name =
    (config.entries kind).map env.memberName
  serves : ∀ kind i m u, (p.members kind)[i]? = some m → (config.entries kind)[i]? = some u →
    env.Serves config kind i u m.resolver
  places : ∀ kind i m, (p.members kind)[i]? = some m → m.stats = config.place kind i
  stats : p.assembly.stats = List.replicate (config.upstream.length + config.fallback.length)
    (.withRetention config.window config.retentionDays)
  metrics : p.assembly.metrics = config.rows env
  hasFallback : p.hasFallback = true ↔ config.fallback ≠ []

theorem mapIdx_map {α β γ : Type} (f : ℕ → β → γ) (g : α → β) (xs : List α) :
    (xs.map g).mapIdx f = xs.mapIdx fun i x ↦ f i (g x) := by
  rw [List.mapIdx_eq_iff]
  intro i
  rw [List.getElem?_mapIdx, List.getElem?_map, Option.map_map]
  rfl

section Build

variable {env : Startup} {config : Config} [UriSyntax] [NameSyntax]

theorem Startup.buildGroup_spec {kind : GroupKind} {a a' : Assembly F}
    {members : List GroupMember}
    (h : env.buildGroup (env.bootstrapOf config) config kind a = .ok (members, a')) :
    members.map GroupMember.name = (config.entries kind).map env.memberName ∧
      (∀ i m u, members[i]? = some m → (config.entries kind)[i]? = some u →
        env.Serves config kind i u m.resolver) ∧
      (∀ i m, members[i]? = some m → m.stats = a.stats.length + i) ∧
      a'.stats = a.stats ++ List.replicate (config.entries kind).length
        (.withRetention config.window config.retentionDays) ∧
      a'.metrics = a.metrics ++ (config.entries kind).mapIdx fun i u ↦
        ⟨kind.id ((a.metrics.countP fun row ↦ row.group = kind) + i), env.memberName u, kind,
          a.stats.length + i⟩ := by
  obtain ⟨built, hbuilt, h⟩ := Work.bind_eq_ok.1 h
  have hnames := Startup.buildMembers_names hbuilt
  have hlength : built.length = (config.entries kind).length := by
    rw [← List.length_map (f := Prod.fst), hnames, List.length_map]
  split_ifs at h
  rw [groupMembers_eq] at h
  cases h
  refine ⟨?_, fun i m u hm hu ↦ ?_, fun i m hm ↦ ?_, ?_, ?_⟩
  · rw [← hnames]
    refine List.ext_getElem? fun i ↦ ?_
    rw [List.getElem?_map, List.getElem?_mapIdx, List.getElem?_map, Option.map_map]
    rfl
  · rw [List.getElem?_mapIdx, Option.map_eq_some_iff] at hm
    obtain ⟨member, hmember, rfl⟩ := hm
    have hserves := Startup.buildMembers_serves hbuilt hmember hu
    rwa [Nat.zero_add] at hserves
  · rw [List.getElem?_mapIdx, Option.map_eq_some_iff] at hm
    obtain ⟨_, -, rfl⟩ := hm
    rfl
  · rw [← hlength]
  · rw [← mapIdx_map (fun i name ↦ (⟨kind.id (_ + i), name, kind, _⟩ : MetricMember)) Prod.fst,
      hnames, mapIdx_map]

omit [NameSyntax] in
/-- The bootstrap servers are those of the configuration. -/
theorem Startup.bootstrap_eq {b : Bootstrap}
    (h : env.bootstrap config.bootstrap config.preferIpv6 = .ok b) :
    b = env.bootstrapOf config := by
  obtain ⟨-, -, h⟩ := Work.bind_eq_ok.1 h
  cases h
  rfl

/-- **What is built.** -/
theorem builtFrom_of_build {p : BuiltPipeline F} (h : env.buildPipeline config = .ok p) :
    BuiltFrom env config p := by
  obtain ⟨b, hbootstrap, h⟩ := Work.bind_eq_ok.1 h
  obtain rfl := Startup.bootstrap_eq hbootstrap
  obtain ⟨⟨primary, a⟩, hprimary, h⟩ := Work.bind_eq_ok.1 h
  obtain ⟨hnames, hserves, hplaces, hstats, hmetrics⟩ := Startup.buildGroup_spec hprimary
  dsimp only at h
  split_ifs at h with hfallback
  · cases h
    refine ⟨fun kind ↦ ?_, fun kind i m u hm hu ↦ ?_, fun kind i m hm ↦ ?_, ?_, ?_, ?_⟩
    · cases kind with
      | primary => exact hnames
      | fallback => simp [Config.entries, hfallback]
    · cases kind with
      | primary => exact hserves i m u hm hu
      | fallback => cases hm
    · cases kind with
      | primary => simpa [Config.place] using hplaces i m hm
      | fallback => cases hm
    · rw [hstats, hfallback]
      rfl
    · rw [hmetrics]
      simp [Config.rows, groupKinds, Config.entries, hfallback, Config.place]
    · simp [hfallback]
  · obtain ⟨⟨fallback, a'⟩, hbuilt, h⟩ := Work.bind_eq_ok.1 h
    obtain ⟨hnames', hserves', hplaces', hstats', hmetrics'⟩ := Startup.buildGroup_spec hbuilt
    cases h
    have hlength : a.stats.length = config.upstream.length := by
      rw [hstats]
      simp [Config.entries]
    have hnone : (a.metrics.countP fun row ↦ row.group = .fallback) = 0 := by
      rw [hmetrics, List.countP_eq_zero]
      intro row hrow
      obtain ⟨i, hi, rfl⟩ := List.mem_mapIdx.1 (List.nil_append _ ▸ hrow)
      simp
    refine ⟨fun kind ↦ ?_, fun kind i m u hm hu ↦ ?_, fun kind i m hm ↦ ?_, ?_, ?_, ?_⟩
    · cases kind with
      | primary => exact hnames
      | fallback => exact hnames'
    · cases kind with
      | primary => exact hserves i m u hm hu
      | fallback => exact hserves' i m u hm hu
    · cases kind with
      | primary => simpa [Config.place] using hplaces i m hm
      | fallback => simpa [Config.place, hlength] using hplaces' i m hm
    · rw [hstats', hstats]
      simp [Config.entries]
    · rw [hmetrics', hnone, hlength, hmetrics]
      simp [Config.rows, groupKinds, Config.place]
    · simp [hfallback]

end Build

end DnsBuffer
