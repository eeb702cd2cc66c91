import DnsBuffer.Foundation.Table
import DnsBuffer.Upstream.Resolver

/-!
# Bootstrap

`Bootstrap::resolve_ips` finds the addresses of an upstream that is given by its domain: it asks for
`A` and for `AAAA` records and collects the addresses of both responses.

Each of the two questions goes to the resolvers in their configured order until one of them returns
a response. That response is final, whatever its code and its answers are; what moves the question
on is a resolver that fails. So the outcome is decided by the *first response* for each type
(`FirstResponse`, `exists_resolveIps_iff`), and a server behind it that knows an address is not
asked.
-/

namespace DnsBuffer

/-! ### The model -/

/-- `Name::from_str`. -/
class NameSyntax where
  fromStr : Text → Option Name

/-- How `Bootstrap` fails: with a message of its own or with the last error of a resolver. -/
inductive BootstrapError
  | message (text : Text)
  | resolver (error : ResolveError)
deriving DecidableEq

/-- `Bootstrap`. A resolver is what its `resolve` returns for a query. -/
structure Bootstrap where
  resolvers : List (Message → Except ResolveError Message)
  preferIpv6 : Bool

/-- `is_ipv6`. -/
def IpAddr.isIpv6 : IpAddr → Bool
  | .v4 _ => false
  | .v6 _ => true

/-- The place of an address in the order of `IpAddr`: IPv4 first, by value in each family. -/
def IpAddr.rank : IpAddr → ℕ
  | .v4 bits => bits.toNat
  | .v6 bits => 2 ^ 32 + bits.toNat

/-- `BTreeSet::insert`, for the set given by its elements in order. -/
def btreeInsert (ips : List IpAddr) (ip : IpAddr) : List IpAddr :=
  if ip ∈ ips then ips else ips.orderedInsert (fun a b ↦ a.rank ≤ b.rank) ip

/-- `sort_by_family`. -/
def sortByFamily (preferIpv6 : Bool) (ips : List IpAddr) : List IpAddr :=
  Table.orderBy (fun ip ↦ ip.isIpv6 != preferIpv6) ips

/-- The addresses among the answers of a response. -/
def Message.addresses (m : Message) : List IpAddr := m.answers.filterMap fun r ↦ r.data.address?

namespace Bootstrap

/-- `is_empty`. -/
def isEmpty (b : Bootstrap) : Bool := b.resolvers.isEmpty

/-- The loop of `query` over the resolvers that are left, after the last error. -/
def ask (query : Message) :
    List (Message → Except ResolveError Message) → Option ResolveError →
      Except BootstrapError Message
  | [], some e => .error (.resolver e)
  | [], none => .error (.message "no bootstrap resolvers configured".toList)
  | r :: rest, _ =>
    match r query with
    | .ok resp => .ok resp
    | .error e => ask query rest (some e)

variable [NameSyntax]

/-- `make_query`, with the random id. -/
def makeQuery (id : UInt16) (domain : Text) (rtype : RecordType) :
    Except BootstrapError Message :=
  match NameSyntax.fromStr (domain.rdropWhile (· == '.') ++ ['.']) with
  | none => .error (.message ("invalid domain ".toList ++ domain))
  | some name =>
    let m := Message.new id .query .query
    .ok { m with
      metadata := { m.metadata with recursionDesired := true }
      queries := [⟨name, rtype, .IN⟩] }

/-- `query`. -/
def query (b : Bootstrap) (id : UInt16) (domain : Text) (rtype : RecordType) :
    Except BootstrapError Message :=
  match makeQuery id domain rtype with
  | .error e => .error e
  | .ok query => ask query b.resolvers none

/-- One round of the loop of `resolve_ips`: the addresses of the response join the set. -/
def collect (b : Bootstrap) (ids : RecordType → UInt16) (domain : Text) (ips : List IpAddr)
    (rtype : RecordType) : List IpAddr :=
  match b.query (ids rtype) domain rtype with
  | .ok resp => resp.addresses.foldl btreeInsert ips
  | .error _ => ips

/-- The set after the loop of `resolve_ips`. -/
def collected (b : Bootstrap) (ids : RecordType → UInt16) (domain : Text) : List IpAddr :=
  [RecordType.A, RecordType.AAAA].foldl (b.collect ids domain) []

/-- `resolve_ips`, with the random ids of its queries. -/
def resolveIps (b : Bootstrap) (ids : RecordType → UInt16) (domain : Text) :
    Except BootstrapError (List IpAddr) :=
  if b.collected ids domain = [] then
    .error (.message ("bootstrap could not resolve any ip for ".toList ++ domain))
  else .ok (sortByFamily b.preferIpv6 (b.collected ids domain))

/-- The addresses `build_member` dials a DoH upstream at. -/
def memberIps (b : Bootstrap) (ids : RecordType → UInt16) (url host : Text) (ip : Option IpAddr) :
    Except BootstrapError (List IpAddr) :=
  match ip with
  | some ip => .ok [ip]
  | none =>
    if b.isEmpty then
      .error (.message ("doh upstream ".toList ++ url ++
        " has no ip and no bootstrap configured".toList))
    else b.resolveIps ids host

end Bootstrap

/-! ### The set of addresses -/

theorem mem_btreeInsert {ips : List IpAddr} {ip x : IpAddr} :
    x ∈ btreeInsert ips ip ↔ x = ip ∨ x ∈ ips := by
  rw [btreeInsert]
  split_ifs with h
  · constructor
    · exact Or.inr
    · rintro (rfl | hx)
      · exact h
      · exact hx
  · rw [List.mem_orderedInsert]

theorem nodup_btreeInsert {ips : List IpAddr} {ip : IpAddr} (h : ips.Nodup) :
    (btreeInsert ips ip).Nodup := by
  rw [btreeInsert]
  split_ifs with hmem
  · exact h
  · rw [(List.perm_orderedInsert _ ip ips).nodup_iff, List.nodup_cons]
    exact ⟨hmem, h⟩

theorem mem_foldl_btreeInsert {new ips : List IpAddr} {x : IpAddr} :
    x ∈ new.foldl btreeInsert ips ↔ x ∈ new ∨ x ∈ ips := by
  induction new generalizing ips with
  | nil => simp
  | cons ip new ih =>
    rw [List.foldl_cons, ih, mem_btreeInsert, List.mem_cons]
    tauto

theorem nodup_foldl_btreeInsert {new ips : List IpAddr} (h : ips.Nodup) :
    (new.foldl btreeInsert ips).Nodup := by
  induction new generalizing ips with
  | nil => exact h
  | cons ip new ih => exact ih (nodup_btreeInsert h)

/-! ### The order for dialing -/

/-- The preferred family, then the other, each in the order it had. -/
theorem sortByFamily_eq (preferIpv6 : Bool) (ips : List IpAddr) :
    sortByFamily preferIpv6 ips =
      (ips.filter fun ip ↦ ip.isIpv6 == preferIpv6) ++
        ips.filter fun ip ↦ ip.isIpv6 != preferIpv6 := by
  rw [sortByFamily, Table.orderBy_eq_filter_append]
  simp only [bne, Bool.not_not]

theorem sortByFamily_perm (preferIpv6 : Bool) (ips : List IpAddr) :
    (sortByFamily preferIpv6 ips).Perm ips :=
  Table.orderBy_perm _ _

/-! ### The first response -/

/-- The first resolver that returns a response to the query returns this one. -/
def FirstResponse (resolvers : List (Message → Except ResolveError Message))
    (query response : Message) : Prop :=
  ∃ before r after, resolvers = before ++ r :: after ∧
    (∀ r' ∈ before, ∃ e, r' query = .error e) ∧ r query = .ok response

theorem firstResponse_cons_of_ok {r : Message → Except ResolveError Message}
    {rest : List (Message → Except ResolveError Message)} {query resp response : Message}
    (h : r query = .ok resp) : FirstResponse (r :: rest) query response ↔ resp = response := by
  constructor
  · rintro ⟨before, r', after, hsplit, hbefore, hr'⟩
    cases before with
    | nil =>
      obtain ⟨rfl, -⟩ := List.cons.inj hsplit
      exact Except.ok.inj (h.symm.trans hr')
    | cons r'' before =>
      obtain ⟨rfl, -⟩ := List.cons.inj hsplit
      obtain ⟨e, he⟩ := hbefore r List.mem_cons_self
      cases h.symm.trans he
  · rintro rfl
    exact ⟨[], r, rest, rfl, List.forall_mem_nil _, h⟩

theorem firstResponse_cons_of_error {r : Message → Except ResolveError Message}
    {rest : List (Message → Except ResolveError Message)} {query response : Message}
    {e : ResolveError} (h : r query = .error e) :
    FirstResponse (r :: rest) query response ↔ FirstResponse rest query response := by
  constructor
  · rintro ⟨before, r', after, hsplit, hbefore, hr'⟩
    cases before with
    | nil =>
      obtain ⟨rfl, -⟩ := List.cons.inj hsplit
      cases h.symm.trans hr'
    | cons r'' before =>
      obtain ⟨rfl, rfl⟩ := List.cons.inj hsplit
      exact ⟨before, r', after, rfl, fun x hx ↦ hbefore x (List.mem_cons_of_mem r hx), hr'⟩
  · rintro ⟨before, r', after, rfl, hbefore, hr'⟩
    refine ⟨r :: before, r', after, rfl, ?_, hr'⟩
    exact List.forall_mem_cons.2 ⟨⟨e, h⟩, hbefore⟩

namespace Bootstrap

/-- **The loop returns the first response**, whatever it is. -/
theorem ask_eq_ok_iff {query response : Message}
    {resolvers : List (Message → Except ResolveError Message)} {last : Option ResolveError} :
    ask query resolvers last = .ok response ↔ FirstResponse resolvers query response := by
  induction resolvers generalizing last with
  | nil =>
    constructor
    · intro h
      cases last with
      | none => cases h
      | some e => cases h
    · rintro ⟨before, r, after, hsplit, -⟩
      exact absurd hsplit (by simp)
  | cons r rest ih =>
    rw [ask]
    rcases hr : r query with e | resp
    · rw [firstResponse_cons_of_error hr]
      exact ih
    · rw [firstResponse_cons_of_ok hr]
      exact Except.ok.injEq resp response ▸ Iff.rfl

variable [NameSyntax] {b : Bootstrap} {ids : RecordType → UInt16} {domain : Text}

/-- The response that is final for a type of records. -/
def Answers (b : Bootstrap) (ids : RecordType → UInt16) (domain : Text) (rtype : RecordType)
    (response : Message) : Prop :=
  ∃ query, makeQuery (ids rtype) domain rtype = .ok query ∧
    FirstResponse b.resolvers query response

theorem query_eq_ok_iff {rtype : RecordType} {response : Message} :
    b.query (ids rtype) domain rtype = .ok response ↔ b.Answers ids domain rtype response := by
  rw [query]
  rcases hquery : makeQuery (ids rtype) domain rtype with e | query
  · simp [Answers, hquery]
  · simp [Answers, hquery, ask_eq_ok_iff]

theorem mem_collect {ips : List IpAddr} {rtype : RecordType} {x : IpAddr} :
    x ∈ b.collect ids domain ips rtype ↔
      (∃ response, b.Answers ids domain rtype response ∧ x ∈ response.addresses) ∨ x ∈ ips := by
  simp only [← query_eq_ok_iff, collect]
  rcases b.query (ids rtype) domain rtype with e | response
  · simp
  · simp [mem_foldl_btreeInsert]

theorem nodup_collect {ips : List IpAddr} {rtype : RecordType} (h : ips.Nodup) :
    (b.collect ids domain ips rtype).Nodup := by
  rw [collect]
  split
  · exact nodup_foldl_btreeInsert h
  · exact h

/-! ### What is resolved -/

/-- An address of one of the two final responses. -/
def Finds (b : Bootstrap) (ids : RecordType → UInt16) (domain : Text) (ip : IpAddr) : Prop :=
  ∃ rtype ∈ [RecordType.A, RecordType.AAAA], ∃ response, b.Answers ids domain rtype response ∧
    ip ∈ response.addresses

/-- **What the loop collects**: the addresses of the two final responses, each once. -/
theorem mem_collected {ip : IpAddr} : ip ∈ b.collected ids domain ↔ b.Finds ids domain ip := by
  show ip ∈ b.collect ids domain (b.collect ids domain [] .A) .AAAA ↔ _
  rw [mem_collect, mem_collect, Finds]
  simp only [List.mem_cons, List.not_mem_nil, or_false, exists_eq_or_imp, exists_eq_left]
  exact or_comm

theorem nodup_collected : (b.collected ids domain).Nodup :=
  nodup_collect (nodup_collect List.nodup_nil)

theorem resolveIps_eq_ok_iff {ips : List IpAddr} : b.resolveIps ids domain = .ok ips ↔
    b.collected ids domain ≠ [] ∧ ips = sortByFamily b.preferIpv6 (b.collected ids domain) := by
  rw [resolveIps]
  split_ifs with hempty
  · simp [hempty]
  · simp [hempty, eq_comm]

theorem exists_resolveIps_iff :
    (∃ ips, b.resolveIps ids domain = .ok ips) ↔ ∃ ip, b.Finds ids domain ip := by
  simp only [resolveIps_eq_ok_iff, exists_and_left, exists_eq, and_true, ← mem_collected]
  exact ⟨List.exists_mem_of_ne_nil _, fun ⟨ip, hip⟩ ↦ List.ne_nil_of_mem hip⟩

theorem mem_resolveIps_iff {ips : List IpAddr} (h : b.resolveIps ids domain = .ok ips)
    {ip : IpAddr} : ip ∈ ips ↔ b.Finds ids domain ip := by
  obtain ⟨-, rfl⟩ := resolveIps_eq_ok_iff.1 h
  rw [(sortByFamily_perm _ _).mem_iff, mem_collected]

theorem nodup_resolveIps {ips : List IpAddr} (h : b.resolveIps ids domain = .ok ips) :
    ips.Nodup := by
  obtain ⟨-, rfl⟩ := resolveIps_eq_ok_iff.1 h
  exact (sortByFamily_perm _ _).nodup_iff.2 nodup_collected

theorem resolveIps_ne_nil {ips : List IpAddr} (h : b.resolveIps ids domain = .ok ips) :
    ips ≠ [] := by
  obtain ⟨ip, hfinds⟩ := exists_resolveIps_iff.1 ⟨ips, h⟩
  exact List.ne_nil_of_mem ((mem_resolveIps_iff h).2 hfinds)

/-- A DoH upstream that is built has an address to dial. -/
theorem memberIps_ne_nil {url host : Text} {ip : Option IpAddr} {ips : List IpAddr}
    (h : b.memberIps ids url host ip = .ok ips) : ips ≠ [] := by
  cases ip with
  | some ip =>
    rw [← Except.ok.inj h]
    exact List.cons_ne_nil _ _
  | none =>
    rw [memberIps] at h
    split_ifs at h
    exact resolveIps_ne_nil h

/-- The preferred family is dialed first. -/
theorem exists_append_of_resolveIps {ips : List IpAddr} (h : b.resolveIps ids domain = .ok ips) :
    ∃ preferred others, ips = preferred ++ others ∧
      (∀ ip ∈ preferred, ip.isIpv6 = b.preferIpv6) ∧ ∀ ip ∈ others, ip.isIpv6 ≠ b.preferIpv6 := by
  obtain ⟨-, rfl⟩ := resolveIps_eq_ok_iff.1 h
  refine ⟨_, _, sortByFamily_eq _ _, ?_, ?_⟩
  · intro ip hip
    exact eq_of_beq (List.mem_filter.1 hip).2
  · intro ip hip
    exact bne_iff_ne.1 (List.mem_filter.1 hip).2

/-- Every address that is found is in a response of a configured resolver. -/
theorem Finds.exists_resolver {ip : IpAddr} (h : b.Finds ids domain ip) :
    ∃ r ∈ b.resolvers, ∃ rtype ∈ [RecordType.A, RecordType.AAAA], ∃ query response,
      makeQuery (ids rtype) domain rtype = .ok query ∧ r query = .ok response ∧
        ip ∈ response.addresses := by
  obtain ⟨rtype, hrtype, response, ⟨query, hquery, before, r, after, hsplit, -, hr⟩, hip⟩ := h
  have hmem : r ∈ b.resolvers := by
    rw [hsplit]
    exact List.mem_append_right _ List.mem_cons_self
  exact ⟨r, hmem, rtype, hrtype, query, response, hquery, hr, hip⟩

/-- **What `resolve_ips` returns.** It succeeds exactly if the first response for `A` or the first
response for `AAAA` has an address. Then it returns at least one address, none of them twice, all of
them from responses of configured resolvers, and those of the preferred family first. -/
theorem resolve_ips_by_first_response (b : Bootstrap) (ids : RecordType → UInt16)
    (domain : Text) :
    ((∃ ips, b.resolveIps ids domain = .ok ips) ↔
      ∃ rtype ∈ [RecordType.A, RecordType.AAAA], ∃ query response,
        makeQuery (ids rtype) domain rtype = .ok query ∧
          FirstResponse b.resolvers query response ∧ ∃ ip, ip ∈ response.addresses) ∧
    ∀ ips, b.resolveIps ids domain = .ok ips → ips ≠ [] ∧ ips.Nodup ∧
      (∀ ip ∈ ips, ∃ r ∈ b.resolvers, ∃ rtype ∈ [RecordType.A, RecordType.AAAA],
        ∃ query response, makeQuery (ids rtype) domain rtype = .ok query ∧
          r query = .ok response ∧ ip ∈ response.addresses) ∧
      ∃ preferred others, ips = preferred ++ others ∧
        (∀ ip ∈ preferred, ip.isIpv6 = b.preferIpv6) ∧
          ∀ ip ∈ others, ip.isIpv6 ≠ b.preferIpv6 := by
  constructor
  · rw [exists_resolveIps_iff]
    constructor
    · rintro ⟨ip, rtype, hrtype, response, ⟨query, hquery, hfirst⟩, hip⟩
      exact ⟨rtype, hrtype, query, response, hquery, hfirst, ip, hip⟩
    · rintro ⟨rtype, hrtype, query, response, hquery, hfirst, ip, hip⟩
      exact ⟨ip, rtype, hrtype, response, ⟨query, hquery, hfirst⟩, hip⟩
  · intro ips h
    refine ⟨resolveIps_ne_nil h, nodup_resolveIps h, ?_, exists_append_of_resolveIps h⟩
    intro ip hip
    exact ((mem_resolveIps_iff h).1 hip).exists_resolver

end Bootstrap

/-! ### A server that cannot answer -/

/-- Every text is a name. -/
@[reducible] def anyName : NameSyntax := ⟨fun s ↦ some ⟨s⟩⟩

/-- A server that answers SERVFAIL, without records. -/
def servfailServer (query : Message) : Except ResolveError Message := .ok query.servfail

/-- A server that cannot be reached. -/
def deadServer (_ : Message) : Except ResolveError Message := .error .timedOut

/-- A server that knows one address of each family. -/
def goodServer (query : Message) : Except ResolveError Message :=
  .ok { query.replyTo .noError with
    queries := query.queries
    answers := query.queries.map fun q ↦
      ⟨q.name, 300, if q.queryType = .A then .a 0x5DB8D822#32 else .aaaa 1#128⟩ }

namespace Bootstrap

theorem resolve_ips_by_first_response_dead :
    @resolveIps anyName ⟨[deadServer, goodServer], true⟩ (fun _ ↦ 7) "dns.example".toList =
        .ok [.v6 1#128, .v4 0x5DB8D822#32] ∧
      ([.v6 1#128, .v4 0x5DB8D822#32] : List IpAddr).Nodup := by
  have hok : @resolveIps anyName ⟨[deadServer, goodServer], true⟩ (fun _ ↦ 7)
      "dns.example".toList = .ok [.v6 1#128, .v4 0x5DB8D822#32] := by decide
  have hlist := (@resolve_ips_by_first_response anyName ⟨[deadServer, goodServer], true⟩
    (fun _ ↦ 7) "dns.example".toList).2 _ hok
  exact ⟨hok, hlist.2.1⟩

/-- A response without addresses is final, though the next server has one. -/
theorem resolve_ips_stops_at_servfail :
    ¬∀ (_ : NameSyntax) (b : Bootstrap) (ids : RecordType → UInt16) (domain : Text),
      (∃ r ∈ b.resolvers, ∃ rtype ∈ [RecordType.A, RecordType.AAAA], ∃ query response,
        makeQuery (ids rtype) domain rtype = .ok query ∧ r query = .ok response ∧
          ∃ ip, ip ∈ response.addresses) →
        ∃ ips, b.resolveIps ids domain = .ok ips := by
  intro hall
  obtain ⟨ips, hips⟩ := hall anyName ⟨[servfailServer, goodServer], false⟩ (fun _ ↦ 7)
    "dns.example".toList ⟨goodServer, by simp, .A, by simp, _, _, rfl, rfl, .v4 0x5DB8D822#32, by
      decide⟩
  have herror : @resolveIps anyName ⟨[servfailServer, goodServer], false⟩ (fun _ ↦ 7)
      "dns.example".toList = .error (.message
        "bootstrap could not resolve any ip for dns.example".toList) := by decide
  rw [herror] at hips
  cases hips

end Bootstrap

end DnsBuffer
