import DnsBuffer.Dns.Message

/-!
# EDNS Client Subnet

The subnet the proxy is configured with and the function that writes it into an outgoing query.
`inject` *adds* an option; on its own it removes nothing, so what a message discloses after it is
what it disclosed before together with the configured subnet (`subnets_inject`). Stripping the
client's own option is the separate step `stripSubnet`.

`Message.withSubnets` replaces exactly the client-subnet options of a message and is the vocabulary
for saying that two messages differ in nothing else.
-/

namespace DnsBuffer

/-- The configured subnet: an address already masked to the prefix. -/
structure EcsSubnet where
  addr : IpAddr
  prefixLen : UInt8
deriving DecidableEq

/-- The option payload `inject` writes: the subnet with scope prefix 0. -/
def EcsSubnet.option (subnet : EcsSubnet) : ClientSubnet := ⟨subnet.addr, subnet.prefixLen, 0⟩

/-- `ecs::inject`: add the option, creating the EDNS record when there is none. -/
def inject (query : Message) (subnet : EcsSubnet) : Message :=
  let edns := query.edns.getD Edns.new
  { query with edns := some ({ edns with maxPayload := 1232 }.insertSubnet subnet.option) }

/-- The stripping half of `prepared_query`: drop the client's subnet options from an existing EDNS
record. -/
def stripSubnet (query : Message) : Message :=
  { query with edns := query.edns.map Edns.removeSubnet }

/-- What a query should disclose under a configuration: the configured subnet and nothing else. -/
def configuredSubnets (ecs : Option EcsSubnet) : List ClientSubnet :=
  (ecs.map EcsSubnet.option).toList

/-! ### What each step discloses -/

@[simp] theorem subnets_inject (query : Message) (subnet : EcsSubnet) :
    (inject query subnet).subnets = query.subnets ++ [subnet.option] := by
  rcases h : query.edns with - | e <;>
    simp [inject, Message.subnets, h, Edns.subnets, Edns.insertSubnet, Edns.new,
      EdnsOption.subnet?]

@[simp] theorem subnets_stripSubnet (query : Message) : (stripSubnet query).subnets = [] := by
  rcases h : query.edns with - | e <;> simp [stripSubnet, Message.subnets, h]

@[simp] theorem queries_stripSubnet (query : Message) :
    (stripSubnet query).queries = query.queries := rfl

@[simp] theorem metadata_stripSubnet (query : Message) :
    (stripSubnet query).metadata = query.metadata := rfl

/-! ### Messages that differ only in their client subnets -/

/-- Two messages agree in everything except the client-subnet options of an existing EDNS record. -/
def SameButSubnets (m m' : Message) : Prop := stripSubnet m = stripSubnet m'

theorem SameButSubnets.queries_eq {m m' : Message} (h : SameButSubnets m m') :
    m.queries = m'.queries := by
  have hstrip : stripSubnet m = stripSubnet m' := h
  rw [← queries_stripSubnet m, hstrip, queries_stripSubnet]

theorem SameButSubnets.metadata_eq {m m' : Message} (h : SameButSubnets m m') :
    m.metadata = m'.metadata := by
  have hstrip : stripSubnet m = stripSubnet m' := h
  rw [← metadata_stripSubnet m, hstrip, metadata_stripSubnet]

theorem SameButSubnets.edns_isSome_iff {m m' : Message} (h : SameButSubnets m m') :
    m.edns.isSome = m'.edns.isSome := by
  have hedns := congrArg (fun x : Message ↦ x.edns.isSome) h
  simpa [stripSubnet] using hedns

/-- Injection into messages that agree outside their client subnets can be read back: it only
appends, and the payload size it overwrites is among what the two agree on. -/
theorem SameButSubnets.eq_of_inject_eq {m m' : Message} {subnet : EcsSubnet}
    (hsame : SameButSubnets m m') (h : inject m subnet = inject m' subnet) : m = m' := by
  obtain ⟨md, qs, an, au, ad, e⟩ := m
  obtain ⟨md', qs', an', au', ad', e'⟩ := m'
  have hsome := hsame.edns_isSome_iff
  rcases e with - | e <;> rcases e' with - | e'
  · simpa [SameButSubnets, stripSubnet] using hsame
  · simp at hsome
  · simp at hsome
  · simp only [SameButSubnets, stripSubnet, Edns.removeSubnet, Option.map_some, Message.mk.injEq,
      Option.some.injEq, Edns.mk.injEq] at hsame
    simp only [inject, Edns.insertSubnet, Option.getD_some, Message.mk.injEq, Option.some.injEq,
      Edns.mk.injEq, List.append_cancel_right_eq] at h
    obtain ⟨hmd, hqs, han, hau, had, hrc, hver, hdo, hmax, -⟩ := hsame
    have hopt := h.2.2.2.2.2.2.2.2.2
    simp only [Message.mk.injEq, Option.some.injEq, hmd, hqs, han, hau, had, true_and]
    exact Edns.ext hrc hver hdo hmax hopt

end DnsBuffer
