import DnsBuffer.Dns.Message
import Mathlib.Data.List.AList

/-!
# Custom hosts

Names answered from the configuration: exact names, and `*.` wildcards that match below a base
domain. A later entry for the same name replaces an earlier one, as insertion into the two maps of
the source does.
-/

namespace DnsBuffer

/-- One configured entry. -/
structure HostEntry where
  name : Text
  addrs : List IpAddr
deriving DecidableEq

/-- `HostsMap`: exact names, and wildcards by their base domain. -/
structure HostsMap where
  exact : AList fun _ : Text ↦ List IpAddr
  wildcard : AList fun _ : Text ↦ List IpAddr

/-- TTL of hosts answers. -/
def hostsTtl : UInt32 := 300

namespace HostsMap

/-- No entries. -/
def empty : HostsMap := ⟨∅, ∅⟩

/-- One insertion of `from_entries`, under a normalized name. -/
def insert (h : HostsMap) (name : Text) (addrs : List IpAddr) : HostsMap :=
  match name.dropPrefix? ['*', '.'] with
  | some base => { h with wildcard := h.wildcard.insert base addrs }
  | none => { h with exact := h.exact.insert name addrs }

/-- `HostsMap::from_entries`. -/
def fromEntries [Lowercase] (entries : List HostEntry) : HostsMap :=
  entries.foldl (fun h e ↦ h.insert (normalize e.name) e.addrs) empty

/-- `HostsMap::find`: the exact entry, else the first wildcard met while labels are cut off from the
left. -/
def find (h : HostsMap) (name : Text) : Option (List IpAddr) :=
  (h.exact.lookup name).or ((afterDots name).findSome? fun base ↦ h.wildcard.lookup base)

/-- The answers to a question from a list of addresses: those of the asked family, in order. -/
def answersFor (q : Query) (addrs : List IpAddr) : List Record :=
  addrs.filterMap fun
    | .v4 bits => if q.queryType = .A then some ⟨q.name, hostsTtl, .a bits⟩ else none
    | .v6 bits => if q.queryType = .AAAA then some ⟨q.name, hostsTtl, .aaaa bits⟩ else none

/-- `HostsMap::lookup`: the answer to a query whose name has an entry. -/
def lookup [Lowercase] (h : HostsMap) (query : Message) : Option Message :=
  query.queries.head?.bind fun q ↦
    (h.find (normalize q.name.text)).map fun addrs ↦
      { query.replyTo .noError with queries := [q], answers := answersFor q addrs }

/-- A query with a question is answered exactly when its normalized name has an entry. -/
theorem lookup_isSome_iff [Lowercase] {h : HostsMap} {query : Message} {q : Query}
    (hq : query.queries.head? = some q) :
    (h.lookup query).isSome ↔ (h.find (normalize q.name.text)).isSome := by
  simp [lookup, hq]

/-- Every hosts answer carries the request's id and opcode and echoes its first question. -/
theorem lookup_echo [Lowercase] {h : HostsMap} {query resp : Message}
    (hresp : h.lookup query = some resp) :
    resp.metadata.id = query.metadata.id ∧ resp.metadata.opCode = query.metadata.opCode ∧
      resp.queries = query.queries.take 1 := by
  rw [lookup, Option.bind_eq_some_iff] at hresp
  obtain ⟨q, hq, hresp⟩ := hresp
  obtain ⟨addrs, -, rfl⟩ := Option.map_eq_some_iff.1 hresp
  refine ⟨rfl, rfl, ?_⟩
  obtain ⟨rest, hrest⟩ := List.head?_eq_some_iff.1 hq
  rw [hrest]
  rfl

end HostsMap

end DnsBuffer
