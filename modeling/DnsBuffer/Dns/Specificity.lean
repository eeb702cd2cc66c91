import DnsBuffer.Dns.Hosts
import DnsBuffer.Dns.Suffix
import DnsBuffer.Foundation.Search

/-!
# The most specific hosts entry

What the two maps of `HostsMap` hold is a function of the last entry under each normalized name
(`entryFor`): the exact names in one map, and in the other the names below `*.`, by their base. So
what a lookup finds is the entry under the name itself, or else the wildcard of the longest base
(`Wins`), and two lists of entries with the same last entries give the same lookups.
-/

namespace DnsBuffer

/-- The mark of a wildcard. -/
def wildcardMark : Text := ['*', '.']

/-- An IPv4 address. -/
def IpAddr.v4? : IpAddr → Option (BitVec 32)
  | .v4 bits => some bits
  | .v6 _ => none

/-- An IPv6 address. -/
def IpAddr.v6? : IpAddr → Option (BitVec 128)
  | .v4 _ => none
  | .v6 bits => some bits

variable [Lowercase]

/-- The last entry under a normalized name. -/
def entryFor (entries : List HostEntry) (name : Text) : Option HostEntry :=
  (entries.filter fun e ↦ normalize e.name = name).getLast?

/-- The entry that answers for a normalized name: the one under the name itself, or else the
wildcard of the longest base that the name ends with after a dot. -/
def Wins (entries : List HostEntry) (name : Text) (e : HostEntry) : Prop :=
  entryFor entries name = some e ∨
    entryFor entries name = none ∧ ∃ base, '.' :: base <:+ name ∧
      entryFor entries (wildcardMark ++ base) = some e ∧
      ∀ base', '.' :: base' <:+ name → base.length < base'.length →
        entryFor entries (wildcardMark ++ base') = none

/-! ### The maps -/

theorem entryFor_concat (entries : List HostEntry) (e : HostEntry) (name : Text) :
    entryFor (entries ++ [e]) name =
      if normalize e.name = name then some e else entryFor entries name := by
  rw [entryFor, List.filter_append, entryFor]
  by_cases h : normalize e.name = name
  · simp [h]
  · simp [h]

namespace HostsMap

theorem fromEntries_concat (entries : List HostEntry) (e : HostEntry) :
    fromEntries (entries ++ [e]) = (fromEntries entries).insert (normalize e.name) e.addrs := by
  rw [fromEntries, List.foldl_concat, fromEntries]

omit [Lowercase] in
theorem insert_of_wildcard (h : HostsMap) (base : Text) (addrs : List IpAddr) :
    h.insert (wildcardMark ++ base) addrs =
      { h with wildcard := h.wildcard.insert base addrs } := by
  have hdrop : (wildcardMark ++ base).dropPrefix? ['*', '.'] = some base :=
    Text.dropPrefix?_append wildcardMark base
  rw [insert, hdrop]

omit [Lowercase] in
theorem insert_of_exact (h : HostsMap) {name : Text} (hname : ¬wildcardMark <+: name)
    (addrs : List IpAddr) :
    h.insert name addrs = { h with exact := h.exact.insert name addrs } := by
  have hdrop : name.dropPrefix? ['*', '.'] = none := Text.dropPrefix?_eq_none hname
  rw [insert, hdrop]

/-- **What the maps hold.** -/
theorem lookup_fromEntries (entries : List HostEntry) :
    (∀ base, (fromEntries entries).wildcard.lookup base =
      (entryFor entries (wildcardMark ++ base)).map HostEntry.addrs) ∧
    ∀ name, (fromEntries entries).exact.lookup name =
      if wildcardMark <+: name then none else (entryFor entries name).map HostEntry.addrs := by
  induction entries using List.reverseRecOn with
  | nil =>
    refine ⟨fun base ↦ rfl, fun name ↦ ?_⟩
    split <;> rfl
  | append_singleton entries e ih =>
    obtain ⟨hwildcard, hexact⟩ := ih
    simp only [fromEntries_concat, entryFor_concat]
    by_cases hmark : wildcardMark <+: normalize e.name
    · obtain ⟨base, hbase⟩ := hmark
      rw [← hbase, insert_of_wildcard]
      refine ⟨fun base' ↦ ?_, fun name ↦ ?_⟩
      · by_cases heq : base' = base
        · subst heq
          rw [if_pos rfl]
          exact AList.lookup_insert _
        · rw [if_neg fun h ↦ heq (List.append_cancel_left h).symm, ← hwildcard]
          exact AList.lookup_insert_ne heq
      · rw [hexact]
        split
        · rfl
        · rename_i hname
          rw [if_neg fun h ↦ hname ⟨base, h⟩]
    · rw [insert_of_exact _ hmark]
      refine ⟨fun base' ↦ ?_, fun name ↦ ?_⟩
      · rw [if_neg fun h ↦ hmark ⟨base', h.symm⟩]
        exact hwildcard base'
      · by_cases heq : name = normalize e.name
        · subst heq
          rw [if_neg hmark, if_pos rfl]
          exact AList.lookup_insert _
        · rw [if_neg (Ne.symm heq), ← hexact]
          exact AList.lookup_insert_ne heq

/-- An entry under the name itself is found, also where it is a wildcard: its base is what is left
of the name after its first dot. -/
theorem find_of_entryFor {entries : List HostEntry} {name : Text} {e : HostEntry}
    (h : entryFor entries name = some e) : (fromEntries entries).find name = some e.addrs := by
  obtain ⟨hwildcard, hexact⟩ := lookup_fromEntries entries
  rw [find, hexact]
  by_cases hmark : wildcardMark <+: name
  · obtain ⟨base, rfl⟩ := hmark
    have hcuts : afterDots (wildcardMark ++ base) = base :: afterDots base := rfl
    rw [if_pos (List.prefix_append _ _), Option.none_or, hcuts, List.findSome?_cons, hwildcard, h]
    rfl
  · rw [if_neg hmark, h]
    rfl

/-- Without an entry under the name, the wildcard of the longest base is found. -/
theorem find_of_entryFor_none {entries : List HostEntry} {name : Text}
    (h : entryFor entries name = none) {addrs : List IpAddr} :
    (fromEntries entries).find name = some addrs ↔
      ∃ base, '.' :: base <:+ name ∧
        (entryFor entries (wildcardMark ++ base)).map HostEntry.addrs = some addrs ∧
        ∀ base', '.' :: base' <:+ name → base.length < base'.length →
          entryFor entries (wildcardMark ++ base') = none := by
  obtain ⟨hwildcard, hexact⟩ := lookup_fromEntries entries
  have hnone : (fromEntries entries).exact.lookup name = none := by
    rw [hexact, h]
    split <;> rfl
  rw [find, hnone, Option.none_or, Search.findSome?_eq_some_iff_greatest (pairwise_afterDots name)]
  simp only [hwildcard, mem_afterDots, Option.map_eq_none_iff]

/-- **The entry that is found.** -/
theorem find_fromEntries_iff {entries : List HostEntry} {name : Text} {addrs : List IpAddr} :
    (fromEntries entries).find name = some addrs ↔ ∃ e, Wins entries name e ∧ e.addrs = addrs := by
  rcases hown : entryFor entries name with - | own
  · rw [find_of_entryFor_none hown]
    constructor
    · rintro ⟨base, hbase, hentry, hlongest⟩
      obtain ⟨e, he, rfl⟩ := Option.map_eq_some_iff.1 hentry
      exact ⟨e, Or.inr ⟨hown, base, hbase, he, hlongest⟩, rfl⟩
    · rintro ⟨e, hwins | ⟨-, base, hbase, he, hlongest⟩, rfl⟩
      · rw [hown] at hwins
        cases hwins
      · exact ⟨base, hbase, by rw [he, Option.map_some], hlongest⟩
  · rw [find_of_entryFor hown, Option.some.injEq]
    constructor
    · rintro rfl
      exact ⟨own, Or.inl hown, rfl⟩
    · rintro ⟨e, hwins | ⟨hnone, -⟩, rfl⟩
      · rw [Option.some.inj (hown.symm.trans hwins)]
      · rw [hown] at hnone
        cases hnone

/-- Only the last entry under each name matters. -/
theorem find_congr {entries entries' : List HostEntry}
    (h : ∀ name, entryFor entries' name = entryFor entries name) (name : Text) :
    (fromEntries entries').find name = (fromEntries entries).find name := by
  simp only [find, (lookup_fromEntries _).1, (lookup_fromEntries _).2, h]

/-! ### Answers -/

/-- The answer to a question from the addresses of an entry. -/
structure Reply (query : Message) (q : Query) (addrs : List IpAddr) (resp : Message) : Prop where
  id : resp.metadata.id = query.metadata.id
  question : resp.queries = [q]
  noError : resp.metadata.responseCode = .noError
  v4 : q.queryType = .A →
    resp.answers = (addrs.filterMap IpAddr.v4?).map fun bits ↦ ⟨q.name, hostsTtl, .a bits⟩
  v6 : q.queryType = .AAAA →
    resp.answers = (addrs.filterMap IpAddr.v6?).map fun bits ↦ ⟨q.name, hostsTtl, .aaaa bits⟩
  other : q.queryType ≠ .A → q.queryType ≠ .AAAA → resp.answers = []

omit [Lowercase] in
theorem answersFor_v4 {q : Query} (hq : q.queryType = .A) (addrs : List IpAddr) :
    answersFor q addrs =
      (addrs.filterMap IpAddr.v4?).map fun bits ↦ ⟨q.name, hostsTtl, .a bits⟩ := by
  rw [answersFor, List.map_filterMap]
  congr 1
  funext addr
  cases addr with
  | v4 bits => simp [IpAddr.v4?, hq]
  | v6 bits => simp [IpAddr.v4?, hq, show RecordType.A ≠ .AAAA by decide]

omit [Lowercase] in
theorem answersFor_v6 {q : Query} (hq : q.queryType = .AAAA) (addrs : List IpAddr) :
    answersFor q addrs =
      (addrs.filterMap IpAddr.v6?).map fun bits ↦ ⟨q.name, hostsTtl, .aaaa bits⟩ := by
  rw [answersFor, List.map_filterMap]
  congr 1
  funext addr
  cases addr with
  | v4 bits => simp [IpAddr.v6?, hq, show RecordType.AAAA ≠ .A by decide]
  | v6 bits => simp [IpAddr.v6?, hq]

omit [Lowercase] in
theorem answersFor_other {q : Query} (hv4 : q.queryType ≠ .A) (hv6 : q.queryType ≠ .AAAA)
    (addrs : List IpAddr) : answersFor q addrs = [] := by
  rw [answersFor, List.filterMap_eq_nil_iff]
  intro addr _
  cases addr <;> simp [hv4, hv6]

omit [Lowercase] in
theorem reply_of_answersFor (query : Message) (q : Query) (addrs : List IpAddr) :
    Reply query q addrs
      { query.replyTo .noError with queries := [q], answers := answersFor q addrs } :=
  ⟨rfl, rfl, rfl, fun hq ↦ answersFor_v4 hq addrs, fun hq ↦ answersFor_v6 hq addrs,
    fun hv4 hv6 ↦ answersFor_other hv4 hv6 addrs⟩

/-- **The most specific entry answers.** A query with a question is answered from the entry that
wins for its normalized name, with the addresses of the asked family in their order, and not
answered if no entry wins; also where the entry under the name has no such address. Which entries
there are besides the last ones under each name makes no difference. -/
theorem most_specific_entry (entries : List HostEntry) (query : Message) :
    (query.queries.head? = none → (fromEntries entries).lookup query = none) ∧
    (∀ q, query.queries.head? = some q →
      (∀ resp, (fromEntries entries).lookup query = some resp →
        ∃ e, Wins entries (normalize q.name.text) e ∧ Reply query q e.addrs resp) ∧
      (∀ e, Wins entries (normalize q.name.text) e →
        ∃ resp, (fromEntries entries).lookup query = some resp ∧ Reply query q e.addrs resp)) ∧
    ∀ entries', (∀ name, entryFor entries' name = entryFor entries name) →
      (fromEntries entries').lookup query = (fromEntries entries).lookup query := by
  refine ⟨fun hnone ↦ ?_, fun q hq ↦ ⟨fun resp hresp ↦ ?_, fun e hwins ↦ ?_⟩,
    fun entries' hsame ↦ ?_⟩
  · rw [lookup, hnone]
    rfl
  · rw [lookup, hq, Option.bind_some] at hresp
    obtain ⟨addrs, haddrs, rfl⟩ := Option.map_eq_some_iff.1 hresp
    obtain ⟨e, hwins, rfl⟩ := find_fromEntries_iff.1 haddrs
    exact ⟨e, hwins, reply_of_answersFor query q e.addrs⟩
  · have hfind := find_fromEntries_iff.2 ⟨e, hwins, rfl⟩
    exact ⟨_, by rw [lookup, hq, Option.bind_some, hfind, Option.map_some],
      reply_of_answersFor query q e.addrs⟩
  · simp only [lookup, find_congr hsame]

end HostsMap

end DnsBuffer
