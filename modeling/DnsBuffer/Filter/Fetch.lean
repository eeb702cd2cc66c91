import DnsBuffer.Dns.Address
import DnsBuffer.Foundation.Authority
import DnsBuffer.Foundation.Transaction
import DnsBuffer.Upstream.Bootstrap

/-!
# Fetching a rule file

`fetch_url` requests a rule file and follows at most three redirects. A `Location` that is no
`http://` or `https://` url is meant to be relative: the next url is the scheme, the host and the
port of the current one with the `Location` put directly behind the port.

Nothing separates the two, so the text in front of the first slash, question mark or number sign of
the `Location`, its *lead*, joins the authority: behind an `@` it names another host, and digits
change the port. `Origin.Stays` is the condition on the lead under which the next url has the same
origin, and it is exact (`eq_iff_stays`). An empty lead, as in `/rules.txt`, meets it. Where every
server keeps to it, a file comes from the origin of its url (`fetchUrl_from_origin`).
-/

namespace DnsBuffer

/-! ### The model -/

/-- `http::Uri`, by what is read of it. -/
structure Uri where
  schemeStr : Option Text
  host : Option Text
  portU16 : Option ℕ
  path : Text
  pathAndQuery : Option Text

/-- `str::parse::<http::Uri>`. -/
class UriSyntax where
  parse : Text → Option Uri

/-- How `fetch_url` fails: with a message of its own, or because the host could not be resolved. -/
inductive FetchError
  | message (text : Text)
  | bootstrap (error : BootstrapError)
deriving DecidableEq

/-- The scheme, the host and the port of a url. -/
@[ext] structure Origin where
  https : Bool
  host : Text
  port : ℕ
deriving DecidableEq

/-- The port where a url has none. -/
def defaultPort (https : Bool) : ℕ := if https then 443 else 80

def schemeText (https : Bool) : Text := if https then "https".toList else "http".toList

/-- A `Location` that is followed as it is. -/
def Absolute (loc : Text) : Prop := "http://".toList <+: loc ∨ "https://".toList <+: loc

instance (loc : Text) : Decidable (Absolute loc) := inferInstanceAs (Decidable (_ ∨ _))

/-- The url that is requested after a redirect. -/
def Origin.nextUrl (o : Origin) (loc : Text) : Text :=
  if Absolute loc then loc
  else schemeText o.https ++ "://".toList ++ o.host ++ ':' :: Text.ofNat o.port ++ loc

/-- The schemes that are supported. -/
def https? (schemeStr : Option Text) : Option Bool :=
  if schemeStr = some "https".toList then some true
  else if schemeStr = some "http".toList then some false
  else none

/-- A response: the status, as a number and as it is displayed, the `Location` where it is readable
text, and the frames of the body, those without data included. -/
structure Response where
  status : ℕ
  statusText : Text
  location : Option Text
  frames : List (Except Text (Option (List UInt8)))

/-- What happens around one request: the random ids of the queries, the connections, and the
request on a connection, with its handshakes. -/
structure FetchIo where
  ids : RecordType → UInt16
  connect : IpAddr → ℕ → Except Text Unit
  exchange : Origin → IpAddr → Text → Except Text Response

/-- `MAX_BODY`. -/
def maxBody : ℕ := 20 * 1024 * 1024

/-- `MAX_REDIRECTS`. -/
def maxRedirects : ℕ := 3

/-- The loop over the addresses, after the last error. -/
def FetchIo.dial (io : FetchIo) (o : Origin) : List IpAddr → Option Text → Except FetchError IpAddr
  | [], some e => .error (.message e)
  | [], none => .error (.message ("no ips for ".toList ++ o.host))
  | ip :: rest, _ =>
    match io.connect ip o.port with
    | .ok () => .ok ip
    | .error e => io.dial o rest (some e)

/-- The loop over the frames of a body. -/
def readBody (current : Text) :
    List (Except Text (Option (List UInt8))) → List UInt8 → Except FetchError (List UInt8)
  | [], body => .ok body
  | .error _ :: _, _ => .error (.message "reading body".toList)
  | .ok none :: rest, body => readBody current rest body
  | .ok (some chunk) :: rest, body =>
    if maxBody < body.length + chunk.length then
      .error (.message (current ++ " exceeds ".toList ++ Text.ofNat maxBody ++
        " byte limit".toList))
    else readBody current rest (body ++ chunk)

/-- What a response leads to: the body, or the next url. -/
def Origin.follow (o : Origin) (current : Text) (resp : Response) :
    Except FetchError (List UInt8 ⊕ Text) :=
  if 300 ≤ resp.status ∧ resp.status < 400 then
    match resp.location with
    | none => .error (.message "redirect without location".toList)
    | some loc => .ok (.inr (o.nextUrl loc))
  else if ¬(200 ≤ resp.status ∧ resp.status < 300) then
    .error (.message (current ++ " returned ".toList ++ resp.statusText))
  else (readBody current resp.frames []).map .inl

section Fetch

variable [UriSyntax]

/-- The part of `fetch_url` that reads the current url: its origin and the path to request. -/
def parseUrl (current : Text) : Except FetchError (Origin × Text) :=
  match UriSyntax.parse current with
  | none => .error (.message ("invalid url ".toList ++ current))
  | some uri =>
    match https? uri.schemeStr with
    | none => .error (.message ("unsupported scheme in ".toList ++ current))
    | some https =>
      match uri.host with
      | none => .error (.message "url missing host".toList)
      | some host =>
        .ok (⟨https, host, uri.portU16.getD (defaultPort https)⟩,
          if uri.path = [] then "/".toList else uri.pathAndQuery.getD "/".toList)

variable [NameSyntax]

/-- The addresses of a host: itself where it is one. -/
def FetchIo.hostIps (io : FetchIo) (b : Bootstrap) (o : Origin) :
    Except FetchError (List IpAddr) :=
  match IpAddr.parse o.host with
  | some ip => .ok [ip]
  | none =>
    if b.isEmpty then
      .error (.message ("cannot resolve ".toList ++ o.host ++
        ": no bootstrap configured".toList))
    else (b.resolveIps io.ids o.host).mapError .bootstrap

/-- One round of `fetch_url` up to its response. -/
def FetchIo.request (io : FetchIo) (b : Bootstrap) (current : Text) :
    Except FetchError (Origin × Response) := do
  let (o, path) ← parseUrl current
  let ips ← io.hostIps b o
  let ip ← io.dial o ips none
  let resp ← (io.exchange o ip path).mapError .message
  return (o, resp)

/-- The rounds of `fetch_url` that are left. -/
def fetchRounds (io : ℕ → FetchIo) (b : Bootstrap) (url : Text) :
    ℕ → Text → Except FetchError (List UInt8)
  | 0, _ => .error (.message ("too many redirects fetching ".toList ++ url))
  | left + 1, current =>
    match (io left).request b current with
    | .error e => .error e
    | .ok (o, resp) =>
      match o.follow current resp with
      | .error e => .error e
      | .ok (.inl body) => .ok body
      | .ok (.inr next) => fetchRounds io b url left next

/-- `fetch_url`. -/
def fetchUrl (io : ℕ → FetchIo) (b : Bootstrap) (url : Text) : Except FetchError (List UInt8) :=
  fetchRounds io b url (maxRedirects + 1) url

end Fetch

/-! ### Parsing by the generic syntax -/

/-- The port that the text of a port stands for. -/
def portOf (https : Bool) (text : Option Text) : ℕ :=
  (text.bind (Text.parseUnsigned (2 ^ 16))).getD (defaultPort https)

/-- A uri is split by the generic syntax. -/
class LawfulUriSyntax [UriSyntax] : Prop where
  exists_split {s : Text} {uri : Uri} : UriSyntax.parse s = some uri → uri.schemeStr ≠ none →
    ∃ scheme rest, Authority.splitScheme s = some (scheme, rest)
  schemeStr_eq {s scheme rest : Text} {uri : Uri} : UriSyntax.parse s = some uri →
    Authority.splitScheme s = some (scheme, rest) →
    scheme = "http".toList ∨ scheme = "https".toList → uri.schemeStr = some scheme
  host_eq {s scheme rest : Text} {uri : Uri} : UriSyntax.parse s = some uri →
    Authority.splitScheme s = some (scheme, rest) →
    uri.host = some (Authority.host (Authority.authority rest))
  portU16_eq {s scheme rest : Text} {uri : Uri} : UriSyntax.parse s = some uri →
    Authority.splitScheme s = some (scheme, rest) →
    uri.portU16 =
      (Authority.portText (Authority.authority rest)).bind (Text.parseUnsigned (2 ^ 16))
  closed {s scheme rest : Text} {uri : Uri} : UriSyntax.parse s = some uri →
    Authority.splitScheme s = some (scheme, rest) →
    Authority.Closed (Authority.authority rest)

theorem schemeText_inj {a b : Bool} (h : schemeText a = schemeText b) : a = b := by
  revert a b
  decide

theorem https?_eq_some {schemeStr : Option Text} {https : Bool}
    (h : https? schemeStr = some https) : schemeStr = some (schemeText https) := by
  rw [https?] at h
  split_ifs at h with hhttps hhttp
  · rw [← Option.some.inj h, hhttps]
    rfl
  · rw [← Option.some.inj h, hhttp]
    rfl

theorem portOf_lt (https : Bool) (text : Option Text) : portOf https text < 2 ^ 16 := by
  rw [portOf]
  rcases hport : text.bind (Text.parseUnsigned (2 ^ 16)) with - | port
  · cases https <;> decide
  · obtain ⟨s, -, hs⟩ := Option.bind_eq_some_iff.1 hport
    exact of_decide_eq_true (Option.filter_eq_some_iff.1 hs).2

section Origins

variable [UriSyntax]

/-- What is read of a url that is requested. -/
theorem exists_uri_of_parseUrl {current path : Text} {o : Origin}
    (h : parseUrl current = .ok (o, path)) :
    ∃ uri, UriSyntax.parse current = some uri ∧ uri.schemeStr = some (schemeText o.https) ∧
      uri.host = some o.host ∧ o.port = uri.portU16.getD (defaultPort o.https) := by
  rw [parseUrl] at h
  split at h
  · cases h
  rename_i uri huri
  split at h
  · cases h
  rename_i https hhttps
  split at h
  · cases h
  rename_i host hhost
  obtain ⟨rfl, -⟩ := Prod.mk.inj (Except.ok.inj h)
  exact ⟨uri, huri, https?_eq_some hhttps, hhost, rfl⟩

variable [LawfulUriSyntax] {current path rest : Text} {o : Origin}

theorem exists_splitScheme_of_parseUrl (h : parseUrl current = .ok (o, path)) :
    ∃ scheme rest, Authority.splitScheme current = some (scheme, rest) := by
  obtain ⟨uri, huri, hscheme, -, -⟩ := exists_uri_of_parseUrl h
  refine LawfulUriSyntax.exists_split huri ?_
  rw [hscheme]
  exact Option.some_ne_none _

/-- The origin of a url, by the authority that is written in it. -/
theorem host_port_of_splitScheme {scheme : Text} (h : parseUrl current = .ok (o, path))
    (hsplit : Authority.splitScheme current = some (scheme, rest)) :
    o.host = Authority.host (Authority.authority rest) ∧
      o.port = portOf o.https (Authority.portText (Authority.authority rest)) := by
  obtain ⟨uri, huri, hscheme, hhost, hport⟩ := exists_uri_of_parseUrl h
  rw [LawfulUriSyntax.portU16_eq huri hsplit] at hport
  exact ⟨Option.some.inj (hhost.symm.trans (LawfulUriSyntax.host_eq huri hsplit)), hport⟩

theorem https_of_splitScheme {https : Bool} (h : parseUrl current = .ok (o, path))
    (hsplit : Authority.splitScheme current = some (schemeText https, rest)) :
    o.https = https := by
  obtain ⟨uri, huri, hscheme, -, -⟩ := exists_uri_of_parseUrl h
  have hsupported : schemeText https = "http".toList ∨ schemeText https = "https".toList := by
    cases https with
    | false => exact Or.inl rfl
    | true => exact Or.inr rfl
  have hwritten := LawfulUriSyntax.schemeStr_eq huri hsplit hsupported
  exact schemeText_inj (Option.some.inj (hscheme.symm.trans hwritten))

/-! ### The origin of a url that is requested -/

/-- What a host and a port are like that were split off a url. -/
structure Origin.WellFormed (o : Origin) : Prop where
  isHost : Authority.IsHost o.host
  at_notMem : '@' ∉ o.host
  not_isEnd : ∀ c ∈ o.host, ¬Authority.IsEnd c
  port_lt : o.port < 2 ^ 16

theorem wellFormed_of_parseUrl (h : parseUrl current = .ok (o, path)) : o.WellFormed := by
  obtain ⟨scheme, rest, hsplit⟩ := exists_splitScheme_of_parseUrl h
  obtain ⟨uri, huri, -, -, -⟩ := exists_uri_of_parseUrl h
  have hclosed := LawfulUriSyntax.closed huri hsplit
  obtain ⟨hhost, hport⟩ := host_port_of_splitScheme h hsplit
  have hmem : ∀ c ∈ o.host, c ∈ Authority.behind '@' (Authority.authority rest) := by
    intro c hc
    rw [hhost] at hc
    exact Authority.mem_of_mem_host hclosed hc
  refine ⟨?_, ?_, ?_, ?_⟩
  · rw [hhost]
    exact Authority.isHost_host _
  · exact fun hat ↦ Authority.not_mem_behind (hmem _ hat)
  · intro c hc
    exact Authority.not_isEnd_of_mem_authority (Authority.behind_suffix.subset (hmem c hc))
  · rw [hport]
    exact portOf_lt _ _

end Origins

/-! ### The lead of a location -/

/-- What joins the authority of the next url: the text in front of the first slash, question mark or
number sign. -/
def lead (loc : Text) : Text := Authority.authority loc

/-- The condition on a location under which the next url has the same origin. -/
def Origin.Stays (o : Origin) (loc : Text) : Prop :=
  if '@' ∈ lead loc then
    Authority.host (lead loc) = o.host ∧ portOf o.https (Authority.portText (lead loc)) = o.port
  else if ':' ∈ lead loc then
    portOf o.https (some (Authority.behind ':' (lead loc))) = o.port
  else
    lead loc = [] ∨ (o.port = 0 ∧ ∀ c ∈ lead loc, c = '0') ∨
      (o.port = defaultPort o.https ∧
        Text.parseUnsigned (2 ^ 16) (Text.ofNat o.port ++ lead loc) = none)

theorem not_mem_ofNat {c : Char} (h : c.isDigit = false) (n : ℕ) : c ∉ Text.ofNat n := by
  intro hc
  rw [isDigit_of_mem_ofNat hc] at h
  cases h

theorem not_isEnd_of_isDigit {c : Char} (h : c.isDigit = true) : ¬Authority.IsEnd c := by
  rintro (rfl | rfl | rfl) <;> exact absurd h (by decide)

/-- The number in front of the lead is still the port. -/
theorem portOf_ofNat_append_iff {https : Bool} {port : ℕ} (h : port < 2 ^ 16) (text : Text) :
    portOf https (some (Text.ofNat port ++ text)) = port ↔
      text = [] ∨ (port = 0 ∧ ∀ c ∈ text, c = '0') ∨
        (port = defaultPort https ∧
          Text.parseUnsigned (2 ^ 16) (Text.ofNat port ++ text) = none) := by
  rw [← or_assoc, ← Text.parseUnsigned_ofNat_append_iff h, portOf, Option.bind_some]
  rcases Text.parseUnsigned (2 ^ 16) (Text.ofNat port ++ text) with - | n
  · simp [eq_comm]
  · simp

namespace Origin

variable {o : Origin}

theorem splitScheme_nextUrl {loc : Text} (hloc : ¬Absolute loc) :
    Authority.splitScheme (o.nextUrl loc) =
      some (schemeText o.https, o.host ++ ':' :: (Text.ofNat o.port ++ loc)) := by
  have hscheme : ∀ c ∈ schemeText o.https, c ≠ ':' ∧ ¬Authority.IsEnd c := by
    cases o.https with
    | false => exact List.forall_iff_forall_mem.1 (by decide)
    | true => exact List.forall_iff_forall_mem.1 (by decide)
  have htext : o.nextUrl loc = schemeText o.https ++
      ':' :: '/' :: '/' :: (o.host ++ ':' :: (Text.ofNat o.port ++ loc)) := by
    rw [nextUrl, if_neg hloc]
    simp
  rw [htext, Authority.splitScheme_append hscheme]

theorem authority_nextUrl (h : o.WellFormed) (loc : Text) :
    Authority.authority (o.host ++ ':' :: (Text.ofNat o.port ++ loc)) =
      o.host ++ ':' :: (Text.ofNat o.port ++ lead loc) := by
  have hfront : ∀ c ∈ o.host ++ ':' :: Text.ofNat o.port, ¬Authority.IsEnd c := by
    intro c hc
    rcases List.mem_append.1 hc with hc | hc
    · exact h.not_isEnd c hc
    · rcases List.mem_cons.1 hc with rfl | hc
      · decide
      · exact not_isEnd_of_isDigit (isDigit_of_mem_ofNat hc)
  have happend := Authority.authority_append hfront loc
  rw [List.append_assoc, List.append_assoc, List.cons_append, List.cons_append] at happend
  exact happend

/-- A lead without an `@` stays behind the host. -/
theorem host_portText_of_at_notMem (h : o.WellFormed) {text : Text} (hat : '@' ∉ text) :
    Authority.host (o.host ++ ':' :: (Text.ofNat o.port ++ text)) = o.host ∧
      Authority.portText (o.host ++ ':' :: (Text.ofNat o.port ++ text)) =
        some (Authority.behind ':' (Text.ofNat o.port ++ text)) := by
  have hnumber : '@' ∉ Text.ofNat o.port ++ text := by
    rw [List.mem_append, not_or]
    exact ⟨not_mem_ofNat (by decide) _, hat⟩
  exact ⟨Authority.host_append_colon h.isHost h.at_notMem hnumber,
    Authority.portText_append_colon h.isHost h.at_notMem hnumber⟩

/-- **What the next url names**: the same host and port, exactly if the location stays. -/
theorem names_iff_stays (h : o.WellFormed) (loc : Text) :
    Authority.host (o.host ++ ':' :: (Text.ofNat o.port ++ lead loc)) = o.host ∧
        portOf o.https (Authority.portText (o.host ++ ':' :: (Text.ofNat o.port ++ lead loc))) =
          o.port ↔
      o.Stays loc := by
  rw [Stays]
  split_ifs with hat hcolon
  · have hsplit : o.host ++ ':' :: (Text.ofNat o.port ++ lead loc) =
        o.host ++ ':' :: Text.ofNat o.port ++ lead loc := by simp
    rw [hsplit, Authority.host_append_of_at_mem hat, Authority.portText_append_of_at_mem hat]
  · obtain ⟨hhost, hport⟩ := host_portText_of_at_notMem h hat
    rw [hport, Authority.behind_append_of_mem hcolon]
    exact and_iff_right hhost
  · have hnone : ':' ∉ Text.ofNat o.port ++ lead loc := by
      rw [List.mem_append, not_or]
      exact ⟨not_mem_ofNat (by decide) _, hcolon⟩
    obtain ⟨hhost, hport⟩ := host_portText_of_at_notMem h hat
    rw [hport, Authority.behind_of_not_mem hnone, portOf_ofNat_append_iff h.port_lt]
    exact and_iff_right hhost

end Origin

section Redirects

variable [UriSyntax] [LawfulUriSyntax]

/-- The origin after a relative redirect. The scheme is always kept; the host and the port are kept
if and only if the location stays. -/
theorem eq_iff_stays {current path path' loc : Text} {o o' : Origin}
    (h : parseUrl current = .ok (o, path)) (hloc : ¬Absolute loc)
    (hnext : parseUrl (o.nextUrl loc) = .ok (o', path')) : o' = o ↔ o.Stays loc := by
  have hsplit := o.splitScheme_nextUrl hloc
  have hhttps : o'.https = o.https := https_of_splitScheme hnext hsplit
  obtain ⟨hhost, hport⟩ := host_port_of_splitScheme hnext hsplit
  have hwf := wellFormed_of_parseUrl h
  rw [Origin.authority_nextUrl hwf, hhttps] at hport
  rw [Origin.authority_nextUrl hwf] at hhost
  rw [← Origin.names_iff_stays hwf, ← hhost, ← hport]
  constructor
  · rintro rfl
    exact ⟨rfl, rfl⟩
  · rintro ⟨hhost', hport'⟩
    exact Origin.ext hhttps hhost' hport'

/-- **Which relative redirects keep the scheme, the host and the port**: exactly those whose
location stays. -/
theorem relative_redirect_same_origin_iff {current path path' loc : Text} {o o' : Origin}
    (h : parseUrl current = .ok (o, path)) (hloc : ¬Absolute loc)
    (hnext : parseUrl (o.nextUrl loc) = .ok (o', path')) :
    (o'.https = o.https ∧ o'.host = o.host ∧ o'.port = o.port) ↔ o.Stays loc := by
  rw [← eq_iff_stays h hloc hnext, Origin.ext_iff]

end Redirects

/-- The parser that splits by the generic syntax and checks nothing but the brackets of a host. -/
def genericParse (s : Text) : Option Uri :=
  (Authority.splitScheme s).bind fun (scheme, rest) ↦
    let tail := rest.dropWhile fun c ↦ ¬Authority.IsEnd c
    if Authority.Closed (Authority.authority rest) then
      some ⟨some scheme, some (Authority.host (Authority.authority rest)),
        (Authority.portText (Authority.authority rest)).bind (Text.parseUnsigned (2 ^ 16)),
        tail.takeWhile fun c ↦ c ≠ '?' ∧ c ≠ '#', some (tail.takeWhile fun c ↦ c ≠ '#')⟩
    else none

@[reducible] def genericUri : UriSyntax := ⟨genericParse⟩

theorem genericParse_eq_some {s scheme rest : Text} {uri : Uri} (h : genericParse s = some uri)
    (hsplit : Authority.splitScheme s = some (scheme, rest)) :
    Authority.Closed (Authority.authority rest) ∧ uri.schemeStr = some scheme ∧
      uri.host = some (Authority.host (Authority.authority rest)) ∧
      uri.portU16 =
        (Authority.portText (Authority.authority rest)).bind (Text.parseUnsigned (2 ^ 16)) := by
  rw [genericParse, hsplit, Option.bind_some] at h
  dsimp only at h
  split_ifs at h with hclosed
  rw [← Option.some.inj h]
  exact ⟨hclosed, rfl, rfl, rfl⟩

theorem lawfulUriSyntax_generic : @LawfulUriSyntax genericUri := by
  refine @LawfulUriSyntax.mk genericUri ?_ ?_ ?_ ?_ ?_
  · intro s uri h _
    obtain ⟨⟨scheme, rest⟩, hsplit, -⟩ := Option.bind_eq_some_iff.1 h
    exact ⟨scheme, rest, hsplit⟩
  · intro s scheme rest uri h hsplit _
    exact (genericParse_eq_some h hsplit).2.1
  · intro s scheme rest uri h hsplit
    exact (genericParse_eq_some h hsplit).2.2.1
  · intro s scheme rest uri h hsplit
    exact (genericParse_eq_some h hsplit).2.2.2
  · intro s scheme rest uri h hsplit
    exact (genericParse_eq_some h hsplit).1

/-- The origin `http://a.example`. -/
def exampleOrigin : Origin := ⟨false, "a.example".toList, 80⟩

theorem parseUrl_rules : @parseUrl genericUri "http://a.example/rules.txt".toList =
    .ok (exampleOrigin, "/rules.txt".toList) := by decide

theorem relative_redirect_same_origin_iff_path :
    @parseUrl genericUri (exampleOrigin.nextUrl "/moved.txt".toList) =
        .ok (exampleOrigin, "/moved.txt".toList) ∧
      exampleOrigin.Stays "/moved.txt".toList := by
  have hnext : @parseUrl genericUri (exampleOrigin.nextUrl "/moved.txt".toList) =
      .ok (exampleOrigin, "/moved.txt".toList) := by decide
  refine ⟨hnext, ?_⟩
  exact (@relative_redirect_same_origin_iff genericUri lawfulUriSyntax_generic _ _ _ _ _ _
    parseUrl_rules (by decide) hnext).1 ⟨rfl, rfl, rfl⟩

/-- A location that starts with an `@` leads to another host. -/
theorem relative_redirect_leaves_host :
    ¬∀ (_ : UriSyntax) (_ : LawfulUriSyntax) (current path path' loc : Text) (o o' : Origin),
      parseUrl current = .ok (o, path) → ¬Absolute loc →
        parseUrl (o.nextUrl loc) = .ok (o', path') →
          o'.https = o.https ∧ o'.host = o.host ∧ o'.port = o.port := by
  intro hall
  have hnext : @parseUrl genericUri (exampleOrigin.nextUrl "@b.example/rules.txt".toList) =
      .ok (⟨false, "b.example".toList, 80⟩, "/rules.txt".toList) := by decide
  have hsame := hall genericUri lawfulUriSyntax_generic _ _ _ _ _ _ parseUrl_rules (by decide) hnext
  exact absurd hsame.2.1 (by decide)

/-! ### A whole fetch -/

theorem Origin.follow_eq_inr {o : Origin} {current next : Text} {resp : Response}
    (h : o.follow current resp = .ok (.inr next)) :
    ∃ loc, resp.location = some loc ∧ next = o.nextUrl loc := by
  rw [Origin.follow] at h
  split_ifs at h
  · split at h
    · cases h
    · rename_i loc hloc
      exact ⟨loc, hloc, (Sum.inr.inj (Except.ok.inj h)).symm⟩
  · rcases hbody : readBody current resp.frames [] with e | body
    · rw [hbody] at h
      cases h
    · rw [hbody] at h
      cases Except.ok.inj h

/-- A response that ends the fetch is read to its end. -/
theorem Origin.readBody_of_follow {o : Origin} {current : Text} {resp : Response}
    {body : List UInt8} (h : o.follow current resp = .ok (.inl body)) :
    readBody current resp.frames [] = .ok body := by
  rw [Origin.follow] at h
  split_ifs at h
  · split at h <;> cases h
  · rcases hbody : readBody current resp.frames [] with e | body'
    · rw [hbody] at h
      cases h
    · rw [hbody] at h
      cases h
      rfl

section Run

variable [UriSyntax] [NameSyntax]

/-- The origins that responses came from, in the rounds that are left. -/
def origins (io : ℕ → FetchIo) (b : Bootstrap) : ℕ → Text → List Origin
  | 0, _ => []
  | left + 1, current =>
    match (io left).request b current with
    | .error _ => []
    | .ok (o, resp) =>
      match o.follow current resp with
      | .ok (.inr next) => o :: origins io b left next
      | _ => [o]

variable {io : ℕ → FetchIo} {b : Bootstrap}

theorem parseUrl_of_request {io : FetchIo} {current : Text} {o : Origin} {resp : Response}
    (h : io.request b current = .ok (o, resp)) : ∃ path, parseUrl current = .ok (o, path) := by
  rw [FetchIo.request, Work.bind_eq_ok] at h
  obtain ⟨⟨o', path⟩, hparse, h⟩ := h
  obtain ⟨ips, -, h⟩ := Work.bind_eq_ok.1 h
  obtain ⟨ip, -, h⟩ := Work.bind_eq_ok.1 h
  obtain ⟨resp', -, h⟩ := Work.bind_eq_ok.1 h
  obtain ⟨rfl, -⟩ := Prod.mk.inj (Except.ok.inj h)
  exact ⟨path, hparse⟩

/-- Where every server only sends locations that stay, a fetch stays at its first origin. -/
theorem eq_of_mem_origins [LawfulUriSyntax] {o : Origin}
    (hservers : ∀ i current o resp loc, (io i).request b current = .ok (o, resp) →
      resp.location = some loc → ¬Absolute loc ∧ o.Stays loc)
    {left : ℕ} {current : Text} (h : ∀ o' path, parseUrl current = .ok (o', path) → o' = o) :
    ∀ o' ∈ origins io b left current, o' = o := by
  induction left generalizing current with
  | zero => exact List.forall_mem_nil _
  | succ left ih =>
    rw [origins]
    split
    · exact List.forall_mem_nil _
    · rename_i first resp hrequest
      obtain ⟨path, hpath⟩ := parseUrl_of_request hrequest
      obtain rfl : first = o := h first path hpath
      split
      · rename_i next hfollow
        obtain ⟨loc, hloc, rfl⟩ := Origin.follow_eq_inr hfollow
        obtain ⟨hrelative, hstays⟩ := hservers _ _ _ _ _ hrequest hloc
        refine List.forall_mem_cons.2 ⟨rfl, ih ?_⟩
        intro o' path' hnext
        exact (eq_iff_stays hpath hrelative hnext).2 hstays
      · exact List.forall_mem_singleton.2 rfl

/-- What is fetched is the body of a response from one of the origins. -/
theorem exists_response_of_fetchRounds {url current : Text} {left : ℕ} {body : List UInt8}
    (h : fetchRounds io b url left current = .ok body) :
    ∃ o ∈ origins io b left current, ∃ i used resp, (io i).request b used = .ok (o, resp) ∧
      readBody used resp.frames [] = .ok body := by
  induction left generalizing current with
  | zero => cases h
  | succ left ih =>
    rw [fetchRounds] at h
    split at h
    · cases h
    · rename_i o resp hrequest
      split at h
      · cases h
      · rename_i body' hfollow
        cases h
        refine ⟨o, ?_, left, current, resp, hrequest, Origin.readBody_of_follow hfollow⟩
        simp only [origins, hrequest, hfollow, List.mem_singleton]
      · rename_i next hfollow
        obtain ⟨o', ho', hresponse⟩ := ih h
        refine ⟨o', ?_, hresponse⟩
        simp only [origins, hrequest, hfollow]
        exact List.mem_cons_of_mem o ho'

/-- **Where every server only sends locations that stay, a fetched file is what the origin of its
url has sent.** -/
theorem fetchUrl_from_origin [LawfulUriSyntax] {o : Origin} {url path : Text} {body : List UInt8}
    (hservers : ∀ i current o resp loc, (io i).request b current = .ok (o, resp) →
      resp.location = some loc → ¬Absolute loc ∧ o.Stays loc)
    (hurl : parseUrl url = .ok (o, path)) (h : fetchUrl io b url = .ok body) :
    ∃ i current resp, (io i).request b current = .ok (o, resp) ∧
      readBody current resp.frames [] = .ok body := by
  obtain ⟨o', ho', i, current, resp, hrequest, hbody⟩ := exists_response_of_fetchRounds h
  have hsame : o' = o := by
    refine eq_of_mem_origins hservers (fun o' path' hurl' ↦ ?_) o' ho'
    exact (Prod.mk.inj (Except.ok.inj (hurl'.symm.trans hurl))).1
  exact ⟨i, current, resp, hsame ▸ hrequest, hbody⟩

end Run

end DnsBuffer
