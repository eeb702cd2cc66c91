import DnsBuffer.Dns.Address
import Mathlib.Data.Finset.Basic
import Mathlib.Data.Finset.Card

/-!
# The ad-blocking filter

Rule text to rule set (`parseRules`), rule sets in force (`Filter`), the verdict on a name
(`Filter.isBlocked`) and the answer a blocked query gets (`Filter.blockResponse`).

The sets of domains are finite sets, as the `HashSet`s of the source are: order and repetition of
rules cannot be observed. The scanning loops of the source cut a name at its dots from the left;
they visit exactly the candidates `name :: afterDots name`, in that order, and stop at the first
that matches.
-/

namespace DnsBuffer

/-! ### Rules -/

/-- `valid_domain`: not empty, with a dot, and free of the characters of other rule forms. -/
def validDomain (s : Text) : Bool :=
  !s.isEmpty && !s.any (fun c ↦ c ∈ ['/', '*', '$', '|', '^', ' ', '\t']) && s.contains '.'

/-- A rule set: blocked domains and exception domains. -/
@[ext] structure RuleSet where
  blocked : Finset Text
  exceptions : Finset Text
deriving DecidableEq

namespace RuleSet

/-- `RuleSet::default`. -/
def empty : RuleSet := ⟨∅, ∅⟩

/-- `RuleSet::merge`. -/
def merge (r r' : RuleSet) : RuleSet := ⟨r.blocked ∪ r'.blocked, r.exceptions ∪ r'.exceptions⟩

/-- `RuleSet::len`. -/
def len (r : RuleSet) : ℕ × ℕ := (r.blocked.card, r.exceptions.card)

end RuleSet

/-- What one line of a rule file contributes. -/
inductive Rule
  | block (domain : Text)
  | exception (domain : Text)
deriving DecidableEq

variable [Lowercase]

/-- A rule for a domain, if the domain is valid once normalized. -/
def ruleFor (make : Text → Rule) (domain : Text) : Option Rule :=
  if validDomain (normalize domain) then some (make (normalize domain)) else none

/-- The part of an adblock rule before its first `^` or `$`. -/
def adblockDomain (rest : Text) : Text := rest.takeWhile fun c ↦ c ≠ '^' ∧ c ≠ '$'

/-- One line of a rule file: comments, `@@||` exceptions, `||` blocks, hosts syntax, plain domains;
everything else contributes nothing. -/
def parseLine (raw : Text) : Option Rule :=
  let line := raw.trim
  if line = [] ∨ line.head? = some '!' ∨ line.head? = some '#' then none
  else match line.dropPrefix? ['@', '@', '|', '|'] with
  | some rest => ruleFor .exception (adblockDomain rest)
  | none =>
    match line.dropPrefix? ['|', '|'] with
    | some rest => ruleFor .block (adblockDomain rest)
    | none =>
      -- hosts syntax: an inline `#` comment truncates the line
      match Text.splitWhitespace (Text.trim (line.takeWhile fun c ↦ c ≠ '#')) with
      | [] => none
      | [first] => ruleFor .block first
      | first :: second :: _ =>
        if (IpAddr.parse first).isSome then ruleFor .block second else none

/-- Add one rule to a set. -/
def RuleSet.add (r : RuleSet) : Rule → RuleSet
  | .block domain => { r with blocked := insert domain r.blocked }
  | .exception domain => { r with exceptions := insert domain r.exceptions }

/-- `parse_rules`. -/
def parseRules (text : Text) : RuleSet :=
  (Text.lines text).foldl (fun set raw ↦ ((parseLine raw).map set.add).getD set) RuleSet.empty

/-! ### The filter -/

/-- The filter: the rule set in force and the configured exemptions. -/
structure Filter where
  rules : RuleSet
  allowlist : Finset Text
deriving DecidableEq

namespace Filter

/-- `Filter::new`. -/
def new (allowlist : List Text) : Filter := ⟨RuleSet.empty, (allowlist.map normalize).toFinset⟩

/-- `Filter::store`. -/
def store (f : Filter) (rules : RuleSet) : Filter := { f with rules := rules }

/-- `Filter::is_blocked`: exemptions at every level first, then blocks at every level. -/
def isBlocked (f : Filter) (name : Text) : Bool :=
  let name := normalize name
  let candidates := name :: afterDots name
  if candidates.any fun s ↦ s ∈ f.allowlist ∨ s ∈ f.rules.exceptions then false
  else candidates.any fun s ↦ s ∈ f.rules.blocked

end Filter

/-- TTL of block answers. -/
def blockTtl : UInt32 := 300

/-- `Filter::block_response`: `0.0.0.0` for A, `::` for AAAA, an empty answer otherwise. -/
def blockResponse (query : Message) : Message :=
  let resp := query.replyTo .noError
  match query.queries.head? with
  | none => resp
  | some q =>
    { resp with
      queries := [q]
      answers :=
        if q.queryType = .A then [⟨q.name, blockTtl, .a 0⟩]
        else if q.queryType = .AAAA then [⟨q.name, blockTtl, .aaaa 0⟩]
        else [] }

end DnsBuffer
