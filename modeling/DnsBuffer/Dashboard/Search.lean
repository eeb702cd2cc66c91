import DnsBuffer.Dashboard.Queries
import DnsBuffer.Foundation.Glob

/-!
# What a search finds

The pattern of a search is the search between two wildcards, with its own wildcards escaped.
`escape_like` makes three passes over the search: backslashes first, so that the backslashes of the
later passes are not doubled again, and after that no pass touches what another one has written. The
three of them escape each character on its own (`escapeLike_eq_flatMap`), and `LIKE` reads an
escaped character as that character (`likeTokens_escapeLike_append`). What is left is a word between
two wildcards.
-/

namespace DnsBuffer

open Glob Glob.Token

/-- The text contains the value, up to the case of ASCII letters. -/
def Contains (value text : Text) : Prop := value.map Char.toLower <:+: text.map Char.toLower

instance (value text : Text) : Decidable (Contains value text) :=
  inferInstanceAs (Decidable (value.map Char.toLower <:+: text.map Char.toLower))

/-! ### Patterns -/

/-- The tokens of a pattern; none if it ends in the escape character. -/
def likeTokens : Text → Option (List (Token Char))
  | [] => some []
  | '%' :: rest => (likeTokens rest).map (many :: ·)
  | ['\\'] => none
  | '\\' :: c :: rest => (likeTokens rest).map (literal c :: ·)
  | '_' :: rest => (likeTokens rest).map (any :: ·)
  | c :: rest => (likeTokens rest).map (literal c :: ·)

theorem sameLetter_eq (c d : Char) : sameLetter c d = decide (c.toLower = d.toLower) := by
  rw [sameLetter, ← Bool.decide_or, decide_eq_decide]
  constructor
  · rintro (rfl | h)
    · rfl
    · exact h
  · exact Or.inr

/-- One character, compared. -/
theorem any_accepts_literal (o : Option (List (Token Char))) (c d : Char) (text : Text) :
    (o.any fun tokens ↦ accepts Char.toLower (literal c :: tokens) (d :: text)) =
      (sameLetter c d && o.any (accepts Char.toLower · text)) := by
  rw [sameLetter_eq]
  cases o with
  | none => simp
  | some tokens => rfl

/-- `LIKE` accepts what the tokens accept. -/
theorem like_eq (pattern text : Text) :
    like pattern text = (likeTokens pattern).any (accepts Char.toLower · text) := by
  induction pattern using likeTokens.induct generalizing text with
  | case1 => exact Bool.eq_iff_iff.2 (by simp [like, likeTokens])
  | case2 rest ih =>
    rw [like, likeTokens, funext ih, Option.any_map]
    cases likeTokens rest with
    | none => simp
    | some tokens => rfl
  | case3 => rw [like, likeTokens, Option.any_none]
  | case4 c rest ih =>
    rw [likeTokens, Option.any_map]
    cases text with
    | nil => simp [like, accepts]
    | cons d text => simp [like, ih, any_accepts_literal]
  | case5 rest ih =>
    rw [likeTokens, Option.any_map]
    cases text with
    | nil => simp [like, accepts]
    | cons d text => simp [like, accepts, ih]
  | case6 c rest hmany hlast hescape hany ih =>
    -- neither a wildcard nor the escape character
    simp only [likeTokens, Option.any_map]
    cases text with
    | nil => simp [like, accepts]
    | cons d text => simp [like, ih, any_accepts_literal]

/-! ### The escaped search -/

/-- One character of a search, escaped. -/
def escapeChar (c : Char) : Text := if c = '\\' ∨ c = '%' ∨ c = '_' then ['\\', c] else [c]

/-- **The three passes** escape each character on its own. -/
theorem escapeLike_eq_flatMap (value : Text) : escapeLike value = value.flatMap escapeChar := by
  rw [escapeLike, Text.replace, Text.replace, Text.replace, List.flatMap_assoc, List.flatMap_assoc]
  refine List.flatMap_congr fun c _ ↦ ?_
  by_cases hescape : c = '\\' ∨ c = '%' ∨ c = '_'
  · rw [escapeChar, if_pos hescape]
    obtain rfl | rfl | rfl := hescape
    · rfl
    · rfl
    · rfl
  · rw [escapeChar, if_neg hescape]
    simp only [not_or] at hescape
    simp [hescape]

/-- An escaped character is read as that character. -/
theorem likeTokens_escapeChar_append (c : Char) (rest : Text) :
    likeTokens (escapeChar c ++ rest) = (likeTokens rest).map (literal c :: ·) := by
  by_cases hescape : c = '\\' ∨ c = '%' ∨ c = '_'
  · rw [escapeChar, if_pos hescape]
    rfl
  · rw [escapeChar, if_neg hescape]
    simp only [not_or] at hescape
    simp [likeTokens, hescape]

/-- An escaped search is read as its characters. -/
theorem likeTokens_escapeLike_append (value rest : Text) :
    likeTokens (escapeLike value ++ rest) = (likeTokens rest).map (value.map literal ++ ·) := by
  rw [escapeLike_eq_flatMap]
  induction value with
  | nil => simp
  | cons c value ih =>
    rw [List.flatMap_cons, List.append_assoc, likeTokens_escapeChar_append, ih, Option.map_map]
    rfl

/-- **A search is read** as a wildcard, its own characters, and a wildcard. -/
theorem likeTokens_search (value : Text) :
    likeTokens ('%' :: (escapeLike value ++ ['%'])) =
      some (many :: (value.map literal ++ [many])) := by
  rw [likeTokens, likeTokens_escapeLike_append]
  rfl

theorem like_search_iff (value text : Text) :
    like ('%' :: (escapeLike value ++ ['%'])) text ↔ Contains value text := by
  rw [like_eq, likeTokens_search, Option.any_some]
  exact accepts_between_many Char.toLower

/-! ### The rows of a search -/

namespace Db

/-- The domain of the row or one of its addresses contains the value. -/
def Mentions (db : Db) (value : Text) (row : LogRow) : Prop :=
  Contains value row.domain ∨ ∃ x ∈ db.responseIps, x.1 = row.id ∧ Contains value x.2

instance (db : Db) (value : Text) (row : LogRow) : Decidable (db.Mentions value row) :=
  inferInstanceAs (Decidable (_ ∨ _))

theorem rowMatches_search_iff {db : Db} {value : Text} {row : LogRow} :
    db.rowMatches ('%' :: (escapeLike value ++ ['%'])) row ↔ db.Mentions value row := by
  simp only [rowMatches, Bool.or_eq_true, List.any_eq_true, decide_eq_true_eq, like_search_iff,
    Mentions]

theorem matching_search (db : Db) (value : Text) :
    db.matching (some value) = db.queryLogs.filter (db.Mentions value ·) := by
  refine List.filter_congr fun row _ ↦ ?_
  rw [Bool.eq_iff_iff, rowMatches_search_iff, decide_eq_true_iff]

end Db

/-- **A search is for what it says.** For all searches and all texts:

* the pattern of the search accepts a text exactly if the text contains the search, up to the case
  of ASCII letters;
* each character of the search, whatever it is, stands in the pattern for itself: between the two
  wildcards around it there is neither a wildcard nor an escape;
* the rows of a search are those whose domain or one of whose addresses contains it, in the order of
  the table. -/
theorem search_literal :
    (∀ value text : Text,
      like ('%' :: (escapeLike value ++ ['%'])) text ↔ Contains value text) ∧
    (∀ value : Text, likeTokens ('%' :: (escapeLike value ++ ['%'])) =
      some (many :: (value.map literal ++ [many]))) ∧
    ∀ (db : Db) (value : Text),
      db.matching (some value) = db.queryLogs.filter (db.Mentions value ·) :=
  ⟨like_search_iff, likeTokens_search, Db.matching_search⟩

/-- A percent sign is a percent sign, and a backslash before it a backslash. -/
example : like ('%' :: (escapeLike "\\%".toList ++ ['%'])) "a\\%b".toList ∧
    ¬like ('%' :: (escapeLike "\\%".toList ++ ['%'])) "a%\\b".toList := by
  decide

end DnsBuffer
