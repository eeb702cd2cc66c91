import Mathlib.Data.List.Infix

/-!
# Wildcard patterns

A pattern is a list of tokens: a character, any one character, or any number of characters.
Characters are compared by a key, such as their lower case. A pattern of two parts accepts the texts
that are cut into two accepted parts (`accepts_append`), and from that a text contains a word
exactly if it is accepted by the word between two wildcards (`accepts_between_many`).
-/

namespace Glob

variable {α β : Type*}

/-- One token of a pattern. -/
inductive Token (α : Type*)
  | literal (c : α)
  | any
  | many
deriving DecidableEq

open Token

variable [DecidableEq β] (key : α → β)

/-- The pattern matches the whole text. -/
def accepts : List (Token α) → List α → Bool
  | [], text => text.isEmpty
  | many :: rest, text => text.tails.any (accepts rest)
  | any :: rest, text =>
    match text with
    | [] => false
    | _ :: text => accepts rest text
  | literal c :: rest, text =>
    match text with
    | [] => false
    | d :: text => key c = key d && accepts rest text

/-! ### The tokens -/

@[simp]
theorem accepts_nil {text : List α} : accepts key [] text ↔ text = [] := by
  rw [accepts, List.isEmpty_iff]

theorem accepts_many_cons {rest : List (Token α)} {text : List α} :
    accepts key (many :: rest) text ↔ ∃ before after, text = before ++ after ∧
      accepts key rest after := by
  rw [accepts, List.any_eq_true]
  constructor
  · rintro ⟨after, hafter, haccepts⟩
    obtain ⟨before, rfl⟩ := (List.mem_tails _ _).1 hafter
    exact ⟨before, after, rfl, haccepts⟩
  · rintro ⟨before, after, rfl, haccepts⟩
    exact ⟨after, (List.mem_tails _ _).2 (List.suffix_append before after), haccepts⟩

theorem accepts_any_cons {rest : List (Token α)} {text : List α} :
    accepts key (any :: rest) text ↔ ∃ d after, text = d :: after ∧ accepts key rest after := by
  cases text with
  | nil => simp [accepts]
  | cons d text => simp [accepts]

theorem accepts_literal_cons {c : α} {rest : List (Token α)} {text : List α} :
    accepts key (literal c :: rest) text ↔ ∃ d after, text = d :: after ∧ key c = key d ∧
      accepts key rest after := by
  cases text with
  | nil => simp [accepts]
  | cons d text => simp [accepts]

/-! ### Parts of a pattern -/

/-- A pattern of two parts accepts what is cut into two accepted parts. -/
theorem accepts_append {first second : List (Token α)} {text : List α} :
    accepts key (first ++ second) text ↔ ∃ before after, text = before ++ after ∧
      accepts key first before ∧ accepts key second after := by
  induction first generalizing text with
  | nil => simp
  | cons token first ih =>
    cases token with
    | literal c =>
      simp only [List.cons_append, accepts_literal_cons, ih]
      constructor
      · rintro ⟨d, _, rfl, hkey, before, after, rfl, hfirst, hsecond⟩
        exact ⟨d :: before, after, rfl, ⟨d, before, rfl, hkey, hfirst⟩, hsecond⟩
      · rintro ⟨_, after, rfl, ⟨d, before, rfl, hkey, hfirst⟩, hsecond⟩
        exact ⟨d, before ++ after, rfl, hkey, before, after, rfl, hfirst, hsecond⟩
    | any =>
      simp only [List.cons_append, accepts_any_cons, ih]
      constructor
      · rintro ⟨d, _, rfl, before, after, rfl, hfirst, hsecond⟩
        exact ⟨d :: before, after, rfl, ⟨d, before, rfl, hfirst⟩, hsecond⟩
      · rintro ⟨_, after, rfl, ⟨d, before, rfl, hfirst⟩, hsecond⟩
        exact ⟨d, before ++ after, rfl, before, after, rfl, hfirst, hsecond⟩
    | many =>
      simp only [List.cons_append, accepts_many_cons, ih]
      constructor
      · rintro ⟨skipped, _, rfl, before, after, rfl, hfirst, hsecond⟩
        exact ⟨skipped ++ before, after, (List.append_assoc ..).symm,
          ⟨skipped, before, rfl, hfirst⟩, hsecond⟩
      · rintro ⟨_, after, rfl, ⟨skipped, before, rfl, hfirst⟩, hsecond⟩
        exact ⟨skipped, before ++ after, List.append_assoc .., before, after, rfl, hfirst,
          hsecond⟩

/-- A pattern without wildcards accepts what has the same keys. -/
theorem accepts_literals {word text : List α} :
    accepts key (word.map literal) text ↔ text.map key = word.map key := by
  induction word generalizing text with
  | nil => simp
  | cons c word ih =>
    rw [List.map_cons, accepts_literal_cons]
    constructor
    · rintro ⟨d, after, rfl, hkey, haccepts⟩
      rw [List.map_cons, List.map_cons, hkey, ih.1 haccepts]
    · intro h
      obtain ⟨d, after, rfl, hkey, hafter⟩ := List.map_eq_cons_iff.1 h
      exact ⟨d, after, rfl, hkey.symm, ih.2 hafter⟩

/-- A wildcard alone accepts everything. -/
theorem accepts_many (text : List α) : accepts key [many] text :=
  (accepts_many_cons key).2 ⟨text, [], (List.append_nil text).symm, (accepts_nil key).2 rfl⟩

/-- **A word between two wildcards** accepts the texts that contain it. -/
theorem accepts_between_many {word text : List α} :
    accepts key (many :: (word.map literal ++ [many])) text ↔
      word.map key <:+: text.map key := by
  simp only [accepts_many_cons, accepts_append, accepts_literals, accepts_many, and_true,
    List.infix_map_iff]
  constructor
  · rintro ⟨before, _, rfl, found, after, rfl, hfound⟩
    exact ⟨found, ⟨before, after, List.append_assoc ..⟩, hfound.symm⟩
  · rintro ⟨found, ⟨before, after, rfl⟩, hfound⟩
    exact ⟨before, found ++ after, List.append_assoc .., found, after, rfl, hfound.symm⟩

end Glob
