import Mathlib.Data.List.DropRight

/-!
# Authorities

How the generic syntax splits `scheme://userinfo@host:port/path?query#fragment`: the authority ends
in front of the first slash, question mark or number sign; the user information ends at an `@`; a
host in brackets ends with its closing bracket and any other host in front of a colon, behind which
the port stands.

A host and what is put behind it are split again where the appended text has no `@`
(`host_append_colon`); where it has one, what stands behind its last `@` is split instead
(`host_append_of_at_mem`).
-/

namespace Authority

/-! ### Splitting -/

/-- The characters an authority ends in front of. -/
def IsEnd (c : Char) : Prop := c = '/' ∨ c = '?' ∨ c = '#'

instance : DecidablePred IsEnd := fun _ ↦ inferInstanceAs (Decidable (_ ∨ _ ∨ _))

/-- The scheme and what stands behind `://`. -/
def splitScheme (s : List Char) : Option (List Char × List Char) :=
  match s.dropWhile fun c ↦ c ≠ ':' ∧ ¬IsEnd c with
  | ':' :: '/' :: '/' :: rest => some (s.takeWhile fun c ↦ c ≠ ':' ∧ ¬IsEnd c, rest)
  | _ => none

/-- The authority at the front of a text. -/
def authority (s : List Char) : List Char := s.takeWhile fun c ↦ ¬IsEnd c

/-- What stands behind the last occurrence of a character, the whole text where there is none. -/
def behind (c : Char) (s : List Char) : List Char := s.rtakeWhile fun d ↦ d ≠ c

/-- The host, of a text without user information. -/
def hostOf : List Char → List Char
  | '[' :: rest => '[' :: rest.takeWhile (· ≠ ']') ++ [']']
  | s => s.takeWhile (· ≠ ':')

/-- The host of an authority. -/
def host (a : List Char) : List Char := hostOf (behind '@' a)

/-- The text of the port of an authority: what stands behind the last colon behind the host. -/
def portText (a : List Char) : Option (List Char) :=
  let rest := (behind '@' a).drop (host a).length
  if ':' ∈ rest then some (behind ':' rest) else none

/-- A bracket that opens a host is closed. -/
def Closed (a : List Char) : Prop := (behind '@' a).head? = some '[' → ']' ∈ behind '@' a

instance : DecidablePred Closed := fun _ ↦ inferInstanceAs (Decidable (_ → _))

/-! ### Behind the last occurrence -/

variable {c : Char} {s t : List Char}

theorem forall_ne_of_not_mem (h : c ∉ s) : ∀ d ∈ s, decide (d ≠ c) = true := by
  intro d hd
  refine decide_eq_true ?_
  rintro rfl
  exact h hd

theorem not_mem_behind : c ∉ behind c s := by
  intro h
  have hne := List.mem_rtakeWhile_imp h
  simp at hne

theorem behind_suffix : behind c s <:+ s := List.rtakeWhile_suffix _ _

theorem behind_of_not_mem (h : c ∉ s) : behind c s = s :=
  List.rtakeWhile_eq_self_iff.2 (forall_ne_of_not_mem h)

theorem behind_append_of_not_mem (h : c ∉ t) : behind c (s ++ t) = behind c s ++ t := by
  have hall : ∀ d ∈ t.reverse, decide (d ≠ c) = true :=
    forall_ne_of_not_mem fun hc ↦ h (List.mem_reverse.1 hc)
  rw [behind, List.rtakeWhile, List.reverse_append, List.takeWhile_append_of_pos hall,
    List.reverse_append, List.reverse_reverse]
  rfl

/-- What stands in front of an occurrence does not matter. -/
theorem behind_append_of_mem (h : c ∈ t) : behind c (s ++ t) = behind c t := by
  induction t using List.reverseRecOn with
  | nil => cases h
  | append_singleton t d ih =>
    rw [← List.append_assoc, behind, behind, List.rtakeWhile_concat, List.rtakeWhile_concat]
    split_ifs with hd
    · have hne : d ≠ c := of_decide_eq_true hd
      have ht : c ∈ t := by simpa [hne.symm] using h
      exact congrArg (· ++ [d]) (ih ht)
    · rfl

theorem behind_cons_self : behind c (c :: s) = behind c s := by
  by_cases h : c ∈ s
  · exact @behind_append_of_mem c [c] s h
  · have hnil : behind c [c] = [] := List.rtakeWhile_concat_neg _ [] c (by simp)
    have hfront : behind c ([c] ++ s) = behind c [c] ++ s := behind_append_of_not_mem h
    rw [hnil, List.nil_append] at hfront
    rw [behind_of_not_mem h]
    exact hfront

/-! ### Hosts -/

/-- A text that is split as a host: closed brackets around it, or no colon in it. -/
def IsHost (h : List Char) : Prop :=
  (∃ inner, h = '[' :: inner ++ [']'] ∧ ']' ∉ inner) ∨ (h.head? ≠ some '[' ∧ ':' ∉ h)

theorem hostOf_of_head?_ne (h : s.head? ≠ some '[') : hostOf s = s.takeWhile (· ≠ ':') := by
  rw [hostOf]
  rintro rest rfl
  exact h rfl

theorem takeWhile_ne_append_cons (h : c ∉ s) (t : List Char) :
    (s ++ c :: t).takeWhile (· ≠ c) = s := by
  rw [List.takeWhile_append_of_pos (forall_ne_of_not_mem h), List.takeWhile_cons_of_neg (by simp),
    List.append_nil]

theorem not_mem_takeWhile_ne : c ∉ s.takeWhile (· ≠ c) := by
  intro h
  have hne := List.mem_takeWhile_imp h
  simp at hne

theorem isHost_host (a : List Char) : IsHost (host a) := by
  rw [host]
  by_cases hhead : (behind '@' a).head? = some '['
  · obtain ⟨rest, hrest⟩ := List.head?_eq_some_iff.1 hhead
    rw [hrest]
    exact Or.inl ⟨_, rfl, not_mem_takeWhile_ne⟩
  · rw [hostOf_of_head?_ne hhead]
    refine Or.inr ⟨?_, not_mem_takeWhile_ne⟩
    rw [List.head?_takeWhile]
    intro h
    exact hhead (Option.filter_eq_some_iff.1 h).1

theorem mem_of_mem_host {a : List Char} (h : Closed a) (hc : c ∈ host a) : c ∈ behind '@' a := by
  rw [host] at hc
  by_cases hhead : (behind '@' a).head? = some '['
  · obtain ⟨rest, hrest⟩ := List.head?_eq_some_iff.1 hhead
    have hclosed : ']' ∈ behind '@' a := h hhead
    rw [hrest] at hc hclosed ⊢
    rcases List.mem_append.1 hc with hc | hc
    · rcases List.mem_cons.1 hc with rfl | hc
      · exact List.mem_cons_self
      · exact List.mem_cons_of_mem _ (List.takeWhile_subset _ hc)
    · rw [List.mem_singleton.1 hc]
      exact hclosed
  · rw [hostOf_of_head?_ne hhead] at hc
    exact List.takeWhile_subset _ hc

/-- A host in front of a colon is split off again. -/
theorem hostOf_append_colon {h : List Char} (hhost : IsHost h) (t : List Char) :
    hostOf (h ++ ':' :: t) = h := by
  rcases hhost with ⟨inner, rfl, hinner⟩ | ⟨hhead, hcolon⟩
  · have htext : '[' :: inner ++ [']'] ++ ':' :: t = '[' :: (inner ++ ']' :: ':' :: t) := by simp
    rw [htext, hostOf, takeWhile_ne_append_cons hinner]
  · rw [hostOf_of_head?_ne, takeWhile_ne_append_cons hcolon]
    cases h with
    | nil => simp
    | cons d h => exact hhead

/-! ### A host and what is put behind it -/

variable {h : List Char}

theorem behind_at_append_colon (hat : '@' ∉ h) (ht : '@' ∉ t) :
    behind '@' (h ++ ':' :: t) = h ++ ':' :: t := by
  refine behind_of_not_mem ?_
  simp [hat, ht]

theorem host_append_colon (hhost : IsHost h) (hat : '@' ∉ h) (ht : '@' ∉ t) :
    host (h ++ ':' :: t) = h := by
  rw [host, behind_at_append_colon hat ht, hostOf_append_colon hhost]

theorem portText_append_colon (hhost : IsHost h) (hat : '@' ∉ h) (ht : '@' ∉ t) :
    portText (h ++ ':' :: t) = some (behind ':' t) := by
  rw [portText, host_append_colon hhost hat ht, behind_at_append_colon hat ht, List.drop_left,
    if_pos List.mem_cons_self, behind_cons_self]

theorem host_append_of_at_mem (ht : '@' ∈ t) : host (s ++ t) = host t := by
  rw [host, host, behind_append_of_mem ht]

theorem portText_append_of_at_mem (ht : '@' ∈ t) : portText (s ++ t) = portText t := by
  rw [portText, portText, host_append_of_at_mem ht, behind_append_of_mem ht]

/-! ### Texts with a scheme -/

theorem splitScheme_append {scheme : List Char} (h : ∀ c ∈ scheme, c ≠ ':' ∧ ¬IsEnd c)
    (rest : List Char) :
    splitScheme (scheme ++ ':' :: '/' :: '/' :: rest) = some (scheme, rest) := by
  have hall : ∀ c ∈ scheme, decide (c ≠ ':' ∧ ¬IsEnd c) = true :=
    fun c hc ↦ decide_eq_true (h c hc)
  rw [splitScheme, List.dropWhile_append_of_pos hall, List.takeWhile_append_of_pos hall,
    List.dropWhile_cons_of_neg (by simp), List.takeWhile_cons_of_neg (by simp), List.append_nil]
  rfl

theorem authority_append (h : ∀ c ∈ s, ¬IsEnd c) (t : List Char) :
    authority (s ++ t) = s ++ authority t := by
  have hall : ∀ c ∈ s, decide (¬IsEnd c) = true := fun c hc ↦ decide_eq_true (h c hc)
  rw [authority, List.takeWhile_append_of_pos hall]
  rfl

theorem not_isEnd_of_mem_authority (h : c ∈ authority s) : ¬IsEnd c := by
  have hkept := List.mem_takeWhile_imp h
  exact of_decide_eq_true hkept

end Authority
