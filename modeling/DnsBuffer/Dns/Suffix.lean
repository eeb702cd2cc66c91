import DnsBuffer.Dns.Text

/-!
# Dot suffixes

The scanning loops cut a name at its dots from the left. What they visit are the name itself and
what follows each of its dots (`afterDots`): the texts that the name equals or ends with after a dot
(`mem_candidates_iff`), the longest first (`pairwise_afterDots`). Empty labels are labels like any
other.
-/

namespace DnsBuffer

/-- The name is the text, or ends with a dot and the text. -/
def DotSuffix (s name : Text) : Prop := name = s ∨ '.' :: s <:+ name

instance (s name : Text) : Decidable (DotSuffix s name) :=
  inferInstanceAs (Decidable (name = s ∨ '.' :: s <:+ name))

/-- `&candidate[pos + 1..]` for the first dot of the candidate. -/
def cutLabel (candidate : Text) : Option Text :=
  match candidate.dropWhile fun c ↦ c ≠ '.' with
  | [] => none
  | _ :: rest => some rest

theorem cutLabel_cons (c : Char) (rest : Text) :
    cutLabel (c :: rest) = if c = '.' then some rest else cutLabel rest := by
  rw [cutLabel, List.dropWhile_cons]
  by_cases hc : c = '.'
  · rw [if_neg (by simp [hc]), if_pos hc]
  · rw [if_pos (by simp [hc]), if_neg hc, cutLabel]

/-- The loops visit what follows the dots, one after the other. -/
theorem afterDots_eq_cutLabel (name : Text) :
    afterDots name = (cutLabel name).elim [] fun rest ↦ rest :: afterDots rest := by
  induction name with
  | nil => rfl
  | cons c name ih =>
    rw [afterDots, cutLabel_cons]
    split
    · rfl
    · exact ih

theorem length_afterDots_le (name : Text) : (afterDots name).length ≤ name.length := by
  induction name with
  | nil => exact le_rfl
  | cons c name ih =>
    rw [afterDots]
    split <;> simp only [List.length_cons] <;> omega

theorem mem_afterDots {s name : Text} : s ∈ afterDots name ↔ '.' :: s <:+ name := by
  induction name with
  | nil => simp [afterDots]
  | cons c name ih =>
    rw [afterDots, List.suffix_cons_iff, List.cons.injEq]
    split
    · rename_i hc
      rw [List.mem_cons, ih, hc, eq_self_iff_true, true_and]
    · rename_i hc
      rw [ih, eq_comm (a := '.'), or_iff_right fun h ↦ hc h.1]

/-- **What a scan visits.** -/
theorem mem_candidates_iff {s name : Text} : s ∈ name :: afterDots name ↔ DotSuffix s name := by
  rw [List.mem_cons, mem_afterDots, DotSuffix, eq_comm]

/-- The candidates get shorter and shorter. -/
theorem pairwise_afterDots (name : Text) :
    (afterDots name).Pairwise fun s t ↦ t.length < s.length := by
  induction name with
  | nil => exact List.Pairwise.nil
  | cons c name ih =>
    rw [afterDots]
    split
    · refine List.pairwise_cons.2 ⟨fun s hs ↦ ?_, ih⟩
      have hle := (mem_afterDots.1 hs).length_le
      rw [List.length_cons] at hle
      exact hle
    · exact ih

end DnsBuffer
