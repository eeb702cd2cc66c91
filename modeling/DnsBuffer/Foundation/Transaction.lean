import Mathlib.Data.List.Basic

/-!
# Sessions on a transactional store

A session is a program on a store whose failure does not undo what it has committed. It reads
(`read`), it works on a copy that replaces the store when the work succeeds (`transaction`), and it
works on a copy that is thrown away in any case (`rolledBack`).

A session is *atomic* on a store if its failure leaves the store as it was. One transaction always
is; what comes after it is the question, and `atomic_transaction_andThen` answers it for what only
reads: either the transaction changes nothing, or it fails, or nothing fails after it.

What is done inside a transaction is `Except`; when such work succeeds is the business of the first
section.
-/

/-! ### Work that may fail -/

namespace Work

universe u v

variable {ε : Type u} {α β : Type v}

theorem bind_eq_ok {x : Except ε α} {f : α → Except ε β} {b : β} :
    (x >>= f) = .ok b ↔ ∃ a, x = .ok a ∧ f a = .ok b := by
  rcases x with e | a
  · exact ⟨fun h ↦ (nomatch h), fun ⟨_, h, _⟩ ↦ (nomatch h)⟩
  · exact ⟨fun h ↦ ⟨a, rfl, h⟩, fun ⟨_, ha, h⟩ ↦ Except.ok.inj ha ▸ h⟩

theorem bind_eq_error {x : Except ε α} {f : α → Except ε β} {e : ε} :
    (x >>= f) = .error e ↔ x = .error e ∨ ∃ a, x = .ok a ∧ f a = .error e := by
  rcases x with e' | a
  · exact ⟨fun h ↦ .inl (Except.error.inj h ▸ rfl), fun
      | .inl h => Except.error.inj h ▸ rfl
      | .inr ⟨_, h, _⟩ => nomatch h⟩
  · exact ⟨fun h ↦ .inr ⟨a, rfl, h⟩, fun
      | .inl h => nomatch h
      | .inr ⟨_, ha, h⟩ => Except.ok.inj ha ▸ h⟩

theorem mapError_eq_error {ε' : Type u} {x : Except ε α} {f : ε → ε'} {e : ε'} :
    x.mapError f = .error e ↔ ∃ e', x = .error e' ∧ f e' = e := by
  rcases x with e' | a
  · exact ⟨fun h ↦ ⟨e', rfl, Except.error.inj h⟩, fun ⟨_, hx, hf⟩ ↦ Except.error.inj hx ▸ hf ▸ rfl⟩
  · exact ⟨fun h ↦ (nomatch h), fun ⟨_, hx, _⟩ ↦ (nomatch hx)⟩

theorem mapError_eq_ok {ε' : Type u} {x : Except ε α} {f : ε → ε'} {a : α} :
    x.mapError f = .ok a ↔ x = .ok a := by
  rcases x with e | a'
  · exact ⟨fun h ↦ (nomatch h), fun h ↦ (nomatch h)⟩
  · exact ⟨fun h ↦ congrArg _ (Except.ok.inj h), fun h ↦ congrArg _ (Except.ok.inj h)⟩

/-- A step without a result, and then the rest. -/
theorem unit_bind_eq_ok {β : Type} {x : Except ε Unit} {f : Unit → Except ε β} {b : β} :
    (x >>= f) = .ok b ↔ x = .ok () ∧ f () = .ok b := by
  rw [bind_eq_ok]
  exact ⟨fun ⟨_, hx, hf⟩ ↦ ⟨hx, hf⟩, fun ⟨hx, hf⟩ ↦ ⟨(), hx, hf⟩⟩

/-- Checks one after the other succeed if all do. -/
theorem forM_eq_ok {xs : List α} {f : α → Except ε Unit} :
    xs.forM f = .ok () ↔ ∀ x ∈ xs, f x = .ok () := by
  induction xs with
  | nil => exact ⟨fun _ _ h ↦ (nomatch h), fun _ ↦ rfl⟩
  | cons x xs ih =>
    rw [List.forall_mem_cons, ← ih]
    exact unit_bind_eq_ok

/-- A check that succeeds exactly under a condition. -/
theorem ite_ok_eq_ok {c : Prop} [Decidable c] {a b : α} {e : ε} :
    (if c then Except.ok a else .error e) = .ok b ↔ c ∧ a = b := by
  by_cases h : c
  · rw [if_pos h, Except.ok.injEq, and_iff_right h]
  · rw [if_neg h]
    exact ⟨fun h' ↦ (nomatch h'), fun h' ↦ absurd h'.1 h⟩

end Work

/-! ### Sessions -/

/-- A program on a store of type `D`, which it leaves changed also where it fails. -/
def Session (D ε α : Type*) := D → Except ε α × D

namespace Session

variable {D ε α β : Type*}

/-- Run one session after the other. -/
def andThen (p : Session D ε α) (q : α → Session D ε β) : Session D ε β := fun d ↦
  match p d with
  | (.ok a, d') => q a d'
  | (.error e, d') => (.error e, d')

/-- Read the store. -/
def read (f : D → Except ε α) : Session D ε α := fun d ↦ (f d, d)

/-- Work in a transaction: commit on success, roll back on failure. -/
def transaction (work : D → Except ε D) : Session D ε Unit := fun d ↦
  match work d with
  | .ok d' => (.ok (), d')
  | .error e => (.error e, d)

/-- Work in a transaction that is rolled back in any case. -/
def rolledBack (work : D → Except ε (α × D)) : Session D ε α := fun d ↦ ((work d).map Prod.fst, d)

/-- The session leaves every store as it is. -/
def ReadOnly (p : Session D ε α) : Prop := ∀ d, (p d).2 = d

/-- If the session fails on this store, then it leaves it as it was. -/
def Atomic (p : Session D ε α) (d : D) : Prop := ∀ e, (p d).1 = .error e → (p d).2 = d

theorem readOnly_read (f : D → Except ε α) : ReadOnly (read f) := fun _ ↦ rfl

theorem readOnly_rolledBack (work : D → Except ε (α × D)) : ReadOnly (rolledBack work) :=
  fun _ ↦ rfl

theorem ReadOnly.andThen {p : Session D ε α} {q : α → Session D ε β} (hp : p.ReadOnly)
    (hq : ∀ a, (q a).ReadOnly) : (p.andThen q).ReadOnly := by
  intro d
  have hd := hp d
  rw [Session.andThen]
  rcases hrun : p d with ⟨_ | a, d'⟩ <;> rw [hrun] at hd
  · exact hd
  · exact (hq a d').trans hd

theorem ReadOnly.atomic {p : Session D ε α} (hp : p.ReadOnly) (d : D) : p.Atomic d := fun _ _ ↦ hp d

/-- Reading first: the rest is atomic with every value that is read. -/
theorem atomic_read_andThen {f : D → Except ε α} {q : α → Session D ε β} {d : D} :
    ((read f).andThen q).Atomic d ↔ ∀ a, f d = .ok a → (q a).Atomic d := by
  rw [Atomic, andThen, read]
  rcases f d with e | a
  · exact ⟨fun _ _ h ↦ (nomatch h), fun _ _ _ ↦ rfl⟩
  · exact ⟨fun h _ ha ↦ Except.ok.inj ha ▸ h, fun h ↦ h a rfl⟩

/-- **A transaction and then a check**: atomic exactly if the transaction, where it succeeds,
changes nothing or has the check pass. -/
theorem atomic_transaction_andThen {work : D → Except ε D} {q : Unit → Session D ε β}
    (hq : (q ()).ReadOnly) {d : D} : ((transaction work).andThen q).Atomic d ↔
      ∀ d', work d = .ok d' → d' = d ∨ ∃ b, (q () d').1 = .ok b := by
  rw [Atomic, andThen, transaction]
  rcases work d with e | d'
  · exact ⟨fun _ _ h ↦ (nomatch h), fun _ _ _ ↦ rfl⟩
  · show (∀ e, (q () d').1 = .error e → (q () d').2 = d) ↔ _
    rw [hq d']
    refine ⟨fun h u hu ↦ ?_, fun h e he ↦ ?_⟩
    · obtain rfl := Except.ok.inj hu
      rcases hres : (q () d').1 with e | b
      · exact Or.inl (h e hres)
      · exact Or.inr ⟨b, rfl⟩
    · rcases h d' rfl with rfl | ⟨b, hb⟩
      · rfl
      · exact nomatch he.symm.trans hb

end Session
