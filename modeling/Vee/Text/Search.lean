import Mathlib.Order.Bounds.Defs
import Vee.Text.Pieces

/-!
# Searching for a pattern up to an equivalence

Two searches for the first occurrence of a pattern: `find` compares characters,
`search` takes the comparison as an argument and returns the end of the text when
there is no match. Up to a function on the characters, such as a change of case,
the second is the first after that function has been applied to both strings.
-/

namespace Text

universe u v

variable {α : Type u} {β : Type v} {s p : List α} {i : Nat}

/-- The pattern occurs at a position. -/
def OccursAt (p s : List α) (i : Nat) : Prop := p <+: s.drop i

/-- The position of the first occurrence. -/
def FirstAt (p s : List α) (i : Nat) : Prop := IsLeast {j | OccursAt p s j} i

theorem FirstAt.unique {i j : Nat} (h : FirstAt p s i) (h' : FirstAt p s j) : i = j :=
  Nat.le_antisymm (h.2 h'.1) (h'.2 h.1)

theorem occursAt_zero : OccursAt p s 0 ↔ p <+: s := by
  rw [OccursAt, List.drop_zero]

theorem occursAt_cons_succ {c : α} : OccursAt p (c :: s) (i + 1) ↔ OccursAt p s i := by
  rw [OccursAt, OccursAt, List.drop_succ_cons]

/-- An occurrence of a pattern that is not empty begins inside the text. -/
theorem OccursAt.lt_length (h : OccursAt p s i) (nonempty : p ≠ []) : i < s.length := by
  by_contra outside
  rw [OccursAt, List.drop_eq_nil_of_le (Nat.not_lt.mp outside)] at h
  exact nonempty (List.prefix_nil.mp h)

/-- One character further on, when there is no occurrence in front. -/
theorem firstAt_cons_succ {c : α} (behind : ¬ p <+: c :: s) :
    FirstAt p (c :: s) (i + 1) ↔ FirstAt p s i := by
  constructor
  · rintro ⟨here, least⟩
    refine ⟨occursAt_cons_succ.mp here, ?_⟩
    intro j occurs
    have bound := least (occursAt_cons_succ.mpr occurs)
    omega
  · rintro ⟨here, least⟩
    refine ⟨occursAt_cons_succ.mpr here, ?_⟩
    intro j occurs
    cases j with
    | zero => exact absurd (occursAt_zero.mp occurs) behind
    | succ j =>
        have bound := least (occursAt_cons_succ.mp occurs)
        omega

theorem firstAt_zero_iff : FirstAt p s 0 ↔ p <+: s := by
  constructor
  · intro h
    exact occursAt_zero.mp h.1
  · intro h
    exact ⟨occursAt_zero.mpr h, fun _ _ => Nat.zero_le _⟩

section Find

variable [DecidableEq α]

/-- `find` returns the position of the first occurrence. -/
theorem find_eq_some_iff : find p s = some i ↔ FirstAt p s i := by
  induction s generalizing i with
  | nil =>
      simp only [find]
      split
      · rename_i empty
        subst empty
        have first : FirstAt ([] : List α) [] 0 := firstAt_zero_iff.mpr List.nil_prefix
        constructor
        · intro same
          obtain rfl := Option.some.inj same
          exact first
        · intro h
          rw [h.unique first]
      · rename_i nonempty
        constructor
        · intro none
          cases none
        · intro h
          exact absurd (h.1.lt_length nonempty) (Nat.not_lt_zero i)
  | cons c s ih =>
      simp only [find]
      split
      · rename_i here
        have first := firstAt_zero_iff.mpr here
        constructor
        · intro same
          obtain rfl := Option.some.inj same
          exact first
        · intro h
          rw [h.unique first]
      · rename_i behind
        cases i with
        | zero => simp [firstAt_zero_iff, behind]
        | succ i =>
            rw [firstAt_cons_succ behind, ← ih]
            simp

theorem find_eq_none_iff : find p s = none ↔ ∀ i, ¬ OccursAt p s i := by
  constructor
  · intro none i occurs
    have missing : ¬ p <:+: s := by
      rw [← find_isSome_iff, none]
      exact Bool.false_ne_true
    exact missing (occurs.isInfix.trans (List.drop_suffix i s).isInfix)
  · intro nowhere
    cases found : find p s with
    | none => rfl
    | some i => exact absurd (find_eq_some_iff.mp found).1 (nowhere i)

end Find

/-- The text begins with the pattern up to `eq`. -/
def beginsWith (eq : α → α → Bool) : List α → List α → Bool
  | _, [] => true
  | [], _ :: _ => false
  | c :: s, d :: p => eq c d && beginsWith eq s p

/-- `std::search`, as an offset: the first match up to `eq`, or the end of the text. -/
def search (eq : α → α → Bool) : List α → List α → Nat
  | [], _ => 0
  | c :: s, p => if beginsWith eq (c :: s) p then 0 else search eq s p + 1

variable [DecidableEq β] (f : α → β)

theorem beginsWith_iff :
    beginsWith (fun c d => decide (f c = f d)) s p = true ↔ p.map f <+: s.map f := by
  induction p generalizing s with
  | nil => simp [beginsWith]
  | cons d p ih =>
      cases s with
      | nil => simp [beginsWith]
      | cons c s =>
          simp only [beginsWith, Bool.and_eq_true, decide_eq_true_eq, ih, List.map_cons,
            List.cons_prefix_cons]
          exact and_congr_left' eq_comm

/-- A search up to `f` is a search among the values of `f`. -/
theorem search_eq_find (nonempty : p ≠ []) :
    search (fun c d => decide (f c = f d)) s p = (find (p.map f) (s.map f)).getD s.length := by
  induction s with
  | nil => simp [search, find, nonempty]
  | cons c s ih =>
      simp only [search, beginsWith_iff, List.map_cons, find]
      split
      · rfl
      · rw [ih]
        cases find (p.map f) (s.map f) <;> rfl

end Text
