import Mathlib.Data.List.DropRight
import Mathlib.Data.List.Infix
import Mathlib.Data.List.TakeWhile

/-!
# Pieces of text

Searching and cutting lists of characters of any type: the first occurrence of a
pattern, the non-empty pieces between separators, and what is left when a set of
characters is stripped from both ends. Last, records that are filled by a
sequence of assignments, of which the last one to a key counts.
-/

namespace Text

universe u v w

section Search

variable {α : Type u} {p s a b : List α} {c : α}

/-- The position of the first occurrence of a pattern. -/
def find [DecidableEq α] (p : List α) : List α → Option Nat
  | [] => if p = [] then some 0 else none
  | c :: s => if p <+: c :: s then some 0 else (find p s).map (· + 1)

theorem find_isSome_iff [DecidableEq α] : (find p s).isSome ↔ p <:+: s := by
  induction s with
  | nil =>
      rw [List.infix_nil]
      simp only [find]
      split <;> simp_all
  | cons c s ih =>
      rw [List.infix_cons_iff]
      simp only [find]
      split
      · rename_i here
        exact ⟨fun _ => .inl here, fun _ => rfl⟩
      · rename_i elsewhere
        rw [Option.isSome_map, ih]
        exact ⟨.inr, fun found => found.resolve_left elsewhere⟩

/-- An occurrence that avoids a character lies on one side of it. -/
theorem infix_append_cons_iff (avoids : c ∉ p) : p <:+: a ++ c :: b ↔ p <:+: a ∨ p <:+: b := by
  rw [List.infix_append_iff, List.infix_cons_iff]
  constructor
  · rintro (left | (front | right) | ⟨l₁, l₂, rfl, suffix, front⟩)
    · exact .inl left
    · cases p with
      | nil => exact .inl List.nil_infix
      | cons x p =>
          obtain ⟨rfl, _⟩ := List.cons_prefix_cons.mp front
          exact absurd List.mem_cons_self avoids
    · exact .inr right
    · cases l₂ with
      | nil =>
          rw [List.append_nil]
          exact .inl suffix.isInfix
      | cons x l₂ =>
          obtain ⟨rfl, _⟩ := List.cons_prefix_cons.mp front
          exact absurd (List.mem_append_right _ List.mem_cons_self) avoids
  · rintro (left | right)
    · exact .inl left
    · exact .inr (.inl (.inr right))

/-- The first entry of a list that passes a test, as a chain of conditions. -/
theorem ite_find (test : α → Bool) (x : α) (xs : List α) :
    (if test x = true then some x else xs.find? test) = (x :: xs).find? test := by
  rw [List.find?_cons]
  cases test x <;> rfl

theorem find?_eq_some_iff [DecidableEq α] {test : α → Bool} {x : α} {xs : List α}
    (listed : x ∈ xs) :
    xs.find? test = some x ↔ test x = true ∧ ∀ y ∈ xs.takeWhile (· ≠ x), test y = false := by
  induction xs with
  | nil => cases listed
  | cons y xs ih =>
      rw [← ite_find]
      by_cases same : y = x
      · subst same
        rw [List.takeWhile_cons_of_neg (by simp)]
        constructor
        · intro found
          refine ⟨?_, nofun⟩
          split at found
          · assumption
          · exact List.find?_some found
        · rintro ⟨passes, _⟩
          exact if_pos passes
      · have later := ih ((List.mem_cons.mp listed).resolve_left (Ne.symm same))
        rw [List.takeWhile_cons_of_pos (by simpa using same), List.forall_mem_cons]
        cases tested : test y with
        | true => simp [same]
        | false =>
            rw [if_neg Bool.false_ne_true, later]
            exact and_congr_right fun _ => ⟨fun others => ⟨rfl, others⟩, And.right⟩

end Search

section Pieces

variable {α : Type u} {sep : α → Bool} {line rest : List α}

/-- The non-empty pieces between separators. -/
def pieces (sep : α → Bool) (s : List α) : List (List α) :=
  (s.splitOnP sep).filter fun piece => !piece.isEmpty

theorem pieces_append_cons (s rest : List α) {c : α} (cut : sep c = true) :
    pieces sep (s ++ c :: rest) = pieces sep s ++ pieces sep rest := by
  simp only [pieces]
  rw [List.splitOnP_append_cons s rest cut, List.filter_append]

theorem pieces_nil : pieces sep [] = [] := rfl

theorem splitOnP_head_isPrefix {s first : List α} {others : List (List α)}
    (cut : s.splitOnP sep = first :: others) : first <+: s := by
  induction s generalizing first others with
  | nil =>
      rw [List.splitOnP_nil] at cut
      obtain ⟨rfl, _⟩ := List.cons.inj cut
      exact List.prefix_rfl
  | cons c s ih =>
      rw [List.splitOnP_cons_eq_if_modifyHead] at cut
      split at cut
      · obtain ⟨rfl, _⟩ := List.cons.inj cut
        exact List.nil_prefix
      · cases behind : s.splitOnP sep with
        | nil => exact absurd behind (List.splitOnP_ne_nil _ _)
        | cons piece pieces =>
            rw [behind, List.modifyHead_cons] at cut
            obtain ⟨rfl, _⟩ := List.cons.inj cut
            exact List.cons_prefix_cons.mpr ⟨rfl, ih behind⟩

/-- A piece is a part of the text. -/
theorem infix_of_mem_pieces {s piece : List α} (listed : piece ∈ pieces sep s) : piece <:+: s := by
  replace listed : piece ∈ s.splitOnP sep := List.mem_of_mem_filter listed
  induction s with
  | nil =>
      rw [List.splitOnP_nil, List.mem_singleton] at listed
      exact listed ▸ List.infix_rfl
  | cons c s ih =>
      cases cut : (c :: s).splitOnP sep with
      | nil => exact absurd cut (List.splitOnP_ne_nil _ _)
      | cons first others =>
          rw [cut] at listed
          obtain rfl | later := List.mem_cons.mp listed
          · exact (splitOnP_head_isPrefix cut).isInfix
          · -- the pieces behind the first one are pieces of the rest
            have behind : piece ∈ s.splitOnP sep := by
              rw [List.splitOnP_cons_eq_if_modifyHead] at cut
              split at cut
              · exact (List.cons.inj cut).2 ▸ later
              · cases rest : s.splitOnP sep with
                | nil => exact absurd rest (List.splitOnP_ne_nil _ _)
                | cons piece' pieces' =>
                    rw [rest, List.modifyHead_cons] at cut
                    exact List.mem_cons_of_mem _ ((List.cons.inj cut).2 ▸ later)
            exact (ih behind).trans (List.suffix_cons c s).isInfix

/-- A line is not empty and holds no separator. -/
structure Line (sep : α → Bool) (line : List α) : Prop where
  nonempty : line ≠ []
  whole : ∀ c ∈ line, sep c = false

instance (line : List α) : Decidable (Line sep line) :=
  decidable_of_iff (line.isEmpty = false ∧ ∀ c ∈ line, sep c = false)
    ⟨fun h => ⟨List.isEmpty_eq_false_iff.mp h.1, h.2⟩,
      fun h => ⟨List.isEmpty_eq_false_iff.mpr h.nonempty, h.whole⟩⟩

theorem Line.pieces (h : Line sep line) : pieces sep line = [line] := by
  simp only [Text.pieces]
  rw [List.splitOnP_eq_singleton h.whole]
  cases line with
  | nil => exact absurd rfl h.nonempty
  | cons c line => rfl

/-- Lines that are each ended by two separators are the pieces. -/
theorem pieces_lines {lines : List (List α)} {c d : α} (cut : sep c = true) (cut' : sep d = true)
    (all : ∀ line ∈ lines, Line sep line) :
    pieces sep ((lines.map (· ++ [c, d])).flatten ++ rest) = lines ++ pieces sep rest := by
  induction lines with
  | nil => rfl
  | cons line lines ih =>
      have first := all line List.mem_cons_self
      have others := ih fun other member => all other (List.mem_cons_of_mem line member)
      rw [List.map_cons, List.flatten_cons, List.append_assoc, List.append_assoc]
      change pieces sep (line ++ c :: ([] ++ d :: ((lines.map (· ++ [c, d])).flatten ++ rest))) = _
      rw [pieces_append_cons line _ cut, pieces_append_cons [] _ cut', first.pieces, pieces_nil,
        others]
      rfl

end Pieces

section Strip

variable {α : Type u} {blank : α → Bool} {s : List α}

/-- Without leading characters of a set. Nothing is removed from a text of only these. -/
def stripLeft (blank : α → Bool) (s : List α) : List α :=
  if s.all blank then s else s.dropWhile blank

/-- Without trailing characters of a set, in the same way. -/
def stripRight (blank : α → Bool) (s : List α) : List α :=
  (stripLeft blank s.reverse).reverse

theorem stripLeft_suffix : stripLeft blank s <:+ s := by
  simp only [stripLeft]
  split
  · exact List.suffix_rfl
  · exact List.dropWhile_suffix blank

theorem stripRight_prefix : stripRight blank s <+: s := by
  rw [← List.reverse_suffix, stripRight, List.reverse_reverse]
  exact stripLeft_suffix

theorem stripLeft_of_all (all : ∀ c ∈ s, blank c = true) : stripLeft blank s = s :=
  if_pos (List.all_eq_true.mpr all)

theorem stripRight_of_all (all : ∀ c ∈ s, blank c = true) : stripRight blank s = s := by
  simp only [stripRight]
  rw [stripLeft_of_all, List.reverse_reverse]
  intro c member
  exact all c (List.mem_reverse.mp member)

/-- With another character, the longest prefix of these is removed. -/
theorem stripLeft_of_solid (solid : ∃ c ∈ s, blank c = false) :
    stripLeft blank s = s.dropWhile blank := by
  obtain ⟨c, member, other⟩ := solid
  apply if_neg
  intro all
  rw [List.all_eq_true.mp all c member] at other
  cases other

/-- In the same way, the longest suffix. -/
theorem stripRight_of_solid (solid : ∃ c ∈ s, blank c = false) :
    stripRight blank s = s.rdropWhile blank := by
  obtain ⟨c, member, other⟩ := solid
  simp only [stripRight, List.rdropWhile]
  rw [stripLeft_of_solid ⟨c, List.mem_reverse.mpr member, other⟩]

theorem stripLeft_eq_self (solid : ∀ c ∈ s.head?, blank c = false) : stripLeft blank s = s := by
  cases s with
  | nil => rfl
  | cons c s =>
      have first : blank c = false := solid c rfl
      simp only [stripLeft, List.all_cons, first, Bool.false_and, Bool.false_eq_true, if_false]
      exact List.dropWhile_cons_of_neg (by simp [first])

theorem stripRight_eq_self (solid : ∀ c ∈ s.getLast?, blank c = false) :
    stripRight blank s = s := by
  simp only [stripRight]
  rw [stripLeft_eq_self, List.reverse_reverse]
  rwa [List.head?_reverse]

/-- `t` is what remains of `s` without its longest prefix and its longest suffix of
characters of a set. -/
structure Stripped (blank : α → Bool) (s t : List α) : Prop where
  parts : ∃ front back, s = front ++ (t ++ back) ∧ (∀ c ∈ front, blank c = true) ∧
    ∀ c ∈ back, blank c = true
  first : ∀ c ∈ t.head?, blank c = false
  last : ∀ c ∈ t.getLast?, blank c = false

theorem stripped_dropWhile (blank : α → Bool) (s : List α) :
    Stripped blank s ((s.rdropWhile blank).dropWhile blank) where
  parts := by
    refine ⟨(s.rdropWhile blank).takeWhile blank, s.rtakeWhile blank, ?_, ?_, ?_⟩
    · rw [← List.append_assoc, List.takeWhile_append_dropWhile, List.rdropWhile_append_rtakeWhile]
    · exact fun c member => List.mem_takeWhile_imp member
    · exact fun c member => List.mem_rtakeWhile_imp member
  first := by
    intro c first
    have solid := List.head?_dropWhile_not blank (s.rdropWhile blank)
    rw [first] at solid
    simpa using solid
  last := by
    intro c last
    -- the last character is that of the list before the prefix is removed
    have whole : (s.rdropWhile blank).getLast? = some c := by
      rw [← List.takeWhile_append_dropWhile (p := blank) (l := s.rdropWhile blank),
        List.getLast?_append, last]
      rfl
    obtain ⟨nonempty, rfl⟩ := List.mem_getLast?_eq_getLast whole
    exact Bool.eq_false_iff.mpr (List.rdropWhile_last_not blank s nonempty)

/-- The prefix may be removed first as well. -/
theorem Stripped.eq {t : List α} (h : Stripped blank s t) :
    t = (s.dropWhile blank).rdropWhile blank := by
  obtain ⟨front, back, rfl, blank_front, blank_back⟩ := h.parts
  rw [List.dropWhile_append_of_pos blank_front]
  cases t with
  | nil =>
      rw [List.nil_append, List.dropWhile_eq_nil_iff.mpr blank_back]
      rfl
  | cons c t =>
      have first : blank c = false := h.first c rfl
      have removed : (c :: t).reverse.dropWhile blank = (c :: t).reverse := by
        cases reversed : (c :: t).reverse with
        | nil => rfl
        | cons d others =>
            have last : (c :: t).getLast? = some d := by
              rw [← List.head?_reverse, reversed]
              rfl
            exact List.dropWhile_cons_of_neg (by simp [h.last d last])
      rw [List.cons_append, List.dropWhile_cons_of_neg (by simp [first]), ← List.cons_append]
      simp only [List.rdropWhile]
      rw [List.reverse_append, List.dropWhile_append_of_pos fun d member =>
        blank_back d (List.mem_reverse.mp member), removed, List.reverse_reverse]

/-- There is only one such remainder. -/
theorem Stripped.unique {t t' : List α} (h : Stripped blank s t) (h' : Stripped blank s t') :
    t = t' :=
  h.eq.trans h'.eq.symm

/-- Stripping both ends of a text with another character. -/
theorem stripped_strip (solid : ∃ c ∈ s, blank c = false) :
    Stripped blank s (stripLeft blank (stripRight blank s)) := by
  have inside : ∃ c ∈ s.rdropWhile blank, blank c = false := by
    obtain ⟨c, member, other⟩ := solid
    rw [← List.rdropWhile_append_rtakeWhile (p := blank) (l := s)] at member
    obtain kept | removed := List.mem_append.mp member
    · exact ⟨c, kept, other⟩
    · rw [List.mem_rtakeWhile_imp removed] at other
      cases other
  rw [stripRight_of_solid solid, stripLeft_of_solid inside]
  exact stripped_dropWhile blank s

end Strip

section Assignments

variable {κ : Type u} {β : Type v} {σ : Type w} [DecidableEq κ] {k : κ} {x : β}

/-- The value that a sequence of assignments leaves under a key. -/
def lastWrite (k : κ) : List (κ × β) → Option β
  | [] => none
  | (k', x) :: writes => (lastWrite k writes).or (if k' = k then some x else none)

theorem lastWrite_append (writes writes' : List (κ × β)) :
    lastWrite k (writes ++ writes') = (lastWrite k writes').or (lastWrite k writes) := by
  induction writes with
  | nil => exact (Option.or_none).symm
  | cons write writes ih =>
      obtain ⟨k', x⟩ := write
      simp only [List.cons_append, lastWrite, ih, Option.or_assoc]

/-- It is one of the values assigned to the key. -/
theorem mem_of_lastWrite {writes : List (κ × β)} (h : lastWrite k writes = some x) :
    (k, x) ∈ writes := by
  induction writes with
  | nil => cases h
  | cons write writes ih =>
      obtain ⟨k', y⟩ := write
      simp only [lastWrite] at h
      obtain later | ⟨_, now⟩ := Option.or_eq_some_iff.mp h
      · exact List.mem_cons_of_mem _ (ih later)
      · split at now
        · rename_i same
          cases now
          rw [same]
          exact List.mem_cons_self
        · cases now

/-- Assignments of values that depend on the key alone. -/
theorem lastWrite_map {keys : List κ} (f : κ → β) (listed : k ∈ keys) :
    lastWrite k (keys.map fun k => (k, f k)) = some (f k) := by
  induction keys with
  | nil => cases listed
  | cons k' keys ih =>
      simp only [List.map_cons, lastWrite]
      cases later : lastWrite k (keys.map fun k => (k, f k)) with
      | some x =>
          obtain ⟨_, _, same⟩ := List.mem_map.mp (mem_of_lastWrite later)
          cases same
          rfl
      | none =>
          obtain rfl | elsewhere := List.mem_cons.mp listed
          · exact if_pos rfl
          · rw [ih elsewhere] at later
            cases later

/-- A record after a sequence of assignments. -/
theorem get_foldl {get : σ → κ → β} {set : σ → κ → β → σ}
    (get_set : ∀ s k' x k, get (set s k' x) k = if k' = k then x else get s k)
    (writes : List (κ × β)) (s : σ) :
    get (writes.foldl (fun s write => set s write.1 write.2) s) k =
      (lastWrite k writes).getD (get s k) := by
  induction writes generalizing s with
  | nil => rfl
  | cons write writes ih =>
      obtain ⟨k', x⟩ := write
      rw [List.foldl_cons, ih, get_set]
      simp only [lastWrite]
      cases lastWrite k writes with
      | some y => rfl
      | none => split <;> rfl

end Assignments

end Text
