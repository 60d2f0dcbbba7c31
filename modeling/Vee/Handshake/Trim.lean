import Vee.Handshake.Lines

/-!
# What `trim` removes

`trim_left` and `trim_right` return their argument when they find no character
other than a blank. Where there is one they remove the longest prefix and the
longest suffix of blanks; a text of blanks only is returned whole, and so is the
value of a header line that has no other characters behind its colon.
-/

namespace Vee

open Endian Text HandshakeClientRequest

variable {s : List Byte}

/-- What is left is the text without its longest prefix and its longest suffix of
blanks. It neither begins nor ends with one, is empty if there is nothing else,
and is not changed by trimming it again. -/
structure TrimsExactly (s : List Byte) : Prop where
  remains : trim s = (s.dropWhile isBlank).rdropWhile isBlank
  first : ∀ c ∈ (trim s).head?, isBlank c = false
  last : ∀ c ∈ (trim s).getLast?, isBlank c = false
  empty : (∀ c ∈ s, isBlank c = true) → trim s = []
  again : trim (trim s) = trim s

/-- A text of blanks is returned as it is. -/
theorem trim_of_all (all : ∀ c ∈ s, isBlank c = true) : trim s = s := by
  simp only [trim, trimRight, trimLeft]
  rw [stripRight_of_all all, stripLeft_of_all all]

theorem stripped_trim (solid : ∃ c ∈ s, isBlank c = false) : Stripped isBlank s (trim s) :=
  stripped_strip solid

/-- A text without blanks at its ends is returned as it is. -/
theorem trim_eq_self (first : ∀ c ∈ s.head?, isBlank c = false)
    (last : ∀ c ∈ s.getLast?, isBlank c = false) : trim s = s := by
  simp only [trim, trimRight, trimLeft]
  rw [stripRight_eq_self last, stripLeft_eq_self first]

/-- In either case a second `trim` changes nothing. -/
theorem trim_trim (s : List Byte) : trim (trim s) = trim s := by
  by_cases solid : ∃ c ∈ s, isBlank c = false
  · have stripped := stripped_trim solid
    exact trim_eq_self stripped.first stripped.last
  · have all : ∀ c ∈ s, isBlank c = true := by simpa using solid
    rw [trim_of_all all, trim_of_all all]

/-- `trim` removes exactly the surrounding blanks of a text that is empty or has
another character. -/
theorem trims_exactly_iff (s : List Byte) :
    TrimsExactly s ↔ s = [] ∨ ∃ c ∈ s, isBlank c = false := by
  constructor
  · intro h
    by_contra neither
    obtain ⟨nonempty, blank⟩ := not_or.mp neither
    have all : ∀ c ∈ s, isBlank c = true := by simpa using blank
    exact nonempty ((trim_of_all all).symm.trans (h.empty all))
  · rintro (rfl | solid)
    · exact ⟨rfl, nofun, nofun, fun _ => rfl, rfl⟩
    · have stripped := stripped_trim solid
      refine ⟨stripped.eq, stripped.first, stripped.last, ?_, trim_trim s⟩
      intro all
      obtain ⟨c, member, other⟩ := solid
      rw [all c member] at other
      cases other

/-- A space alone. -/
theorem blank_not_trimmed : ¬ TrimsExactly [0x20] := by
  intro h
  have empty := h.empty (by decide)
  revert empty
  decide

end Vee
