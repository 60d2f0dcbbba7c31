import Vee.Handshake.Segments

/-!
# The request of `connect` and its answer

The request that `connect` sends for a port is well formed, so the server reads
every field of it back, finds it valid, and answers with the accept value of the
one key that `connect` ever sends. If the hash function is right on that key, it
is the value that `connect` compares with.
-/

namespace Vee

open Endian Text

section

variable {n : Nat} {c : Byte}

/-- What `sprintf` prints for `%d`. -/
theorem digit_of_mem_ascii (member : c ∈ ascii (toString n)) :
    0x30 ≤ c.toNat ∧ c.toNat ≤ 0x39 := by
  simp only [ascii, Nat.toString_eq_repr, Nat.toList_repr] at member
  obtain ⟨digit, listed, rfl⟩ := List.mem_map.mp member
  have isDigit := Nat.isDigit_of_mem_toDigits (by decide) (by decide) listed
  simp only [Char.isDigit, Bool.and_eq_true, decide_eq_true_eq] at isDigit
  obtain ⟨low, high⟩ := isDigit
  have low : 48 ≤ digit.toNat := low
  have high : digit.toNat ≤ 57 := high
  rw [BitVec.toNat_ofNat]
  omega

theorem ascii_toString_ne_nil : ascii (toString n) ≠ [] := by
  simp only [ascii, Nat.toString_eq_repr, Nat.toList_repr]
  exact List.map_eq_nil_iff.not.mpr Nat.toDigits_ne_nil

theorem ascii_toString_length {k : Nat} (positive : 0 < k) (small : n < 10 ^ k) :
    (ascii (toString n)).length ≤ k := by
  simp only [ascii, Nat.toString_eq_repr, Nat.toList_repr, List.length_map]
  exact (Nat.length_toDigits_le_iff (by decide) positive).mpr small

/-- Both sides write lines with two characters behind each, and two at the end. -/
theorem free_of_lines {lines : List (List Byte)} (free : ∀ line ∈ lines, ∀ c ∈ line, c ≠ 0) :
    ∀ c ∈ (lines.map (· ++ [0x0d, 0x0a])).flatten ++ [0x0d, 0x0a], c ≠ 0 := by
  have ending : ∀ c ∈ ([0x0d, 0x0a] : List Byte), c ≠ 0 := by decide
  intro c member
  obtain inside | last := List.mem_append.mp member
  · obtain ⟨_, ended, inside⟩ := List.mem_flatten.mp inside
    obtain ⟨line, listed, rfl⟩ := List.mem_map.mp ended
    obtain inside | last := List.mem_append.mp inside
    · exact free line listed c inside
    · exact ending c last
  · exact ending c last

end

namespace HandshakeClientRequest

variable {request : HandshakeClientRequest} {front : List Byte}

/-- No character of a value is a capital letter. -/
def Lower (value : List Byte) : Prop := ∀ c ∈ value, ¬ (0x41 ≤ c.toNat ∧ c.toNat ≤ 0x5a)

/-- Every string that `parse` looks for has a capital letter. -/
theorem Lower.not_tested (lower : Lower front) (field : Field) : ¬ field.tested <:+: front := by
  have capital : ∃ c ∈ field.tested, 0x41 ≤ c.toNat ∧ c.toNat ≤ 0x5a := by
    cases field <;> simp [Field.tested, ascii]
  obtain ⟨c, member, range⟩ := capital
  exact fun inside => lower c (inside.subset member) range

/-- Every string that `parse` looks for has a colon, or is that of the first line. -/
theorem not_tested_of_unmarked {value : List Byte} (unmarked : ∀ c ∈ value, c ≠ 0x54 ∧ c ≠ 0x3a)
    (field : Field) : ¬ field.tested <:+: value := by
  have marked : ∃ c ∈ field.tested, c = 0x54 ∨ c = 0x3a := by
    cases field <;> simp [Field.tested, ascii]
  obtain ⟨c, member, rfl | rfl⟩ := marked
  · exact fun inside => (unmarked _ (inside.subset member)).1 rfl
  · exact fun inside => (unmarked _ (inside.subset member)).2 rfl

theorem Lower.number (lower : Lower front) (n : Nat) : Lower (front ++ ascii (toString n)) := by
  intro c member
  obtain before | digit := List.mem_append.mp member
  · exact lower c before
  · have range := digit_of_mem_ascii digit
    omega

/-- A number may follow a plain value. -/
theorem Plain.number (plain : Plain front) (n : Nat) : Plain (front ++ ascii (toString n)) where
  nonempty := List.append_ne_nil_of_left_ne_nil plain.nonempty _
  chars := by
    intro c member
    obtain before | digit := List.mem_append.mp member
    · exact plain.chars c before
    · obtain ⟨low, _⟩ := digit_of_mem_ascii digit
      refine ⟨?_, ?_, ?_⟩ <;> (rintro rfl; revert low; decide)
  first := by
    intro c first
    rw [List.head?_append_of_ne_nil _ plain.nonempty] at first
    exact plain.first c first
  last := by
    intro c last
    rw [List.getLast?_append_of_ne_nil _ ascii_toString_ne_nil] at last
    obtain ⟨low, _⟩ := digit_of_mem_ascii (List.mem_of_getLast? last)
    refine ⟨?_, ?_, ?_⟩ <;> (rintro rfl; revert low; decide)

theorem WellFormed.free (wf : request.WellFormed) : ∀ c ∈ request.binaryPack, c ≠ 0 := by
  rw [binaryPack_eq]
  apply free_of_lines
  intro line listed
  obtain rfl | header := List.mem_cons.mp listed
  · exact (wf.plain .requestUri).free
  · obtain ⟨field, _, rfl⟩ := List.mem_map.mp header
    exact (wf.plain field).headerLine_free field

end HandshakeClientRequest

theorem HandshakeServerResponse.WellFormed.free {response : HandshakeServerResponse}
    (wf : response.WellFormed) : ∀ c ∈ response.binaryPack, c ≠ 0 := by
  rw [HandshakeServerResponse.binaryPack_eq]
  apply free_of_lines
  simp only [written, List.forall_mem_cons]
  exact ⟨wf.status.free, Header.line_free (wf.value .upgrade).plain,
    Header.line_free (wf.value .connection).plain,
    Header.line_free (wf.value .secWebsocketAccept).plain,
    fun _ member => absurd member List.not_mem_nil⟩

namespace XwebsocketStream

open HandshakeClientRequest

variable (port : BitVec 16)

theorem openingRequest_wellFormed : (openingRequest port).WellFormed where
  plain := by
    intro field
    cases field with
    | host =>
        have front : Plain (ascii "127.0.0.1:") := by
          constructor <;> simp [ascii]
        exact front.number _
    | origin =>
        have front : Plain (ascii "http://127.0.0.1") := by
          constructor <;> simp [ascii]
        exact front.number _
    | _ => constructor <;> simp [openingRequest, HandshakeClientRequest.get, ascii]
  method := by
    simp only [openingRequest, ascii]
    decide

theorem openingRequest_separate : (openingRequest port).Separate := by
  intro field other earlier
  cases field with
  | requestUri => cases earlier
  | host =>
      have front : Lower (ascii "127.0.0.1:") := by simp [Lower, ascii]
      exact (front.number _).not_tested other
  | origin =>
      have front : Lower (ascii "http://127.0.0.1") := by simp [Lower, ascii]
      exact (front.number _).not_tested other
  | _ =>
      apply not_tested_of_unmarked
      simp [openingRequest, HandshakeClientRequest.get, ascii]

/-- The server reads back what `connect` has written. -/
theorem header_openingRequest :
    XwebsocketServer.header (cString (openingRequest port).binaryPack) = openingRequest port := by
  rw [cString_eq_self (openingRequest_wellFormed port).free]
  exact parse_of_separate (openingRequest_wellFormed port) (openingRequest_separate port)

theorem openingRequest_valid : (openingRequest port).isValid = some true :=
  XwebsocketServer.sampleRequest_valid

theorem openingRequest_ne_nil : (openingRequest port).binaryPack ≠ [] := by
  rw [HandshakeClientRequest.binaryPack_eq]
  exact List.append_ne_nil_of_right_ne_nil _ (List.cons_ne_nil _ _)

theorem openingRequest_length : (openingRequest port).binaryPack.length ≤ 4095 := by
  have digits : (ascii (toString port.toNat)).length ≤ 5 :=
    ascii_toString_length (by decide) (by have := port.isLt; omega)
  have number : (ascii "127.0.0.1:" ++ ascii (toString port.toNat)).length ≤ 15 := by
    rw [List.length_append]
    have address : (ascii "127.0.0.1:").length = 10 := rfl
    omega
  have uri : (ascii "http://127.0.0.1" ++ ascii (toString port.toNat)).length ≤ 21 := by
    rw [List.length_append]
    have address : (ascii "http://127.0.0.1").length = 16 := rfl
    omega
  simp only [binaryPack, openingRequest, List.length_append] at number uri ⊢
  simp only [ascii, List.length_map] at number uri ⊢
  simp at number uri ⊢
  omega

variable {port} {sha1 : List Byte → Digest}

/-- The hash function gives the accept value for the key of `connect`. -/
def KnowsKey (sha1 : List Byte → Digest) : Prop :=
  XwebsocketServer.acceptValue sha1 (ascii "dGhlIHNhbXBsZSBub25jZQ==") = expectedAccept

/-- The server answers `connect` with what it expects. -/
theorem answer_openingRequest (knows : KnowsKey sha1) :
    XwebsocketServer.answer sha1
        (XwebsocketServer.header (cString (openingRequest port).binaryPack)) =
      some (some { secWebsocketAccept := expectedAccept }) := by
  rw [header_openingRequest, XwebsocketServer.answer_valid sha1 (openingRequest_valid port),
    ← knows]
  rfl

/-- The client finds the value in the response. -/
theorem acceptOf_expectedResponse (knows : KnowsKey sha1) :
    acceptOf expectedResponse = expectedAccept := by
  have token := XwebsocketServer.token_acceptValue sha1 (ascii "dGhlIHNhbXBsZSBub25jZQ==")
  rw [knows] at token
  have free : ∀ c ∈ expectedResponse, c ≠ 0 := token.wellFormed.free
  simp only [acceptOf, cString_eq_self free]
  rw [expectedResponse, HandshakeServerResponse.parse_binaryPack token]

end XwebsocketStream
end Vee
