import Vee.Handshake.Response

/-!
# Status lines

The writer of a response takes any status line, but the parser knows the first
line by the status 101 and keeps the default for any other one.
-/

namespace Vee.HandshakeServerResponse

open Endian HandshakeClientRequest

variable {response : HandshakeServerResponse} {it : List Byte} {header : Header}
  {value : List Byte}

/-- The string of a header line is not that of a status line. -/
theorem line_ne_httpStatus (version : ascii "HTTP/1.1 " <+: response.httpStatus) :
    header.line value ≠ response.httpStatus := by
  rintro same
  rw [← same] at version
  revert version
  cases header <;> simp [Header.line, Header.name, ascii]

/-- The status after a line is the line itself or what it was before. -/
theorem httpStatus_parseLine (free : ∀ c ∈ it, c ≠ 0) (response : HandshakeServerResponse) :
    (response.parseLine it).httpStatus =
      if switching <:+: it then it else response.httpStatus := by
  have tested := strstr_isSome_iff free switching_free
  rw [parseLine_eq]
  split
  · rename_i found
    rw [if_pos (tested.mp found)]
  · rename_i absent
    rw [if_neg (mt tested.mpr absent)]
    repeat' split
    all_goals rfl

/-- The line of a header replaces the status exactly if its value holds the string
of the first line. -/
theorem httpStatus_line (h : Value value) (response : HandshakeServerResponse) :
    (response.parseLine (header.line value)).httpStatus =
      if switching <:+: value then header.line value else response.httpStatus := by
  rw [httpStatus_parseLine (Header.line_free h.plain)]
  simp only [Header.switching_infix_iff]

/-- A status that comes back was stored by the first line, and by no other one. -/
theorem switching_of_parse (wf : response.WellFormed)
    (version : ascii "HTTP/1.1 " <+: response.httpStatus)
    (same : ({} : HandshakeServerResponse).parse response.binaryPack = response) :
    switching <:+: response.httpStatus ∧ ∀ header, ¬ switching <:+: response.get header := by
  have status := congrArg httpStatus same
  simp only [parse] at status
  rw [pieces_binaryPack wf] at status
  simp only [written, List.foldl_cons, List.foldl_nil] at status
  rw [httpStatus_line (wf.value _), httpStatus_line (wf.value _), httpStatus_line (wf.value _),
    httpStatus_parseLine wf.status.free] at status
  split at status
  · exact absurd status (line_ne_httpStatus version)
  · rename_i accept
    split at status
    · exact absurd status (line_ne_httpStatus version)
    · rename_i connection
      split at status
      · exact absurd status (line_ne_httpStatus version)
      · rename_i upgrade
        refine ⟨?_, ?_⟩
        · split at status
          · assumption
          · -- the default status holds the string as well
            rw [← status]
            exact List.infix_rfl
        · intro header
          cases header with
          | upgrade => exact upgrade
          | connection => exact connection
          | secWebsocketAccept => exact accept

/-- Parsing what was written gives the members back exactly if the status line
holds the string of the first line and no other member does. -/
theorem status_line_returned_iff (wf : response.WellFormed)
    (version : ascii "HTTP/1.1 " <+: response.httpStatus) :
    ({} : HandshakeServerResponse).parse response.binaryPack = response ↔
      ascii "HTTP/1.1 101 Switching Protocols" <:+: response.httpStatus ∧
        ∀ header, ¬ ascii "HTTP/1.1 101 Switching Protocols" <:+: response.get header :=
  ⟨switching_of_parse wf version, fun h => parse_written wf h.1 h.2 {}⟩

/-- The status line of another response, with default headers. -/
def withStatus (status : List Byte) : HandshakeServerResponse where
  httpStatus := status
  secWebsocketAccept := ascii "x"

theorem token_x : Token (ascii "x") := ⟨by simp [ascii], by simp [ascii, isSeparator, isBlank]⟩

theorem wellFormed_withStatus {status : List Byte} (plain : Plain status) :
    (withStatus status).WellFormed where
  status := plain
  value := by
    intro header
    cases header with
    | upgrade => exact (token_x.get .upgrade).value
    | connection => exact (token_x.get .connection).value
    | secWebsocketAccept => exact token_x.value

theorem status_line_returned_iff_switching :
    ({} : HandshakeServerResponse).parse (withStatus switching).binaryPack =
      withStatus switching := by
  have version : ascii "HTTP/1.1 " <+: (withStatus switching).httpStatus := by
    simp [withStatus, switching, ascii]
  refine (status_line_returned_iff (wellFormed_withStatus plain_switching) version).mpr
    ⟨List.infix_rfl, ?_⟩
  intro header
  cases header with
  | upgrade => exact (token_x.get .upgrade).not_switching
  | connection => exact (token_x.get .connection).not_switching
  | secWebsocketAccept => exact token_x.not_switching

/-- A refusal is read as the default status. -/
theorem refusal_not_returned : ¬ ∀ response : HandshakeServerResponse, response.WellFormed →
    ascii "HTTP/1.1 " <+: response.httpStatus →
    ({} : HandshakeServerResponse).parse response.binaryPack = response := by
  intro all
  have plain : Plain (ascii "HTTP/1.1 404 Not Found") :=
    ⟨by simp [ascii], by simp [ascii], by simp [ascii], by simp [ascii]⟩
  have version : ascii "HTTP/1.1 " <+:
      (withStatus (ascii "HTTP/1.1 404 Not Found")).httpStatus := by
    simp [withStatus, ascii]
  have wf := wellFormed_withStatus plain
  obtain ⟨found, _⟩ := switching_of_parse wf version (all _ wf version)
  have fits := found.length_le
  revert fits
  simp [withStatus, switching, ascii]

end Vee.HandshakeServerResponse
