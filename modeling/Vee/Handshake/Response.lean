import Vee.Handshake.RoundTrip

/-!
# The response of a server

`handshake_server_response` with its parser and its writer. The parser is that of
the request with other strings: a line belongs to the first of them that occurs
in it.
-/

namespace Vee

open Endian Text HandshakeClientRequest

structure HandshakeServerResponse where
  httpStatus : List Byte := ascii "HTTP/1.1 101 Switching Protocols"
  upgrade : List Byte := ascii "websocket"
  connection : List Byte := ascii "Upgrade"
  secWebsocketAccept : List Byte := []
  deriving DecidableEq, Repr

namespace HandshakeServerResponse

/-- `set_value(get_value(it), dst)` -/
def setValue (it dst : List Byte) : List Byte := (getValue it).getD dst

/-- One iteration of the loop in `parse`. -/
def parseLine (response : HandshakeServerResponse) (it : List Byte) : HandshakeServerResponse :=
  if (strstr it (ascii "HTTP/1.1 101 Switching Protocols")).isSome then
    { response with httpStatus := it }
  else if (strstr it (ascii "Upgrade:")).isSome then
    { response with upgrade := setValue it response.upgrade }
  else if (strstr it (ascii "Connection:")).isSome then
    { response with connection := setValue it response.connection }
  else if (strstr it (ascii "Sec-WebSocket-Accept:")).isSome then
    { response with secWebsocketAccept := setValue it response.secWebsocketAccept }
  else response

/-- `parse(string&)` -/
def parse (response : HandshakeServerResponse) (data : List Byte) : HandshakeServerResponse :=
  (pieces isSeparator data).foldl parseLine response

def binaryPack (response : HandshakeServerResponse) : List Byte :=
  response.httpStatus ++
  ascii "\r\nUpgrade: " ++ response.upgrade ++
  ascii "\r\nConnection: " ++ response.connection ++
  ascii "\r\nSec-WebSocket-Accept: " ++ response.secWebsocketAccept ++
  ascii "\r\n\r\n"

variable {response : HandshakeServerResponse} {accept : List Byte}

/-- A value of characters that separate nothing. -/
structure Token (accept : List Byte) : Prop where
  nonempty : accept ≠ []
  chars : ∀ c ∈ accept, c ≠ 0 ∧ isSeparator c = false ∧ isBlank c = false ∧ c ≠ 0x3a

theorem Token.plain (h : Token accept) : Plain accept where
  nonempty := h.nonempty
  chars := by
    intro c member
    obtain ⟨nul, whole, _⟩ := h.chars c member
    simp only [isSeparator, Bool.or_eq_false_iff, decide_eq_false_iff_not] at whole
    exact ⟨nul, whole.1, whole.2⟩
  first := by
    intro c member
    obtain ⟨_, _, solid, _⟩ := h.chars c (List.mem_of_mem_head? member)
    have edge := isBlank_eq_false_iff.mp solid
    exact ⟨edge.1, edge.2.1, edge.2.2.1⟩
  last := by
    intro c member
    obtain ⟨_, _, solid, _⟩ := h.chars c (List.mem_of_mem_getLast? member)
    have edge := isBlank_eq_false_iff.mp solid
    exact ⟨edge.1, edge.2.1, edge.2.2.1⟩

theorem Token.not_mem_blank (h : Token accept) : (0x20 : Byte) ∉ accept := by
  intro member
  have solid := (h.chars _ member).2.2.1
  revert solid
  decide

/-- A value in which the parser finds no name. -/
structure Value (value : List Byte) : Prop where
  plain : Plain value
  colonless : (0x3a : Byte) ∉ value

theorem Token.value (h : Token accept) : Value accept where
  plain := h.plain
  colonless := fun member => (h.chars _ member).2.2.2 rfl

/-- The string that marks the first line. -/
def switching : List Byte := ascii "HTTP/1.1 101 Switching Protocols"

theorem switching_chars : ∀ c ∈ switching, c ≠ 0 ∧ c ≠ 0x3a := by
  simp [switching, ascii]

theorem switching_free : ∀ c ∈ switching, c ≠ 0 := fun c member => (switching_chars c member).1

/-- The members that have a header line. -/
inductive Header
  | upgrade
  | connection
  | secWebsocketAccept
  deriving DecidableEq

def get (response : HandshakeServerResponse) : Header → List Byte
  | .upgrade => response.upgrade
  | .connection => response.connection
  | .secWebsocketAccept => response.secWebsocketAccept

def set (response : HandshakeServerResponse) (header : Header) (value : List Byte) :
    HandshakeServerResponse :=
  match header with
  | .upgrade => { response with upgrade := value }
  | .connection => { response with connection := value }
  | .secWebsocketAccept => { response with secWebsocketAccept := value }

namespace Header

variable {header other : Header} {value : List Byte}

/-- What stands in front of the colon. -/
def name : Header → List Byte
  | upgrade => ascii "Upgrade"
  | connection => ascii "Connection"
  | secWebsocketAccept => ascii "Sec-WebSocket-Accept"

/-- The line of a header. -/
def line (header : Header) (value : List Byte) : List Byte :=
  header.name ++ 0x3a :: 0x20 :: value

/-- The string that `parse` looks for. -/
def tested (header : Header) : List Byte := header.name ++ [0x3a]

theorem name_chars (header : Header) :
    ∀ c ∈ header.name, c ≠ 0 ∧ c ≠ 0x3a ∧ c ≠ 0x20 ∧ isSeparator c = false := by
  cases header <;> simp [name, ascii, isSeparator]

theorem tested_chars (header : Header) :
    ∀ c ∈ header.tested, c ≠ 0 ∧ c ≠ 0x20 ∧ isSeparator c = false := by
  intro c member
  obtain front | colon := List.mem_append.mp member
  · obtain ⟨nul, _, others⟩ := header.name_chars c front
    exact ⟨nul, others⟩
  · rw [List.mem_singleton.mp colon]
    decide

theorem tested_free (header : Header) : ∀ c ∈ header.tested, c ≠ 0 :=
  fun c member => (header.tested_chars c member).1

theorem line_eq (header : Header) (value : List Byte) :
    header.line value = header.tested ++ 0x20 :: value := by
  simp only [line, tested, List.append_assoc, List.singleton_append]

theorem line_chars (plain : Plain value) :
    ∀ c ∈ header.line value, c ≠ 0 ∧ isSeparator c = false := by
  rw [line_eq]
  apply plain.line_chars
  intro c member
  obtain ⟨nul, _, whole⟩ := header.tested_chars c member
  exact ⟨nul, whole⟩

theorem line_free (plain : Plain value) : ∀ c ∈ header.line value, c ≠ 0 :=
  fun c member => (line_chars plain c member).1

theorem line_line (plain : Plain value) : Line isSeparator (header.line value) where
  nonempty := List.append_ne_nil_of_right_ne_nil _ (List.cons_ne_nil _ _)
  whole := fun c member => (line_chars plain c member).2

/-- The string of the first line has no colon, so that it lies in the value. -/
theorem switching_infix_iff : switching <:+: header.line value ↔ switching <:+: value := by
  have avoids : (0x3a : Byte) ∉ switching := fun member => (switching_chars _ member).2 rfl
  have name : ¬ switching <:+: header.name := by
    intro inside
    have fits := inside.length_le
    revert fits
    cases header <;> simp [Header.name, switching, ascii]
  have blank : ¬ switching <+: 0x20 :: value := by
    simp [switching, ascii]
  simp only [line]
  rw [infix_append_cons_iff avoids, or_iff_right name, List.infix_cons_iff, or_iff_right blank]

/-- The string of a header has a colon, so that it does not lie in the value. -/
theorem tested_infix_iff (h : Value value) :
    other.tested <:+: header.line value ↔ other = header := by
  have avoids : (0x20 : Byte) ∉ other.tested := fun member => (other.tested_chars _ member).2.1 rfl
  have value : ¬ other.tested <:+: value := by
    intro inside
    exact h.colonless (inside.subset (List.mem_append_right _ List.mem_cons_self))
  rw [line_eq, infix_append_cons_iff avoids, or_iff_left value]
  cases header <;> cases other <;> simp [tested, name, ascii] <;> decide

theorem getValue_line (plain : Plain value) : getValue (header.line value) = some value :=
  plain.getValue fun member => (header.name_chars _ member).2.1 rfl

end Header

variable {it value : List Byte}

/-- The strings that `parse` looks for, in its order. -/
theorem parseLine_eq (response : HandshakeServerResponse) (it : List Byte) :
    response.parseLine it =
      if (strstr it switching).isSome then { response with httpStatus := it }
      else if (strstr it (Header.tested .upgrade)).isSome then
        { response with upgrade := setValue it response.upgrade }
      else if (strstr it (Header.tested .connection)).isSome then
        { response with connection := setValue it response.connection }
      else if (strstr it (Header.tested .secWebsocketAccept)).isSome then
        { response with secWebsocketAccept := setValue it response.secWebsocketAccept }
      else response := rfl

/-- The first line is stored whole. -/
theorem parseLine_switching (free : ∀ c ∈ it, c ≠ 0) (found : switching <:+: it)
    (response : HandshakeServerResponse) :
    response.parseLine it = { response with httpStatus := it } := by
  rw [parseLine_eq, if_pos ((strstr_isSome_iff free switching_free).mpr found)]

/-- A header line is assigned to its member unless it holds the string of the
first line. -/
theorem parseLine_line (h : Value value) (apart : ¬ switching <:+: value)
    (response : HandshakeServerResponse) (header : Header) :
    response.parseLine (header.line value) = response.set header value := by
  have free : ∀ c ∈ header.line value, c ≠ 0 := Header.line_free h.plain
  have status : (strstr (header.line value) switching).isSome = false := by
    rw [← Bool.not_eq_true, strstr_isSome_iff free switching_free, Header.switching_infix_iff]
    exact apart
  have names (other : Header) :
      (strstr (header.line value) other.tested).isSome = decide (other = header) := by
    rw [Bool.eq_iff_iff, strstr_isSome_iff free other.tested_free, Header.tested_infix_iff h,
      decide_eq_true_iff]
  have read : getValue (header.line value) = some value := Header.getValue_line h.plain
  rw [parseLine_eq, status, names, names, names]
  simp only [setValue, read, Option.getD_some]
  cases header <;> rfl

/-- The lines that `binary_pack` writes. -/
def written (response : HandshakeServerResponse) : List (List Byte) :=
  [response.httpStatus, Header.line .upgrade (response.get .upgrade),
    Header.line .connection (response.get .connection),
    Header.line .secWebsocketAccept (response.get .secWebsocketAccept)]

theorem binaryPack_eq (response : HandshakeServerResponse) :
    response.binaryPack = (response.written.map (· ++ [0x0d, 0x0a])).flatten ++ [0x0d, 0x0a] := by
  simp [binaryPack, written, get, Header.line, Header.name, ascii]

/-- Members that the lines of a response can carry. -/
structure WellFormed (response : HandshakeServerResponse) : Prop where
  status : Plain response.httpStatus
  value : ∀ header, Value (response.get header)

/-- Every line is found whole. -/
theorem pieces_binaryPack (wf : response.WellFormed) :
    pieces isSeparator response.binaryPack = response.written := by
  have all : ∀ line ∈ response.written, Line isSeparator line := by
    simp only [written, List.forall_mem_cons]
    exact ⟨wf.status.line, Header.line_line (wf.value .upgrade).plain,
      Header.line_line (wf.value .connection).plain,
      Header.line_line (wf.value .secWebsocketAccept).plain, nofun⟩
  rw [binaryPack_eq, pieces_lines (by decide) (by decide) all]
  exact List.append_nil _

/-- The parser overwrites every member with what the writer wrote if the string of
the first line occurs in that line alone. -/
theorem parse_written (wf : response.WellFormed) (found : switching <:+: response.httpStatus)
    (apart : ∀ header, ¬ switching <:+: response.get header) (start : HandshakeServerResponse) :
    start.parse response.binaryPack = response := by
  simp only [parse]
  rw [pieces_binaryPack wf]
  simp only [written, List.foldl_cons, List.foldl_nil]
  rw [parseLine_switching wf.status.free found,
    parseLine_line (wf.value .upgrade) (apart .upgrade),
    parseLine_line (wf.value .connection) (apart .connection),
    parseLine_line (wf.value .secWebsocketAccept) (apart .secWebsocketAccept)]
  rfl

/-- The header values of a response with an accept value of such characters. -/
theorem Token.get (h : Token accept) (header : Header) :
    Token (({ secWebsocketAccept := accept } : HandshakeServerResponse).get header) := by
  cases header with
  | upgrade =>
      simp only [HandshakeServerResponse.get]
      exact ⟨by simp [ascii], by simp [ascii, isSeparator, isBlank]⟩
  | connection =>
      simp only [HandshakeServerResponse.get]
      exact ⟨by simp [ascii], by simp [ascii, isSeparator, isBlank]⟩
  | secWebsocketAccept => exact h

theorem plain_switching : Plain switching where
  nonempty := by simp [switching, ascii]
  chars := by simp [switching, ascii]
  first := by simp [switching, ascii]
  last := by simp [switching, ascii]

theorem Token.wellFormed (h : Token accept) :
    ({ secWebsocketAccept := accept } : HandshakeServerResponse).WellFormed where
  status := plain_switching
  value := fun header => (h.get header).value

/-- The string of the first line has blanks. -/
theorem Token.not_switching (h : Token accept) : ¬ switching <:+: accept := by
  intro inside
  exact h.not_mem_blank (inside.subset (by simp [switching, ascii]))

/-- The response to a valid request is returned to the client. -/
theorem parse_binaryPack (h : Token accept) (response : HandshakeServerResponse) :
    response.parse ({ secWebsocketAccept := accept } : HandshakeServerResponse).binaryPack =
      { secWebsocketAccept := accept } :=
  parse_written h.wellFormed List.infix_rfl (fun header => (h.get header).not_switching) response

end HandshakeServerResponse
end Vee
