import Vee.Handshake.Lines

/-!
# Lines that should not matter

An opening request with one more header line and with bytes behind the empty
line that ends it. The tokenizer drops the empty line, so the lines behind it are
parsed like headers, and a header of any name is taken for a field whose string
occurs in it. The fields stay the same exactly when every such assignment is
made again by a later line of the request or repeats the value that is there.
-/

namespace Vee

open Endian Text

namespace HandshakeClientRequest

variable {request : HandshakeClientRequest} {lines pre post : List (List Byte)}
variable {name value trailing it : List Byte} {field : Field}

/-- The lines of a request and the empty line. -/
def openingRequest (lines : List (List Byte)) : List Byte :=
  (lines.map (· ++ [0x0d, 0x0a])).flatten ++ [0x0d, 0x0a]

/-- A header line with this name and value. -/
def header (name value : List Byte) : List Byte := name ++ ascii ": " ++ value

/-- The last of these lines that is taken for the field has this value, or none is
and the field has it already. -/
def Repeats (request : HandshakeClientRequest) (field : Field) (value : List Byte)
    (lines : List (List Byte)) : Prop :=
  value = (lastWrite field (writes lines)).getD (request.get field)

/-- For every field: the last line behind the empty line that is taken for it
repeats its value; and where there is none, a header line behind the extra one is
taken for it, or the extra line, if it is, repeats the value of the lines before. -/
def Harmless (request : HandshakeClientRequest) (pre : List (List Byte)) (extra : List Byte)
    (post trailing : List (List Byte)) : Prop :=
  ∀ field, match lastWrite field (writes trailing) with
    | some value => request.Repeats field value (pre ++ post)
    | none => lastWrite field (writes post) = none → ∀ value,
        lastWrite field (writes [extra]) = some value → request.Repeats field value pre

theorem pieces_openingRequest (all : ∀ line ∈ lines, Line isSeparator line) :
    pieces isSeparator (openingRequest lines ++ trailing) =
      lines ++ pieces isSeparator trailing := by
  simp only [openingRequest]
  rw [List.append_assoc, pieces_lines (by decide) (by decide) all]
  change lines ++ pieces isSeparator ([] ++ 0x0d :: ([] ++ 0x0a :: trailing)) = _
  rw [pieces_append_cons [] _ (by decide), pieces_append_cons [] _ (by decide)]
  rfl

/-- The lines behind the empty line are parsed like those before it. -/
theorem get_parse_openingRequest (request : HandshakeClientRequest) (trailing : List Byte)
    (field : Field) (all : ∀ line ∈ lines, Line isSeparator line) :
    (request.parse (openingRequest lines ++ trailing)).get field =
      (lastWrite field (writes (lines ++ pieces isSeparator trailing))).getD
        (request.get field) := by
  rw [get_parse, pieces_openingRequest all]

theorem get_parse_openingRequest_nil (request : HandshakeClientRequest) (field : Field)
    (all : ∀ line ∈ lines, Line isSeparator line) :
    (request.parse (openingRequest lines)).get field =
      (lastWrite field (writes lines)).getD (request.get field) := by
  have whole := get_parse_openingRequest request [] field all
  rwa [pieces_nil, List.append_nil, List.append_nil] at whole

/-- One field with and without the extra line and the trailing lines. -/
theorem lastWrite_eq_iff (request : HandshakeClientRequest) (pre : List (List Byte))
    (extra : List Byte) (post tail : List (List Byte)) (field : Field) :
    (lastWrite field (writes ((pre ++ extra :: post) ++ tail))).getD (request.get field) =
        (lastWrite field (writes (pre ++ post))).getD (request.get field) ↔
      match lastWrite field (writes tail) with
      | some value => request.Repeats field value (pre ++ post)
      | none => lastWrite field (writes post) = none → ∀ value,
          lastWrite field (writes [extra]) = some value → request.Repeats field value pre := by
  have cut : pre ++ extra :: post = pre ++ [extra] ++ post := List.append_cons pre extra post
  simp only [Repeats, cut, writes_append, lastWrite_append]
  cases lastWrite field (writes tail) with
  | some value => rfl
  | none =>
      cases lastWrite field (writes post) with
      | some value => simp
      | none => cases lastWrite field (writes [extra]) <;> simp

theorem parse_eq_iff (request : HandshakeClientRequest) (pre post : List (List Byte))
    (trailing : List Byte) {extra : List Byte} (all : ∀ line ∈ pre ++ post, Line isSeparator line)
    (line : Line isSeparator extra) :
    request.parse (openingRequest (pre ++ extra :: post) ++ trailing) =
        request.parse (openingRequest (pre ++ post)) ↔
      request.Harmless pre extra post (pieces isSeparator trailing) := by
  have all' : ∀ line ∈ pre ++ extra :: post, Line isSeparator line := by
    intro other member
    obtain before | member := List.mem_append.mp member
    · exact all other (List.mem_append_left post before)
    · obtain rfl | behind := List.mem_cons.mp member
      · exact line
      · exact all other (List.mem_append_right pre behind)
  have each := lastWrite_eq_iff request pre extra post (pieces isSeparator trailing)
  constructor
  · intro same field
    rw [← each, ← get_parse_openingRequest request trailing field all',
      ← get_parse_openingRequest_nil request field all, same]
  · intro harmless
    apply ext_get
    intro field
    rw [get_parse_openingRequest request trailing field all',
      get_parse_openingRequest_nil request field all, each]
    exact harmless field

/-- An extra header behind the request line and bytes behind the empty line do not
influence the fields, nor `is_valid`, exactly if they are harmless. -/
theorem parse_unrelated_iff (request : HandshakeClientRequest)
    (requestLine name value trailing : List Byte) (pre post : List (List Byte))
    (all : ∀ line ∈ requestLine :: (pre ++ post), Line isSeparator line)
    (line : Line isSeparator (header name value)) :
    (request.parse (openingRequest (requestLine :: (pre ++ header name value :: post)) ++ trailing) =
        request.parse (openingRequest (requestLine :: (pre ++ post))) ∧
      (request.parse
          (openingRequest (requestLine :: (pre ++ header name value :: post)) ++ trailing)).isValid =
        (request.parse (openingRequest (requestLine :: (pre ++ post)))).isValid) ↔
      request.Harmless (requestLine :: pre) (header name value) post
        (pieces isSeparator trailing) := by
  rw [← parse_eq_iff request (requestLine :: pre) post trailing all line]
  exact ⟨And.left, fun same => ⟨same, congrArg isValid same⟩⟩

/-- Lines in which none of the strings occurs do no harm. -/
theorem harmless_of_silent {extra : List Byte} {tail : List (List Byte)}
    (silent : writes (extra :: tail) = []) : request.Harmless pre extra post tail := by
  obtain ⟨silent_extra, silent_tail⟩ :=
    List.append_eq_nil_iff.mp ((writes_append [extra] tail).symm.trans silent)
  intro field
  rw [silent_tail, silent_extra]
  exact fun _ _ found => nomatch found

theorem parse_unrelated_iff_silent :
    ({} : HandshakeClientRequest).parse
        (openingRequest [ascii "GET", header (ascii "X") (ascii "y"), ascii "Host:h"] ++
          ascii "z") =
      ({} : HandshakeClientRequest).parse (openingRequest [ascii "GET", ascii "Host:h"]) := by
  have unrelated := parse_unrelated_iff {} (ascii "GET") (ascii "X") (ascii "y") (ascii "z") []
    [ascii "Host:h"] ?_ ?_
  · exact (unrelated.mpr (harmless_of_silent (by decide +kernel))).1
  · simp only [ascii]
    decide
  · simp only [header, ascii]
    decide

/-- The names of the fields. -/
def fieldNames : List (List Byte) :=
  [ascii "Host", ascii "Upgrade", ascii "Connection", ascii "Origin", ascii "Sec-WebSocket-Key",
    ascii "Sec-WebSocket-Protocol", ascii "Sec-WebSocket-Version"]

/-- The header of a proxy replaces the host. -/
theorem forwarded_host_taken : ¬ ∀ (request : HandshakeClientRequest) requestLine name value
    trailing pre post, (∀ line ∈ requestLine :: (pre ++ post), Line isSeparator line) →
    Line isSeparator (header name value) → name ∉ fieldNames → (∀ c ∈ trailing, c ≠ 0) →
    request.parse (openingRequest (requestLine :: (pre ++ header name value :: post)) ++ trailing) =
      request.parse (openingRequest (requestLine :: (pre ++ post))) := by
  intro all
  have same := all {} (ascii "GET") (ascii "X-Forwarded-Host") (ascii "h") [] [ascii "Host:g"] []
    (by simp only [ascii]; decide) (by simp only [header, ascii]; decide)
    (by simp [fieldNames, ascii]) nofun
  exact absurd (congrArg host same) (by decide +kernel)

end HandshakeClientRequest
end Vee
