import Vee.Handshake.Trim

/-!
# Parsing what `binary_pack` writes

Every line that `binary_pack` writes is found whole, but `parse` classifies a line
by the first of its strings that occurs anywhere in it, also inside a value. The
fields come back exactly when no value contains a string that is looked for
before the one of its own field.
-/

namespace Vee

open Endian Text

namespace HandshakeClientRequest

variable {request : HandshakeClientRequest} {field : Field} {value : List Byte}

/-- A value that a header line can carry unchanged. -/
structure Plain (value : List Byte) : Prop where
  nonempty : value ≠ []
  chars : ∀ c ∈ value, c ≠ 0 ∧ c ≠ 0x0d ∧ c ≠ 0x0a
  first : ∀ c ∈ value.head?, c ≠ 0x20 ∧ c ≠ 0x09 ∧ c ≠ 0x0b
  last : ∀ c ∈ value.getLast?, c ≠ 0x20 ∧ c ≠ 0x09 ∧ c ≠ 0x0b

/-- All fields are such values, the first one that of a GET request. -/
structure WellFormed (request : HandshakeClientRequest) : Prop where
  plain : ∀ field, Plain (request.get field)
  method : ascii "GET " <+: request.requestUri

/-- A header field may be replaced. -/
theorem WellFormed.set (wf : request.WellFormed) (header : field ≠ .requestUri)
    (plain : Plain value) : (request.set field value).WellFormed where
  plain := by
    intro other
    rw [get_set]
    split
    · exact plain
    · exact wf.plain other
  method := by
    have kept : (request.set field value).get .requestUri = request.get .requestUri := by
      rw [get_set, if_neg header]
    change _ <+: (request.set field value).get .requestUri
    rw [kept]
    exact wf.method

/-- No value contains a string that `parse` looks for before the one of its field. -/
def Separate (request : HandshakeClientRequest) : Prop :=
  ∀ field, ∀ other ∈ field.before, ¬ other.tested <:+: request.get field

instance (value : List Byte) : Decidable (Plain value) :=
  decidable_of_iff (value ≠ [] ∧ (∀ c ∈ value, c ≠ 0 ∧ c ≠ 0x0d ∧ c ≠ 0x0a) ∧
    (∀ c ∈ value.head?, c ≠ 0x20 ∧ c ≠ 0x09 ∧ c ≠ 0x0b) ∧
    ∀ c ∈ value.getLast?, c ≠ 0x20 ∧ c ≠ 0x09 ∧ c ≠ 0x0b)
    ⟨fun h => ⟨h.1, h.2.1, h.2.2.1, h.2.2.2⟩, fun h => ⟨h.1, h.2, h.3, h.4⟩⟩

/-- The header fields in the order of `binary_pack`. -/
def headers : List Field :=
  [.host, .upgrade, .connection, .secWebsocketKey, .origin, .secWebsocketProtocol,
    .secWebSocketVersion]

theorem mem_headers (header : field ≠ .requestUri) : field ∈ headers := by
  cases field with
  | requestUri => exact absurd rfl header
  | _ => decide

theorem ne_requestUri_of_mem (listed : field ∈ headers) : field ≠ .requestUri := by
  rintro rfl
  revert listed
  decide

/-- The line of a header field. -/
def headerLine (field : Field) (value : List Byte) : List Byte := field.tested ++ 0x20 :: value

def lines (request : HandshakeClientRequest) : List (List Byte) :=
  request.requestUri :: headers.map fun field => headerLine field (request.get field)

theorem binaryPack_eq (request : HandshakeClientRequest) :
    request.binaryPack = (request.lines.map (· ++ [0x0d, 0x0a])).flatten ++ [0x0d, 0x0a] := by
  simp [binaryPack, lines, headers, headerLine, Field.tested, ascii, get]

theorem Plain.line (h : Plain value) : Line isSeparator value where
  nonempty := h.nonempty
  whole := by
    intro c member
    obtain ⟨_, cr, lf⟩ := h.chars c member
    simp only [isSeparator, Bool.or_eq_false_iff, decide_eq_false_iff_not]
    exact ⟨cr, lf⟩

theorem Field.tested_line (field : Field) : ∀ c ∈ field.tested, isSeparator c = false := by
  cases field <;> simp [tested, ascii, isSeparator]

theorem Plain.free (h : Plain value) : ∀ c ∈ value, c ≠ 0 := fun c member => (h.chars c member).1

/-- The characters of a line that consists of a string, a blank and a value. -/
theorem Plain.line_chars (h : Plain value) {tested : List Byte}
    (chars : ∀ c ∈ tested, c ≠ 0 ∧ isSeparator c = false) :
    ∀ c ∈ tested ++ 0x20 :: value, c ≠ 0 ∧ isSeparator c = false := by
  intro c member
  obtain front | member := List.mem_append.mp member
  · exact chars c front
  · obtain rfl | back := List.mem_cons.mp member
    · decide
    · exact ⟨h.free c back, h.line.whole c back⟩

theorem Plain.headerLine_chars (h : Plain value) (field : Field) :
    ∀ c ∈ headerLine field value, c ≠ 0 ∧ isSeparator c = false :=
  h.line_chars fun c member => ⟨field.tested_free c member, field.tested_line c member⟩

theorem Plain.headerLine (h : Plain value) (field : Field) :
    Line isSeparator (headerLine field value) where
  nonempty := List.append_ne_nil_of_right_ne_nil _ (List.cons_ne_nil _ _)
  whole := fun c member => (h.headerLine_chars field c member).2

theorem Plain.headerLine_free (h : Plain value) (field : Field) :
    ∀ c ∈ HandshakeClientRequest.headerLine field value, c ≠ 0 :=
  fun c member => (h.headerLine_chars field c member).1

/-- None of the strings occurs in the name of another header field. -/
theorem Field.tested_apart (field other : Field) (header : field ≠ .requestUri)
    (ne : other ≠ field) : ¬ other.tested <:+: field.tested := by
  cases field <;> cases other <;> simp [tested, ascii] at header ne ⊢ <;> decide

/-- Such a string occurs in the line of a header exactly if it does in the value. -/
theorem tested_infix_iff {other : Field} (header : field ≠ .requestUri) (ne : other ≠ field) :
    other.tested <:+: headerLine field value ↔ other.tested <:+: value := by
  have avoids : (0x20 : Byte) ∉ other.tested := fun member => (other.tested_chars _ member).2 rfl
  simp only [headerLine]
  rw [infix_append_cons_iff avoids]
  exact or_iff_right (field.tested_apart other header ne)

/-- The line of a header is taken for its own field unless its value holds a
string that is looked for before. -/
theorem lineField_headerLine_iff (plain : Plain value) (header : field ≠ .requestUri) :
    lineField (headerLine field value) = some field ↔
      ∀ other ∈ field.before, ¬ other.tested <:+: value := by
  have free := plain.headerLine_free field
  have own : field.tested <:+: headerLine field value := List.infix_append_left
  rw [lineField_eq_some_iff, strstr_isSome_iff free field.tested_free, and_iff_right own]
  apply forall₂_congr
  intro other earlier
  have ne : other ≠ field := by simpa using List.mem_takeWhile_imp earlier
  rw [← Bool.not_eq_true, strstr_isSome_iff free other.tested_free, tested_infix_iff header ne]

theorem isBlank_eq_false_iff {c : Byte} :
    isBlank c = false ↔ c ≠ 0x20 ∧ c ≠ 0x09 ∧ c ≠ 0x0b ∧ c ≠ 0x0a := by
  simp only [isBlank, Bool.or_eq_false_iff, decide_eq_false_iff_not, and_assoc]

/-- Behind the colon stands a blank that is not part of the value. -/
theorem Plain.stripped (h : Plain value) : Stripped isBlank (0x20 :: value) value := by
  have solid (c : Byte) (member : c ∈ value)
      (edge : c ≠ 0x20 ∧ c ≠ 0x09 ∧ c ≠ 0x0b) : isBlank c = false :=
    isBlank_eq_false_iff.mpr ⟨edge.1, edge.2.1, edge.2.2, (h.chars c member).2.2⟩
  refine ⟨⟨[0x20], [], ?_, ?_, nofun⟩, ?_, ?_⟩
  · rw [List.append_nil, List.singleton_append]
  · simp [isBlank]
  · exact fun c member => solid c (List.mem_of_mem_head? member) (h.first c member)
  · exact fun c member => solid c (List.mem_of_mem_getLast? member) (h.last c member)

/-- Trimming takes the blank in front of a value and nothing else. -/
theorem Plain.trim (h : Plain value) : trim (0x20 :: value) = value := by
  obtain ⟨c, rest, rfl⟩ := List.exists_cons_of_ne_nil h.nonempty
  have solid : isBlank c = false := h.stripped.first c rfl
  have inside : c ∈ 0x20 :: c :: rest := List.mem_cons_of_mem _ List.mem_cons_self
  exact (stripped_trim ⟨c, inside, solid⟩).unique h.stripped

/-- What stands behind the first colon and a blank is the value. -/
theorem Plain.getValue (h : Plain value) {name : List Byte} (colonless : (0x3a : Byte) ∉ name) :
    getValue (name ++ 0x3a :: 0x20 :: value) = some value := by
  rw [getValue_append colonless, h.trim]

/-- The value of a header line. -/
theorem getValue_headerLine (plain : Plain value) (header : field ≠ .requestUri) :
    getValue (headerLine field value) = some value := by
  obtain ⟨name, colonless, named⟩ :
      ∃ name, (0x3a : Byte) ∉ name ∧ field.tested = name ++ [0x3a] := by
    refine ⟨field.tested.dropLast, ?_⟩
    cases field <;> simp [Field.tested, ascii] at header ⊢
  simp only [headerLine, named, List.append_assoc, List.singleton_append]
  exact plain.getValue colonless

/-- The first line is that of the request. -/
theorem lineField_requestUri (wf : request.WellFormed) :
    lineField request.requestUri = some .requestUri := by
  rw [lineField_eq_some_iff]
  have get_space : Field.tested .requestUri <+: ascii "GET " := by
    simp [Field.tested, ascii]
  have free : ∀ c ∈ request.requestUri, c ≠ 0 := (wf.plain .requestUri).free
  refine ⟨?_, ?_⟩
  · rw [strstr_isSome_iff free (Field.tested_free .requestUri)]
    exact (get_space.trans wf.method).isInfix
  · intro other before
    cases before

/-- The tokenizer finds the lines that were written. -/
theorem pieces_binaryPack (wf : request.WellFormed) :
    pieces isSeparator request.binaryPack = request.lines := by
  have all : ∀ line ∈ request.lines, Line isSeparator line := by
    intro line member
    obtain rfl | header := List.mem_cons.mp member
    · exact (wf.plain .requestUri).line
    · obtain ⟨field, _, rfl⟩ := List.mem_map.mp header
      exact (wf.plain field).headerLine field
  rw [binaryPack_eq, pieces_lines (by decide) (by decide) all]
  exact List.append_nil _

/-- A header field that comes back was assigned by a line that holds none of the
strings looked for before. -/
theorem separate_of_parse (wf : request.WellFormed)
    (same : ({} : HandshakeClientRequest).parse request.binaryPack = request) :
    request.Separate := by
  intro field other earlier
  have header : field ≠ .requestUri := by
    rintro rfl
    cases earlier
  have value := get_parse {} request.binaryPack field
  rw [same, pieces_binaryPack wf] at value
  have empty : ({} : HandshakeClientRequest).get field = [] := by cases field <;> rfl
  cases assigned : lastWrite field (writes request.lines) with
  | none =>
      rw [assigned, empty] at value
      exact absurd value (wf.plain field).nonempty
  | some found =>
      rw [assigned] at value
      obtain ⟨line, member, classified, taken⟩ := mem_writes (mem_of_lastWrite assigned)
      obtain rfl | member := List.mem_cons.mp member
      · rw [lineField_requestUri wf] at classified
        exact absurd (Option.some.inj classified).symm header
      · obtain ⟨source, listed, rfl⟩ := List.mem_map.mp member
        have plain := wf.plain source
        have inside : request.get source = found := by
          have read := getValue_headerLine plain (ne_requestUri_of_mem listed)
          cases field with
          | requestUri => exact absurd rfl header
          | _ => exact Option.some.inj (read.symm.trans taken)
        intro occurs
        have absent := (lineField_eq_some_iff.mp classified).2 other earlier
        rw [← Bool.not_eq_true, strstr_isSome_iff (plain.headerLine_free source)
          other.tested_free] at absent
        apply absent
        rw [value, Option.getD_some, ← inside] at occurs
        exact occurs.trans ⟨source.tested ++ [0x20], [], by simp [headerLine]⟩

/-- With separate values every line assigns its own field. -/
theorem parse_of_separate (wf : request.WellFormed) (separate : request.Separate) :
    ({} : HandshakeClientRequest).parse request.binaryPack = request := by
  have own : writes (headers.map fun field => headerLine field (request.get field)) =
      headers.map fun field => (field, request.get field) := by
    apply writes_map
    intro field listed
    have header := ne_requestUri_of_mem listed
    refine ⟨(lineField_headerLine_iff (wf.plain field) header).mpr (separate field), ?_⟩
    have read := getValue_headerLine (wf.plain field) header
    cases field with
    | requestUri => exact absurd rfl header
    | _ => exact read
  have all : writes request.lines =
      (.requestUri :: headers).map fun field => (field, request.get field) := by
    have first : writes [request.requestUri] = [(.requestUri, request.requestUri)] := by
      simp only [writes, List.filterMap_cons, lineField_requestUri wf]
      rfl
    calc writes request.lines
        = writes [request.requestUri] ++
            writes (headers.map fun field => headerLine field (request.get field)) :=
          writes_append [request.requestUri] _
      _ = (.requestUri :: headers).map fun field => (field, request.get field) := by
          rw [first, own]
          rfl
  apply ext_get
  intro field
  have listed : field ∈ .requestUri :: headers := by
    by_cases same : field = .requestUri
    · rw [same]
      exact List.mem_cons_self
    · exact List.mem_cons_of_mem _ (mem_headers same)
  rw [get_parse, pieces_binaryPack wf, all, lastWrite_map _ listed]
  rfl

/-- Parsing what was written gives the fields back exactly if they are separate. -/
theorem parse_binaryPack_iff (wf : request.WellFormed) :
    ({} : HandshakeClientRequest).parse request.binaryPack = request ↔ request.Separate :=
  ⟨separate_of_parse wf, parse_of_separate wf⟩

/-- A request with the shortest values. -/
def shortRequest : HandshakeClientRequest where
  requestUri := ascii "GET /"
  host := ascii "h"
  upgrade := ascii "u"
  connection := ascii "c"
  origin := ascii "o"
  secWebsocketKey := ascii "k"
  secWebsocketProtocol := ascii "p"
  secWebSocketVersion := ascii "v"

/-- A single visible character. -/
theorem Plain.singleton {c : Byte} (visible : 0x20 < c.toNat) : Plain [c] := by
  have differs (d : Byte) (low : d.toNat ≤ 0x20) : c ≠ d := by
    rintro rfl
    omega
  refine ⟨List.cons_ne_nil _ _, ?_, ?_, ?_⟩
  · intro d member
    rw [List.mem_singleton.mp member]
    exact ⟨differs _ (by decide), differs _ (by decide), differs _ (by decide)⟩
  · intro d first
    cases first
    exact ⟨differs _ (by decide), differs _ (by decide), differs _ (by decide)⟩
  · intro d last
    cases last
    exact ⟨differs _ (by decide), differs _ (by decide), differs _ (by decide)⟩

theorem wellFormed_shortRequest : shortRequest.WellFormed where
  plain := by
    intro field
    cases field with
    | requestUri =>
        simp only [shortRequest, get, ascii]
        decide
    | _ => exact .singleton (by decide)
  method := by
    simp only [shortRequest, ascii]
    decide

theorem parse_binaryPack_iff_short :
    ({} : HandshakeClientRequest).parse shortRequest.binaryPack = shortRequest := by
  refine (parse_binaryPack_iff wellFormed_shortRequest).mpr ?_
  intro field other earlier occurs
  have short : (shortRequest.get field).length ≤ 1 ∨ field = .requestUri := by
    cases field <;> simp [shortRequest, get, ascii]
  have long : 3 ≤ other.tested.length := by
    cases other <;> simp [Field.tested, ascii]
  have fits := occurs.length_le
  obtain short | rfl := short
  · omega
  · cases earlier

/-- The same request with a key that contains the name of the method. -/
def getInKey : HandshakeClientRequest := shortRequest.set .secWebsocketKey (ascii "kGET")

theorem wellFormed_getInKey : getInKey.WellFormed :=
  wellFormed_shortRequest.set (by decide) (by simp only [ascii]; decide)

/-- Its key line becomes the request line. -/
theorem get_in_key_not_returned : ¬ ∀ request : HandshakeClientRequest, request.WellFormed →
    ({} : HandshakeClientRequest).parse request.binaryPack = request := by
  intro all
  have separate := separate_of_parse wellFormed_getInKey (all getInKey wellFormed_getInKey)
  apply separate .secWebsocketKey .requestUri (by decide)
  simp only [getInKey, set, get, Field.tested, ascii]
  decide

end HandshakeClientRequest
end Vee
