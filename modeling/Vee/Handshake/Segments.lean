import Vee.Handshake.Buffers

/-!
# The handshake and the segments of the connection

What the transport delivers comes in segments, and one `read_some` returns bytes
of the first one only. Both sides read once: the server takes what has come of
the request for all of it, and the client takes what fits into its array for the
response, also where it is less than the response or more. So the first segment
decides; the server does the same for it as for the whole request when the other
segments bring no line that counts.
-/

namespace Vee

open Endian Memory Text HandshakeClientRequest SyncStream

/-- One `read_some` of at most `n` bytes, and what is left for later ones. -/
def readSome (n : Nat) : List (List Byte) → Option (List Byte × List (List Byte))
  | [] => none
  | segment :: segments =>
      some (segment.take n,
        if segment.length ≤ n then segments else segment.drop n :: segments)

/-- Nothing is lost between two reads. -/
theorem readSome_flatten {n : Nat} {segments rest : List (List Byte)} {bytes : List Byte}
    (h : readSome n segments = some (bytes, rest)) : bytes ++ rest.flatten = segments.flatten := by
  cases segments with
  | nil => cases h
  | cons segment segments =>
      simp only [readSome] at h
      cases h
      split
      · rename_i whole
        rw [List.take_of_length_le whole, List.flatten_cons]
      · rw [List.flatten_cons, ← List.append_assoc, List.take_append_drop, List.flatten_cons]

namespace XwebsocketServer

variable {sha1 : List Byte → Digest} {h h' : HandshakeClientRequest}

/-- `_handshake` on a connection. -/
def handshakeOn (sha1 : List Byte → Digest) (buffer : Memory Byte) (written : WriteSome)
    (wire : List Byte) (segments : List (List Byte)) : Option (Bool × List Byte) :=
  match readSome 4096 segments with
  | none => none
  | some (bytes, _) => handshake sha1 buffer (.received bytes) written wire

/-- `_handshake` returns, with the result and the response that it has for the
request in one segment. -/
def IndependentOf (sha1 : List Byte → Digest) (segments : List (List Byte)) : Prop :=
  ∀ buffer written wire, ∃ outcome,
    handshakeOn sha1 buffer written wire segments = some outcome ∧
      handshakeOn sha1 buffer written wire [segments.flatten] = some outcome

/-- Headers on which `is_valid` gives one verdict and whose keys, if it accepts them,
have one digest. -/
def Alike (sha1 : List Byte → Digest) (h h' : HandshakeClientRequest) : Prop :=
  ∃ verdict, h.isValid = some verdict ∧ h'.isValid = some verdict ∧ (verdict = true →
    sha1 (h.secWebsocketKey ++ Rfc4122Guid.get) = sha1 (h'.secWebsocketKey ++ Rfc4122Guid.get))

/-- The segment ends with a line, and the rest of the request has no line that is
taken for a field. -/
structure Brings (first rest : List Byte) : Prop where
  free : ∀ c ∈ first, c ≠ 0
  ended : ∃ lines c, first = lines ++ [c] ∧ isSeparator c = true
  silent : writes (pieces isSeparator (cString rest)) = []

/-- Then it has the whole header. -/
theorem Brings.header_eq {first rest : List Byte} (brings : Brings first rest) :
    header (cString (first ++ rest)) = header (cString first) := by
  obtain ⟨free, ⟨lines, c, rfl, cut⟩, silent⟩ := brings
  have front : ∀ d ∈ lines ++ [c], decide (d ≠ 0) = true :=
    fun d member => decide_eq_true (free d member)
  have whole : cString (lines ++ [c] ++ rest) = lines ++ c :: cString rest := by
    simp only [cString]
    rw [List.takeWhile_append_of_pos front, List.append_assoc]
    rfl
  apply ext_get
  intro field
  rw [header_get, header_get, cString_eq_self free, whole]
  simp only [assigned]
  rw [pieces_append_cons lines _ cut, pieces_append_cons lines [] cut, writes_append,
    writes_append, silent]
  rfl

theorem Alike.answer (alike : Alike sha1 h h') :
    XwebsocketServer.answer sha1 h = XwebsocketServer.answer sha1 h' := by
  obtain ⟨verdict, valid, valid', digest⟩ := alike
  cases verdict with
  | false => simp only [XwebsocketServer.answer, valid, valid']
  | true =>
      rw [answer_valid sha1 valid, answer_valid sha1 valid',
        (acceptValue_inj sha1).mpr (digest rfl)]

/-- A transport that takes the response leaves the verdict of `is_valid`. -/
theorem reply_result (sha1 : List Byte → Digest) (h : HandshakeClientRequest) (count : Nat)
    (wire : List Byte) : (reply sha1 h (.accepted count) wire).map Prod.fst = h.isValid := by
  cases valid : h.isValid with
  | none =>
      simp only [reply, XwebsocketServer.answer, valid]
      rfl
  | some accepted =>
      cases accepted with
      | false =>
          simp only [reply, XwebsocketServer.answer, valid]
          rfl
      | true =>
          simp only [reply, answer_valid sha1 valid]
          rfl

/-- What a transport that takes everything is given. -/
theorem reply_accepted (valid : h.isValid = some true) {count : Nat}
    (room : (HandshakeServerResponse.binaryPack
      { secWebsocketAccept := acceptValue sha1 h.secWebsocketKey }).length ≤ count) :
    reply sha1 h (.accepted count) [] = some (true, HandshakeServerResponse.binaryPack
      { secWebsocketAccept := acceptValue sha1 h.secWebsocketKey }) := by
  simp only [reply, answer_valid sha1 valid, tcpStreamWrite, tcpWrite]
  rw [List.take_of_length_le room, List.nil_append]

/-- The accept value can be read off the response. -/
theorem binaryPack_inj {accept accept' : List Byte}
    (same : HandshakeServerResponse.binaryPack { secWebsocketAccept := accept } =
      HandshakeServerResponse.binaryPack { secWebsocketAccept := accept' }) : accept = accept' :=
  List.append_cancel_left (List.append_cancel_right same)

/-- The replies to two headers are defined and the same exactly if the headers are
alike. -/
theorem reply_eq_iff :
    (∀ written wire, ∃ outcome, reply sha1 h written wire = some outcome ∧
      reply sha1 h' written wire = some outcome) ↔ Alike sha1 h h' := by
  constructor
  · intro same
    obtain ⟨⟨verdict, sent⟩, replied, replied'⟩ := same (.accepted 0) []
    have valid : h.isValid = some verdict := by
      rw [← reply_result sha1 h 0 [], replied]
      rfl
    have valid' : h'.isValid = some verdict := by
      rw [← reply_result sha1 h' 0 [], replied']
      rfl
    refine ⟨verdict, valid, valid', ?_⟩
    rintro rfl
    obtain ⟨outcome, packed, packed'⟩ := same (.accepted
      ((HandshakeServerResponse.binaryPack
        { secWebsocketAccept := acceptValue sha1 h.secWebsocketKey }).length +
      (HandshakeServerResponse.binaryPack
        { secWebsocketAccept := acceptValue sha1 h'.secWebsocketKey }).length)) []
    rw [reply_accepted valid (Nat.le_add_right _ _)] at packed
    rw [reply_accepted valid' (Nat.le_add_left _ _)] at packed'
    have packs := congrArg Prod.snd (Option.some.inj (packed.trans packed'.symm))
    exact (acceptValue_inj sha1).mp (binaryPack_inj packs)
  · intro alike written wire
    obtain ⟨verdict, valid, _⟩ := id alike
    have returns : (reply sha1 h written wire).isSome :=
      (reply_isSome_iff sha1 h).mpr (by rw [valid]; rfl) written wire
    obtain ⟨outcome, replied⟩ := Option.isSome_iff_exists.mp returns
    refine ⟨outcome, replied, ?_⟩
    simp only [reply, alike.answer] at replied ⊢
    exact replied

/-- One segment, or the first of several. -/
theorem handshakeOn_cons {first : List Byte} (room : first.length ≤ 4095)
    (segments : List (List Byte)) (buffer : Memory Byte) (written : WriteSome)
    (wire : List Byte) :
    handshakeOn sha1 buffer written wire (first :: segments) =
      reply sha1 (header (cString first)) written wire := by
  have taken : first.take 4096 = first := List.take_of_length_le (Nat.le_trans room (by decide))
  simp only [handshakeOn, readSome, taken]
  exact handshake_received sha1 room written wire

theorem first_fits {first : List Byte} {segments : List (List Byte)}
    (fits : (first :: segments).flatten.length ≤ 4095) : first.length ≤ 4095 := by
  rw [List.flatten_cons, List.length_append] at fits
  omega

/-- The other segments do not count. -/
theorem handshakeOn_first {first : List Byte} {segments : List (List Byte)}
    (fits : (first :: segments).flatten.length ≤ 4095) (buffer : Memory Byte)
    (written : WriteSome) (wire : List Byte) :
    handshakeOn sha1 buffer written wire (first :: segments) =
      handshakeOn sha1 buffer written wire [first] := by
  rw [handshakeOn_cons (first_fits fits), handshakeOn_cons (first_fits fits)]

/-- On a request that fits, what matters is the first segment. -/
theorem independent_iff {first : List Byte} {segments : List (List Byte)}
    (fits : (first :: segments).flatten.length ≤ 4095) :
    IndependentOf sha1 (first :: segments) ↔
      Alike sha1 (header (cString first)) (header (cString (first :: segments).flatten)) := by
  rw [← reply_eq_iff]
  constructor
  · intro same written wire
    have runs := same { cell := fun _ => 0 } written wire
    rwa [handshakeOn_cons (first_fits fits), handshakeOn_cons fits] at runs
  · intro same buffer written wire
    rw [handshakeOn_cons (first_fits fits), handshakeOn_cons fits]
    exact same written wire

/-- The first segment is enough if it brings all lines that count. -/
theorem independent_of_brings {first : List Byte} {segments : List (List Byte)}
    (fits : (first :: segments).flatten.length ≤ 4095) (brings : Brings first segments.flatten) :
    IndependentOf sha1 (first :: segments) ↔ ShortValues (assigned (cString first)) checks := by
  rw [independent_iff fits, List.flatten_cons, brings.header_eq, ← isValid_header_isSome_iff]
  constructor
  · rintro ⟨verdict, valid, _⟩
    rw [valid]
    rfl
  · intro returns
    obtain ⟨verdict, valid⟩ := Option.isSome_iff_exists.mp returns
    exact ⟨verdict, valid, valid, fun _ => rfl⟩

end XwebsocketServer

namespace XwebsocketStream

variable {port : BitVec 16} {count : Nat} {buffer : Memory Byte}
variable {response frame wire : List Byte} {segments : List (List Byte)}

/-- `connect` on a connection that carries a response and the first data frame. It
succeeds exactly if the accept value is the expected one, and the frame is what
later reads receive. -/
def OpensBefore (port : BitVec 16) (count : Nat) (buffer : Memory Byte) (wire : List Byte)
    (segments : List (List Byte)) (response frame : List Byte) : Prop :=
  ∃ bytes rest result sent, readSome 512 segments = some (bytes, rest) ∧
    connect port buffer .connected (.accepted count) (.received bytes) wire =
      some (result, sent) ∧
    (result = .ok () ↔ acceptOf response = expectedAccept) ∧ rest.flatten = frame

theorem connect_received (port : BitVec 16) (count : Nat) (buffer : Memory Byte)
    (wire bytes : List Byte) :
    connect port buffer .connected (.accepted count) (.received bytes) wire =
      (receiveResponse buffer (.received bytes)).map fun result =>
        (result, wire ++ (openingRequest port).binaryPack.take count) := rfl

/-- It does so exactly if the read returns the response, no more and no less, and
the response is terminated in the array. -/
theorem opensBefore_iff {first : List Byte}
    (carried : (first :: segments).flatten = response ++ frame) :
    OpensBefore port count buffer wire (first :: segments) response frame ↔
      (first.take 512).length = response.length ∧ (response.length < 512 ∨ 0 ∈ response) := by
  have fits : (first.take 512).length ≤ 512 := List.length_take_le 512 first
  constructor
  · rintro ⟨bytes, rest, result, sent, read, connected, _, kept⟩
    have total := readSome_flatten read
    rw [carried, kept] at total
    have whole : bytes = response := List.append_cancel_right total
    have taken : first.take 512 = bytes := congrArg Prod.fst (Option.some.inj read)
    rw [taken, whole] at fits ⊢
    refine ⟨rfl, ?_⟩
    rw [whole, connect_received, receiveResponse_received fits] at connected
    by_contra overrun
    rw [if_neg overrun] at connected
    cases connected
  · rintro ⟨length, terminated⟩
    have read : readSome 512 (first :: segments) = some (first.take 512,
      if first.length ≤ 512 then segments else first.drop 512 :: segments) := rfl
    have total := readSome_flatten read
    rw [carried] at total
    obtain ⟨whole, kept⟩ := List.append_inj total length
    rw [whole] at read fits
    have answered : receiveResponse buffer (.received response) = _ :=
      (receiveResponse_received fits).trans (if_pos terminated)
    have connected := (connect_received port count buffer wire response).trans
      (congrArg (Option.map _) answered)
    refine ⟨response, _, _, _, read, connected, ?_, kept⟩
    split
    · rename_i expected
      exact iff_of_true rfl expected
    · rename_i unexpected
      exact iff_of_false nofun unexpected

/-- In every segmentation of a request that fits, the server does what it does for
the first segment alone; that is what it does for the whole request in one segment
exactly if both make headers that are alike, and so, if the first segment brings all
lines that count, exactly if the values to be searched are short. In every
segmentation of a response and a data frame, the client succeeds as it should and
leaves the data frame to later reads exactly if its one read returns the response. -/
theorem handshake_segments_iff (sha1 : List Byte → Digest) :
    (∀ first segments, (first :: segments).flatten.length ≤ 4095 →
      (∀ buffer written wire,
        XwebsocketServer.handshakeOn sha1 buffer written wire (first :: segments) =
          XwebsocketServer.handshakeOn sha1 buffer written wire [first]) ∧
      (XwebsocketServer.IndependentOf sha1 (first :: segments) ↔
        XwebsocketServer.Alike sha1 (XwebsocketServer.header (cString first))
          (XwebsocketServer.header (cString (first :: segments).flatten))) ∧
      (XwebsocketServer.Brings first segments.flatten →
        (XwebsocketServer.IndependentOf sha1 (first :: segments) ↔
          ShortValues (assigned (cString first)) checks))) ∧
    ∀ port count buffer wire first segments response frame,
      (first :: segments).flatten = response ++ frame →
        (OpensBefore port count buffer wire (first :: segments) response frame ↔
          (first.take 512).length = response.length ∧
            (response.length < 512 ∨ 0 ∈ response)) :=
  ⟨fun _ _ fits => ⟨XwebsocketServer.handshakeOn_first fits, XwebsocketServer.independent_iff fits,
      XwebsocketServer.independent_of_brings fits⟩,
    fun _ _ _ _ _ _ _ _ carried => opensBefore_iff carried⟩

/-- The first line of a valid request. -/
def firstLine : List Byte := ascii "GET / HTTP/1.1\r\n"

def otherLines : List Byte :=
  ascii "Upgrade: websocket\r\nConnection: Upgrade\r\nSec-WebSocket-Version: 13\r\n\r\n"

/-- The response that `connect` expects. -/
def expectedResponse : List Byte :=
  HandshakeServerResponse.binaryPack { secWebsocketAccept := expectedAccept }

/-- A text frame without payload. -/
def emptyFrame : List Byte := [0x81, 0x00]

theorem expectedResponse_length : expectedResponse.length = 129 := by
  simp [expectedResponse, HandshakeServerResponse.binaryPack, expectedAccept, ascii]

theorem lines_length : (firstLine ++ otherLines).length = 86 := by
  simp [firstLine, otherLines, ascii]

/-- The request and, in a segment of its own, one more empty line. -/
theorem lines_bring : XwebsocketServer.Brings (firstLine ++ otherLines) [0x0d, 0x0a] where
  free := by simp [firstLine, otherLines, ascii]
  ended := by
    refine ⟨(firstLine ++ otherLines).dropLast, 0x0a, ?_, rfl⟩
    simp [firstLine, otherLines, ascii]
  silent := rfl

theorem handshake_segments_iff_blank :
    XwebsocketServer.IndependentOf (fun _ => XwebsocketServer.sampleDigest)
      [firstLine ++ otherLines, [0x0d, 0x0a]] ∧
    OpensBefore 80 0 { cell := fun _ => 0 } [] [expectedResponse, emptyFrame] expectedResponse
      emptyFrame := by
  have iffs := handshake_segments_iff fun _ => XwebsocketServer.sampleDigest
  have length := lines_length
  have fits : [firstLine ++ otherLines, [0x0d, 0x0a]].flatten.length ≤ 4095 := by
    rw [List.flatten_cons, List.flatten_singleton, List.length_append, length]
    decide
  have short : ShortValues (assigned (cString (firstLine ++ otherLines))) checks := by
    apply shortValues_of_length
    exact Nat.lt_of_le_of_lt (List.takeWhile_prefix _).length_le (by rw [length]; decide)
  have room : expectedResponse.length < 512 := by
    rw [expectedResponse_length]
    decide
  refine ⟨((iffs.1 _ _ fits).2.2 lines_bring).mpr short, (iffs.2 _ _ _ _ _ _ _ _ ?_).mpr ?_⟩
  · rfl
  · rw [List.take_of_length_le (Nat.le_of_lt room)]
    exact ⟨rfl, .inl room⟩

theorem isValid_firstLine :
    (XwebsocketServer.header (cString firstLine)).isValid = some false := by
  simp only [firstLine, ascii]
  decide

theorem isValid_lines :
    (XwebsocketServer.header (cString (firstLine ++ otherLines))).isValid = some true := by
  simp only [firstLine, otherLines, ascii]
  decide

/-- A request that arrives in two segments is rejected, and a data frame that
arrives with the response is lost. -/
theorem handshake_depends_on_segments :
    (¬ ∀ sha1 first segments, (∀ segment ∈ first :: segments, segment ≠ []) →
      (first :: segments).flatten.length ≤ 4095 →
        XwebsocketServer.IndependentOf sha1 (first :: segments)) ∧
    ¬ ∀ port count buffer wire first segments response frame,
      (∀ segment ∈ first :: segments, segment ≠ []) →
      (first :: segments).flatten = response ++ frame →
        OpensBefore port count buffer wire (first :: segments) response frame := by
  constructor
  · intro all
    have both : [firstLine, otherLines].flatten = firstLine ++ otherLines := by
      rw [List.flatten_cons, List.flatten_singleton]
    have fits : [firstLine, otherLines].flatten.length ≤ 4095 := by
      rw [both, lines_length]
      decide
    have nonempty : ∀ segment ∈ [firstLine, otherLines], segment ≠ [] := by
      simp [firstLine, otherLines, ascii]
    obtain ⟨verdict, rejected, accepted, _⟩ := (XwebsocketServer.independent_iff fits).mp
      (all (fun _ => XwebsocketServer.sampleDigest) _ _ nonempty fits)
    rw [both, isValid_lines] at accepted
    cases (isValid_firstLine.symm.trans rejected).trans accepted.symm
  · intro all
    have carried : [expectedResponse ++ emptyFrame].flatten = expectedResponse ++ emptyFrame :=
      List.append_nil _
    have nonempty : ∀ segment ∈ [expectedResponse ++ emptyFrame], segment ≠ [] := by
      simp [emptyFrame]
    have length := ((opensBefore_iff carried).mp
      (all 80 0 { cell := fun _ => 0 } [] _ _ _ _ nonempty carried)).1
    have longer : (expectedResponse ++ emptyFrame).length = 131 := by
      rw [List.length_append, expectedResponse_length]
      rfl
    rw [List.take_of_length_le (by omega), longer, expectedResponse_length] at length
    cases length

end XwebsocketStream
end Vee
