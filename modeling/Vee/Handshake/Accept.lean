import Vee.Bytes.Base64
import Vee.Handshake.Response

/-!
# The accept value

What `_handshake` computes from a header: the digest of the key and the GUID, its
bytes in network order, and their base 64 form. The hash function is a parameter,
five words for every text. Boost's iterators are given by their documentation:
`transform_width` regroups bits and fills up with zeros, `insert_linebreaks` puts
a line break in front of every character that would exceed the line.
-/

namespace Vee

open Endian HandshakeClientRequest

/-- The state of the hash function after `process_bytes`. -/
abbrev Digest := Vector (BitVec 32) 5

/-- `get_digest(digest)`, as the bytes of the array on a little-endian host. -/
def digestBytes (digest : Digest) : List Byte :=
  digest.toList.flatMap fun word => toLittle 4 word.toNat

/-- One iteration of the loop in `sha1_hashing`. -/
def reorder (tmp hash : List Byte) (i : Nat) : List Byte :=
  let hash := hash.set (i * 4) (tmp.getD (i * 4 + 3) 0)
  let hash := hash.set (i * 4 + 1) (tmp.getD (i * 4 + 2) 0)
  let hash := hash.set (i * 4 + 2) (tmp.getD (i * 4 + 1) 0)
  hash.set (i * 4 + 3) (tmp.getD (i * 4) 0)

def sha1Hashing (sha1 : List Byte → Digest) (dst : List Byte) : List Byte :=
  (List.range 5).foldl (reorder (digestBytes (sha1 dst))) (List.replicate 20 0)

namespace Base64

open Rfc4648

/-- `transform_width<const char*, 6, 8>` -/
def transformWidth (data : List Byte) : List (BitVec 6) := regroup 6 [] (data.flatMap bits)

/-- `base64_from_binary` -/
def base64FromBinary (words : List (BitVec 6)) : List Byte := words.map symbol

/-- `insert_linebreaks<..., n>` behind `count` characters of a line. -/
def insertLinebreaks (n count : Nat) : List Byte → List Byte
  | [] => []
  | c :: cs =>
      if count = n then 0x0a :: c :: insertLinebreaks n 1 cs
      else c :: insertLinebreaks n (count + 1) cs

/-- `encode(const std::vector<unsigned char>&)` for data that is not empty; the
zeros at the end of `buff` are behind the range of the iterators. -/
def encode (data : List Byte) : List Byte :=
  let numberOfPaddChars := if data.length % 3 ≠ 0 then 3 - data.length % 3 else 0
  insertLinebreaks 72 0 (base64FromBinary (transformWidth data)) ++
    List.replicate numberOfPaddChars 0x3d

theorem insertLinebreaks_eq_self {n count : Nat} {s : List Byte} (short : count + s.length ≤ n) :
    insertLinebreaks n count s = s := by
  induction s generalizing count with
  | nil => rfl
  | cons c cs ih =>
      rw [List.length_cons] at short
      simp only [insertLinebreaks]
      rw [if_neg (by omega), ih (by omega)]

/-- On one line it is the encoding of RFC 4648. -/
theorem encode_eq_rfc4648 {data : List Byte} (short : data.length ≤ 54) :
    encode data = Rfc4648.encode data := by
  have padding : (if data.length % 3 ≠ 0 then 3 - data.length % 3 else 0) =
      (3 - data.length % 3) % 3 := by
    split <;> omega
  have total := Rfc4648.encode_length data
  rw [Rfc4648.encode_eq, List.length_append] at total
  have line : 0 + (base64FromBinary (transformWidth data)).length ≤ 72 := by
    simp only [base64FromBinary, transformWidth]
    omega
  rw [Rfc4648.encode_eq]
  simp only [encode, padding]
  rw [insertLinebreaks_eq_self line]
  rfl

end Base64

/-- The bytes of the digest in network order. -/
def networkBytes (digest : Digest) : List Byte :=
  digest.toList.flatMap fun word => toBig 4 word.toNat

theorem networkBytes_length (digest : Digest) : (networkBytes digest).length = 20 := by
  simp [networkBytes, List.length_flatMap]

theorem networkBytes_injective : Function.Injective networkBytes := by
  intro digest digest' same
  have words (l l' : List (BitVec 32)) (length : l.length = l'.length)
      (bytes : (l.flatMap fun word => toBig 4 word.toNat) =
        l'.flatMap fun word => toBig 4 word.toNat) : l = l' := by
    induction l generalizing l' with
    | nil => exact (List.length_eq_zero_iff.mp length.symm).symm
    | cons x l ih =>
        match l', length with
        | y :: l', length =>
            obtain ⟨first, rest⟩ := List.append_inj bytes (by rw [toBig_length, toBig_length])
            have number : ofBig (toBig 4 x.toNat) = ofBig (toBig 4 y.toNat) := congrArg ofBig first
            rw [ofBig_toBig x.isLt, ofBig_toBig y.isLt] at number
            rw [BitVec.eq_of_toNat_eq number, ih l' (by simpa using length) rest]
  apply Vector.toList_inj.mp
  exact words _ _ (by rw [Vector.length_toList, Vector.length_toList]) same

/-- One iteration turns the bytes of one word around. -/
theorem reorder_eq {i : Nat} {front done more : List Byte} (word : BitVec 32)
    (read : front.length = i * 4) (written : done.length = i * 4) (rest : List Byte) :
    reorder (front ++ (toLittle 4 word.toNat ++ more))
      (done ++ (List.replicate 4 0 ++ rest)) i = done ++ (toBig 4 word.toNat ++ rest) := by
  obtain ⟨a, b, c, d, little, big⟩ : ∃ a b c d, toLittle 4 word.toNat = [a, b, c, d] ∧
      toBig 4 word.toNat = [d, c, b, a] := ⟨_, _, _, _, rfl, rfl⟩
  have tmp (k : Nat) : (front ++ ([a, b, c, d] ++ more)).getD (i * 4 + k) 0 =
      ([a, b, c, d] ++ more).getD k 0 := by
    rw [← read, List.getD_append_right _ _ _ _ (Nat.le_add_right _ _), Nat.add_sub_cancel_left]
  have hash (k : Nat) (cells : List Byte) (x : Byte) :
      (done ++ cells).set (i * 4 + k) x = done ++ cells.set k x := by
    rw [← written, List.set_append_right _ _ (Nat.le_add_right _ _), Nat.add_sub_cancel_left]
  have tmp₀ := tmp 0
  have hash₀ := hash 0
  rw [Nat.add_zero] at tmp₀ hash₀
  rw [little, big]
  simp only [reorder, tmp, tmp₀, hash, hash₀]
  rfl

/-- The loop turns the bytes of every word around. -/
theorem foldl_reorder (words : List (BitVec 32)) {i : Nat} {front done : List Byte}
    (read : front.length = i * 4) (written : done.length = i * 4) :
    (List.range' i words.length).foldl
        (reorder (front ++ words.flatMap fun word => toLittle 4 word.toNat))
        (done ++ List.replicate (words.length * 4) 0) =
      done ++ words.flatMap fun word => toBig 4 word.toNat := by
  induction words generalizing i front done with
  | nil => rfl
  | cons word words ih =>
      have zeros : List.replicate ((words.length + 1) * 4) (0 : Byte) =
          List.replicate 4 0 ++ List.replicate (words.length * 4) 0 := by
        rw [← List.replicate_add, Nat.succ_mul, Nat.add_comm]
      simp only [List.length_cons, List.flatMap_cons]
      rw [List.range'_succ, List.foldl_cons, zeros, reorder_eq word read written,
        ← List.append_assoc, ← List.append_assoc, ih]
      · rw [List.append_assoc]
      · rw [List.length_append, toLittle_length, read, Nat.succ_mul]
      · rw [List.length_append, toBig_length, written, Nat.succ_mul]

theorem sha1Hashing_eq (sha1 : List Byte → Digest) (dst : List Byte) :
    sha1Hashing sha1 dst = networkBytes (sha1 dst) := by
  have five : (sha1 dst).toList.length = 5 := Vector.length_toList
  have loop : (List.range' 0 (sha1 dst).toList.length).foldl
      (reorder ([] ++ digestBytes (sha1 dst)))
      ([] ++ List.replicate ((sha1 dst).toList.length * 4) 0) = [] ++ networkBytes (sha1 dst) :=
    foldl_reorder (sha1 dst).toList rfl rfl
  rw [five, ← List.range_eq_range'] at loop
  exact loop

/-- `RFC4122_GUID::get()` -/
def Rfc4122Guid.get : List Byte := ascii "258EAFA5-E914-47DA-95CA-C5AB0DC85B11"

namespace XwebsocketServer

/-- What `_handshake` does between parsing the header and writing the response,
which it does not write for a header that is not valid. -/
def answer (sha1 : List Byte → Digest) (header : HandshakeClientRequest) :
    Option (Option HandshakeServerResponse) :=
  match header.isValid with
  | none => none
  | some false => some none
  | some true =>
      let magicString := header.secWebsocketKey ++ Rfc4122Guid.get
      let hashCode := sha1Hashing sha1 magicString
      let hashCodeBase64 := Base64.encode hashCode
      some (some { secWebsocketAccept := hashCodeBase64 })

variable (sha1 : List Byte → Digest) {header : HandshakeClientRequest}

/-- The accept value that answers a key. -/
def acceptValue (key : List Byte) : List Byte :=
  Rfc4648.encode (networkBytes (sha1 (key ++ Rfc4122Guid.get)))

/-- A valid header is answered with the accept value of its key. -/
theorem answer_valid (valid : header.isValid = some true) :
    answer sha1 header =
      some (some { secWebsocketAccept := acceptValue sha1 header.secWebsocketKey }) := by
  have short : (networkBytes (sha1 (header.secWebsocketKey ++ Rfc4122Guid.get))).length ≤ 54 := by
    rw [networkBytes_length]
    decide
  simp only [answer, valid, sha1Hashing_eq]
  rw [Base64.encode_eq_rfc4648 short]
  rfl

/-- Two keys have one accept value only if they have one digest. -/
theorem acceptValue_inj {key key' : List Byte} :
    acceptValue sha1 key = acceptValue sha1 key' ↔
      sha1 (key ++ Rfc4122Guid.get) = sha1 (key' ++ Rfc4122Guid.get) := by
  constructor
  · intro same
    apply networkBytes_injective
    apply Rfc4648.encode_injective _ same
    rw [networkBytes_length, networkBytes_length]
  · intro same
    simp only [acceptValue, same]

theorem acceptValue_length (key : List Byte) : (acceptValue sha1 key).length = 28 := by
  simp only [acceptValue]
  rw [Rfc4648.encode_length, networkBytes_length]

/-- The alphabet lies above the blanks and the separators, and has no colon. -/
theorem alphabet_above {c : Byte} (symbol : c ∈ Rfc4648.alphabet) :
    0x2b ≤ c.toNat ∧ c.toNat ≠ 0x3a := by
  simp only [Rfc4648.alphabet, List.mem_append, List.mem_map, List.mem_range, List.mem_cons,
    List.not_mem_nil, or_false] at symbol
  obtain ((⟨i, bound, rfl⟩ | ⟨i, bound, rfl⟩) | ⟨i, bound, rfl⟩) | rfl | rfl := symbol
  · rw [BitVec.toNat_ofNat]
    omega
  · rw [BitVec.toNat_ofNat]
    omega
  · rw [BitVec.toNat_ofNat]
    omega
  · decide
  · decide

theorem alphabet_token {c : Byte} (symbol : c ∈ Rfc4648.alphabet) :
    c ≠ 0 ∧ isSeparator c = false ∧ isBlank c = false ∧ c ≠ 0x3a := by
  obtain ⟨above, colon⟩ := alphabet_above symbol
  have ne {d : Byte} (other : d.toNat < 0x2b ∨ d.toNat = 0x3a) : c ≠ d := by
    rintro rfl
    omega
  simp only [isSeparator, isBlank, Bool.or_eq_false_iff, decide_eq_false_iff_not]
  exact ⟨ne (by decide), ⟨ne (by decide), ne (by decide)⟩,
    ⟨⟨⟨ne (by decide), ne (by decide)⟩, ne (by decide)⟩, ne (by decide)⟩, ne (by decide)⟩

theorem token_acceptValue (key : List Byte) :
    HandshakeServerResponse.Token (acceptValue sha1 key) where
  nonempty := by
    rw [← List.length_pos_iff, acceptValue_length]
    decide
  chars := by
    intro c member
    obtain symbol | rfl := Rfc4648.mem_encode member
    · exact alphabet_token symbol
    · decide

/-- A valid header is answered with one value: the base 64 form of the digest of
its key and the GUID, on one line and padded once. The client that parses the
response has it and the default fields, whatever it had before. -/
theorem accept_value_reaches_client (valid : header.isValid = some true)
    (client : HandshakeServerResponse) :
    ∃ response, answer sha1 header = some (some response) ∧
      response.secWebsocketAccept = Rfc4648.encode
        ((sha1 (header.secWebsocketKey ++ Rfc4122Guid.get)).toList.flatMap fun word =>
          toBig 4 word.toNat) ∧
      response.secWebsocketAccept.length = 28 ∧
      response.secWebsocketAccept.count 0x3d = 1 ∧ 0x0a ∉ response.secWebsocketAccept ∧
      client.parse response.binaryPack =
        { httpStatus := ascii "HTTP/1.1 101 Switching Protocols", upgrade := ascii "websocket",
          connection := ascii "Upgrade", secWebsocketAccept := response.secWebsocketAccept } := by
  have token := token_acceptValue sha1 header.secWebsocketKey
  refine ⟨_, answer_valid sha1 valid, rfl, acceptValue_length sha1 _, ?_, ?_,
    HandshakeServerResponse.parse_binaryPack token client⟩
  · have padding := Rfc4648.count_pad
      (networkBytes (sha1 (header.secWebsocketKey ++ Rfc4122Guid.get)))
    rw [networkBytes_length] at padding
    exact padding
  · intro member
    have whole := (token.chars _ member).2.1
    revert whole
    decide

/-- The opening request of RFC 6455, section 1.2. -/
def sampleRequest : HandshakeClientRequest where
  requestUri := ascii "GET /chat HTTP/1.1"
  host := ascii "server.example.com"
  upgrade := ascii "websocket"
  connection := ascii "Upgrade"
  origin := ascii "http://example.com"
  secWebsocketKey := ascii "dGhlIHNhbXBsZSBub25jZQ=="
  secWebsocketProtocol := ascii "chat, superchat"
  secWebSocketVersion := ascii "13"

theorem sampleRequest_valid : sampleRequest.isValid = some true := by
  simp only [sampleRequest, ascii]
  decide

/-- The digest that SHA-1 gives for its key and the GUID. -/
def sampleDigest : Digest := #v[0xb37a4f2c, 0xc0624f16, 0x90f64606, 0xcf385945, 0xb2bec4ea]

theorem accept_value_reaches_client_sample :
    ∃ response, answer (fun _ => sampleDigest) sampleRequest = some (some response) ∧
      ({} : HandshakeServerResponse).parse response.binaryPack = response := by
  obtain ⟨response, answered, _, _, _, _, parsed⟩ :=
    accept_value_reaches_client (fun _ => sampleDigest) sampleRequest_valid {}
  refine ⟨response, answered, parsed.trans ?_⟩
  rw [answer_valid _ sampleRequest_valid] at answered
  cases answered
  rfl

example : acceptValue (fun _ => sampleDigest) [] = ascii "s3pPLMBiTxaQ9kYGzzhZRbK+xOo=" := by
  simp only [ascii]
  decide

end XwebsocketServer
end Vee
