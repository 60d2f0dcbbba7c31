import Vee.Handshake.Opening
import Vee.Handshake.Strtool

/-!
# The buffers of the opening request

What a peer sends reaches an array of 4096 bytes, which is read up to the first
NUL, and the values of some header lines reach the two arrays of 512 bytes that
`find_case_insensitive` copies its arguments into. Neither length is checked, so
the request itself decides whether all indices stay inside their arrays.
-/

namespace Vee

open Endian Memory Text HandshakeClientRequest Strtool

variable {request : HandshakeClientRequest} {buffer : Memory Byte} {bytes data src : List Byte}
variable {field : Field}

namespace HandshakeClientRequest

/-- The searches of `is_valid`, in order. -/
def checks : List (Field × List Byte) :=
  [(.requestUri, ascii "GET"), (.requestUri, ascii "HTTP/1.1"), (.upgrade, ascii "Websocket"),
    (.connection, ascii "Upgrade"), (.secWebSocketVersion, ascii "13")]

theorem isValid_eq (request : HandshakeClientRequest) :
    request.isValid =
      checks.foldr (fun check others => lacks (request.get check.1) check.2 others)
        (some true) := rfl

/-- The arguments of the calls of `strcpy` that a list of searches makes: two for
each search, up to the first one that finds nothing or does not return. -/
def copied (request : HandshakeClientRequest) : List (Field × List Byte) → List (List Byte)
  | [] => []
  | (field, substr) :: rest =>
      request.get field :: substr ::
        match findCaseInsensitive (request.get field) substr with
        | none => []
        | some position => if position = notFound then [] else copied request rest

/-- The copy, with its NUL, fits an array of `find_case_insensitive`. -/
def Fits (src : List Byte) : Prop := (cString src).length + 1 ≤ bufferSize

instance (src : List Byte) : Decidable (Fits src) :=
  inferInstanceAs (Decidable (_ ≤ _))

theorem findCaseInsensitive_isSome_iff {substr : List Byte} :
    (findCaseInsensitive src substr).isSome ↔ Fits src ∧ Fits substr := by
  simp only [findCaseInsensitive, Fits]
  split
  · simp only [Option.isSome_none, Bool.false_eq_true, false_iff]
    omega
  · have both : (cString src).length + 1 ≤ bufferSize ∧
        (cString substr).length + 1 ≤ bufferSize := by omega
    simp only [both, and_self, iff_true]
    split <;> rfl

/-- `is_valid` returns exactly if all its copies fit. -/
theorem foldr_lacks_isSome_iff (request : HandshakeClientRequest)
    (searches : List (Field × List Byte)) :
    (searches.foldr (fun check others => lacks (request.get check.1) check.2 others)
        (some true)).isSome ↔ ∀ s ∈ copied request searches, Fits s := by
  induction searches with
  | nil => simp [copied]
  | cons check rest ih =>
      obtain ⟨field, substr⟩ := check
      have both : (findCaseInsensitive (request.get field) substr).isSome ↔
          Fits (request.get field) ∧ Fits substr := findCaseInsensitive_isSome_iff
      simp only [List.foldr_cons, lacks, copied, List.forall_mem_cons, ← and_assoc, ← both]
      cases findCaseInsensitive (request.get field) substr with
      | none => simp
      | some position =>
          simp only [Option.isSome_some, true_and]
          by_cases missing : position = notFound
          · simp [missing]
          · simp only [if_neg missing]
            exact ih

theorem isValid_isSome_iff :
    request.isValid.isSome ↔ ∀ s ∈ copied request checks, Fits s := by
  rw [isValid_eq]
  exact foldr_lacks_isSome_iff request checks

/-- The value that the last line with this field assigns, if there is one. -/
def assigned (data : List Byte) (field : Field) : List Byte :=
  (lastWrite field (writes (pieces isSeparator data))).getD []

/-- The search finds the string, and not at the position that it reports as -1. -/
def Passes (src substr : List Byte) : Prop :=
  ∃ i, FirstAt (substr.map toUpper) (src.map toUpper) i ∧ i ≠ 1

/-- Every value that is searched is shorter than the array it is copied to, unless
one of the searches before does not pass. -/
def ShortValues (value : Field → List Byte) (searches : List (Field × List Byte)) : Prop :=
  ∀ before field substr after, searches = before ++ (field, substr) :: after →
    (∀ check ∈ before, Passes (value check.1) check.2) → (value field).length < bufferSize

theorem passes_iff {substr : List Byte} (free : ∀ c ∈ src, c ≠ 0) (free' : ∀ c ∈ substr, c ≠ 0)
    (fits : src.length < bufferSize) (fits' : substr.length < bufferSize) :
    (∃ position, findCaseInsensitive src substr = some position ∧ position ≠ notFound) ↔
      Passes src substr := by
  rw [findCaseInsensitive_eq, findCaseInsensitiveIn_eq free free' fits fits']
  cases found : find (substr.map toUpper) (src.map toUpper) with
  | none =>
      constructor
      · rintro ⟨position, returned, ne⟩
        exact absurd (Option.some.inj returned).symm ne
      · rintro ⟨i, first, _⟩
        exact absurd first.1 (find_eq_none_iff.mp found i)
  | some ret =>
      have first := find_eq_some_iff.mp found
      constructor
      · rintro ⟨position, returned, ne⟩
        obtain rfl := Option.some.inj returned
        refine ⟨ret, first, ?_⟩
        rintro rfl
        exact ne rfl
      · rintro ⟨i, first', ne⟩
        obtain rfl := first.unique first'
        refine ⟨_, rfl, ?_⟩
        simp only [notFound]
        omega

theorem shortValues_cons {value : Field → List Byte} {substr : List Byte}
    {rest : List (Field × List Byte)} :
    ShortValues value ((field, substr) :: rest) ↔
      (value field).length < bufferSize ∧
        (Passes (value field) substr → ShortValues value rest) := by
  constructor
  · intro short
    refine ⟨short [] field substr rest rfl (by simp), ?_⟩
    intro passes before field' substr' after whole earlier
    refine short ((field, substr) :: before) field' substr' after (by rw [whole]; rfl) ?_
    intro check member
    obtain rfl | member := List.mem_cons.mp member
    · exact passes
    · exact earlier check member
  · rintro ⟨first, later⟩ before field' substr' after whole earlier
    cases before with
    | nil =>
        obtain ⟨same, _⟩ := List.cons.inj whole
        cases same
        exact first
    | cons check before =>
        obtain ⟨same, behind⟩ := List.cons.inj whole
        subst same
        refine later (earlier _ List.mem_cons_self) before field' substr' after behind ?_
        exact fun check member => earlier check (List.mem_cons_of_mem _ member)

/-- The copies fit exactly if the values are short. -/
theorem copied_fit_iff (searches : List (Field × List Byte))
    (free : ∀ field, ∀ c ∈ request.get field, c ≠ 0)
    (constants : ∀ check ∈ searches, (∀ c ∈ check.2, c ≠ 0) ∧ check.2.length < bufferSize) :
    (∀ s ∈ copied request searches, Fits s) ↔ ShortValues request.get searches := by
  induction searches with
  | nil =>
      simp only [copied, List.not_mem_nil, false_imp_iff, implies_true, true_iff]
      intro before field substr after whole
      exact absurd whole.symm (by simp)
  | cons check rest ih =>
      obtain ⟨field, substr⟩ := check
      obtain ⟨⟨free', fits'⟩, others⟩ := List.forall_mem_cons.mp constants
      have second : Fits substr := by
        rw [Fits, cString_eq_self free']
        exact fits'
      have first : Fits (request.get field) ↔ (request.get field).length < bufferSize := by
        rw [Fits, cString_eq_self (free field)]
        exact Nat.succ_le_iff
      simp only [copied, List.forall_mem_cons, second, true_and, shortValues_cons, first]
      refine and_congr_right fun fits => ?_
      rw [← passes_iff (free field) free' fits fits']
      have returns : (findCaseInsensitive (request.get field) substr).isSome :=
        findCaseInsensitive_isSome_iff.mpr ⟨first.mpr fits, second⟩
      obtain ⟨position, found⟩ := Option.isSome_iff_exists.mp returns
      simp only [found, Option.some.injEq, exists_eq_left']
      by_cases missing : position = notFound
      · simp [missing]
      · simp only [ne_eq, missing, not_false_eq_true, true_imp_iff]
        exact ih others

theorem trim_isInfix (s : List Byte) : trim s <:+: s :=
  stripLeft_suffix.isInfix.trans stripRight_prefix.isInfix

/-- A value is a part of its line. -/
theorem infix_of_lineValue {it value : List Byte} (taken : lineValue field it = some value) :
    value <:+: it := by
  have value_of_line : value = it ∨ getValue it = some value := by
    cases field with
    | requestUri => exact .inl (Option.some.inj taken).symm
    | _ => exact .inr taken
  obtain rfl | found := value_of_line
  · exact List.infix_rfl
  · simp only [getValue] at found
    split at found
    · cases found
    · rename_i colon rest cut
      obtain rfl := Option.some.inj found
      have behind : rest <:+ it.dropWhile (· ≠ 0x3a) := cut ▸ List.suffix_cons colon rest
      exact (trim_isInfix rest).trans (behind.trans (List.dropWhile_suffix _)).isInfix

/-- A field is a part of the text that `parse` has filled it from. -/
theorem assigned_isInfix (data : List Byte) (field : Field) : assigned data field <:+: data := by
  simp only [assigned]
  cases last : lastWrite field (writes (pieces isSeparator data)) with
  | none => exact List.nil_infix
  | some value =>
      obtain ⟨it, listed, _, taken⟩ := mem_writes (mem_of_lastWrite last)
      exact (infix_of_lineValue taken).trans (infix_of_mem_pieces listed)

/-- In a short text all values are short. -/
theorem shortValues_of_length (short : data.length < bufferSize) :
    ShortValues (assigned data) checks := by
  intro before field substr after _ _
  exact Nat.lt_of_le_of_lt (assigned_isInfix data field).length_le short

theorem checks_constants :
    ∀ check ∈ checks, (∀ c ∈ check.2, c ≠ 0) ∧ check.2.length < bufferSize := by
  simp [checks, ascii, bufferSize]

end HandshakeClientRequest

namespace XwebsocketServer

/-- The header that the string in the array is parsed to. -/
theorem header_get (data : List Byte) (field : Field) :
    (header data).get field = assigned data field := by
  simp only [header, get_parse, assigned]
  cases field <;> rfl

/-- The request of a peer stays inside its buffers: the string in the array has
its NUL there, and every copy that `is_valid` makes of a value fits. -/
def InBounds (buffer : Memory Byte) (bytes : List Byte) : Prop :=
  ∃ data, makeString 4096 (tcpRead 4096 (.received bytes) buffer).2 = some data ∧
    ∀ s ∈ copied (header data) checks, Fits s

/-- The end of `_handshake` returns if `is_valid` does. -/
theorem reply_isSome_iff (sha1 : List Byte → Digest) (header : HandshakeClientRequest) :
    (∀ written wire, (reply sha1 header written wire).isSome) ↔ header.isValid.isSome := by
  constructor
  · intro returns
    have returned := returns .failed []
    revert returned
    simp only [reply, answer]
    cases header.isValid <;> simp
  · intro valid written wire
    obtain ⟨result, found⟩ := Option.isSome_iff_exists.mp valid
    simp only [reply, answer, found]
    cases result with
    | false => rfl
    | true => cases written <;> rfl

/-- Only then is `_handshake` known to return. -/
theorem handshake_isSome_iff (sha1 : List Byte → Digest) :
    (∀ written wire, (handshake sha1 buffer (.received bytes) written wire).isSome) ↔
      InBounds buffer bytes := by
  obtain ⟨found, string⟩ :
      ∃ found, makeString 4096 (tcpRead 4096 (.received bytes) buffer).2 = found := ⟨_, rfl⟩
  have parsed : ∀ written wire, handshake sha1 buffer (.received bytes) written wire =
      found.bind fun data => reply sha1 (header data) written wire := by
    intro written wire
    simp only [handshake]
    rw [tcpRead_received]
    simp only [string]
    cases found <;> rfl
  simp only [parsed, InBounds, string, ← isValid_isSome_iff]
  cases found with
  | none =>
      simp only [Option.bind_none, Option.isSome_none, Bool.false_eq_true, reduceCtorEq, false_and,
        exists_false, iff_false, not_forall]
      exact ⟨.failed, [], fun returned => returned⟩
  | some data =>
      simp only [Option.bind_some, Option.some.injEq, exists_eq_left']
      exact reply_isSome_iff sha1 (header data)

/-- `is_valid` returns for a text exactly if the values that it searches are short. -/
theorem isValid_header_isSome_iff (bytes : List Byte) :
    (header (cString bytes)).isValid.isSome ↔ ShortValues (assigned (cString bytes)) checks := by
  have fields : (header (cString bytes)).get = assigned (cString bytes) :=
    funext fun field => header_get (cString bytes) field
  have free : ∀ field, ∀ c ∈ (header (cString bytes)).get field, c ≠ 0 := by
    intro field c inside
    rw [fields] at inside
    have solid := List.mem_takeWhile_imp ((assigned_isInfix _ field).subset inside)
    exact of_decide_eq_true solid
  rw [isValid_isSome_iff, ← fields]
  exact copied_fit_iff checks free checks_constants

/-- A request stays inside its buffers exactly if it leaves room for a NUL, or has
one, and all values that are searched are short. -/
theorem handshake_in_bounds_iff (buffer : Memory Byte) (fits : bytes.length ≤ 4096) :
    InBounds buffer bytes ↔
      (bytes.length < 4096 ∨ 0 ∈ bytes) ∧ ShortValues (assigned (cString bytes)) checks := by
  have string : makeString 4096 (tcpRead 4096 (.received bytes) buffer).2 =
      if bytes.length < 4096 ∨ 0 ∈ bytes then some (cString bytes) else none :=
    makeString_received (n := 4096) fits
  rw [InBounds, string, ← isValid_header_isSome_iff, isValid_isSome_iff]
  simp

theorem handshake_in_bounds_iff_short :
    InBounds ⟨fun _ => 0xff, []⟩ (ascii "GET / HTTP/1.1\r\n\r\n") := by
  have length : (ascii "GET / HTTP/1.1\r\n\r\n").length = 18 := by simp [ascii]
  refine (handshake_in_bounds_iff _ (by omega)).mpr ⟨.inl (by omega), ?_⟩
  apply shortValues_of_length
  exact Nat.lt_of_le_of_lt (List.takeWhile_prefix _).length_le (by rw [length]; decide)

/-- A full array without a NUL. -/
theorem full_read_not_terminated :
    ¬ ∀ (buffer : Memory Byte) (bytes : List Byte), 1 ≤ bytes.length → bytes.length ≤ 4096 →
      InBounds buffer bytes := by
  intro inside
  have full : (List.replicate 4096 (0x41 : Byte)).length = 4096 := List.length_replicate
  obtain ⟨data, string, _⟩ := inside ⟨fun _ => 0, []⟩ (List.replicate 4096 0x41)
    (by rw [full]; decide) (by rw [full])
  have none : makeString 4096
      (tcpRead 4096 (.received (List.replicate 4096 0x41)) ⟨fun _ => 0, []⟩).2 = none :=
    (makeString_received (n := 4096) (by rw [full]; decide)).trans
      (if_neg (by rw [full, List.mem_replicate]; decide))
  rw [none] at string
  cases string

end XwebsocketServer
end Vee
