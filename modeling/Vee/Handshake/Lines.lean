import Vee.Handshake.Basic

/-!
# What the lines of a request assign

The loop of `parse` as a sequence of assignments. A line assigns to the first
field whose string occurs anywhere in it, and the last assignment to a field
counts.
-/

namespace Vee

open Endian Text

variable {s p it : List Byte}

theorem cString_eq_self (free : ∀ c ∈ s, c ≠ 0) : cString s = s := by
  simp only [cString]
  rw [List.takeWhile_eq_self_iff]
  intro c member
  exact decide_eq_true (free c member)

theorem strstr_isSome_iff (free : ∀ c ∈ s, c ≠ 0) (free' : ∀ c ∈ p, c ≠ 0) :
    (strstr s p).isSome ↔ p <:+: s := by
  simp only [strstr]
  rw [find_isSome_iff, cString_eq_self free, cString_eq_self free']

namespace HandshakeClientRequest

/-- The value stands behind the first colon. -/
theorem getValue_append {name : List Byte} (colonless : (0x3a : Byte) ∉ name) (value : List Byte) :
    getValue (name ++ 0x3a :: value) = some (trim value) := by
  have front : ∀ c ∈ name, decide (c ≠ 0x3a) = true := by
    intro c member
    rw [decide_eq_true_iff]
    rintro rfl
    exact colonless member
  have cut : (name ++ 0x3a :: value).dropWhile (· ≠ 0x3a) = 0x3a :: value := by
    rw [List.dropWhile_append_of_pos front]
    exact List.dropWhile_cons_of_neg (by decide)
  simp only [getValue, cut]

namespace Field

/-- The string that `parse` looks for. -/
def tested : Field → List Byte
  | requestUri => ascii "GET"
  | host => ascii "Host:"
  | upgrade => ascii "Upgrade:"
  | connection => ascii "Connection:"
  | secWebsocketKey => ascii "Sec-WebSocket-Key:"
  | origin => ascii "Origin:"
  | secWebsocketProtocol => ascii "Sec-WebSocket-Protocol:"
  | secWebSocketVersion => ascii "Sec-WebSocket-Version:"

/-- The order in which `parse` looks for them. -/
def order : List Field :=
  [requestUri, host, upgrade, connection, secWebsocketKey, origin, secWebsocketProtocol,
    secWebSocketVersion]

/-- The fields that `parse` looks for before this one. -/
def before (field : Field) : List Field := order.takeWhile (· ≠ field)

theorem mem_order (field : Field) : field ∈ order := by
  cases field <;> decide

/-- No string has a NUL or a blank in it. -/
theorem tested_chars (field : Field) : ∀ c ∈ field.tested, c ≠ 0 ∧ c ≠ 0x20 := by
  cases field <;> simp [tested, ascii]

theorem tested_free (field : Field) : ∀ c ∈ field.tested, c ≠ 0 :=
  fun c member => (field.tested_chars c member).1

end Field

theorem lineField_eq_find (it : List Byte) :
    lineField it = Field.order.find? fun field => (strstr it field.tested).isSome := by
  simp only [Field.order, ← ite_find]
  rfl

/-- The first string that occurs decides. -/
theorem lineField_eq_some_iff {field : Field} :
    lineField it = some field ↔ (strstr it field.tested).isSome ∧
      ∀ other ∈ field.before, (strstr it other.tested).isSome = false := by
  rw [lineField_eq_find, find?_eq_some_iff field.mem_order]
  rfl

/-- The assignments that a list of lines makes. -/
def writes (lines : List (List Byte)) : List (Field × List Byte) :=
  lines.filterMap fun it =>
    (lineField it).bind fun field => (lineValue field it).map fun value => (field, value)

theorem writes_append (lines lines' : List (List Byte)) :
    writes (lines ++ lines') = writes lines ++ writes lines' :=
  List.filterMap_append

theorem mem_writes {lines : List (List Byte)} {field : Field} {value : List Byte}
    (h : (field, value) ∈ writes lines) :
    ∃ it ∈ lines, lineField it = some field ∧ lineValue field it = some value := by
  obtain ⟨it, member, assigned⟩ := List.mem_filterMap.mp h
  obtain ⟨field', found, mapped⟩ := Option.bind_eq_some_iff.mp assigned
  obtain ⟨value', taken, same⟩ := Option.map_eq_some_iff.mp mapped
  cases same
  exact ⟨it, member, found, taken⟩

/-- Lines of which each assigns one value. -/
theorem writes_map {ι : Type} {xs : List ι} (line : ι → List Byte) (write : ι → Field × List Byte)
    (assigns : ∀ x ∈ xs, lineField (line x) = some (write x).1 ∧
      lineValue (write x).1 (line x) = some (write x).2) :
    writes (xs.map line) = xs.map write := by
  induction xs with
  | nil => rfl
  | cons x xs ih =>
      obtain ⟨found, taken⟩ := assigns x List.mem_cons_self
      have rest := ih fun other member => assigns other (List.mem_cons_of_mem x member)
      simp only [writes, List.map_cons, List.filterMap_cons, found, Option.bind_some, taken,
        Option.map_some]
      exact congrArg (write x :: ·) rest

/-- The loop performs the assignments in order. -/
theorem foldl_parseLine (lines : List (List Byte)) (request : HandshakeClientRequest) :
    lines.foldl parseLine request =
      (writes lines).foldl (fun request write => request.set write.1 write.2) request := by
  induction lines generalizing request with
  | nil => rfl
  | cons it lines ih =>
      rw [List.foldl_cons, ih]
      simp only [parseLine, writes, List.filterMap_cons]
      cases found : lineField it with
      | none => rfl
      | some field =>
          simp only [Option.bind_some]
          cases lineValue field it <;> rfl

/-- A field after `parse` has the value of the last line that assigns to it. -/
theorem get_parse (request : HandshakeClientRequest) (data : List Byte) (field : Field) :
    (request.parse data).get field =
      (lastWrite field (writes (pieces isSeparator data))).getD (request.get field) := by
  simp only [parse]
  rw [foldl_parseLine]
  exact get_foldl get_set _ _

end HandshakeClientRequest
end Vee
