import Vee.Bytes.Endian
import Vee.Text.Pieces

/-!
# The opening handshake of a client

`handshake_client_request` with its parser and its writer, and the functions of
`vee::strtool` and `<cstring>` they call. A string is a list of bytes; a function
that takes a `const char*` sees it up to the first NUL. A buffer that is too
small for a copy is undefined behaviour and makes the result `none`.
-/

namespace Vee

open Endian

/-- The bytes of a string literal. -/
def ascii (s : String) : List Byte := s.toList.map fun c => BitVec.ofNat 8 c.toNat

/-- What `data()` is to a function that expects a C string. -/
def cString (s : List Byte) : List Byte := s.takeWhile (· ≠ 0)

def strstr (src substr : List Byte) : Option Nat := Text.find (cString substr) (cString src)

/-- The characters of `" \t\v\n"` -/
def isBlank (c : Byte) : Bool := c = 0x20 || c = 0x09 || c = 0x0b || c = 0x0a

def trimLeft (str : List Byte) : List Byte := Text.stripLeft isBlank str

def trimRight (str : List Byte) : List Byte := Text.stripRight isBlank str

def trim (str : List Byte) : List Byte := trimLeft (trimRight str)

/-- `toupper` in the "C" locale -/
def toUpper (c : Byte) : Byte := if 0x61 ≤ c.toNat ∧ c.toNat ≤ 0x7a then c - 0x20 else c

namespace Strtool

def notFound : Int := -1

def bufferSize : Nat := 512

/-- The result is `(int)(src_buffer) - (int)(ret)`. -/
def findCaseInsensitive (src substr : List Byte) : Option Int :=
  if bufferSize ≤ (cString src).length ∨ bufferSize ≤ (cString substr).length then none
  else
    match strstr ((cString src).map toUpper) ((cString substr).map toUpper) with
    | none => some notFound
    | some ret => some (-ret)

end Strtool

structure HandshakeClientRequest where
  requestUri : List Byte := []
  host : List Byte := []
  upgrade : List Byte := []
  connection : List Byte := []
  origin : List Byte := []
  secWebsocketKey : List Byte := []
  secWebsocketProtocol : List Byte := []
  secWebSocketVersion : List Byte := []
  deriving DecidableEq, Repr

namespace HandshakeClientRequest

/-- The members. -/
inductive Field where
  | requestUri
  | host
  | upgrade
  | connection
  | origin
  | secWebsocketKey
  | secWebsocketProtocol
  | secWebSocketVersion
  deriving DecidableEq, Repr

def get (request : HandshakeClientRequest) : Field → List Byte
  | .requestUri => request.requestUri
  | .host => request.host
  | .upgrade => request.upgrade
  | .connection => request.connection
  | .origin => request.origin
  | .secWebsocketKey => request.secWebsocketKey
  | .secWebsocketProtocol => request.secWebsocketProtocol
  | .secWebSocketVersion => request.secWebSocketVersion

def set (request : HandshakeClientRequest) (field : Field) (value : List Byte) :
    HandshakeClientRequest :=
  match field with
  | .requestUri => { request with requestUri := value }
  | .host => { request with host := value }
  | .upgrade => { request with upgrade := value }
  | .connection => { request with connection := value }
  | .origin => { request with origin := value }
  | .secWebsocketKey => { request with secWebsocketKey := value }
  | .secWebsocketProtocol => { request with secWebsocketProtocol := value }
  | .secWebSocketVersion => { request with secWebSocketVersion := value }

theorem get_set (request : HandshakeClientRequest) (field : Field) (value : List Byte)
    (other : Field) :
    (request.set field value).get other = if field = other then value else request.get other := by
  cases field <;> cases other <;> rfl

theorem ext_get {request request' : HandshakeClientRequest}
    (same : ∀ field, request.get field = request'.get field) : request = request' := by
  cases request
  cases request'
  congr 1
  · exact same .requestUri
  · exact same .host
  · exact same .upgrade
  · exact same .connection
  · exact same .origin
  · exact same .secWebsocketKey
  · exact same .secWebsocketProtocol
  · exact same .secWebSocketVersion

/-- `char_separator sep("\r\n")` -/
def isSeparator (c : Byte) : Bool := c = 0x0d || c = 0x0a

/-- `get_value` in `parse` -/
def getValue (dst : List Byte) : Option (List Byte) :=
  match dst.dropWhile (· ≠ 0x3a) with
  | [] => none
  | _ :: buffer => some (trim buffer)

/-- The branch of `parse` for a line: the first of the strings that it contains. -/
def lineField (it : List Byte) : Option Field :=
  if (strstr it (ascii "GET")).isSome then some .requestUri
  else if (strstr it (ascii "Host:")).isSome then some .host
  else if (strstr it (ascii "Upgrade:")).isSome then some .upgrade
  else if (strstr it (ascii "Connection:")).isSome then some .connection
  else if (strstr it (ascii "Sec-WebSocket-Key:")).isSome then some .secWebsocketKey
  else if (strstr it (ascii "Origin:")).isSome then some .origin
  else if (strstr it (ascii "Sec-WebSocket-Protocol:")).isSome then some .secWebsocketProtocol
  else if (strstr it (ascii "Sec-WebSocket-Version:")).isSome then some .secWebSocketVersion
  else none

/-- The value that `parse` takes from a line for a field. -/
def lineValue (field : Field) (it : List Byte) : Option (List Byte) :=
  match field with
  | .requestUri => some it
  | _ => getValue it

/-- One iteration of the loop in `parse`. -/
def parseLine (request : HandshakeClientRequest) (it : List Byte) : HandshakeClientRequest :=
  match lineField it with
  | none => request
  | some field =>
      match lineValue field it with
      | none => request
      | some value => request.set field value

/-- `parse(string&)` -/
def parse (request : HandshakeClientRequest) (data : List Byte) : HandshakeClientRequest :=
  (Text.pieces isSeparator data).foldl parseLine request

/-- `find_case_insensitive(src, substr) == not_found` makes `is_valid` false; the
other operands of `||` are evaluated only where it does not. -/
def lacks (src substr : List Byte) (others : Option Bool) : Option Bool :=
  match Strtool.findCaseInsensitive src substr with
  | none => none
  | some position => if position = Strtool.notFound then some false else others

def isValid (request : HandshakeClientRequest) : Option Bool :=
  lacks request.requestUri (ascii "GET") <|
  lacks request.requestUri (ascii "HTTP/1.1") <|
  lacks request.upgrade (ascii "Websocket") <|
  lacks request.connection (ascii "Upgrade") <|
  lacks request.secWebSocketVersion (ascii "13") (some true)

def binaryPack (request : HandshakeClientRequest) : List Byte :=
  request.requestUri ++
  ascii "\r\nHost: " ++ request.host ++
  ascii "\r\nUpgrade: " ++ request.upgrade ++
  ascii "\r\nConnection: " ++ request.connection ++
  ascii "\r\nSec-WebSocket-Key: " ++ request.secWebsocketKey ++
  ascii "\r\nOrigin: " ++ request.origin ++
  ascii "\r\nSec-WebSocket-Protocol: " ++ request.secWebsocketProtocol ++
  ascii "\r\nSec-WebSocket-Version: " ++ request.secWebSocketVersion ++
  ascii "\r\n\r\n"

end HandshakeClientRequest
end Vee
