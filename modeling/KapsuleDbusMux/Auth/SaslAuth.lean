import Mathlib.Algebra.Group.Nat.Defs
import KapsuleDbusMux.Library.Lines

/-! # SASL authentication

`auth.rs`: the server side of the EXTERNAL mechanism. The client's bytes come from
a socket, one piece for each read. The null byte is taken from the socket itself and
the lines through a buffered reader, whose buffer may hold the first messages when
authentication ends. What is written always reaches the client.
-/

namespace KapsuleDbusMux

open Lines

def utf8Bytes (s : String) : List UInt8 := s.toUTF8.data.toList

/-- Why a client is turned away. The source has one `InvalidData` with a text for
five of these, and an I/O error for the last two. -/
inductive AuthError where
  | expectedNullByte
  | expectedBegin
  | invalidHex
  | invalidUtf8
  | invalidUid
  | expectedData (line : List UInt8)
  | unexpectedLine (line : List UInt8)
  | unexpectedEof
  | streamNotUtf8
  deriving DecidableEq, Repr

/-! ## User ids -/

def hexValue (b : UInt8) : Option UInt8 :=
  if 48 ≤ b ∧ b ≤ 57 then some (b - 48)
  else if 97 ≤ b ∧ b ≤ 102 then some (b - 87)
  else if 65 ≤ b ∧ b ≤ 70 then some (b - 55)
  else none

/-- `hex::decode`: pairs of digits of either case. -/
def hexDecode : List UInt8 → Option (List UInt8)
  | [] => some []
  | [_] => none
  | high :: low :: rest =>
      match hexValue high, hexValue low, hexDecode rest with
      | some h, some l, some bytes => some ((16 * h + l) :: bytes)
      | _, _, _ => none

def isDigit (b : UInt8) : Bool := decide (48 ≤ b ∧ b ≤ 57)

def decimalValue (digits : List UInt8) : Nat :=
  digits.foldl (fun n b => 10 * n + (b.toNat - 48)) 0

/-- `str::parse::<u32>()`: an optional plus sign and decimal digits. -/
def parseU32 (bytes : List UInt8) : Option UInt32 :=
  let digits := if bytes.head? = some 43 then bytes.tail else bytes
  if digits ≠ [] ∧ digits.all isDigit ∧ decimalValue digits < 2 ^ 32 then
    some (UInt32.ofNat (decimalValue digits))
  else none

def parseHexUid (hex : List UInt8) : Except AuthError UInt32 :=
  match hexDecode hex with
  | none => .error .invalidHex
  | some bytes =>
      if isUtf8 bytes then
        match parseU32 bytes with
        | none => .error .invalidUid
        | some uid => .ok uid
      else .error .invalidUtf8

/-! ## The connection during authentication -/

/-- The client's side of the stream, and the lines written to it. -/
structure SaslStream where
  reader : BufReader
  written : List (List UInt8)
  deriving DecidableEq, Repr

abbrev Auth := StateT SaslStream (Except AuthError)

structure SaslAuth where
  serverGuid : String

structure AuthResult where
  uid : UInt32
  bufferedData : List UInt8
  deriving DecidableEq, Repr

def readLine : Auth (List UInt8) := do
  let stream ← get
  let (raw, reader) := readUntil stream.reader.buffer stream.reader.arriving
  set { stream with reader := reader }
  if isUtf8 raw = false then throw .streamNotUtf8
  let line := strip raw
  if line = [] then throw .unexpectedEof
  return line

def writeAll (line : List UInt8) : Auth Unit :=
  modify (fun stream => { stream with written := stream.written ++ [line] })

def liftExcept {α : Type} (result : Except AuthError α) : Auth α :=
  match result with
  | .ok a => return a
  | .error e => throw e

namespace SaslAuth

def rejected : List UInt8 := utf8Bytes "REJECTED EXTERNAL\r\n"

def dataChallenge : List UInt8 := utf8Bytes "DATA\r\n"

def okResponse (auth : SaslAuth) : List UInt8 := utf8Bytes ("OK " ++ auth.serverGuid ++ "\r\n")

def agreeUnixFd : List UInt8 := utf8Bytes "AGREE_UNIX_FD\r\n"

def completeAuth (auth : SaslAuth) (uid : UInt32) : Auth AuthResult := do
  writeAll auth.okResponse
  let line ← readLine
  if line = utf8Bytes "NEGOTIATE_UNIX_FD" then
    writeAll agreeUnixFd
    let line ← readLine
    if line ≠ utf8Bytes "BEGIN" then throw .expectedBegin
  else if line ≠ utf8Bytes "BEGIN" then throw .expectedBegin
  let stream ← get
  return ⟨uid, stream.reader.buffer⟩

/-- The challenge-response flow after a bare `AUTH EXTERNAL`. An empty response
stands for the user the multiplexer itself runs as. -/
def challenge (auth : SaslAuth) (processUid : UInt32) : Auth AuthResult := do
  writeAll dataChallenge
  let line ← readLine
  if (utf8Bytes "DATA ").isPrefixOf line then
    let uid ← liftExcept (parseHexUid (line.drop (utf8Bytes "DATA ").length))
    auth.completeAuth uid
  else if line = utf8Bytes "DATA" then auth.completeAuth processUid
  else throw (.expectedData line)

/-- The loop of `authenticate_server`. Every line takes at least one byte, so the
bytes left are fuel enough: without any the next line is empty. -/
def authLoop (auth : SaslAuth) (processUid : UInt32) : Nat → Auth AuthResult
  | 0 => throw .unexpectedEof
  | fuel + 1 => do
      let line ← readLine
      if (utf8Bytes "AUTH EXTERNAL ").isPrefixOf line then
        let uid ← liftExcept (parseHexUid (line.drop (utf8Bytes "AUTH EXTERNAL ").length))
        auth.completeAuth uid
      else if line = utf8Bytes "AUTH EXTERNAL" then auth.challenge processUid
      else if line = utf8Bytes "AUTH" then
        writeAll rejected
        auth.authLoop processUid fuel
      else if (utf8Bytes "AUTH ").isPrefixOf line then
        writeAll rejected
        auth.authLoop processUid fuel
      else if line = utf8Bytes "CANCEL" then
        writeAll rejected
        auth.authLoop processUid fuel
      else if line = utf8Bytes "ERROR" ∨ (utf8Bytes "ERROR ").isPrefixOf line then
        writeAll rejected
        auth.authLoop processUid fuel
      else throw (.unexpectedLine line)

/-- One byte straight from the socket. The rest of what arrived with it stays there. -/
def readByte : List (List UInt8) → Except AuthError (UInt8 × List (List UInt8))
  | [] => .error .unexpectedEof
  | [] :: arriving => readByte arriving
  | (b :: piece) :: arriving => .ok (b, piece :: arriving)

/-- `arriving` has what the client sends, as the reads will deliver it. -/
def authenticateServer (auth : SaslAuth) (processUid : UInt32) (arriving : List (List UInt8)) :
    Except AuthError (AuthResult × SaslStream) :=
  match readByte arriving with
  | .error e => .error e
  | .ok (nullByte, arriving) =>
      if nullByte ≠ 0 then .error .expectedNullByte
      else
        let stream : SaslStream := ⟨⟨[], arriving⟩, []⟩
        (auth.authLoop processUid stream.reader.stream.length).run stream

end SaslAuth

end KapsuleDbusMux
