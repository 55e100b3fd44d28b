import KapsuleDbusMux.Library.Framing
import Mathlib.Data.UInt

/-! # Reading messages from a client

`read_exact`, `read_exact_into_buf`, `read_message` and `run` of `client.rs`. The
future of `read_message` is cut where it waits for the socket, and `select!` drops
it there when a message for the client is ready. `u32` arithmetic wraps, as in a
release build, and a slice out of bounds ends the handler. The messages written
to the client are left out.
-/

namespace KapsuleDbusMux

/-! ## The fixed header -/

def u32FromLeBytes (bytes : List UInt8) : UInt32 :=
  UInt32.ofNat (bytes.foldr (fun b acc => b.toNat + 256 * acc) 0)

def u32FromBeBytes (bytes : List UInt8) : UInt32 :=
  UInt32.ofNat (bytes.foldl (fun acc b => 256 * acc + b.toNat) 0)

namespace MessageHeader

def length : Nat := 16

/-- The four bytes from `i` on, in the byte order that byte 0 announces. -/
def u32At (header : List UInt8) (i : Nat) : UInt32 :=
  let bytes := (header.drop i).take 4
  if header.head? = some 0x6c then u32FromLeBytes bytes else u32FromBeBytes bytes

def bodyLen (header : List UInt8) : UInt32 := u32At header 4

def fieldsLen (header : List UInt8) : UInt32 := u32At header 12

/-- `total_size` as `read_message` computes it. -/
def totalSize (header : List UInt8) : UInt32 :=
  let fieldsLenPadded := (fieldsLen header + 7) &&& ~~~7
  16 + fieldsLenPadded + bodyLen header

/-- The size of the message by the D-Bus specification: the fixed header, the
header fields padded to eight bytes, and the body. -/
def declaredSize (header : List UInt8) : Nat :=
  16 + 8 * (((fieldsLen header).toNat + 7) / 8) + (bodyLen header).toNat

theorem and_not_seven (x : BitVec 32) : x &&& ~~~7#32 = (x >>> 3) <<< 3 := by
  ext i hi
  by_cases hlow : i < 3
  · have hcase : i = 0 ∨ i = 1 ∨ i = 2 := by omega
    rcases hcase with h | h | h
    all_goals
      subst h
      simp
  · have hseven : (7#32)[i] = false := by
      have hpow : 2 ^ 3 ≤ 2 ^ i := Nat.pow_le_pow_right (by decide) (by omega)
      rw [BitVec.getElem_eq_testBit_toNat]
      exact Nat.testBit_lt_two_pow (Nat.lt_of_lt_of_le (by decide) hpow)
    have hback : 3 + (i - 3) = i := by omega
    rw [BitVec.getElem_and, BitVec.getElem_not, hseven]
    simp [hlow, hback, BitVec.getLsbD_eq_getElem hi]

theorem toNat_and_not_seven (x : UInt32) : (x &&& ~~~7).toNat = 8 * (x.toNat / 8) := by
  have hbits : (x &&& ~~~7).toNat = (x.toBitVec &&& ~~~7#32).toNat := rfl
  have hlt := x.toNat_lt
  rw [hbits, and_not_seven]
  simp only [BitVec.toNat_shiftLeft, BitVec.toNat_ushiftRight, Nat.shiftRight_eq_div_pow,
    Nat.shiftLeft_eq, UInt32.toNat_toBitVec]
  omega

theorem toNat_totalSize {header : List UInt8} (h : declaredSize header < 2 ^ 32) :
    (totalSize header).toNat = declaredSize header := by
  have hfields := (fieldsLen header).toNat_lt
  unfold declaredSize at h ⊢
  simp only [totalSize, UInt32.toNat_add, toNat_and_not_seven]
  have hsixteen : (16 : UInt32).toNat = 16 := rfl
  have hseven : (7 : UInt32).toNat = 7 := rfl
  rw [hsixteen, hseven]
  omega

end MessageHeader

/-! ## The handler -/

/-- What zbus makes of the bytes of a message: `Message::from_bytes`, which keeps
them, and `Message::data`, which gives them back. -/
structure MessageFormat (M : Type) where
  fromBytes : List UInt8 → Option M
  data : M → List UInt8
  data_of_fromBytes : ∀ bytes msg, fromBytes bytes = some msg → data msg = bytes

structure ClientHandler where
  readBuf : List UInt8
  pendingData : List UInt8
  pendingPos : Nat
  deriving DecidableEq, Repr

/-- Where the future of `read_message` waits: for the rest of the local `header`
array, or for the bytes that follow a complete header. -/
inductive ReadMessage where
  | header (filled : List UInt8)
  | rest (header : List UInt8) (filled : Nat)
  deriving DecidableEq, Repr

/-- What `read_message` returns when the client has closed the socket: `Ok(None)`
while it waits for a header, and an error behind one. -/
inductive EndOfFile where
  | disconnected
  | unexpectedEof
  deriving DecidableEq, Repr

def ReadMessage.atEof : ReadMessage → EndOfFile
  | .header _ => .disconnected
  | .rest _ _ => .unexpectedEof

/-- A handler in its loop. `socket` has what the client sent and nobody has read,
`toCome` what it has still to send, and `inbound` what went to `inbound_tx`. -/
structure Session (M : Type) where
  handler : ClientHandler
  socket : List UInt8
  toCome : List UInt8
  reading : ReadMessage := .header []
  inbound : List M := []
  running : Bool := true
  deriving DecidableEq

/-- Write into a buffer, as `copy_from_slice` on a slice of it does. -/
def writeAt (buf : List UInt8) (offset : Nat) (bytes : List UInt8) : List UInt8 :=
  buf.take offset ++ bytes ++ buf.drop (offset + bytes.length)

/-- `Vec::resize` to at least this length. -/
def growTo (buf : List UInt8) (size : Nat) : List UInt8 :=
  buf ++ List.replicate (size - buf.length) 0

namespace ClientHandler

def accept (bufferedData : List UInt8) : ClientHandler where
  readBuf := List.replicate 16384 0
  pendingData := bufferedData
  pendingPos := 0

def unread (handler : ClientHandler) : List UInt8 := handler.pendingData.drop handler.pendingPos

/-- Take up to `len` of the pending bytes. -/
def takePending (handler : ClientHandler) (len : Nat) : List UInt8 × ClientHandler :=
  let toCopy := min handler.unread.length len
  let pos := handler.pendingPos + toCopy
  (handler.unread.take toCopy,
    if pos ≥ handler.pendingData.length then { handler with pendingData := [], pendingPos := 0 }
    else { handler with pendingPos := pos })

end ClientHandler

namespace Session

variable {M : Type}

def accepted (bufferedData toCome : List UInt8) : Session M where
  handler := .accept bufferedData
  socket := []
  toCome := toCome

/-- One read of up to `len` bytes: pending bytes come first, and a read from the
socket returns `n` bytes. -/
def read (s : Session M) (len n : Nat) : Option (List UInt8 × Session M) :=
  if s.handler.pendingPos < s.handler.pendingData.length then
    some ((s.handler.takePending len).1, { s with handler := (s.handler.takePending len).2 })
  else if 0 < n ∧ n ≤ len ∧ n ≤ s.socket.length then
    some (s.socket.take n, { s with socket := s.socket.drop n })
  else none

/-- `total_size - 16`, which wraps. -/
def remaining (header : List UInt8) : Nat := (MessageHeader.totalSize header - 16).toNat

def finish (format : MessageFormat M) (s : Session M) (header : List UInt8) : Session M :=
  match format.fromBytes (s.handler.readBuf.take (MessageHeader.totalSize header).toNat) with
  | some msg => { s with inbound := s.inbound ++ [msg], reading := .header [] }
  | none => { s with running := false, reading := .rest header (remaining header) }

/-- What follows a complete header in `read_message`, up to the next wait. -/
def startRest (format : MessageFormat M) (s : Session M) (header : List UInt8) : Session M :=
  let readBuf := growTo s.handler.readBuf (MessageHeader.totalSize header).toNat
  let s := { s with handler := { s.handler with readBuf := writeAt readBuf 0 header } }
  if remaining header = 0 then finish format s header
  else if 16 + remaining header ≤ readBuf.length then { s with reading := .rest header 0 }
  else { s with running := false, reading := .header header }

def poll (format : MessageFormat M) (s : Session M) (n : Nat) : Option (Session M) :=
  match s.reading with
  | .header filled =>
      match s.read (MessageHeader.length - filled.length) n with
      | none => none
      | some (bytes, s) =>
          let filled := filled ++ bytes
          if filled.length = MessageHeader.length then some (startRest format s filled)
          else some { s with reading := .header filled }
  | .rest header filled =>
      match s.read (remaining header - filled) n with
      | none => none
      | some (bytes, s) =>
          let readBuf := writeAt s.handler.readBuf (16 + filled) bytes
          let s := { s with handler := { s.handler with readBuf := readBuf } }
          let filled := filled + bytes.length
          if filled = remaining header then some (finish format s header)
          else some { s with reading := .rest header filled }

def drained (s : Session M) : Prop :=
  s.handler.unread = [] ∧ s.socket = [] ∧ s.toCome = []

instance (s : Session M) : Decidable s.drained := inferInstanceAs (Decidable (_ ∧ _ ∧ _))

end Session

/-- What happens in the loop of `run`: bytes reach the socket, the read in progress
is polled, the other branch of `select!` is taken, or the client hangs up. -/
inductive SessionEvent where
  | arrive (n : Nat)
  | poll (n : Nat)
  | outbound
  | hangUp
  deriving DecidableEq, Repr

namespace Session

variable {M : Type}

/-- With the other branch `select!` drops the future of `read_message`, and the
next round of the loop starts a new one. -/
def step (format : MessageFormat M) (s : Session M) (e : SessionEvent) : Option (Session M) :=
  if s.running then
    match e with
    | .arrive n =>
        if 0 < n ∧ n ≤ s.toCome.length then
          some { s with socket := s.socket ++ s.toCome.take n, toCome := s.toCome.drop n }
        else none
    | .poll n => s.poll format n
    | .outbound => some { s with reading := .header [] }
    | .hangUp => if s.drained then some { s with running := false } else none
  else none

end Session

end KapsuleDbusMux
