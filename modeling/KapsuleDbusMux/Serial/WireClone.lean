import KapsuleDbusMux.Client.InboundFraming
import KapsuleDbusMux.Message

/-! # Cloning a message on the wire

`clone_message_with_serial` of `message.rs` on the bytes of a message. It patches the
serial into a copy of the bytes and has zbus decode them again. File descriptors are
not among the bytes, and the copy has none; everything else is as before.
-/

namespace KapsuleDbusMux

/-! ## Serials in bytes -/

def u32ToLeBytes (n : UInt32) : List UInt8 :=
  [UInt8.ofNat n.toNat, UInt8.ofNat (n.toNat / 256), UInt8.ofNat (n.toNat / 65536),
    UInt8.ofNat (n.toNat / 16777216)]

def u32ToBeBytes (n : UInt32) : List UInt8 := (u32ToLeBytes n).reverse

theorem u32FromBeBytes_eq (bytes : List UInt8) :
    u32FromBeBytes bytes = u32FromLeBytes bytes.reverse := by
  unfold u32FromBeBytes u32FromLeBytes
  rw [List.foldr_reverse]
  congr 1
  congr 1
  funext acc b
  exact Nat.add_comm _ _

theorem u32FromLeBytes_toLeBytes (n : UInt32) : u32FromLeBytes (u32ToLeBytes n) = n := by
  have hn := n.toNat_lt
  apply UInt32.toNat_inj.mp
  simp only [u32FromLeBytes, u32ToLeBytes, List.foldr_cons, List.foldr_nil, UInt8.toNat_ofNat',
    UInt32.toNat_ofNat']
  omega

theorem u32ToLeBytes_fromLeBytes {bytes : List UInt8} (h : bytes.length = 4) :
    u32ToLeBytes (u32FromLeBytes bytes) = bytes := by
  match bytes, h with
  | [a, b, c, d], _ =>
      have ha := a.toNat_lt
      have hb := b.toNat_lt
      have hc := c.toNat_lt
      have hd := d.toNat_lt
      have hvalue : (u32FromLeBytes [a, b, c, d]).toNat =
          a.toNat + 256 * (b.toNat + 256 * (c.toNat + 256 * d.toNat)) := by
        simp only [u32FromLeBytes, List.foldr_cons, List.foldr_nil, UInt32.toNat_ofNat']
        omega
      have hbyte : ∀ (m : Nat) (x : UInt8), m % 256 = x.toNat → UInt8.ofNat m = x := by
        intro m x hm
        apply UInt8.toNat_inj.mp
        rw [UInt8.toNat_ofNat']
        exact hm
      unfold u32ToLeBytes
      rw [hvalue, hbyte _ a (by omega), hbyte _ b (by omega), hbyte _ c (by omega),
        hbyte _ d (by omega)]

def u32Bytes (littleEndian : Bool) (n : UInt32) : List UInt8 :=
  if littleEndian then u32ToLeBytes n else u32ToBeBytes n

def u32Of (littleEndian : Bool) (bytes : List UInt8) : UInt32 :=
  if littleEndian then u32FromLeBytes bytes else u32FromBeBytes bytes

theorem length_u32Bytes (littleEndian : Bool) (n : UInt32) :
    (u32Bytes littleEndian n).length = 4 := by
  cases littleEndian <;> rfl

theorem u32Of_u32Bytes (littleEndian : Bool) (n : UInt32) :
    u32Of littleEndian (u32Bytes littleEndian n) = n := by
  cases littleEndian with
  | true => exact u32FromLeBytes_toLeBytes n
  | false =>
      have hreverse : u32Bytes false n = (u32ToLeBytes n).reverse := rfl
      have hof : u32Of false (u32Bytes false n) = u32FromBeBytes (u32Bytes false n) := rfl
      rw [hof, u32FromBeBytes_eq, hreverse, List.reverse_reverse, u32FromLeBytes_toLeBytes]

theorem u32Bytes_u32Of (littleEndian : Bool) {bytes : List UInt8} (h : bytes.length = 4) :
    u32Bytes littleEndian (u32Of littleEndian bytes) = bytes := by
  cases littleEndian with
  | true => exact u32ToLeBytes_fromLeBytes h
  | false =>
      have hof : u32Of false bytes = u32FromBeBytes bytes := rfl
      have hbytes : u32Bytes false (u32FromBeBytes bytes) =
          (u32ToLeBytes (u32FromBeBytes bytes)).reverse := rfl
      rw [hof, hbytes, u32FromBeBytes_eq,
        u32ToLeBytes_fromLeBytes (by rw [List.length_reverse]; exact h), List.reverse_reverse]

/-! ## Messages as zbus keeps them -/

structure HeaderFields where
  replySerial : Option UInt32
  path : Option String
  interface : Option String
  member : Option String
  destination : Option String
  sender : Option String
  signature : String
  deriving DecidableEq, Repr

/-- What zbus decodes of the bytes before the serial and of those after it; the body may
refer to file descriptors. -/
structure WireFormat where
  headerFields : List UInt8 → List UInt8 → Option HeaderFields
  body : List UInt8 → List UInt8 → List Nat → Body

def messageTypeOf (byte : UInt8) : Option MessageType :=
  if byte = 1 then some .methodCall
  else if byte = 2 then some .methodReturn
  else if byte = 3 then some .error
  else if byte = 4 then some .signal
  else none

namespace WireFormat

/-- The bytes that `Message::from_bytes` accepts: a header with one of the two byte
orders, a known type, a serial other than zero, and fields that can be decoded. -/
def accepts (format : WireFormat) (bytes : List UInt8) : Bool :=
  decide (16 ≤ bytes.length) && (bytes.head? == some 0x6c || bytes.head? == some 0x42) &&
    (bytes[1]?.bind messageTypeOf).isSome && MessageHeader.u32At bytes 8 != 0 &&
    (format.headerFields (bytes.take 8) (bytes.drop 12)).isSome

end WireFormat

/-- A message of zbus: bytes that have been accepted, and file descriptors. -/
structure WireMessage (format : WireFormat) where
  bytes : List UInt8
  fds : List Nat
  accepted : format.accepts bytes = true

inductive CloneError where
  | invalidSerial
  | dbus
  deriving DecidableEq, Repr

namespace WireMessage

variable {format : WireFormat}

@[ext] theorem ext {msg msg' : WireMessage format} (hbytes : msg.bytes = msg'.bytes)
    (hfds : msg.fds = msg'.fds) : msg = msg' := by
  cases msg
  cases msg'
  cases hbytes
  cases hfds
  rfl

/-- `Message::from_bytes` of `Data::new`, which attaches no descriptors. -/
def fromBytes (format : WireFormat) (bytes : List UInt8) : Option (WireMessage format) :=
  if h : format.accepts bytes = true then some ⟨bytes, [], h⟩ else none

def littleEndian (msg : WireMessage format) : Bool := msg.bytes.head? == some 0x6c

def serial (msg : WireMessage format) : UInt32 := MessageHeader.u32At msg.bytes 8

def flags (msg : WireMessage format) : Option UInt8 := msg.bytes[2]?

def headerFields (msg : WireMessage format) : Option HeaderFields :=
  format.headerFields (msg.bytes.take 8) (msg.bytes.drop 12)

def signature (msg : WireMessage format) : Option String :=
  msg.headerFields.map HeaderFields.signature

/-- The message as the multiplexer reads it; an accepted one has a type and fields. -/
def decode (msg : WireMessage format) : Message where
  msgType := (msg.bytes[1]?.bind messageTypeOf).getD .methodCall
  serial := msg.serial
  replySerial := msg.headerFields.bind HeaderFields.replySerial
  path := msg.headerFields.bind HeaderFields.path
  interface := msg.headerFields.bind HeaderFields.interface
  member := msg.headerFields.bind HeaderFields.member
  destination := msg.headerFields.bind HeaderFields.destination
  sender := msg.headerFields.bind HeaderFields.sender
  body := format.body (msg.bytes.take 8) (msg.bytes.drop 12) msg.fds
  fds := msg.fds

def cloneMessageWithSerial (msg : WireMessage format) (newSerial : UInt32) :
    Except CloneError (WireMessage format) :=
  if newSerial = 0 then .error .invalidSerial
  else
    let serialBytes := u32Bytes msg.littleEndian newSerial
    match fromBytes format (writeAt msg.bytes 8 serialBytes) with
    | some copy => .ok copy
    | none => .error .dbus

/-! ## Patching the serial -/

theorem length_bytes (msg : WireMessage format) : 16 ≤ msg.bytes.length := by
  have h := msg.accepted
  simp only [WireFormat.accepts, Bool.and_eq_true, decide_eq_true_eq] at h
  exact h.1.1.1.1

def patched (msg : WireMessage format) (newSerial : UInt32) : List UInt8 :=
  writeAt msg.bytes 8 (u32Bytes msg.littleEndian newSerial)

section Patched

variable (msg : WireMessage format) (newSerial : UInt32)

theorem patched_eq : msg.patched newSerial =
    msg.bytes.take 8 ++ u32Bytes msg.littleEndian newSerial ++ msg.bytes.drop 12 := by
  unfold patched writeAt
  rw [length_u32Bytes]

theorem length_patched : (msg.patched newSerial).length = msg.bytes.length := by
  have hlength := msg.length_bytes
  apply length_writeAt
  rw [length_u32Bytes]
  omega

theorem take_patched : (msg.patched newSerial).take 8 = msg.bytes.take 8 := by
  have hlength := msg.length_bytes
  rw [patched_eq, List.append_assoc, List.take_left' (by rw [List.length_take]; omega)]

theorem drop_patched : (msg.patched newSerial).drop 12 = msg.bytes.drop 12 := by
  have hlength := msg.length_bytes
  rw [patched_eq, List.drop_left']
  rw [List.length_append, List.length_take, length_u32Bytes]
  omega

theorem serialBytes_patched :
    ((msg.patched newSerial).drop 8).take 4 = u32Bytes msg.littleEndian newSerial := by
  have hlength := msg.length_bytes
  rw [patched_eq, List.append_assoc, List.drop_left' (by rw [List.length_take]; omega),
    List.take_left' (length_u32Bytes _ _)]

theorem getElem?_patched {i : Nat} (hi : i < 8) : (msg.patched newSerial)[i]? = msg.bytes[i]? := by
  have htake := congrArg (fun l => l[i]?) (msg.take_patched newSerial)
  simpa [List.getElem?_take, hi] using htake

theorem head?_patched : (msg.patched newSerial).head? = msg.bytes.head? := by
  rw [List.head?_eq_getElem?, List.head?_eq_getElem?]
  exact msg.getElem?_patched newSerial (by decide)

theorem u32At_eq (bytes : List UInt8) :
    MessageHeader.u32At bytes 8 = u32Of (bytes.head? == some 0x6c) ((bytes.drop 8).take 4) := by
  unfold MessageHeader.u32At u32Of
  simp only [beq_iff_eq]

theorem serial_patched : MessageHeader.u32At (msg.patched newSerial) 8 = newSerial := by
  rw [u32At_eq, head?_patched, serialBytes_patched]
  exact u32Of_u32Bytes _ _

theorem accepts_patched (hserial : newSerial ≠ 0) :
    format.accepts (msg.patched newSerial) = true := by
  have h := msg.accepted
  unfold WireFormat.accepts at h ⊢
  rw [length_patched, head?_patched, msg.getElem?_patched newSerial (by decide), serial_patched,
    take_patched, drop_patched]
  simp only [Bool.and_eq_true, bne_iff_ne] at h ⊢
  exact ⟨⟨h.1.1, hserial⟩, h.2⟩

end Patched

/-! ## The copy -/

/-- The message with another serial and without descriptors. -/
def renumbered (msg : WireMessage format) {newSerial : UInt32} (hserial : newSerial ≠ 0) :
    WireMessage format :=
  ⟨msg.patched newSerial, [], msg.accepts_patched newSerial hserial⟩

theorem cloneMessageWithSerial_eq (msg : WireMessage format) {newSerial : UInt32}
    (hserial : newSerial ≠ 0) :
    msg.cloneMessageWithSerial newSerial = .ok (msg.renumbered hserial) := by
  have haccepts := msg.accepts_patched newSerial hserial
  have hdecoded : fromBytes format (msg.patched newSerial) = some (msg.renumbered hserial) :=
    dif_pos haccepts
  unfold patched at hdecoded
  unfold cloneMessageWithSerial
  rw [if_neg hserial]
  dsimp only
  rw [hdecoded]

theorem patched_renumbered (msg : WireMessage format) {first : UInt32} (hfirst : first ≠ 0)
    (second : UInt32) : (msg.renumbered hfirst).patched second = msg.patched second := by
  have hendian : (msg.renumbered hfirst).littleEndian = msg.littleEndian := by
    unfold littleEndian renumbered
    rw [head?_patched]
  have hbytes : (msg.renumbered hfirst).bytes = msg.patched first := rfl
  rw [patched_eq, patched_eq, hendian, hbytes, take_patched, drop_patched]

theorem patched_serial (msg : WireMessage format) : msg.patched msg.serial = msg.bytes := by
  have hlength := msg.length_bytes
  have hserial : u32Bytes msg.littleEndian msg.serial = (msg.bytes.drop 8).take 4 := by
    unfold serial littleEndian
    rw [u32At_eq]
    apply u32Bytes_u32Of
    rw [List.length_take, List.length_drop]
    omega
  have htail : (msg.bytes.drop 8).drop 4 = msg.bytes.drop 12 := by
    rw [List.drop_drop]
  rw [patched_eq, hserial, List.append_assoc, ← htail, List.take_append_drop,
    List.take_append_drop]

theorem decode_renumbered (msg : WireMessage format) {newSerial : UInt32}
    (hserial : newSerial ≠ 0) :
    (msg.renumbered hserial).decode =
      { msg.decode with
        serial := newSerial
        body := format.body (msg.bytes.take 8) (msg.bytes.drop 12) []
        fds := [] } := by
  have hfields : (msg.renumbered hserial).headerFields = msg.headerFields := by
    unfold headerFields renumbered
    rw [take_patched, drop_patched]
  have hnumber : (msg.renumbered hserial).serial = newSerial := msg.serial_patched newSerial
  unfold decode
  rw [hfields, hnumber]
  unfold renumbered
  dsimp only
  rw [take_patched, drop_patched, msg.getElem?_patched newSerial (by decide)]

/-- As long as the body can be decoded without descriptors, the copy is the one that the
model of decoded messages makes. -/
theorem decode_cloneMessageWithSerial {msg copy : WireMessage format} {newSerial : UInt32}
    (hcopy : msg.cloneMessageWithSerial newSerial = .ok copy)
    (hbody : format.body (msg.bytes.take 8) (msg.bytes.drop 12) [] = msg.decode.body) :
    msg.decode.cloneMessageWithSerial newSerial = .ok copy.decode := by
  have hserial : newSerial ≠ 0 := by
    rintro rfl
    cases hcopy
  rw [cloneMessageWithSerial_eq msg hserial] at hcopy
  cases hcopy
  rw [decode_renumbered, hbody, Message.cloneMessageWithSerial, if_neg hserial]

/-- The copy differs from the message only in its serial: on the wire, in what is decoded
of it, and in the descriptors it carries. -/
structure DiffersOnlyInSerial (msg copy : WireMessage format) (newSerial : UInt32) : Prop where
  before : copy.bytes.take 8 = msg.bytes.take 8
  after : copy.bytes.drop 12 = msg.bytes.drop 12
  length : copy.bytes.length = msg.bytes.length
  decoded : copy.decode = { msg.decode with serial := newSerial }
  flags : copy.flags = msg.flags
  signature : copy.signature = msg.signature
  fds : copy.fds = msg.fds

/-- Cloning a message gives a copy that differs only in its serial, that can be cloned
again as the message itself, and that is the message when the serial is the same, if and
only if the message carries no descriptors. -/
theorem clone_differs_only_in_serial_iff (msg : WireMessage format) {newSerial : UInt32}
    (hserial : newSerial ≠ 0) :
    (∃ copy, msg.cloneMessageWithSerial newSerial = .ok copy ∧
        msg.DiffersOnlyInSerial copy newSerial ∧
        (∀ t, t ≠ 0 → copy.cloneMessageWithSerial t = msg.cloneMessageWithSerial t) ∧
        (newSerial = msg.serial → copy = msg)) ↔ msg.fds = [] := by
  rw [cloneMessageWithSerial_eq msg hserial]
  constructor
  · rintro ⟨copy, hcopy, hdiffers, _⟩
    cases hcopy
    exact hdiffers.fds.symm
  · intro hfds
    refine ⟨_, rfl, ?_, fun t ht => ?_, fun hsame => ?_⟩
    · exact {
        before := msg.take_patched newSerial
        after := msg.drop_patched newSerial
        length := msg.length_patched newSerial
        decoded := by
          rw [decode_renumbered]
          simp only [decode, hfds]
        flags := msg.getElem?_patched newSerial (by decide)
        signature := by
          unfold signature headerFields renumbered
          rw [take_patched, drop_patched]
        fds := hfds.symm }
    · rw [cloneMessageWithSerial_eq _ ht, cloneMessageWithSerial_eq _ ht]
      exact congrArg Except.ok (ext (patched_renumbered msg hserial t) rfl)
    · subst hsame
      exact ext (patched_serial msg) hfds.symm

/-- The fields `PATH` = "/a" and `MEMBER` = "M", 26 bytes long, and the padding to the
body. -/
def plainFields : List UInt8 :=
  [1, 1, 0x6f, 0, 2, 0, 0, 0, 0x2f, 0x61, 0, 0, 0, 0, 0, 0,
    3, 1, 0x73, 0, 1, 0, 0, 0, 0x4d, 0, 0, 0, 0, 0, 0, 0]

/-- The same with `SIGNATURE` = "h" and `UNIX_FDS` = 1. -/
def descriptorFields : List UInt8 :=
  plainFields ++ [8, 1, 0x67, 0, 1, 0x68, 0, 0, 9, 1, 0x75, 0, 1, 0, 0, 0]

def sampleFormat : WireFormat where
  headerFields _ after :=
    if after = [26, 0, 0, 0] ++ plainFields then
      some ⟨none, some "/a", none, some "M", none, none, ""⟩
    else if after = [48, 0, 0, 0] ++ descriptorFields ++ [0, 0, 0, 0] then
      some ⟨none, some "/a", none, some "M", none, none, "h"⟩
    else none
  body _ _ fds :=
    match fds with
    | [] => ⟨[], false⟩
    | fd :: _ => ⟨[.other "h" [UInt8.ofNat fd]], true⟩

def plainCall : WireMessage sampleFormat :=
  ⟨[0x6c, 1, 0, 1, 0, 0, 0, 0, 1, 0, 0, 0, 26, 0, 0, 0] ++ plainFields, [], by decide⟩

/-- A call of `M` with serial 1 that passes the descriptor 7. -/
def descriptorCall : WireMessage sampleFormat :=
  ⟨[0x6c, 1, 0, 1, 4, 0, 0, 0, 1, 0, 0, 0, 48, 0, 0, 0] ++ descriptorFields ++ [0, 0, 0, 0],
    [7], by decide⟩

theorem clone_differs_only_in_serial_plainCall :
    ∃ copy, plainCall.cloneMessageWithSerial 258 = .ok copy ∧
      plainCall.DiffersOnlyInSerial copy 258 ∧
      (∀ t, t ≠ 0 → copy.cloneMessageWithSerial t = plainCall.cloneMessageWithSerial t) ∧
      (258 = plainCall.serial → copy = plainCall) :=
  (clone_differs_only_in_serial_iff plainCall (by decide)).mpr rfl

/-- The copy of a call with a descriptor has none. -/
theorem clone_drops_descriptors :
    ¬ ∀ (format : WireFormat) (msg : WireMessage format) (newSerial : UInt32), newSerial ≠ 0 →
        ∃ copy, msg.cloneMessageWithSerial newSerial = .ok copy ∧
          msg.DiffersOnlyInSerial copy newSerial ∧
          (∀ t, t ≠ 0 → copy.cloneMessageWithSerial t = msg.cloneMessageWithSerial t) ∧
          (newSerial = msg.serial → copy = msg) := by
  intro h
  obtain ⟨copy, hcopy, hdiffers, _⟩ := h sampleFormat descriptorCall 258 (by decide)
  rw [cloneMessageWithSerial_eq _ (by decide)] at hcopy
  cases hcopy
  exact absurd hdiffers.fds (by decide)

end WireMessage

end KapsuleDbusMux
