import KapsuleDbusMux.Client.InboundFraming
import KapsuleDbusMux.Library.Machine

/-! # The arithmetic of frame lengths

`read_message` of `client.rs` from a complete header on, in debug and in release
builds, with every sum, difference and slice that can go wrong. The lengths in the
header are the client's. They are added up exactly, and every slice is in bounds,
exactly when the size of the message fits into 32 bits.
-/

namespace KapsuleDbusMux

open Machine (Exec Quiet Ends addU32 subU32 slice copyFromSlice quiet_bind)

/-- What `read_message` returns as an error behind a complete header. -/
inductive ReadError where
  | unexpectedEof
  | invalidMessage
  deriving DecidableEq, Repr

/-- `total_size`. Overflow checks are on in debug builds. -/
def frameSize (checks : Bool) (header : List UInt8) : Exec UInt32 := do
  let fieldsLen ← addU32 checks (MessageHeader.fieldsLen header) 7
  let fieldsLenPadded := fieldsLen &&& ~~~7
  let size ← addU32 checks 16 fieldsLenPadded
  addU32 checks size (MessageHeader.bodyLen header)

namespace ClientHandler

/-- The part of `read_exact_into_buf` that takes pending data, with the number of bytes
it has filled. -/
def copyPending (handler : ClientHandler) (offset len : Nat) : Exec (ClientHandler × Nat) :=
  if handler.pendingPos < handler.pendingData.length then do
    let pendingRemaining ← slice handler.pendingData handler.pendingPos handler.pendingData.length
    let toCopy := min pendingRemaining.length len
    let bytes ← slice pendingRemaining 0 toCopy
    let readBuf ← copyFromSlice handler.readBuf offset (offset + toCopy) bytes
    pure ({ (handler.takePending len).2 with readBuf := readBuf }, toCopy)
  else pure (handler, 0)

/-- `read_exact` of the socket into a part of the buffer. `stream` has all the client
sends before it closes the socket. -/
def readExactFromStream (handler : ClientHandler) (stream : List UInt8) (lo hi : Nat) :
    Exec (Except ReadError (ClientHandler × List UInt8)) := do
  let target ← slice handler.readBuf lo hi
  if target.length ≤ stream.length then
    let readBuf ← copyFromSlice handler.readBuf lo hi (stream.take target.length)
    pure (.ok ({ handler with readBuf := readBuf }, stream.drop target.length))
  else pure (.error .unexpectedEof)

def readExactIntoBuf (handler : ClientHandler) (stream : List UInt8) (offset len : Nat) :
    Exec (Except ReadError (ClientHandler × List UInt8)) := do
  let (handler, filled) ← handler.copyPending offset len
  if filled < len then handler.readExactFromStream stream (offset + filled) (offset + len)
  else pure (.ok (handler, stream))

/-- `if remaining > 0`: a message without fields and body is complete. -/
def readRemaining (handler : ClientHandler) (stream : List UInt8) (remaining : UInt32) :
    Exec (Except ReadError (ClientHandler × List UInt8)) :=
  if 0 < remaining.toNat then handler.readExactIntoBuf stream 16 remaining.toNat
  else pure (.ok (handler, stream))

def readMessage {M : Type} (checks : Bool) (format : MessageFormat M) (handler : ClientHandler)
    (stream header : List UInt8) : Exec (Except ReadError (M × ClientHandler × List UInt8)) := do
  let totalSize ← frameSize checks header
  let readBuf ← copyFromSlice (growTo handler.readBuf totalSize.toNat) 0 16 header
  let remaining ← subU32 checks totalSize 16
  let filled ← readRemaining { handler with readBuf := readBuf } stream remaining
  match filled with
  | .error e => pure (.error e)
  | .ok (handler, stream) =>
      let bytes ← slice handler.readBuf 0 totalSize.toNat
      match format.fromBytes bytes with
      | none => pure (.error .invalidMessage)
      | some msg => pure (.ok (msg, handler, stream))

end ClientHandler

/-! ## The size -/

theorem quiet_frameSize_iff {checks : Bool} {header : List UInt8} {size : UInt32} :
    Quiet (frameSize checks header) size ↔
      MessageHeader.declaredSize header < 2 ^ 32 ∧ size = MessageHeader.totalSize header := by
  have hfields := (MessageHeader.fieldsLen header).toNat_lt
  have hsixteen : (16 : UInt32).toNat = 16 := rfl
  have hseven : (7 : UInt32).toNat = 7 := rfl
  unfold frameSize MessageHeader.declaredSize
  simp only [quiet_bind, Machine.quiet_addU32]
  constructor
  · rintro ⟨fieldsLen, ⟨hfirst, rfl⟩, size', ⟨hsecond, rfl⟩, hthird, rfl⟩
    refine ⟨?_, rfl⟩
    rw [UInt32.toNat_add, MessageHeader.toNat_and_not_seven, UInt32.toNat_add] at hthird
    rw [MessageHeader.toNat_and_not_seven, UInt32.toNat_add] at hsecond
    rw [hsixteen, hseven] at hsecond hthird
    rw [hseven] at hfirst
    omega
  · rintro ⟨hfits, rfl⟩
    refine ⟨_, ⟨?_, rfl⟩, _, ⟨?_, rfl⟩, ?_, rfl⟩
    · rw [hseven]
      omega
    · rw [MessageHeader.toNat_and_not_seven, UInt32.toNat_add, hsixteen, hseven]
      omega
    · rw [UInt32.toNat_add, MessageHeader.toNat_and_not_seven, UInt32.toNat_add, hsixteen, hseven]
      omega

/-- A release build computes the wrapped size, on which the framing of the stream rests. -/
theorem frameSize_release (header : List UInt8) :
    ∃ wrapped, frameSize false header = .done (MessageHeader.totalSize header) wrapped := by
  have hadd : ∀ a b, ∃ wrapped, addU32 false a b = .done (a + b) wrapped := by
    intro a b
    unfold addU32
    split
    · exact ⟨_, rfl⟩
    · exact ⟨_, rfl⟩
  obtain ⟨first, hfirst⟩ := hadd (MessageHeader.fieldsLen header) 7
  obtain ⟨second, hsecond⟩ := hadd 16 ((MessageHeader.fieldsLen header + 7) &&& ~~~7)
  obtain ⟨third, hthird⟩ := hadd (16 + ((MessageHeader.fieldsLen header + 7) &&& ~~~7))
    (MessageHeader.bodyLen header)
  refine ⟨first || (second || third), ?_⟩
  simp only [frameSize, bind, Exec.bind, hfirst, hsecond, hthird]
  rfl

/-! ## Slices -/

namespace ClientHandler

def KeepsLength (handler : ClientHandler) :
    Except ReadError (ClientHandler × List UInt8) → Prop
  | .error _ => True
  | .ok (handler', _) => handler'.readBuf.length = handler.readBuf.length

theorem ends_copyPending {handler : ClientHandler} {offset len : Nat}
    (hroom : offset + len ≤ handler.readBuf.length) :
    Ends (handler.copyPending offset len)
      (fun r => r.2 ≤ len ∧ r.1.readBuf.length = handler.readBuf.length) := by
  unfold copyPending
  split
  · next hpending =>
      apply (Machine.ends_slice (Nat.le_of_lt hpending) (Nat.le_refl _)).bind
      rintro pendingRemaining -
      apply (Machine.ends_slice (Nat.zero_le _) (Nat.min_le_left _ len)).bind
      intro bytes hbytes
      have hlength : bytes.length = min pendingRemaining.length len := by
        rw [hbytes, List.drop_zero, List.length_take]
        omega
      apply (Machine.ends_copyFromSlice (Nat.le_add_right offset _) (by omega) (by omega)).bind
      intro readBuf hreadBuf
      exact Machine.ends_pure ⟨Nat.min_le_right _ _, hreadBuf⟩
  · exact Machine.ends_pure ⟨Nat.zero_le _, rfl⟩

theorem ends_readExactFromStream {handler : ClientHandler} (stream : List UInt8) {lo hi : Nat}
    (hlo : lo ≤ hi) (hroom : hi ≤ handler.readBuf.length) :
    Ends (handler.readExactFromStream stream lo hi) handler.KeepsLength := by
  unfold readExactFromStream
  apply (Machine.ends_slice hlo hroom).bind
  intro target htarget
  have hsize : target.length = hi - lo := by
    rw [htarget, List.length_drop, List.length_take]
    omega
  split
  · next henough =>
      have hbytes : (stream.take target.length).length = hi - lo := by
        rw [List.length_take]
        omega
      apply (Machine.ends_copyFromSlice hlo hroom hbytes).bind
      intro readBuf hreadBuf
      exact Machine.ends_pure hreadBuf
  · exact Machine.ends_pure trivial

theorem ends_readExactIntoBuf {handler : ClientHandler} (stream : List UInt8) {offset len : Nat}
    (hroom : offset + len ≤ handler.readBuf.length) :
    Ends (handler.readExactIntoBuf stream offset len) handler.KeepsLength := by
  unfold readExactIntoBuf
  apply (ends_copyPending hroom).bind
  rintro ⟨handler', filled⟩ ⟨hfilled, hlength⟩
  dsimp only at hfilled hlength ⊢
  split
  · have hroom' : offset + len ≤ handler'.readBuf.length := by omega
    have hread := ends_readExactFromStream stream (Nat.add_le_add_left hfilled offset) hroom'
    unfold KeepsLength at hread ⊢
    rw [hlength] at hread
    exact hread
  · exact Machine.ends_pure hlength

theorem ends_readRemaining {handler : ClientHandler} (stream : List UInt8) {remaining : UInt32}
    (hroom : 16 + remaining.toNat ≤ handler.readBuf.length) :
    Ends (handler.readRemaining stream remaining) handler.KeepsLength := by
  unfold readRemaining
  split
  · exact ends_readExactIntoBuf stream hroom
  · exact Machine.ends_pure rfl

/-- When the size of the message fits into 32 bits, nothing goes wrong. -/
theorem ends_readMessage {M : Type} (checks : Bool) (format : MessageFormat M)
    (handler : ClientHandler) (stream : List UInt8) {header : List UInt8}
    (hheader : header.length = 16) (hfits : MessageHeader.declaredSize header < 2 ^ 32) :
    Ends (readMessage checks format handler stream header) (fun _ => True) := by
  have hsize := MessageHeader.toNat_totalSize hfits
  have hsixteen : (16 : UInt32).toNat = 16 := rfl
  have hmin : 16 ≤ (MessageHeader.totalSize header).toNat := by
    rw [hsize, MessageHeader.declaredSize]
    omega
  have hgrown := length_growTo handler.readBuf (MessageHeader.totalSize header).toNat
  have hremaining : (MessageHeader.totalSize header - 16).toNat =
      (MessageHeader.totalSize header).toNat - 16 :=
    UInt32.toNat_sub_of_le _ _ (by rw [UInt32.le_iff_toNat_le, hsixteen]; exact hmin)
  unfold readMessage
  apply Ends.bind ⟨_, quiet_frameSize_iff.mpr ⟨hfits, rfl⟩, rfl⟩
  rintro totalSize rfl
  apply (Machine.ends_copyFromSlice (Nat.zero_le 16) (by omega) (by omega)).bind
  intro readBuf hreadBuf
  apply (Machine.ends_subU32 (by rw [hsixteen]; exact hmin)).bind
  rintro remaining rfl
  have hroom : 16 + (MessageHeader.totalSize header - 16).toNat ≤ readBuf.length := by omega
  apply (ends_readRemaining stream hroom).bind
  intro filled hfilled
  cases filled with
  | error e => exact Machine.ends_pure trivial
  | ok result =>
      rcases result with ⟨handler', rest⟩
      have hlength : handler'.readBuf.length = readBuf.length := hfilled
      apply (Machine.ends_slice (Nat.zero_le _) (by omega)).bind
      intro bytes _
      cases format.fromBytes bytes with
      | none => exact Machine.ends_pure trivial
      | some msg => exact Machine.ends_pure trivial

/-- The lengths of a header are handled safely: the size is the exact sum or an error is
returned, nothing panics or wraps, and the rest behind the header has no negative size. -/
structure LengthsSafe {M : Type} (checks : Bool) (format : MessageFormat M)
    (handler : ClientHandler) (stream header : List UInt8) : Prop where
  size : ∀ size wrapped, frameSize checks header = .done size wrapped →
    size.toNat = MessageHeader.declaredSize header ∨
      ∃ e w, readMessage checks format handler stream header = .done (.error e) w
  quiet : ∃ result, Quiet (readMessage checks format handler stream header) result
  remaining : ∀ size wrapped, frameSize checks header = .done size wrapped → 16 ≤ size.toNat

/-- The lengths of a header are handled safely, in debug and in release builds, if and only
if the exact size of the message fits into 32 bits. -/
theorem lengths_safe_iff {M : Type} (checks : Bool) (format : MessageFormat M)
    (handler : ClientHandler) (stream : List UInt8) {header : List UInt8}
    (hheader : header.length = 16) :
    LengthsSafe checks format handler stream header ↔
      16 + 8 * (((MessageHeader.fieldsLen header).toNat + 7) / 8) +
        (MessageHeader.bodyLen header).toNat < 2 ^ 32 := by
  constructor
  · intro h
    obtain ⟨result, hquiet⟩ := h.quiet
    obtain ⟨size, hsize, _⟩ := quiet_bind.mp hquiet
    exact (quiet_frameSize_iff.mp hsize).1
  · intro hfits
    have hsize : ∀ size wrapped, frameSize checks header = .done size wrapped →
        size.toNat = MessageHeader.declaredSize header := by
      intro size wrapped hframe
      have hquiet : frameSize checks header = .done (MessageHeader.totalSize header) false :=
        quiet_frameSize_iff.mpr ⟨hfits, rfl⟩
      cases hquiet.symm.trans hframe
      exact MessageHeader.toNat_totalSize hfits
    exact {
      size := fun size wrapped hframe => Or.inl (hsize size wrapped hframe)
      quiet := by
        obtain ⟨result, hquiet, _⟩ := ends_readMessage checks format handler stream hheader hfits
        exact ⟨result, hquiet⟩
      remaining := by
        intro size wrapped hframe
        rw [hsize size wrapped hframe, MessageHeader.declaredSize]
        omega }

def smallHeader : List UInt8 := [0x6c, 1, 0, 1, 4, 0, 0, 0, 1, 0, 0, 0, 3, 0, 0, 0]

theorem lengths_safe_smallHeader :
    LengthsSafe true Session.rawFormat (.accept []) [] smallHeader ∧
      LengthsSafe false Session.rawFormat (.accept []) [] smallHeader :=
  ⟨(lengths_safe_iff true Session.rawFormat (.accept []) [] rfl).mpr (by decide),
    (lengths_safe_iff false Session.rawFormat (.accept []) [] rfl).mpr (by decide)⟩

/-- Fields of almost four gigabytes: the sum that pads them does not fit. -/
theorem hugeFields_overflow :
    ¬ ∀ (checks : Bool) (handler : ClientHandler) (stream header : List UInt8),
        header.length = 16 → LengthsSafe checks Session.rawFormat handler stream header := by
  intro h
  have hsafe := h false (.accept []) []
    [0x6c, 1, 0, 1, 0, 0, 0, 0, 1, 0, 0, 0, 0xff, 0xff, 0xff, 0xff] rfl
  obtain ⟨result, hquiet⟩ := hsafe.quiet
  obtain ⟨size, hsize, _⟩ := quiet_bind.mp hquiet
  exact absurd (quiet_frameSize_iff.mp hsize).1 (by decide)

end ClientHandler

end KapsuleDbusMux
