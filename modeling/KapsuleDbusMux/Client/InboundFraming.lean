import KapsuleDbusMux.Client.ReadMessage
import KapsuleDbusMux.Library.Trace

/-! # The messages a client sends and the frames it sent

Every byte that a client sends is in a message, in the read in progress, or still
to be read, except for those `select!` drops with the future of `read_message`.
When it only drops futures that have read nothing, the messages are the frames of
the stream, however the stream is split; otherwise bytes are missing.
-/

namespace KapsuleDbusMux

/-- Messages as frames: the first 16 bytes say how long a message is. -/
def messageFraming : Framing UInt8 where
  headerLength := MessageHeader.length
  size header := (MessageHeader.totalSize header).toNat
  headerLength_pos := by decide

/-- The bytes of the message are a frame of the size the D-Bus specification gives
it, which fits into 32 bits, and zbus accepts it. -/
structure MessageFormat.WellFormed {M : Type} (format : MessageFormat M) (msg : M) : Prop where
  header : MessageHeader.length ≤ (format.data msg).length
  size : MessageHeader.declaredSize ((format.data msg).take MessageHeader.length) =
    (format.data msg).length
  fits : (format.data msg).length < 2 ^ 32
  accepted : format.fromBytes (format.data msg) = some msg

theorem MessageFormat.WellFormed.isFrame {M : Type} {format : MessageFormat M} {msg : M}
    (h : format.WellFormed msg) : messageFraming.IsFrame (format.data msg) where
  header := h.header
  size := by
    have hfits := h.fits
    rw [← h.size] at hfits
    exact (MessageHeader.toNat_totalSize hfits).trans h.size

/-! ## Buffers -/

theorem length_growTo (buf : List UInt8) (size : Nat) :
    (growTo buf size).length = max buf.length size := by
  simp only [growTo, List.length_append, List.length_replicate]
  omega

theorem length_writeAt {buf bytes : List UInt8} {offset : Nat}
    (h : offset + bytes.length ≤ buf.length) : (writeAt buf offset bytes).length = buf.length := by
  simp only [writeAt, List.length_append, List.length_take, List.length_drop]
  omega

theorem take_writeAt {buf bytes : List UInt8} {offset : Nat} (h : offset ≤ buf.length) :
    (writeAt buf offset bytes).take (offset + bytes.length) = buf.take offset ++ bytes := by
  have hlength : (buf.take offset ++ bytes).length = offset + bytes.length := by
    rw [List.length_append, List.length_take, Nat.min_eq_left h]
  rw [writeAt, ← hlength]
  exact List.take_left

namespace ClientHandler

theorem length_takePending (handler : ClientHandler) (len : Nat) :
    (handler.takePending len).1.length = min handler.unread.length len := by
  simp [takePending]

@[simp] theorem readBuf_takePending (handler : ClientHandler) (len : Nat) :
    (handler.takePending len).2.readBuf = handler.readBuf := by
  simp only [takePending]
  split <;> rfl

theorem unread_takePending (handler : ClientHandler) (len : Nat) :
    (handler.takePending len).1 ++ (handler.takePending len).2.unread = handler.unread := by
  have hlength : handler.unread.length = handler.pendingData.length - handler.pendingPos :=
    List.length_drop
  simp only [takePending]
  split
  · next hend =>
      have hall : handler.unread.length ≤ min handler.unread.length len := by omega
      rw [List.take_of_length_le hall]
      exact List.append_nil _
  · unfold unread
    dsimp only
    rw [← List.drop_drop]
    exact List.take_append_drop _ _

end ClientHandler

/-- A future that waits: for a header that is not complete, or for bytes that the
header in the buffer announces. -/
def ReadMessage.Wf (readBuf : List UInt8) : ReadMessage → Prop
  | .header filled => filled.length < MessageHeader.length
  | .rest start filled =>
      readBuf.take MessageHeader.length = start ∧
        16 + Session.remaining start = (MessageHeader.totalSize start).toNat ∧
        (MessageHeader.totalSize start).toNat ≤ readBuf.length ∧
        filled < Session.remaining start

namespace Session

variable {M : Type} {format : MessageFormat M}

/-! ## Where the bytes are -/

def inProgress (s : Session M) : List UInt8 :=
  match s.reading with
  | .header filled => filled
  | .rest _ filled => s.handler.readBuf.take (16 + filled)

/-- What has arrived and not been read. -/
def ahead (s : Session M) : List UInt8 := s.handler.unread ++ s.socket

/-- All bytes that are in a message, in the read in progress or still to be read. -/
def received (format : MessageFormat M) (s : Session M) : List UInt8 :=
  s.inbound.flatMap format.data ++ (s.inProgress ++ (s.ahead ++ s.toCome))

structure Wf (s : Session M) : Prop where
  bufLow : MessageHeader.length ≤ s.handler.readBuf.length
  bufHigh : s.handler.readBuf.length < 2 ^ 32
  reading : s.running = true → s.reading.Wf s.handler.readBuf

structure Read (s : Session M) (len : Nat) (bytes : List UInt8) (t : Session M) : Prop where
  length_le : bytes.length ≤ len
  progress : 0 < len → 0 < bytes.length
  bytes : bytes ++ t.ahead = s.ahead
  readBuf : t.handler.readBuf = s.handler.readBuf
  toCome : t.toCome = s.toCome
  inbound : t.inbound = s.inbound
  running : t.running = s.running

theorem read_spec {s t : Session M} {len n : Nat} {bytes : List UInt8}
    (h : s.read len n = some (bytes, t)) : s.Read len bytes t := by
  unfold read at h
  split at h
  · next hpending =>
      cases h
      have hlength := s.handler.length_takePending len
      have hunread : s.handler.unread.length =
          s.handler.pendingData.length - s.handler.pendingPos := List.length_drop
      exact {
        length_le := by omega
        progress := fun hlen => by omega
        bytes := by
          unfold ahead
          rw [← List.append_assoc, s.handler.unread_takePending]
        readBuf := s.handler.readBuf_takePending len
        toCome := rfl
        inbound := rfl
        running := rfl }
  · next hpending =>
      split at h
      · next hn =>
          cases h
          have hunread : s.handler.unread = [] := List.drop_of_length_le (by omega)
          exact {
            length_le := by rw [List.length_take]; omega
            progress := fun _ => by rw [List.length_take]; omega
            bytes := by
              unfold ahead
              dsimp only
              rw [hunread]
              exact List.take_append_drop _ _
            readBuf := rfl
            toCome := rfl
            inbound := rfl
            running := rfl }
      · cases h

theorem Read.ahead_lt {s t : Session M} {len : Nat} {bytes : List UInt8}
    (h : s.Read len bytes t) (hlen : 0 < len) : t.ahead.length < s.ahead.length := by
  have hpos := h.progress hlen
  rw [← h.bytes, List.length_append]
  omega

theorem Read.append_ahead {s t : Session M} {len : Nat} {bytes : List UInt8}
    (h : s.Read len bytes t) (start : List UInt8) :
    start ++ bytes ++ t.ahead = start ++ s.ahead := by
  rw [List.append_assoc, h.bytes]

/-- All that a poll can come to: the read is still in progress, a message is
complete and handed on, it is complete and rejected, or its header announces less
than a header. -/
inductive Polled (format : MessageFormat M) (s t : Session M) : Prop
  | waits (hrunning : t.running = true) (hinbound : t.inbound = s.inbound)
      (hbytes : t.inProgress ++ t.ahead = s.inProgress ++ s.ahead)
  | message (bytes : List UInt8) (msg : M) (hframe : messageFraming.IsFrame bytes)
      (hmsg : format.fromBytes bytes = some msg) (hrunning : t.running = true)
      (hinbound : t.inbound = s.inbound ++ [msg]) (hreading : t.reading = .header [])
      (hbytes : bytes ++ t.ahead = s.inProgress ++ s.ahead)
  | rejected (hframe : messageFraming.IsFrame t.inProgress)
      (hmsg : format.fromBytes t.inProgress = none) (hrunning : t.running = false)
      (hinbound : t.inbound = s.inbound)
      (hbytes : t.inProgress ++ t.ahead = s.inProgress ++ s.ahead)
  | overrun (hlength : t.inProgress.length = MessageHeader.length)
      (hsize : messageFraming.size t.inProgress < MessageHeader.length)
      (hrunning : t.running = false) (hinbound : t.inbound = s.inbound)
      (hbytes : t.inProgress ++ t.ahead = s.inProgress ++ s.ahead)

theorem remaining_eq (header : List UInt8) :
    remaining header =
      ((MessageHeader.totalSize header).toNat + (2 ^ 32 - MessageHeader.length)) % 2 ^ 32 := by
  unfold remaining
  rw [UInt32.toNat_sub]
  have hsixteen : (16 : UInt32).toNat = MessageHeader.length := rfl
  rw [hsixteen, Nat.add_comm]

theorem finish_spec (format : MessageFormat M) {s m : Session M} {header : List UInt8}
    (hlow : MessageHeader.length ≤ m.handler.readBuf.length)
    (hhigh : m.handler.readBuf.length < 2 ^ 32) (hrunning : m.running = true)
    (hheader : m.handler.readBuf.take MessageHeader.length = header)
    (hremaining : 16 + remaining header = (MessageHeader.totalSize header).toNat)
    (hfits : (MessageHeader.totalSize header).toNat ≤ m.handler.readBuf.length)
    (hinbound : m.inbound = s.inbound)
    (hbytes : m.handler.readBuf.take (MessageHeader.totalSize header).toNat ++ m.ahead =
      s.inProgress ++ s.ahead) :
    (finish format m header).Wf ∧ Polled format s (finish format m header) := by
  have hframe : messageFraming.IsFrame
      (m.handler.readBuf.take (MessageHeader.totalSize header).toNat) := by
    have hlength : (m.handler.readBuf.take (MessageHeader.totalSize header).toNat).length =
        (MessageHeader.totalSize header).toNat := by
      rw [List.length_take, Nat.min_eq_left hfits]
    have hsixteen : MessageHeader.length ≤ (MessageHeader.totalSize header).toNat := by
      have hdef : MessageHeader.length = 16 := rfl
      omega
    refine ⟨by rw [hlength]; exact hsixteen, ?_⟩
    have htake : (m.handler.readBuf.take (MessageHeader.totalSize header).toNat).take
        messageFraming.headerLength = header := by
      rw [List.take_take]
      show m.handler.readBuf.take (min MessageHeader.length _) = header
      rw [Nat.min_eq_left hsixteen]
      exact hheader
    rw [htake, hlength]
    rfl
  unfold finish
  cases hmsg : format.fromBytes
      (m.handler.readBuf.take (MessageHeader.totalSize header).toNat) with
  | some msg =>
      refine ⟨⟨hlow, hhigh, fun _ => ?_⟩, ?_⟩
      · show ([] : List UInt8).length < MessageHeader.length
        decide
      · exact .message _ msg hframe hmsg hrunning (by rw [← hinbound]) rfl hbytes
  | none =>
      refine ⟨⟨hlow, hhigh, fun h => by cases h⟩, ?_⟩
      have hdone : (({ m with running := false, reading := .rest header (remaining header) } :
          Session M)).inProgress =
          m.handler.readBuf.take (MessageHeader.totalSize header).toNat := by
        rw [← hremaining]
        rfl
      exact .rejected (by rw [hdone]; exact hframe) (by rw [hdone]; exact hmsg) rfl hinbound
        (by rw [hdone]; exact hbytes)

theorem startRest_spec (format : MessageFormat M) {s m : Session M} {header : List UInt8}
    (hlow : MessageHeader.length ≤ m.handler.readBuf.length)
    (hhigh : m.handler.readBuf.length < 2 ^ 32) (hrunning : m.running = true)
    (hlength : header.length = MessageHeader.length) (hinbound : m.inbound = s.inbound)
    (hbytes : header ++ m.ahead = s.inProgress ++ s.ahead) :
    (startRest format m header).Wf ∧ Polled format s (startRest format m header) := by
  have hdef : MessageHeader.length = 16 := rfl
  have htotal := (MessageHeader.totalSize header).toNat_lt
  have hgrown := length_growTo m.handler.readBuf (MessageHeader.totalSize header).toNat
  have hremaining := remaining_eq header
  have hbuf : (writeAt (growTo m.handler.readBuf (MessageHeader.totalSize header).toNat) 0
      header).length = max m.handler.readBuf.length (MessageHeader.totalSize header).toNat := by
    rw [length_writeAt (by omega), hgrown]
  have htake : (writeAt (growTo m.handler.readBuf (MessageHeader.totalSize header).toNat) 0
      header).take MessageHeader.length = header := by
    rw [← hlength]
    have hwritten : (writeAt (growTo m.handler.readBuf (MessageHeader.totalSize header).toNat) 0
        header).take (0 + header.length) = _ := take_writeAt (Nat.zero_le _)
    simpa using hwritten
  unfold startRest
  dsimp only
  split
  · next hzero =>
      refine finish_spec format ?_ ?_ hrunning htake (by omega) ?_ hinbound ?_
      · dsimp only
        omega
      · dsimp only
        omega
      · dsimp only
        omega
      · have hsize : (MessageHeader.totalSize header).toNat = MessageHeader.length := by omega
        dsimp only
        rw [hsize]
        rw [hsize] at htake
        rw [htake]
        exact hbytes
  · next hmore =>
      split
      · next hroom =>
          refine ⟨⟨?_, ?_, fun _ => ⟨htake, ?_, ?_, ?_⟩⟩, .waits hrunning hinbound ?_⟩
          · dsimp only
            omega
          · dsimp only
            omega
          · omega
          · dsimp only
            omega
          · omega
          · exact (congrArg (· ++ m.ahead) htake).trans hbytes
      · next hroom =>
          refine ⟨⟨?_, ?_, fun h => by cases h⟩, .overrun hlength ?_ rfl hinbound hbytes⟩
          · dsimp only
            omega
          · dsimp only
            omega
          · show (MessageHeader.totalSize header).toNat < MessageHeader.length
            omega

theorem toCome_finish (format : MessageFormat M) (s : Session M) (header : List UInt8) :
    (finish format s header).toCome = s.toCome ∧ (finish format s header).ahead = s.ahead := by
  unfold finish
  split
  · exact ⟨rfl, rfl⟩
  · exact ⟨rfl, rfl⟩

theorem toCome_startRest (format : MessageFormat M) (s : Session M) (header : List UInt8) :
    (startRest format s header).toCome = s.toCome ∧
      (startRest format s header).ahead = s.ahead := by
  unfold startRest
  dsimp only
  split
  · exact toCome_finish format _ header
  · split
    · exact ⟨rfl, rfl⟩
    · exact ⟨rfl, rfl⟩

theorem pollHeader_spec {s t : Session M} {n : Nat} {filled : List UInt8} (h : s.Wf)
    (hrunning : s.running = true) (hreading : s.reading = .header filled)
    (hfilled : filled.length < MessageHeader.length) (hpoll : s.poll format n = some t) :
    t.Wf ∧ Polled format s t ∧ t.toCome = s.toCome ∧ t.ahead.length < s.ahead.length := by
  have hprogress : s.inProgress = filled := by
    unfold inProgress
    rw [hreading]
  unfold poll at hpoll
  rw [hreading] at hpoll
  cases hread : s.read (MessageHeader.length - filled.length) n with
  | none => simp [hread] at hpoll
  | some outcome =>
      rcases outcome with ⟨bytes, m⟩
      have hspec := read_spec hread
      have hle := hspec.length_le
      have hless := hspec.ahead_lt (by omega)
      have hbytes : filled ++ bytes ++ m.ahead = s.inProgress ++ s.ahead := by
        rw [hprogress]
        exact hspec.append_ahead filled
      have hlow : MessageHeader.length ≤ m.handler.readBuf.length := by
        rw [hspec.readBuf]
        exact h.bufLow
      have hhigh : m.handler.readBuf.length < 2 ^ 32 := by
        rw [hspec.readBuf]
        exact h.bufHigh
      have hrun : m.running = true := hspec.running.trans hrunning
      simp only [hread] at hpoll
      split at hpoll
      · next hfull =>
          cases hpoll
          have hnext := startRest_spec format hlow hhigh hrun hfull hspec.inbound hbytes
          have hkeep := toCome_startRest format m (filled ++ bytes)
          exact ⟨hnext.1, hnext.2, hkeep.1.trans hspec.toCome, by rw [hkeep.2]; exact hless⟩
      · next hpart =>
          cases hpoll
          have hshort : (filled ++ bytes).length < MessageHeader.length := by
            rw [List.length_append] at hpart ⊢
            omega
          exact ⟨⟨hlow, hhigh, fun _ => hshort⟩, .waits hrun hspec.inbound hbytes, hspec.toCome,
            hless⟩

theorem writeAt_rest {readBuf header bytes : List UInt8} {filled : Nat}
    (hheader : readBuf.take MessageHeader.length = header)
    (hfits : 16 + filled + bytes.length ≤ readBuf.length) :
    (writeAt readBuf (16 + filled) bytes).length = readBuf.length ∧
      (writeAt readBuf (16 + filled) bytes).take MessageHeader.length = header ∧
      (writeAt readBuf (16 + filled) bytes).take (16 + (filled + bytes.length)) =
        readBuf.take (16 + filled) ++ bytes := by
  have hdef : MessageHeader.length = 16 := rfl
  refine ⟨length_writeAt hfits, ?_, ?_⟩
  · rw [← hheader, writeAt, List.append_assoc, List.take_append_of_le_length, List.take_take]
    · rw [Nat.min_eq_left (by omega)]
    · rw [List.length_take]
      omega
  · rw [← Nat.add_assoc]
    exact take_writeAt (by omega)

theorem pollRest_spec {s t : Session M} {n filled : Nat} {header : List UInt8} (h : s.Wf)
    (hrunning : s.running = true) (hreading : s.reading = .rest header filled)
    (hwaits : (ReadMessage.rest header filled).Wf s.handler.readBuf)
    (hpoll : s.poll format n = some t) :
    t.Wf ∧ Polled format s t ∧ t.toCome = s.toCome ∧ t.ahead.length < s.ahead.length := by
  rcases hwaits with ⟨hheader, hremaining, hfits, hfilled⟩
  have hprogress : s.inProgress = s.handler.readBuf.take (16 + filled) := by
    unfold inProgress
    rw [hreading]
  unfold poll at hpoll
  rw [hreading] at hpoll
  cases hread : s.read (remaining header - filled) n with
  | none => simp [hread] at hpoll
  | some outcome =>
      rcases outcome with ⟨bytes, m⟩
      have hspec := read_spec hread
      have hle := hspec.length_le
      have hless := hspec.ahead_lt (by omega)
      have hrun : m.running = true := hspec.running.trans hrunning
      have hbuf := hspec.readBuf
      have hspace : 16 + filled + bytes.length ≤ s.handler.readBuf.length := by omega
      have hwritten := writeAt_rest hheader hspace
      rw [← hbuf] at hwritten
      have hbytes : (writeAt m.handler.readBuf (16 + filled) bytes).take
          (16 + (filled + bytes.length)) ++ m.ahead = s.inProgress ++ s.ahead := by
        rw [hwritten.2.2, hprogress, hbuf]
        exact hspec.append_ahead _
      have hlow : MessageHeader.length ≤
          (writeAt m.handler.readBuf (16 + filled) bytes).length := by
        rw [hwritten.1, hbuf]
        exact h.bufLow
      have hhigh : (writeAt m.handler.readBuf (16 + filled) bytes).length < 2 ^ 32 := by
        rw [hwritten.1, hbuf]
        exact h.bufHigh
      have hroom : (MessageHeader.totalSize header).toNat ≤
          (writeAt m.handler.readBuf (16 + filled) bytes).length := by
        rw [hwritten.1, hbuf]
        exact hfits
      simp only [hread] at hpoll
      split at hpoll
      · next hfull =>
          cases hpoll
          rw [hfull, hremaining] at hbytes
          have hnext := finish_spec format (s := s)
            (m := { m with handler := { m.handler with
              readBuf := writeAt m.handler.readBuf (16 + filled) bytes } })
            hlow hhigh hrun hwritten.2.1 hremaining hroom hspec.inbound hbytes
          have hkeep := toCome_finish format { m with handler := { m.handler with
            readBuf := writeAt m.handler.readBuf (16 + filled) bytes } } header
          exact ⟨hnext.1, hnext.2, hkeep.1.trans hspec.toCome, by rw [hkeep.2]; exact hless⟩
      · next hpart =>
          cases hpoll
          exact ⟨⟨hlow, hhigh, fun _ => ⟨hwritten.2.1, hremaining, hroom, by omega⟩⟩,
            .waits hrun hspec.inbound hbytes, hspec.toCome, hless⟩

/-- A poll takes bytes from what has arrived, and changes nothing else than `Polled` says. -/
theorem poll_spec {s t : Session M} {n : Nat} (h : s.Wf) (hrunning : s.running = true)
    (hpoll : s.poll format n = some t) :
    t.Wf ∧ Polled format s t ∧ t.toCome = s.toCome ∧ t.ahead.length < s.ahead.length := by
  have hwaits := h.reading hrunning
  cases hreading : s.reading with
  | header filled =>
      rw [hreading] at hwaits
      exact pollHeader_spec h hrunning hreading hwaits hpoll
  | rest header filled =>
      rw [hreading] at hwaits
      exact pollRest_spec h hrunning hreading hwaits hpoll

/-- While the handler runs, the read in progress lacks a part of its message. -/
theorem Wf.incomplete {s : Session M} (h : s.Wf) (hrunning : s.running = true) :
    messageFraming.Incomplete s.inProgress := by
  have hdef : MessageHeader.length = 16 := rfl
  have hreading := h.reading hrunning
  unfold inProgress
  cases heq : s.reading with
  | header filled =>
      rw [heq] at hreading
      have hfilled : filled.length < MessageHeader.length := hreading
      intro hlong
      exact absurd hlong (Nat.not_le.mpr hfilled)
  | rest header filled =>
      rw [heq] at hreading
      rcases hreading with ⟨hheader, hremaining, hfits, hfilled⟩
      intro _
      show (s.handler.readBuf.take (16 + filled)).length <
        (MessageHeader.totalSize ((s.handler.readBuf.take (16 + filled)).take
          MessageHeader.length)).toNat
      rw [List.take_take, Nat.min_eq_left (by omega), hheader, List.length_take]
      omega

/-! ## Conservation of bytes -/

/-- `select!` takes the other branch only while the read in progress has read nothing. -/
def BetweenFrames (s : Session M) : SessionEvent → Prop
  | .outbound => s.inProgress = []
  | _ => True

instance (s : Session M) (e : SessionEvent) : Decidable (BetweenFrames s e) :=
  match e with
  | .outbound => inferInstanceAs (Decidable (s.inProgress = []))
  | .arrive _ => isTrue trivial
  | .poll _ => isTrue trivial
  | .hangUp => isTrue trivial

/-- Calls of `read_message` that run to completion are never dropped. -/
theorem along_of_no_outbound {s : Session M} {events : List SessionEvent}
    (h : .outbound ∉ events) : Trace.Along (step format) BetweenFrames s events := by
  induction events generalizing s with
  | nil => trivial
  | cons e events ih =>
      rw [List.mem_cons, not_or] at h
      refine ⟨?_, fun t _ => ih h.2⟩
      cases e with
      | outbound => exact absurd rfl h.1
      | arrive n => trivial
      | poll n => trivial
      | hangUp => trivial

theorem Polled.received {s t : Session M} (h : Polled format s t) (htoCome : t.toCome = s.toCome) :
    t.received format = s.received format := by
  unfold Session.received
  cases h with
  | waits _ hinbound hbytes =>
      rw [hinbound, htoCome, ← List.append_assoc t.inProgress, hbytes, List.append_assoc]
  | message bytes msg _ hmsg _ hinbound hreading hbytes =>
      have hdata := format.data_of_fromBytes bytes msg hmsg
      have hnothing : t.inProgress = [] := by
        unfold inProgress
        rw [hreading]
      rw [hinbound, htoCome, List.flatMap_append, hnothing, List.append_assoc]
      simp only [List.flatMap_cons, List.flatMap_nil, List.append_nil, List.nil_append, hdata]
      rw [← List.append_assoc bytes, hbytes, List.append_assoc]
  | rejected _ _ _ hinbound hbytes =>
      rw [hinbound, htoCome, ← List.append_assoc t.inProgress, hbytes, List.append_assoc]
  | overrun _ _ _ hinbound hbytes =>
      rw [hinbound, htoCome, ← List.append_assoc t.inProgress, hbytes, List.append_assoc]

inductive Stepped (format : MessageFormat M) (s : Session M) : SessionEvent → Session M → Prop
  | arrive (n : Nat) (hn : 0 < n) (hle : n ≤ s.toCome.length) :
      Stepped format s (.arrive n)
        { s with socket := s.socket ++ s.toCome.take n, toCome := s.toCome.drop n }
  | poll (n : Nat) (t : Session M) (hwf : t.Wf) (hpolled : Polled format s t)
      (htoCome : t.toCome = s.toCome) (hless : t.ahead.length < s.ahead.length) :
      Stepped format s (.poll n) t
  | outbound : Stepped format s .outbound { s with reading := .header [] }
  | hangUp (hdrained : s.drained) : Stepped format s .hangUp { s with running := false }

theorem step_stepped {s t : Session M} {e : SessionEvent} (h : s.Wf)
    (hstep : step format s e = some t) : s.running = true ∧ Stepped format s e t := by
  unfold step at hstep
  split at hstep
  · next hrunning =>
      refine ⟨hrunning, ?_⟩
      cases e with
      | arrive n =>
          simp only at hstep
          split at hstep
          · next hn =>
              cases hstep
              exact .arrive n hn.1 hn.2
          · cases hstep
      | poll n =>
          have hspec := poll_spec h hrunning hstep
          exact .poll n t hspec.1 hspec.2.1 hspec.2.2.1 hspec.2.2.2
      | outbound =>
          cases hstep
          exact .outbound
      | hangUp =>
          simp only at hstep
          split at hstep
          · next hdrained =>
              cases hstep
              exact .hangUp hdrained
          · cases hstep
  · cases hstep

theorem step_wf {s t : Session M} {e : SessionEvent} (h : s.Wf)
    (hstep : step format s e = some t) : t.Wf := by
  rcases step_stepped h hstep with ⟨hrunning, hstepped⟩
  cases hstepped with
  | arrive n hn hle => exact ⟨h.bufLow, h.bufHigh, h.reading⟩
  | poll n _ hwf _ _ _ => exact hwf
  | outbound => exact ⟨h.bufLow, h.bufHigh, fun _ => Nat.zero_lt_succ 15⟩
  | hangUp _ => exact ⟨h.bufLow, h.bufHigh, fun hfalse => by cases hfalse⟩

theorem wf_accepted (bufferedData toCome : List UInt8) :
    (accepted bufferedData toCome : Session M).Wf where
  bufLow := by
    show MessageHeader.length ≤ (List.replicate 16384 (0 : UInt8)).length
    rw [List.length_replicate]
    decide
  bufHigh := by
    show (List.replicate 16384 (0 : UInt8)).length < 2 ^ 32
    rw [List.length_replicate]
    decide
  reading _ := Nat.zero_lt_succ 15

/-- A step loses what the future it drops has read, and nothing else. -/
theorem Stepped.received {s t : Session M} {e : SessionEvent} (h : Stepped format s e t) :
    (BetweenFrames s e → t.received format = s.received format) ∧
      (¬ BetweenFrames s e → (t.received format).length < (s.received format).length) := by
  cases h with
  | arrive n hn hle =>
      refine ⟨fun _ => ?_, fun hnot => absurd trivial hnot⟩
      show s.inbound.flatMap format.data ++ (s.inProgress ++
        (s.handler.unread ++ (s.socket ++ s.toCome.take n) ++ s.toCome.drop n)) = _
      unfold Session.received ahead
      simp only [List.append_assoc, List.take_append_drop]
  | poll n _ hwf hpolled htoCome hless =>
      exact ⟨fun _ => hpolled.received htoCome, fun hnot => absurd trivial hnot⟩
  | outbound =>
      constructor
      · intro hnothing
        have hempty : s.inProgress = [] := hnothing
        unfold Session.received
        rw [hempty]
        rfl
      · intro hsome
        have hlost : 0 < s.inProgress.length := List.length_pos_iff.mpr hsome
        show (s.inbound.flatMap format.data ++ (s.ahead ++ s.toCome)).length < _
        unfold Session.received
        simp only [List.length_append]
        omega
  | hangUp _ => exact ⟨fun _ => rfl, fun hnot => absurd trivial hnot⟩

theorem received_accepted (format : MessageFormat M) (bufferedData toCome : List UInt8) :
    (accepted bufferedData toCome).received format = bufferedData ++ toCome := by
  show [] ++ ([] ++ (bufferedData ++ [] ++ toCome)) = bufferedData ++ toCome
  rw [List.nil_append, List.nil_append, List.append_nil]

theorem step_length_received_le {s t : Session M} {e : SessionEvent} (h : s.Wf)
    (hstep : step format s e = some t) :
    (t.received format).length ≤ (s.received format).length := by
  have hreceived := (step_stepped h hstep).2.received
  by_cases hbetween : BetweenFrames s e
  · rw [hreceived.1 hbetween]
  · exact Nat.le_of_lt (hreceived.2 hbetween)

/-- No byte is counted twice, and all of them are accounted for exactly when no
future was dropped that had read some. -/
theorem length_received {bufferedData toCome : List UInt8} {events : List SessionEvent}
    {t : Session M} (hrun : Trace.run (step format) (accepted bufferedData toCome) events = some t) :
    (t.received format).length ≤ (bufferedData ++ toCome).length ∧
      ((t.received format).length = (bufferedData ++ toCome).length ↔
        Trace.Along (step format) BetweenFrames (accepted bufferedData toCome) events) := by
  rw [← received_accepted format]
  generalize hstart : ((accepted bufferedData toCome : Session M).received format).length = total
  have hinv : ∀ (s : Session M) e u, s.Wf ∧ (s.received format).length ≤ total →
      step format s e = some u → u.Wf ∧ (u.received format).length ≤ total :=
    fun s e u hs hstep =>
      ⟨step_wf hs.1 hstep, Nat.le_trans (step_length_received_le hs.1 hstep) hs.2⟩
  have hinit : (accepted bufferedData toCome : Session M).Wf ∧
      ((accepted bufferedData toCome : Session M).received format).length ≤ total :=
    ⟨wf_accepted bufferedData toCome, Nat.le_of_eq hstart⟩
  refine ⟨(Trace.invariant_of_run hinv hinit hrun).2, ?_⟩
  apply Trace.sound_iff_along (S := fun s => (s.received format).length = total) hinv ?_ ?_
    hinit hstart hrun
  · intro s e u hs hsound hstep
    have hreceived := (step_stepped hs.1 hstep).2.received
    constructor
    · intro hkept
      by_contra hbetween
      have hless := hreceived.2 hbetween
      omega
    · intro hbetween
      rw [hreceived.1 hbetween]
      exact hsound
  · intro s e u hs hdefect hstep hkept
    have hle := hs.2
    have hshrinks := step_length_received_le hs.1 hstep
    omega

/-! ## Messages and frames -/

/-- What holds while the messages are the frames of the stream. -/
structure InStep (format : MessageFormat M) (frames : List M) (s : Session M) : Prop where
  wf : s.Wf
  stream : s.received format = frames.flatMap format.data
  framed : ∀ msg ∈ s.inbound,
    messageFraming.IsFrame (format.data msg) ∧ format.fromBytes (format.data msg) = some msg
  live : s.running = false → s.drained ∧ messageFraming.Incomplete s.inProgress

section Frames

variable {frames : List M} (hframes : ∀ msg ∈ frames, format.WellFormed msg)
include hframes

theorem isFrame_of_mem_map {bytes : List UInt8} (h : bytes ∈ frames.map format.data) :
    messageFraming.IsFrame bytes ∧ format.fromBytes bytes ≠ none := by
  rcases List.mem_map.mp h with ⟨msg, hmsg, hdata⟩
  have hwell := hframes msg hmsg
  rw [← hdata]
  exact ⟨hwell.isFrame, by rw [hwell.accepted]; simp⟩

theorem frames_left {inbound : List M} {rest : List UInt8}
    (hinbound : ∀ msg ∈ inbound, messageFraming.IsFrame (format.data msg))
    (h : inbound.flatMap format.data ++ rest = frames.flatMap format.data) :
    ∃ left, frames.map format.data = inbound.map format.data ++ left ∧ rest = left.flatten := by
  refine messageFraming.flatten_prefix ?_ ?_ ?_
  · intro bytes hbytes
    rcases List.mem_map.mp hbytes with ⟨msg, hmsg, hdata⟩
    rw [← hdata]
    exact hinbound msg hmsg
  · exact fun bytes hbytes => (isFrame_of_mem_map hframes hbytes).1
  · rw [← List.flatMap_def, ← List.flatMap_def]
    exact h

/-- The next bytes that look like a frame are one, and zbus accepts it. -/
theorem fromBytes_ne_none {inbound : List M} {bytes rest : List UInt8}
    (hinbound : ∀ msg ∈ inbound, messageFraming.IsFrame (format.data msg))
    (hframe : messageFraming.IsFrame bytes)
    (h : inbound.flatMap format.data ++ (bytes ++ rest) = frames.flatMap format.data) :
    format.fromBytes bytes ≠ none := by
  rcases frames_left hframes hinbound h with ⟨left, hleft, hrest⟩
  cases left with
  | nil =>
      have hpos := hframe.length_pos
      have hlength := congrArg List.length hrest
      simp only [List.length_append, List.flatten_nil, List.length_nil] at hlength
      omega
  | cons first left =>
      have hmem : first ∈ frames.map format.data := by
        rw [hleft]
        exact List.mem_append_right _ List.mem_cons_self
      have hfirst := isFrame_of_mem_map hframes hmem
      rw [List.flatten_cons] at hrest
      rw [(hframe.append_inj hfirst.1 hrest).1]
      exact hfirst.2

theorem header_le_size {inbound : List M} {header rest : List UInt8}
    (hinbound : ∀ msg ∈ inbound, messageFraming.IsFrame (format.data msg))
    (hlength : header.length = MessageHeader.length)
    (h : inbound.flatMap format.data ++ (header ++ rest) = frames.flatMap format.data) :
    MessageHeader.length ≤ messageFraming.size header := by
  rcases frames_left hframes hinbound h with ⟨left, hleft, hrest⟩
  cases left with
  | nil =>
      have hsum := congrArg List.length hrest
      have hdef : MessageHeader.length = 16 := rfl
      simp only [List.length_append, List.flatten_nil, List.length_nil] at hsum
      omega
  | cons first left =>
      have hmem : first ∈ frames.map format.data := by
        rw [hleft]
        exact List.mem_append_right _ List.mem_cons_self
      have hfirst := (isFrame_of_mem_map hframes hmem).1
      rw [List.flatten_cons] at hrest
      have hsame := messageFraming.take_header_eq (Nat.le_of_eq hlength.symm) hfirst.header hrest
      have hwhole : header.take messageFraming.headerLength = header :=
        List.take_of_length_le (Nat.le_of_eq hlength)
      rw [← hwhole, hsame, hfirst.size]
      exact hfirst.header

theorem step_inStep {s t : Session M} {e : SessionEvent} (h : s.InStep format frames)
    (hbetween : BetweenFrames s e) (hstep : step format s e = some t) : t.InStep format frames := by
  rcases step_stepped h.wf hstep with ⟨hrunning, hstepped⟩
  have hstream : t.received format = frames.flatMap format.data := by
    rw [hstepped.received.1 hbetween]
    exact h.stream
  have hwf := step_wf h.wf hstep
  have hisFrame : ∀ msg ∈ s.inbound, messageFraming.IsFrame (format.data msg) :=
    fun msg hmsg => (h.framed msg hmsg).1
  cases hstepped with
  | arrive n hn hle =>
      refine ⟨hwf, hstream, h.framed, fun hfalse => ?_⟩
      rw [hrunning] at hfalse
      cases hfalse
  | outbound =>
      refine ⟨hwf, hstream, h.framed, fun hfalse => ?_⟩
      rw [hrunning] at hfalse
      cases hfalse
  | hangUp hdrained =>
      exact ⟨hwf, hstream, h.framed, fun _ => ⟨hdrained, h.wf.incomplete hrunning⟩⟩
  | poll n _ _ hpolled htoCome _ =>
      unfold Session.received at hstream
      cases hpolled with
      | waits hlive hinbound _ =>
          refine ⟨hwf, hstream, by rw [hinbound]; exact h.framed, fun hfalse => ?_⟩
          rw [hlive] at hfalse
          cases hfalse
      | message bytes msg hframe hmsg hlive hinbound _ _ =>
          refine ⟨hwf, hstream, fun other hother => ?_, fun hfalse => ?_⟩
          · rw [hinbound, List.mem_append, List.mem_singleton] at hother
            rcases hother with hother | hother
            · exact h.framed other hother
            · rw [hother, format.data_of_fromBytes bytes msg hmsg]
              exact ⟨hframe, hmsg⟩
          · rw [hlive] at hfalse
            cases hfalse
      | rejected hframe hmsg _ hinbound _ =>
          rw [hinbound] at hstream
          exact absurd hmsg (fromBytes_ne_none hframes hisFrame hframe hstream)
      | overrun hlength hsize _ hinbound _ =>
          rw [hinbound] at hstream
          have hlarge := header_le_size hframes hisFrame hlength hstream
          exact absurd hsize (Nat.not_lt.mpr hlarge)

/-- Messages with the bytes of the first frames are the first frames. -/
theorem InStep.map_some_append {s : Session M} (h : s.InStep format frames)
    {left : List (List UInt8)} (hleft : frames.map format.data = s.inbound.map format.data ++ left) :
    s.inbound.map some ++ left.map format.fromBytes = frames.map some := by
  have hback : ∀ msgs : List M, (∀ msg ∈ msgs, format.fromBytes (format.data msg) = some msg) →
      (msgs.map format.data).map format.fromBytes = msgs.map some := by
    intro msgs hmsgs
    rw [List.map_map]
    exact List.map_congr_left hmsgs
  have hdecoded := congrArg (List.map format.fromBytes) hleft
  rw [List.map_append, hback frames (fun msg hmsg => (hframes msg hmsg).accepted),
    hback s.inbound (fun msg hmsg => (h.framed msg hmsg).2)] at hdecoded
  exact hdecoded.symm

theorem InStep.inbound_prefix {s : Session M} (h : s.InStep format frames) :
    s.inbound <+: frames := by
  rcases frames_left hframes (fun msg hmsg => (h.framed msg hmsg).1) h.stream with ⟨left, hleft, _⟩
  have hsome := h.map_some_append hframes hleft
  have hprefix : s.inbound.map some <+: frames.map some := ⟨_, hsome⟩
  exact (List.prefix_map_iff_of_injective (Option.some_injective M)).mp hprefix

theorem InStep.inbound_eq {s : Session M} (h : s.InStep format frames)
    (hdone : s.running = false ∨ s.drained) : s.inbound = frames := by
  have hdrained : s.drained ∧ messageFraming.Incomplete s.inProgress := by
    cases hrunning : s.running with
    | false => exact h.live hrunning
    | true =>
        refine ⟨hdone.resolve_left ?_, h.wf.incomplete hrunning⟩
        rw [hrunning]
        exact Bool.noConfusion
  have hahead : s.ahead ++ s.toCome = [] := by
    unfold ahead
    rw [hdrained.1.1, hdrained.1.2.1, hdrained.1.2.2]
    rfl
  rcases frames_left hframes (fun msg hmsg => (h.framed msg hmsg).1) h.stream with
    ⟨left, hleft, hrest⟩
  rw [hahead, List.append_nil] at hrest
  have hnone : left = [] := by
    refine hdrained.2.eq_nil (fun bytes hbytes => ?_) hrest
    refine (isFrame_of_mem_map hframes ?_).1
    rw [hleft]
    exact List.mem_append_right _ hbytes
  have hsome := h.map_some_append hframes hleft
  rw [hnone, List.map_nil, List.append_nil] at hsome
  exact List.map_injective_iff.mpr (Option.some_injective M) hsome

omit hframes in
/-- A running handler that has bytes ahead of it can read one. -/
theorem Wf.exists_poll (format : MessageFormat M) {s : Session M} (h : s.Wf)
    (hrunning : s.running = true) (hahead : s.ahead ≠ []) : ∃ t, step format s (.poll 1) = some t := by
  have hdef : MessageHeader.length = 16 := rfl
  have hread : ∀ len, 0 < len → ∃ outcome, s.read len 1 = some outcome := by
    intro len hlen
    unfold read
    split
    · exact ⟨_, rfl⟩
    · next hpending =>
        have hunread : s.handler.unread = [] := List.drop_of_length_le (by omega)
        have hsocket : 0 < s.socket.length := by
          refine List.length_pos_iff.mpr (fun hnil => hahead ?_)
          unfold ahead
          rw [hunread, hnil]
          rfl
        rw [if_pos ⟨Nat.one_pos, hlen, hsocket⟩]
        exact ⟨_, rfl⟩
  have hreading := h.reading hrunning
  unfold step
  rw [if_pos hrunning]
  show ∃ t, s.poll format 1 = some t
  unfold poll
  cases heq : s.reading with
  | header filled =>
      rw [heq] at hreading
      have hfilled : filled.length < MessageHeader.length := hreading
      rcases hread (MessageHeader.length - filled.length) (by omega) with ⟨outcome, houtcome⟩
      simp only [houtcome]
      split
      · exact ⟨_, rfl⟩
      · exact ⟨_, rfl⟩
  | rest header filled =>
      rw [heq] at hreading
      rcases hread (remaining header - filled) (by have hless := hreading.2.2.2; omega) with
        ⟨outcome, houtcome⟩
      simp only [houtcome]
      split
      · exact ⟨_, rfl⟩
      · exact ⟨_, rfl⟩

/-- Whatever is left to read can be read to its end, without dropping a future. -/
theorem InStep.completes {s : Session M} (h : s.InStep format frames) :
    ∃ more t, Trace.run (step format) s more = some t ∧ .outbound ∉ more ∧
      t.inbound = frames := by
  -- Reading shortens what is ahead, and arriving bytes count less than bytes to come.
  generalize hsize : 2 * s.toCome.length + s.ahead.length = size
  induction size using Nat.strongRecOn generalizing s with
  | _ size ih =>
      cases hrunning : s.running with
      | false => exact ⟨[], s, rfl, List.not_mem_nil, h.inbound_eq hframes (Or.inl hrunning)⟩
      | true =>
          by_cases hahead : s.ahead = []
          · by_cases htoCome : s.toCome = []
            · have hnil := List.append_eq_nil_iff.mp hahead
              exact ⟨[], s, rfl, List.not_mem_nil,
                h.inbound_eq hframes (Or.inr ⟨hnil.1, hnil.2, htoCome⟩)⟩
            · have hpos : 0 < s.toCome.length := List.length_pos_iff.mpr htoCome
              have hstep : step format s (.arrive s.toCome.length) = some { s with
                  socket := s.socket ++ s.toCome.take s.toCome.length
                  toCome := s.toCome.drop s.toCome.length } := by
                unfold step
                rw [if_pos hrunning]
                exact if_pos ⟨hpos, Nat.le_refl _⟩
              have hnext := step_inStep hframes h (e := .arrive _) trivial hstep
              have hmeasure : 2 * (s.toCome.drop s.toCome.length).length +
                  (s.handler.unread ++ (s.socket ++ s.toCome.take s.toCome.length)).length <
                  size := by
                rw [← List.append_assoc]
                show 2 * _ + (s.ahead ++ _).length < size
                rw [hahead] at hsize ⊢
                simp only [List.length_drop, List.nil_append, List.length_take,
                  List.length_nil] at hsize ⊢
                omega
              rcases ih _ hmeasure hnext rfl with ⟨more, t, hrun, hnot, hinbound⟩
              exact ⟨.arrive _ :: more, t, Trace.run_cons_eq_some.mpr ⟨_, hstep, hrun⟩,
                by simpa using hnot, hinbound⟩
          · rcases h.wf.exists_poll format hrunning hahead with ⟨m, hstep⟩
            have hnext := step_inStep hframes h (e := .poll 1) trivial hstep
            have hmeasure : 2 * m.toCome.length + m.ahead.length < size := by
              cases (step_stepped h.wf hstep).2 with
              | poll _ _ _ _ htoCome hless =>
                  rw [htoCome]
                  omega
            rcases ih _ hmeasure hnext rfl with ⟨more, t, hrun, hnot, hinbound⟩
            exact ⟨.poll 1 :: more, t, Trace.run_cons_eq_some.mpr ⟨_, hstep, hrun⟩,
              by simpa using hnot, hinbound⟩

theorem run_inStep {bufferedData toCome : List UInt8} {events : List SessionEvent} {t : Session M}
    (hstream : bufferedData ++ toCome = frames.flatMap format.data)
    (hrun : Trace.run (step format) (accepted bufferedData toCome) events = some t)
    (hbetween : Trace.Along (step format) BetweenFrames (accepted bufferedData toCome) events) :
    t.InStep format frames := by
  refine Trace.invariant_of_along (I := fun s => s.InStep format frames)
    (fun s e u hs he hu => step_inStep hframes hs he hu) ?_ hbetween hrun
  exact {
    wf := wf_accepted bufferedData toCome
    stream := by rw [received_accepted, hstream]
    framed := fun msg hmsg => by cases hmsg
    live := fun hfalse => by cases hfalse }

end Frames

/-- For every stream of well-formed frames, however it is split: as long as `select!`
drops only futures that have read nothing, the messages are the first frames, and
reading can go on until they are all frames. When everything has been read or the
handler has stopped, they are all frames exactly when that was so. -/
theorem inbound_is_frames_iff (format : MessageFormat M) {frames : List M}
    (hframes : ∀ msg ∈ frames, format.WellFormed msg) {bufferedData toCome : List UInt8}
    (hstream : bufferedData ++ toCome = frames.flatMap format.data)
    {events : List SessionEvent} {t : Session M}
    (hrun : Trace.run (step format) (accepted bufferedData toCome) events = some t) :
    (Trace.Along (step format) BetweenFrames (accepted bufferedData toCome) events →
        t.inbound <+: frames ∧
          ∃ more u, Trace.run (step format) t more = some u ∧ u.inbound = frames) ∧
      (t.running = false ∨ t.drained →
        (t.inbound = frames ↔
          Trace.Along (step format) BetweenFrames (accepted bufferedData toCome) events)) := by
  refine ⟨fun hbetween => ?_, fun hdone => ⟨fun hall => ?_, fun hbetween => ?_⟩⟩
  · have hin := run_inStep hframes hstream hrun hbetween
    obtain ⟨more, u, hmore, _, hall⟩ := hin.completes hframes
    exact ⟨hin.inbound_prefix hframes, more, u, hmore, hall⟩
  · -- Bytes that were lost would now be missing from the messages.
    have haccount := length_received hrun
    rw [hstream] at haccount
    rw [← haccount.2]
    have hbytes : (t.received format).length =
        (frames.flatMap format.data).length + (t.inProgress ++ (t.ahead ++ t.toCome)).length := by
      unfold Session.received
      rw [hall, List.length_append]
    have hle := haccount.1
    omega
  · exact (run_inStep hframes hstream hrun hbetween).inbound_eq hframes hdone

/-- A method call without body: path `/`, member `A`. -/
def callA : List UInt8 :=
  [0x6c, 1, 0, 1, 0, 0, 0, 0, 1, 0, 0, 0, 26, 0, 0, 0,
    1, 1, 0x6f, 0, 1, 0, 0, 0, 0x2f, 0, 0, 0, 0, 0, 0, 0,
    3, 1, 0x73, 0, 1, 0, 0, 0, 0x41, 0, 0, 0, 0, 0, 0, 0]

/-- Messages that are their bytes, when these are at least a header. -/
def rawFormat : MessageFormat (List UInt8) where
  fromBytes bytes := if MessageHeader.length ≤ bytes.length then some bytes else none
  data msg := msg
  data_of_fromBytes bytes msg h := by
    split at h
    · cases h
      rfl
    · cases h

theorem wellFormed_callA : rawFormat.WellFormed callA :=
  ⟨by decide, by decide, by decide, by decide⟩

/-- Two calls in one stream, the first of which was partly read during authentication. -/
theorem inbound_is_frames_twoCalls :
    ∃ events t, Trace.run (step rawFormat) (accepted (callA.take 20) (callA.drop 20 ++ callA))
        events = some t ∧ t.inbound = [callA, callA] := by
  have hframes : ∀ msg ∈ [callA, callA], rawFormat.WellFormed msg := by
    intro msg hmsg
    have heq : msg = callA := by simpa using hmsg
    rw [heq]
    exact wellFormed_callA
  have hstart : Trace.run (step rawFormat) (accepted (callA.take 20) (callA.drop 20 ++ callA))
      [] = some (accepted (callA.take 20) (callA.drop 20 ++ callA)) := rfl
  exact ((inbound_is_frames_iff rawFormat hframes (by decide) hstart).1 trivial).2

/-- A message for the client becomes ready when a call has been read but for its last
bytes: the future is dropped with what it has, and the call never comes through. -/
theorem dropped_read_loses_frame :
    ¬ ∀ (M : Type) (format : MessageFormat M) (frames : List M),
      (∀ msg ∈ frames, format.WellFormed msg) →
      ∀ bufferedData toCome, bufferedData ++ toCome = frames.flatMap format.data →
      ∀ (events : List SessionEvent) (t : Session M),
      Trace.run (step format) (accepted bufferedData toCome) events = some t →
      t.running = false ∨ t.drained → t.inbound = frames := by
  intro hclaim
  have heval : (Trace.run (step rawFormat) (accepted [] callA)
      [.arrive 40, .poll 16, .poll 24, .outbound, .arrive 8, .poll 8]).any
      (fun t => decide (t.drained ∧ t.inbound = [])) = true := by
    decide +kernel
  rcases Trace.exists_of_eval heval with ⟨t, hrun, hdrained, hnothing⟩
  have hall := hclaim _ rawFormat [callA] (fun msg hmsg => by
    rw [List.mem_singleton.mp hmsg]
    exact wellFormed_callA) [] callA (by decide) _ t hrun (Or.inr hdrained)
  rw [hnothing] at hall
  cases hall

end Session

end KapsuleDbusMux
