import KapsuleDbusMux.Client.InboundFraming
import KapsuleDbusMux.Client.SendMessage

/-! # The messages a client is sent and the bytes it gets

However the kernel divides the writes, a client gets the messages from its channel one
after the other and whole, each with its descriptors on its first byte. Only the last
one can be cut short, when the handler ends in the middle of it. What has been written
can be read back by `read_message`, which takes the bytes alone.
-/

namespace KapsuleDbusMux

theorem withFds_nil (bytes : List UInt8) : withFds bytes [] = bytes.map (fun b => (b, [])) := by
  cases bytes with
  | nil => rfl
  | cons b rest => rfl

/-- Bytes with descriptors may be written in two parts, unless the first is empty. -/
theorem withFds_take_drop {bytes : List UInt8} {n : Nat} (h : n ≠ 0 ∨ bytes = [])
    (fds : List Nat) :
    withFds (bytes.take n) fds ++ withFds (bytes.drop n) [] = withFds bytes fds := by
  cases bytes with
  | nil => simp [withFds]
  | cons b rest =>
      cases n with
      | zero => simp at h
      | succ n =>
          rw [withFds_nil, List.take_succ_cons, List.drop_succ_cons, withFds, withFds,
            List.cons_append, ← List.map_append, List.take_append_drop]

theorem map_fst_withFds (bytes : List UInt8) (fds : List Nat) :
    (withFds bytes fds).map Prod.fst = bytes := by
  cases bytes with
  | nil => rfl
  | cons b rest => simp [withFds, Function.comp_def]

namespace HandlerLoop

variable {M : Type} {format : FdFormat M}

/-! ## One step -/

def left (format : FdFormat M) (h : HandlerLoop M) : List SocketByte :=
  match h.sending with
  | none => []
  | some (.writable msg) => format.wire msg
  | some (.writeAll rest) => withFds rest []

theorem left_continueWith (h : HandlerLoop M) (rest : List UInt8) :
    (h.continueWith rest).left format = withFds rest [] := by
  unfold continueWith left
  by_cases hrest : rest = []
  · simp [hrest, withFds]
  · simp [hrest]

theorem left_sendMessage (h : HandlerLoop M) (msg : M) :
    (h.sendMessage format msg).left format = format.wire msg := by
  unfold sendMessage
  split
  · next hfds => rw [left_continueWith, FdFormat.wire, hfds]
  · rfl

/-- What a step does to the messages for the client: nothing, one more in the channel,
one taken from it, or some bytes written of the one being sent. -/
inductive Moved (format : FdFormat M) (s : HandlerLoop M) : HandlerEvent M → HandlerLoop M → Prop
  | stays {e : HandlerEvent M} {t : HandlerLoop M} (hevent : ∀ msg, e ≠ .enqueue msg)
      (houtbound : t.outbound = s.outbound) (htaken : t.taken = s.taken)
      (hwritten : t.written = s.written) (hleft : t.left format = s.left format) :
      Moved format s e t
  | enqueued (msg : M) :
      Moved format s (.enqueue msg) { s with outbound := s.outbound ++ [msg] }
  | took {t : HandlerLoop M} (msg : M) (hidle : s.left format = [])
      (houtbound : s.outbound = msg :: t.outbound) (htaken : t.taken = s.taken ++ [msg])
      (hwritten : t.written = s.written) (hleft : t.left format = format.wire msg) :
      Moved format s .recv t
  | wrote {e : HandlerEvent M} {t : HandlerLoop M} (hevent : ∀ msg, e ≠ .enqueue msg)
      (bytes : List SocketByte)
      (houtbound : t.outbound = s.outbound) (htaken : t.taken = s.taken)
      (hwritten : t.written = s.written ++ bytes) (hleft : s.left format = bytes ++ t.left format) :
      Moved format s e t

variable {s t : HandlerLoop M} {e : HandlerEvent M}

theorem moved_sendmsg {msg : M} {result : WriteResult} (hsending : s.sending = some (.writable msg))
    (h : s.sendmsg format msg result = some t) : Moved format s (.sendmsg result) t := by
  have hleft : s.left format = format.wire msg := by simp [left, hsending]
  have hstopped : Moved format s (.sendmsg result) s.stop := .stays nofun rfl rfl rfl rfl
  cases result with
  | wouldBlock => cases h; exact hstopped
  | failed => cases h; exact hstopped
  | wrote n =>
      rw [sendmsg] at h
      split at h
      · cases h; exact hstopped
      · split at h
        · split at h
          · cases h; exact hstopped
          · next hsome =>
              cases h
              have hpart : n ≠ 0 ∨ format.data msg = [] := by
                by_cases hn : n = 0
                · exact Or.inr (by simpa [hn] using hsome)
                · exact Or.inl hn
              refine .wrote nofun _ rfl rfl rfl ?_
              rw [left_continueWith, withFds_take_drop hpart, hleft]
              rfl
        · cases h

theorem moved_write {rest : List UInt8} {result : WriteResult}
    (hsending : s.sending = some (.writeAll rest)) (h : s.write rest result = some t) :
    Moved format s (.write result) t := by
  have hleft : s.left format = withFds rest [] := by simp [left, hsending]
  cases result with
  | wouldBlock => cases h; exact .stays nofun rfl rfl rfl rfl
  | failed => cases h; exact .stays nofun rfl rfl rfl rfl
  | wrote n =>
      rw [write] at h
      split at h
      · split at h
        · cases h; exact .stays nofun rfl rfl rfl rfl
        · next hn =>
            cases h
            refine .wrote nofun _ rfl rfl rfl ?_
            rw [left_continueWith, withFds_take_drop (Or.inl hn), hleft]
      · cases h

theorem step_moved (h : s.step format e = some t) : Moved format s e t := by
  unfold step at h
  split at h
  · split at h
    · obtain ⟨session, _, rfl⟩ := Option.map_eq_some_iff.mp h
      exact .stays nofun rfl rfl rfl rfl
    · cases h; exact .enqueued _
    · obtain ⟨session, _, rfl⟩ := Option.map_eq_some_iff.mp h
      exact .stays nofun rfl rfl rfl rfl
    · obtain ⟨session, _, rfl⟩ := Option.map_eq_some_iff.mp h
      exact .stays nofun rfl rfl rfl rfl
    · next hsending =>
        split at h
        · cases h
        · next msg rest houtbound =>
            obtain ⟨session, _, rfl⟩ := Option.map_eq_some_iff.mp h
            refine .took msg (by simp [left, hsending]) ?_ ?_ ?_ (left_sendMessage _ msg)
            · rw [houtbound]; unfold sendMessage; split <;> rfl
            · unfold sendMessage; split <;> rfl
            · unfold sendMessage; split <;> rfl
    · next hsending => exact moved_sendmsg hsending h
    · next hsending => exact moved_write hsending h
    · cases h
  · cases h

/-! ## Runs -/

def enqueued (events : List (HandlerEvent M)) : List M :=
  events.filterMap (fun
    | .enqueue msg => some msg
    | _ => none)

/-- What is in the socket and what is left of the message being sent are the messages
that were taken from the channel. -/
structure Whole (format : FdFormat M) (s : HandlerLoop M) : Prop where
  stream : s.written ++ s.left format = s.taken.flatMap format.wire
  last : s.left format = [] ∨
    ∃ done msg, s.taken = done ++ [msg] ∧ s.left format <:+ format.wire msg

theorem Whole.step (h : s.Whole format) (hstep : s.step format e = some t) : t.Whole format := by
  cases step_moved hstep with
  | stays _ houtbound htaken hwritten hleft =>
      refine ⟨?_, ?_⟩
      · rw [hwritten, hleft, htaken]
        exact h.stream
      · rw [hleft, htaken]
        exact h.last
  | enqueued msg => exact ⟨h.stream, h.last⟩
  | took msg hidle houtbound htaken hwritten hleft =>
      have hstream := h.stream
      rw [hidle, List.append_nil] at hstream
      refine ⟨?_, Or.inr ⟨s.taken, msg, htaken, ?_⟩⟩
      · rw [hwritten, hleft, htaken, hstream, List.flatMap_append, List.flatMap_singleton]
      · rw [hleft]
  | wrote _ bytes houtbound htaken hwritten hleft =>
      refine ⟨?_, ?_⟩
      · rw [hwritten, htaken, List.append_assoc, ← hleft]
        exact h.stream
      · rcases h.last with hnil | ⟨done, msg, hlast, hsuffix⟩
        · rw [hnil] at hleft
          exact Or.inl (List.append_eq_nil_iff.mp hleft.symm).2
        · rw [hleft] at hsuffix
          exact Or.inr ⟨done, msg, htaken.trans hlast, (List.suffix_append bytes _).trans hsuffix⟩

theorem whole_accepted (format : FdFormat M) (bufferedData toCome : List UInt8) :
    (accepted bufferedData toCome : HandlerLoop M).Whole format := ⟨rfl, Or.inl rfl⟩

theorem run_whole {bufferedData toCome : List UInt8} {events : List (HandlerEvent M)}
    (hrun : Trace.run (step format) (accepted bufferedData toCome) events = some t) :
    t.Whole format :=
  Trace.invariant_of_run (fun _ _ _ hs hu => Whole.step hs hu)
    (whole_accepted format bufferedData toCome) hrun

/-- Between two messages nothing is missing. -/
theorem Whole.written_eq (h : s.Whole format) (hidle : s.sending = none) :
    s.written = s.taken.flatMap format.wire := by
  have hnothing : s.left format = [] := by simp [left, hidle]
  have hstream := h.stream
  rw [hnothing, List.append_nil] at hstream
  exact hstream

theorem step_taken_append_outbound (hstep : s.step format e = some t) :
    t.taken ++ t.outbound = s.taken ++ s.outbound ++ enqueued [e] := by
  have hquiet : (∀ msg, e ≠ .enqueue msg) → enqueued [e] = [] := by
    intro hevent
    cases e with
    | enqueue msg => exact absurd rfl (hevent msg)
    | _ => rfl
  cases step_moved hstep with
  | stays hevent houtbound htaken _ _ =>
      rw [houtbound, htaken, hquiet hevent, List.append_nil]
  | enqueued msg => simp [enqueued]
  | took msg _ houtbound htaken _ _ =>
      rw [houtbound, htaken]
      simp [enqueued]
  | wrote hevent _ houtbound htaken _ _ =>
      rw [houtbound, htaken, hquiet hevent, List.append_nil]

/-- The channel keeps messages in order and loses none. -/
theorem taken_append_outbound {events : List (HandlerEvent M)}
    (hrun : Trace.run (step format) s events = some t) :
    t.taken ++ t.outbound = s.taken ++ s.outbound ++ enqueued events := by
  induction events generalizing s with
  | nil =>
      cases hrun
      exact (List.append_nil _).symm
  | cons e events ih =>
      obtain ⟨m, hstep, hrest⟩ := Trace.run_cons_eq_some.mp hrun
      have hcons : enqueued (e :: events) = enqueued [e] ++ enqueued events := by
        unfold enqueued
        rw [← List.filterMap_append, List.singleton_append]
      rw [ih hrest, step_taken_append_outbound hstep, hcons, List.append_assoc, List.append_assoc]

theorem written_of_run {bufferedData toCome : List UInt8} {events : List (HandlerEvent M)}
    (hrun : Trace.run (step format) (accepted bufferedData toCome) events = some t) :
    t.taken ++ t.outbound = enqueued events ∧
      (t.sending = none → t.written = t.taken.flatMap format.wire) ∧
      ∃ done part, t.written = done.flatMap format.wire ++ part ∧
        (t.taken = done ∧ part = [] ∨
          ∃ msg, t.taken = done ++ [msg] ∧ part <+: format.wire msg) := by
  have hwhole := run_whole hrun
  have hstream := hwhole.stream
  refine ⟨taken_append_outbound hrun, hwhole.written_eq, ?_⟩
  rcases hwhole.last with hnothing | ⟨done, msg, htaken, part, hpart⟩
  · rw [hnothing, List.append_nil] at hstream
    exact ⟨t.taken, [], by rw [hstream, List.append_nil], Or.inl ⟨rfl, rfl⟩⟩
  · refine ⟨done, part, ?_, Or.inr ⟨msg, htaken, ⟨_, hpart⟩⟩⟩
    rw [htaken, List.flatMap_append, List.flatMap_singleton, ← hpart, ← List.append_assoc]
      at hstream
    exact List.append_cancel_right hstream

/-- For every run of the handler, whatever the kernel does: messages are taken in the
order they were put into the channel, and the socket has them whole and one after the
other, each with its descriptors on its first byte, except that the last one taken may
be there in part. Between two messages nothing is missing. -/
theorem outbound_is_messages (format : FdFormat M) {bufferedData toCome : List UInt8}
    {events : List (HandlerEvent M)} {t : HandlerLoop M}
    (hrun : Trace.run (step format) (accepted bufferedData toCome) events = some t) :
    t.taken ++ t.outbound = enqueued events ∧
      (t.sending = none → t.written = t.taken.flatMap format.wire) ∧
      ∃ done part, t.written = done.flatMap format.wire ++ part ∧
        (t.taken = done ∧ part = [] ∨
          ∃ msg, t.taken = done ++ [msg] ∧ part <+: format.wire msg) :=
  written_of_run hrun

/-- Messages that are their bytes, when these are at least a header, and the descriptors
attached to them. -/
def rawFdFormat : FdFormat (List UInt8 × List Nat) where
  fromBytes bytes := if MessageHeader.length ≤ bytes.length then some (bytes, []) else none
  data := Prod.fst
  data_of_fromBytes bytes msg h := by
    split at h
    · cases h
      rfl
    · cases h
  fds := Prod.snd

/-- A call of "M" with one descriptor: the body is its index. -/
def passCall : List UInt8 :=
  [0x6c, 1, 0, 1, 4, 0, 0, 0, 1, 0, 0, 0, 48, 0, 0, 0,
    1, 1, 0x6f, 0, 2, 0, 0, 0, 0x2f, 0x61, 0, 0, 0, 0, 0, 0,
    3, 1, 0x73, 0, 1, 0, 0, 0, 0x4d, 0, 0, 0, 0, 0, 0, 0,
    8, 1, 0x67, 0, 1, 0x68, 0, 0, 9, 1, 0x75, 0, 1, 0, 0, 0, 0, 0, 0, 0]

def twoParts : List (HandlerEvent (List UInt8 × List Nat)) :=
  [.enqueue (passCall, [3]), .recv, .sendmsg (.wrote 20), .write .wouldBlock,
    .write (.wrote 48)]

theorem outbound_is_messages_twoParts :
    ∃ t, Trace.run (step rawFdFormat) (accepted [] []) twoParts = some t ∧
      t.written = rawFdFormat.wire (passCall, [3]) := by
  have heval : (Trace.run (step rawFdFormat) (accepted [] []) twoParts).any
      (fun t => decide (t.sending = none ∧ t.taken = [(passCall, [3])])) = true := by
    decide
  obtain ⟨t, hrun, hidle, htaken⟩ := Trace.exists_of_eval heval
  have hwritten := (outbound_is_messages rawFdFormat hrun).2.1 hidle
  rw [htaken, List.flatMap_singleton] at hwritten
  exact ⟨t, hrun, hwritten⟩

/-! ## Reading back -/

theorem map_fst_flatMap_wire (format : FdFormat M) (msgs : List M) :
    (msgs.flatMap format.wire).map Prod.fst = msgs.flatMap format.data := by
  rw [List.map_flatMap]
  congr 1
  funext msg
  exact map_fst_withFds _ _

end HandlerLoop

section Reread

variable {M : Type} {format : FdFormat M} {msg copy : M}

/-- `Message::from_bytes` of `Data::new`, which attaches no descriptors. -/
def FdFormat.AttachesNone (format : FdFormat M) : Prop :=
  ∀ bytes msg, format.fromBytes bytes = some msg → format.fds msg = []

/-- What `read_message` makes of the bytes of a message. -/
def FdFormat.reread (format : FdFormat M) (msg : M) : Option M :=
  format.fromBytes (format.data msg)

def FdFormat.rereads (format : FdFormat M) (msgs : List M) : List M :=
  msgs.filterMap format.reread

/-- The bytes of the message are a frame, whatever descriptors it carries. -/
def FdFormat.Framed (format : FdFormat M) (msg : M) : Prop :=
  ∃ copy, format.reread msg = some copy ∧ format.WellFormed copy

theorem FdFormat.data_of_reread (h : format.reread msg = some copy) :
    format.data copy = format.data msg :=
  format.data_of_fromBytes _ copy h

theorem FdFormat.wellFormed_rereads {msgs : List M} (h : ∀ msg ∈ msgs, format.Framed msg) :
    ∀ copy ∈ format.rereads msgs, format.WellFormed copy := by
  intro copy hcopy
  obtain ⟨msg, hmsg, hreread⟩ := List.mem_filterMap.mp hcopy
  obtain ⟨other, hother, hwell⟩ := h msg hmsg
  cases hreread.symm.trans hother
  exact hwell

theorem FdFormat.map_data_rereads {msgs : List M} (h : ∀ msg ∈ msgs, format.Framed msg) :
    (format.rereads msgs).map format.data = msgs.map format.data := by
  unfold FdFormat.rereads
  induction msgs with
  | nil => rfl
  | cons msg msgs ih =>
      obtain ⟨copy, hcopy, _⟩ := h msg List.mem_cons_self
      have hrest := ih (fun other hother => h other (List.mem_cons_of_mem _ hother))
      rw [List.filterMap_cons_some hcopy, List.map_cons, List.map_cons, hrest,
        FdFormat.data_of_reread hcopy]

end Reread

namespace HandlerLoop

variable {M : Type} {format : FdFormat M} {s t : HandlerLoop M} {e : HandlerEvent M}

/-- Whoever reads the bytes as `read_message` does, and is not interrupted, gets the first
of the messages that were sent, and all of them when everything has been read: in order and
with their bytes, but without their descriptors. -/
theorem written_reads_back (format : FdFormat M) (hnone : format.AttachesNone)
    {bufferedData toCome : List UInt8} {events : List (HandlerEvent M)} {t : HandlerLoop M}
    (hrun : Trace.run (step format) (accepted bufferedData toCome) events = some t)
    (hidle : t.sending = none)
    (hmsgs : ∀ msg ∈ enqueued events, format.Framed msg)
    {reads : List SessionEvent} {u : Session M} (hquiet : .outbound ∉ reads)
    (hread : Trace.run (Session.step format.toMessageFormat)
      (.accepted [] (t.written.map Prod.fst)) reads = some u) :
    ((format.rereads t.taken).map format.data = t.taken.map format.data ∧
        ∀ copy ∈ format.rereads t.taken, format.fds copy = []) ∧
      u.inbound <+: format.rereads t.taken ∧
      (u.running = false ∨ u.drained → u.inbound = format.rereads t.taken) ∧
      ∃ more v, Trace.run (Session.step format.toMessageFormat) u more = some v ∧
        v.inbound = format.rereads t.taken := by
  have hwritten := (run_whole hrun).written_eq hidle
  have htaken : ∀ msg ∈ t.taken, format.Framed msg := by
    intro msg hmsg
    have hall : t.taken ++ t.outbound = enqueued events := taken_append_outbound hrun
    exact hmsgs msg (hall ▸ List.mem_append_left _ hmsg)
  have hwell := FdFormat.wellFormed_rereads htaken
  have hdata := FdFormat.map_data_rereads htaken
  have hstream : [] ++ t.written.map Prod.fst = (format.rereads t.taken).flatMap format.data := by
    rw [List.nil_append, hwritten, map_fst_flatMap_wire, List.flatMap_def, List.flatMap_def, hdata]
  have hin := Session.run_inStep hwell hstream hread (Session.along_of_no_outbound hquiet)
  obtain ⟨more, v, hmore, _, hall⟩ := hin.completes hwell
  refine ⟨⟨hdata, fun copy hcopy => ?_⟩, hin.inbound_prefix hwell, hin.inbound_eq hwell, more, v,
    hmore, hall⟩
  obtain ⟨msg, _, hreread⟩ := List.mem_filterMap.mp hcopy
  exact hnone _ copy hreread

theorem attachesNone_rawFdFormat : rawFdFormat.AttachesNone := by
  intro bytes msg h
  unfold rawFdFormat at h
  dsimp only at h
  split at h
  · cases h
    rfl
  · cases h

/-- The call comes back without its descriptor. -/
theorem written_reads_back_twoParts :
    ∃ t, Trace.run (step rawFdFormat) (accepted [] []) twoParts = some t ∧
      ∃ reads u, Trace.run (Session.step rawFdFormat.toMessageFormat)
        (.accepted [] (t.written.map Prod.fst)) reads = some u ∧
          u.inbound = [(passCall, [])] := by
  have heval : (Trace.run (step rawFdFormat) (accepted [] []) twoParts).any
      (fun t => decide (t.sending = none ∧ t.taken = [(passCall, [3])])) = true := by
    decide
  obtain ⟨t, hrun, hidle, htaken⟩ := Trace.exists_of_eval heval
  have hmsgs : ∀ msg ∈ enqueued twoParts, rawFdFormat.Framed msg := by
    intro msg hmsg
    have hcall : msg = (passCall, [3]) := by simpa [enqueued, twoParts] using hmsg
    rw [hcall]
    exact ⟨(passCall, []), by decide, by decide, by decide, by decide, by decide⟩
  obtain ⟨_, _, _, more, v, hmore, hall⟩ := written_reads_back rawFdFormat
    attachesNone_rawFdFormat hrun hidle hmsgs List.not_mem_nil rfl
  refine ⟨t, hrun, more, v, hmore, hall.trans ?_⟩
  rw [htaken]
  rfl

/-! ## Both directions -/

/-- What an event is for the reading half: taking a message for the client is the other
branch of `select!`, and writing it is nothing at all. -/
def readingEvent : HandlerEvent M → Option SessionEvent
  | .arrive n => some (.arrive n)
  | .poll n => some (.poll n)
  | .hangUp => some .hangUp
  | .recv => some .outbound
  | .enqueue _ => none
  | .sendmsg _ => none
  | .write _ => none

theorem session_sendmsg {msg : M} {result : WriteResult}
    (h : s.sendmsg format msg result = some t) :
    t.session = s.session ∨ t.session = { s.session with running := false } := by
  cases result with
  | wouldBlock => cases h; exact Or.inr rfl
  | failed => cases h; exact Or.inr rfl
  | wrote n =>
      rw [sendmsg] at h
      split at h
      · cases h; exact Or.inr rfl
      · split at h
        · split at h
          · cases h; exact Or.inr rfl
          · cases h; exact Or.inl rfl
        · cases h

theorem session_write {rest : List UInt8} {result : WriteResult}
    (h : s.write rest result = some t) :
    t.session = s.session ∨ t.session = { s.session with running := false } := by
  cases result with
  | wouldBlock => cases h; exact Or.inl rfl
  | failed => cases h; exact Or.inr rfl
  | wrote n =>
      rw [write] at h
      split at h
      · split at h
        · cases h; exact Or.inr rfl
        · cases h; exact Or.inl rfl
      · cases h

/-- A step is one of the reading half, or leaves it alone, or ends it. -/
theorem step_session (h : s.step format e = some t) :
    s.session.running = true ∧
      match readingEvent e with
      | some read => s.session.step format.toMessageFormat read = some t.session
      | none => t.session = s.session ∨ t.session = { s.session with running := false } := by
  unfold step at h
  split at h
  · next hrunning =>
      refine ⟨hrunning, ?_⟩
      split at h
      · obtain ⟨session, hsession, rfl⟩ := Option.map_eq_some_iff.mp h
        exact hsession
      · cases h
        exact Or.inl rfl
      · obtain ⟨session, hsession, rfl⟩ := Option.map_eq_some_iff.mp h
        exact hsession
      · obtain ⟨session, hsession, rfl⟩ := Option.map_eq_some_iff.mp h
        exact hsession
      · split at h
        · cases h
        · obtain ⟨session, hsession, rfl⟩ := Option.map_eq_some_iff.mp h
          refine hsession.trans (congrArg some ?_)
          unfold sendMessage
          split <;> rfl
      · exact session_sendmsg h
      · exact session_write h
      · cases h
  · cases h

/-- A step of the reading half passes on at most one message, which zbus has decoded. -/
theorem step_inbound (hwf : s.session.Wf) (hstep : s.step format e = some t) :
    t.session.Wf ∧ (t.session.inbound = s.session.inbound ∨
      ∃ bytes msg, format.fromBytes bytes = some msg ∧
        t.session.inbound = s.session.inbound ++ [msg]) := by
  obtain ⟨_, hsession⟩ := step_session hstep
  cases hread : readingEvent e with
  | none =>
      rw [hread] at hsession
      rcases hsession with hsame | hstopped
      · rw [hsame]
        exact ⟨hwf, Or.inl rfl⟩
      · rw [hstopped]
        exact ⟨⟨hwf.bufLow, hwf.bufHigh, fun hfalse => by cases hfalse⟩, Or.inl rfl⟩
  | some read =>
      rw [hread] at hsession
      refine ⟨Session.step_wf hwf hsession, ?_⟩
      generalize t.session = session at hsession
      cases (Session.step_stepped hwf hsession).2 with
      | arrive n hn hle => exact Or.inl rfl
      | outbound => exact Or.inl rfl
      | hangUp hdrained => exact Or.inl rfl
      | poll n _ _ hpolled _ _ =>
          cases hpolled with
          | waits _ hinbound _ => exact Or.inl hinbound
          | message bytes msg _ hmsg _ hinbound _ _ => exact Or.inr ⟨bytes, msg, hmsg, hinbound⟩
          | rejected _ _ _ hinbound _ => exact Or.inl hinbound
          | overrun _ _ _ hinbound _ => exact Or.inl hinbound

/-- Messages for the client are taken only while no message of the client is being read. -/
def TakesBetweenFrames (h : HandlerLoop M) (e : HandlerEvent M) : Prop :=
  e = .recv → h.session.inProgress = []

theorem along_of_no_recv {events : List (HandlerEvent M)} (h : .recv ∉ events) :
    Trace.Along (step format) TakesBetweenFrames s events := by
  induction events generalizing s with
  | nil => trivial
  | cons e events ih =>
      rw [List.mem_cons, not_or] at h
      exact ⟨fun heq => absurd heq.symm h.1, fun _ _ => ih h.2⟩

/-- What has been read are frames, though an error while writing may have ended the loop. -/
def Reads (format : FdFormat M) (frames : List M) (h : HandlerLoop M) : Prop :=
  ∃ session : Session M, session.InStep format.toMessageFormat frames ∧
    (h.session = session ∨ h.session = { session with running := false })

section Frames

variable {frames : List M} (hframes : ∀ msg ∈ frames, format.WellFormed msg)

include hframes

theorem Reads.accepted {bufferedData toCome : List UInt8}
    (hstream : bufferedData ++ toCome = frames.flatMap format.data) :
    (accepted bufferedData toCome : HandlerLoop M).Reads format frames := by
  have hrun : Trace.run (Session.step format.toMessageFormat) (.accepted bufferedData toCome) [] =
      some (.accepted bufferedData toCome) := rfl
  exact ⟨_, Session.run_inStep hframes hstream hrun trivial, Or.inl rfl⟩

theorem Reads.step (h : s.Reads format frames) (htakes : s.TakesBetweenFrames e)
    (hstep : s.step format e = some t) : t.Reads format frames := by
  obtain ⟨hrunning, hsession⟩ := step_session hstep
  obtain ⟨session, hin, hsame | hstopped⟩ := h
  · subst hsame
    cases hread : readingEvent e with
    | some read =>
        rw [hread] at hsession
        have hbetween : Session.BetweenFrames s.session read := by
          cases e with
          | recv => cases hread; exact htakes rfl
          | arrive n => cases hread; trivial
          | poll n => cases hread; trivial
          | hangUp => cases hread; trivial
          | _ => cases hread
        exact ⟨_, Session.step_inStep hframes hin hbetween hsession, Or.inl rfl⟩
    | none =>
        rw [hread] at hsession
        exact ⟨_, hin, hsession⟩
  · rw [hstopped] at hrunning
    cases hrunning

theorem Reads.inbound_prefix (h : s.Reads format frames) : s.session.inbound <+: frames := by
  obtain ⟨session, hin, hsession | hsession⟩ := h
  · rw [hsession]
    exact hin.inbound_prefix hframes
  · rw [hsession]
    exact hin.inbound_prefix hframes

theorem Reads.inbound_eq (h : s.Reads format frames) (hdrained : s.session.drained) :
    s.session.inbound = frames := by
  obtain ⟨session, hin, hsession | hsession⟩ := h
  · rw [hsession] at hdrained ⊢
    exact hin.inbound_eq hframes (Or.inr hdrained)
  · rw [hsession] at hdrained ⊢
    exact hin.inbound_eq hframes (Or.inr hdrained)

end Frames

/-- A client that sends well-formed frames, and is sent messages only between them, has
its frames read as they are, and gets its messages as they are, in every run of the
whole loop and whatever the kernel does. -/
theorem both_directions_exact (format : FdFormat M) {frames : List M}
    (hframes : ∀ msg ∈ frames, format.WellFormed msg) {bufferedData toCome : List UInt8}
    (hstream : bufferedData ++ toCome = frames.flatMap format.data)
    {events : List (HandlerEvent M)} {t : HandlerLoop M}
    (hrun : Trace.run (step format) (accepted bufferedData toCome) events = some t)
    (htakes : Trace.Along (step format) TakesBetweenFrames (accepted bufferedData toCome) events) :
    (t.session.inbound <+: frames ∧ (t.session.drained → t.session.inbound = frames)) ∧
      t.taken ++ t.outbound = enqueued events ∧
      (t.sending = none → t.written = t.taken.flatMap format.wire) ∧
      ∃ done part, t.written = done.flatMap format.wire ++ part ∧
        (t.taken = done ∧ part = [] ∨
          ∃ msg, t.taken = done ++ [msg] ∧ part <+: format.wire msg) := by
  have hreads : t.Reads format frames := Trace.invariant_of_along
    (fun _ _ _ hs he hu => Reads.step hframes hs he hu) (Reads.accepted hframes hstream) htakes hrun
  exact ⟨⟨hreads.inbound_prefix hframes, hreads.inbound_eq hframes⟩, written_of_run hrun⟩

def turns : List (HandlerEvent (List UInt8 × List Nat)) :=
  [.enqueue (passCall, [3]), .recv, .sendmsg (.wrote 68), .arrive 48, .poll 16, .poll 32]

theorem both_directions_exact_turns :
    ∃ t, Trace.run (step rawFdFormat) (accepted [] Session.callA) turns = some t ∧
      t.session.inbound = [(Session.callA, [])] ∧
      t.written = rawFdFormat.wire (passCall, [3]) := by
  have hframes : ∀ msg ∈ [(Session.callA, [])], rawFdFormat.WellFormed msg := by
    intro msg hmsg
    rw [List.mem_singleton.mp hmsg]
    exact ⟨by decide, by decide, by decide, by decide⟩
  have heval : (Trace.run (step rawFdFormat) (accepted [] Session.callA) turns).any
      (fun t => decide (t.session.drained ∧ t.sending = none ∧ t.taken = [(passCall, [3])])) =
        true := by
    decide +kernel
  obtain ⟨t, hrun, hdrained, hidle, htaken⟩ := Trace.exists_of_eval heval
  have htakes : Trace.Along (step rawFdFormat) TakesBetweenFrames (accepted [] Session.callA)
      turns := by
    refine ⟨fun heq => (by cases heq), fun m hm => ?_⟩
    cases hm
    exact ⟨fun _ => rfl, fun _ _ => along_of_no_recv (by decide)⟩
  obtain ⟨⟨_, hread⟩, _, hsent, _⟩ :=
    both_directions_exact rawFdFormat hframes (by decide) hrun htakes
  have hwritten := hsent hidle
  rw [htaken, List.flatMap_singleton] at hwritten
  exact ⟨t, hrun, hread hdrained, hwritten⟩

end HandlerLoop

end KapsuleDbusMux
