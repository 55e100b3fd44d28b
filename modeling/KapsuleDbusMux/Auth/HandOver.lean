import KapsuleDbusMux.Auth.Language
import KapsuleDbusMux.Client.InboundFraming

/-! # From authentication to messages

The lines of a handshake are read through a buffer, and what the buffer holds when
`BEGIN` has been read is where the messages start. The handler reads that first and
then the socket. Between the two no byte is lost, wherever the reads cut the stream.
-/

namespace KapsuleDbusMux

open Lines

/-! ## A handshake with messages behind it -/

theorem getLast?_of_append {a b : List UInt8} {x : UInt8} (h : (a ++ b).getLast? = some x)
    (hb : b ≠ []) : b.getLast? = some x := by
  rw [List.getLast?_append_of_ne_nil a hb] at h
  exact h

/-- Lines that end with a line feed are the same lines in front of anything else. -/
theorem TakesLines.append {stream : List UInt8} {lines : List (List UInt8)}
    (h : TakesLines stream lines []) (hlast : stream ≠ [] → stream.getLast? = some lineFeed)
    (more : List UInt8) : TakesLines (stream ++ more) lines more := by
  generalize hend : ([] : List UInt8) = rest at h
  induction h with
  | nil stream =>
      subst hend
      exact .nil more
  | cons first others ih =>
      rename_i stream line rest lines rest'
      have htail : rest ≠ [] → rest.getLast? = some lineFeed := by
        intro hrest
        rcases first.raw with ⟨text, hstream, _⟩
        have hne : stream ≠ [] := by
          rw [hstream]
          simp [hrest]
        have hfeed := hlast hne
        rw [hstream] at hfeed
        exact getLast?_of_append hfeed hrest
      refine .cons ⟨?_, first.nonempty, first.utf8⟩ (ih htail hend)
      rcases first.raw with ⟨text, hstream, hline, hends⟩
      refine ⟨text, by rw [hstream, List.append_assoc], hline, ?_⟩
      rcases hends with hends | ⟨hnot, hrest⟩
      · exact Or.inl hends
      · -- a line without line feed would be the end of the stream
        rw [hrest, List.append_nil] at hstream
        have hne : stream ≠ [] := by
          intro hnil
          have hlt := first.length_lt
          rw [hnil] at hlt
          exact Nat.not_lt_zero _ hlt
        have hmem := List.mem_of_getLast? (hlast hne)
        rw [hstream] at hmem
        exact absurd hmem hnot

/-- A stream that starts with a whole handshake is accepted like the handshake
itself, and what follows it is in the buffer or still in the socket. -/
theorem authenticateServer_append {auth : SaslAuth} {processUid : UInt32}
    {handshake more : List UInt8} {result : AuthResult} {t : SaslStream}
    (haccepted : auth.authenticateServer processUid [handshake] = .ok (result, t))
    (hwhole : t.toCome = []) (hline : more ≠ [] → handshake.getLast? = some lineFeed)
    {arriving : List (List UInt8)} (hsplit : arriving.flatten = handshake ++ more) :
    ∃ u, auth.authenticateServer processUid arriving =
        .ok (⟨result.uid, u.reader.buffer⟩, u) ∧ u.toCome = more ∧ u.written = t.written := by
  obtain ⟨_, body, lines, hstarts, hshake, htakes⟩ := authenticateServer_sound haccepted
  rw [hwhole] at htakes
  have hhandshake : handshake = 0 :: body := by simpa using hstarts
  have hlines : TakesLines (body ++ more) lines more := by
    by_cases hmore : more = []
    · rw [hmore, List.append_nil]
      exact htakes
    · refine htakes.append (fun hbody => ?_) more
      have hlast := hline hmore
      rw [hhandshake] at hlast
      exact getLast?_of_append (a := [0]) hlast hbody
  refine authenticateServer_complete ?_ hlines hshake
  rw [hsplit, hhandshake]
  rfl

/-! ## The frames behind it -/

namespace Session

variable {M : Type} {format : MessageFormat M} {frames : List M}

/-- When the messages are all frames, no byte is left and none is in progress. -/
theorem InStep.nothing_left {s : Session M} (h : s.InStep format frames)
    (hall : s.inbound = frames) : s.inProgress = [] ∧ s.drained := by
  have hstream := h.stream
  unfold Session.received at hstream
  rw [hall] at hstream
  have hrest : s.inProgress ++ (s.ahead ++ s.toCome) = [] :=
    List.append_right_eq_self.mp hstream
  obtain ⟨hprogress, hcoming⟩ := List.append_eq_nil_iff.mp hrest
  obtain ⟨hahead, htoCome⟩ := List.append_eq_nil_iff.mp hcoming
  obtain ⟨hunread, hsocket⟩ := List.append_eq_nil_iff.mp hahead
  exact ⟨hprogress, hunread, hsocket, htoCome⟩

theorem Wf.atEof_of_inProgress {s : Session M} (h : s.Wf) (hnothing : s.inProgress = []) :
    s.reading.atEof = .disconnected := by
  cases hreading : s.reading with
  | header filled => rfl
  | rest header filled =>
      unfold inProgress at hnothing
      rw [hreading] at hnothing
      have hlow := h.bufLow
      have hdef : MessageHeader.length = 16 := rfl
      have hlength := congrArg List.length hnothing
      rw [List.length_take, List.length_nil] at hlength
      omega

end Session

/-- A handshake and frames behind it, however the stream is cut into reads: what the
handler is given and what is still in the socket are the frames. Calls of
`read_message` that run to completion pass them on in order, as they are, until all
have been passed on, and the call after that reports that the client is gone. -/
theorem handOver_exact {auth : SaslAuth} {processUid : UInt32} {handshake : List UInt8}
    {result : AuthResult} {t : SaslStream}
    (haccepted : auth.authenticateServer processUid [handshake] = .ok (result, t))
    (hwhole : t.toCome = []) {frames : List (List UInt8)}
    (hframes : ∀ frame ∈ frames, Session.rawFormat.WellFormed frame)
    (hline : frames.flatten ≠ [] → handshake.getLast? = some lineFeed)
    {arriving : List (List UInt8)} (hsplit : arriving.flatten = handshake ++ frames.flatten) :
    ∃ u, auth.authenticateServer processUid arriving =
        .ok (⟨result.uid, u.reader.buffer⟩, u) ∧
      u.reader.buffer ++ u.reader.arriving.flatten = frames.flatten ∧
      ∀ (events : List SessionEvent) (s : Session (List UInt8)), .outbound ∉ events →
        Trace.run (Session.step Session.rawFormat)
          (.accepted u.reader.buffer u.reader.arriving.flatten) events = some s →
        s.inbound <+: frames ∧
        (s.drained → s.inbound = frames ∧ s.reading.atEof = .disconnected) ∧
        ∃ more s', .outbound ∉ more ∧ Trace.run (Session.step Session.rawFormat) s more = some s' ∧
          s'.inbound = frames ∧ s'.drained ∧ s'.reading.atEof = .disconnected := by
  obtain ⟨u, hu, hleft, _⟩ := authenticateServer_append haccepted hwhole hline hsplit
  refine ⟨u, hu, hleft, fun events s hevents hrun => ?_⟩
  have hstream : u.reader.buffer ++ u.reader.arriving.flatten =
      frames.flatMap Session.rawFormat.data := hleft.trans List.flatMap_id'.symm
  have hin := Session.run_inStep hframes hstream hrun (Session.along_of_no_outbound hevents)
  refine ⟨hin.inbound_prefix hframes, fun hdrained => ?_, ?_⟩
  · have hall := hin.inbound_eq hframes (Or.inr hdrained)
    exact ⟨hall, hin.wf.atEof_of_inProgress (hin.nothing_left hall).1⟩
  · obtain ⟨more, s', hmore, hnot, hall⟩ := hin.completes hframes
    have hend : s'.InStep Session.rawFormat frames := by
      refine Trace.invariant_of_along (I := fun s => s.InStep Session.rawFormat frames)
        (fun s e v hs he hv => Session.step_inStep hframes hs he hv) hin
        (Session.along_of_no_outbound hnot) hmore
    have hnothing := hend.nothing_left hall
    exact ⟨more, s', hnot, hmore, hall, hnothing.2, hend.wf.atEof_of_inProgress hnothing.1⟩

/-- A read that cuts `BEGIN`, and one that brings its end and the first part of a call. -/
def cutStream : List (List UInt8) :=
  [directHandshake.take 29, directHandshake.drop 29 ++ Session.callA.take 20,
    Session.callA.drop 20 ++ Session.callA]

theorem handOver_cutStream :
    ∃ u, (SaslAuth.mk "0123").authenticateServer 0 cutStream =
        .ok (⟨1000, u.reader.buffer⟩, u) ∧
      ∃ events s, Trace.run (Session.step Session.rawFormat)
        (.accepted u.reader.buffer u.reader.arriving.flatten) events = some s ∧
      s.inbound = [Session.callA, Session.callA] := by
  have haccepted : (SaslAuth.mk "0123").authenticateServer 0 [directHandshake] =
      .ok (⟨1000, []⟩, ⟨⟨[], []⟩, [utf8Bytes "OK 0123\r\n"]⟩) := by decide
  have hframes : ∀ frame ∈ [Session.callA, Session.callA], Session.rawFormat.WellFormed frame := by
    intro frame hframe
    have heq : frame = Session.callA := by simpa using hframe
    rw [heq]
    exact Session.wellFormed_callA
  have hsplit : cutStream.flatten =
      directHandshake ++ [Session.callA, Session.callA].flatten := by decide
  obtain ⟨u, hu, _, hread⟩ := handOver_exact haccepted rfl hframes (fun _ => by decide) hsplit
  obtain ⟨_, _, more, s, _, hrun, hall, _⟩ := hread [] _ List.not_mem_nil rfl
  exact ⟨u, hu, more, s, hrun, hall⟩

end KapsuleDbusMux
