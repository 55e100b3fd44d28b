import KapsuleDbusMux.Auth.SaslAuth

/-! # The language of the SASL server

What a client may say, without the server: lines are taken from the stream one
after the other and have to form a handshake. The server accepts exactly the
handshakes, and answers every line of one but the last.
-/

namespace KapsuleDbusMux

open Lines

/-! ## Lines -/

/-- The bytes up to and including the next line feed, or up to the end of the
stream. Without its terminator a line is not empty, and it is UTF-8. -/
structure TakesLine (stream line rest : List UInt8) : Prop where
  raw : ∃ text, stream = text ++ rest ∧ line = strip text ∧
    ((∃ start, text = start ++ [lineFeed] ∧ lineFeed ∉ start) ∨ (lineFeed ∉ text ∧ rest = []))
  nonempty : line ≠ []
  utf8 : isUtf8 line = true

inductive TakesLines : List UInt8 → List (List UInt8) → List UInt8 → Prop
  | nil (stream : List UInt8) : TakesLines stream [] stream
  | cons {stream line rest lines rest'} (first : TakesLine stream line rest)
      (others : TakesLines rest lines rest') : TakesLines stream (line :: lines) rest'

theorem takesLine_iff {stream line rest : List UInt8} :
    TakesLine stream line rest ↔
      line = strip (split stream).1 ∧ rest = (split stream).2 ∧ line ≠ [] ∧
        isUtf8 (split stream).1 = true := by
  constructor
  · rintro ⟨⟨text, hstream, hline, hends⟩, hne, hutf8⟩
    have hsplit : split stream = (text, rest) := by
      rcases hends with ⟨start, htext, hnot⟩ | ⟨hnot, hrest⟩
      · rw [hstream, htext, List.append_assoc]
        exact split_singleton hnot rest
      · rw [hstream, hrest, List.append_nil]
        exact split_all hnot
    rw [hsplit]
    refine ⟨hline, rfl, hne, ?_⟩
    rw [← isUtf8_strip, ← hline]
    exact hutf8
  · rintro ⟨hline, hrest, hne, hutf8⟩
    refine ⟨⟨(split stream).1, ?_, hline, ?_⟩, hne, ?_⟩
    · rw [hrest, split_append]
    · rcases split_cases stream with ⟨text, after, hnot, _, hsplit⟩ | ⟨hnot, hsplit⟩
      · exact Or.inl ⟨text, by rw [hsplit], hnot⟩
      · refine Or.inr ⟨by rw [hsplit]; exact hnot, by rw [hrest, hsplit]⟩
    · rw [hline, isUtf8_strip]
      exact hutf8

theorem TakesLine.length_lt {stream line rest : List UInt8} (h : TakesLine stream line rest) :
    rest.length < stream.length := by
  rcases h.raw with ⟨text, hstream, hline, _⟩
  have htext : text ≠ [] := by
    intro hnil
    exact h.nonempty (by rw [hline, hnil]; rfl)
  rw [hstream, List.length_append]
  have hpos := List.length_pos_iff.mpr htext
  omega

theorem TakesLines.length_le {stream rest : List UInt8} {lines : List (List UInt8)}
    (h : TakesLines stream lines rest) : lines.length ≤ stream.length := by
  induction h with
  | nil => exact Nat.zero_le _
  | cons first _ ih =>
      have hlt := first.length_lt
      rw [List.length_cons]
      omega

/-! ## Handshakes -/

def IsRestart (line : List UInt8) : Prop :=
  line = utf8Bytes "AUTH" ∨ line = utf8Bytes "CANCEL" ∨ line = utf8Bytes "ERROR" ∨
    (∃ reason, line = utf8Bytes "ERROR " ++ reason) ∨
    (∃ mechanism, line = utf8Bytes "AUTH " ++ mechanism) ∧ line ≠ utf8Bytes "AUTH EXTERNAL" ∧
      ¬ ∃ h, line = utf8Bytes "AUTH EXTERNAL " ++ h

/-- The lines that say who the client is, and the answers to them. -/
inductive ClaimsUid (auth : SaslAuth) (processUid uid : UInt32) :
    List (List UInt8) → List (List UInt8) → Prop
  | direct (h : List UInt8) (parsed : parseHexUid h = .ok uid) :
      ClaimsUid auth processUid uid [utf8Bytes "AUTH EXTERNAL " ++ h] [auth.okResponse]
  | challenge (h : List UInt8) (parsed : parseHexUid h = .ok uid) :
      ClaimsUid auth processUid uid [utf8Bytes "AUTH EXTERNAL", utf8Bytes "DATA " ++ h]
        [SaslAuth.dataChallenge, auth.okResponse]
  | empty (same : uid = processUid) :
      ClaimsUid auth processUid uid [utf8Bytes "AUTH EXTERNAL", utf8Bytes "DATA"]
        [SaslAuth.dataChallenge, auth.okResponse]

/-- The end of a handshake, with or without passing of file descriptors. -/
inductive Begins : List (List UInt8) → List (List UInt8) → Prop
  | plain : Begins [utf8Bytes "BEGIN"] []
  | fds : Begins [utf8Bytes "NEGOTIATE_UNIX_FD", utf8Bytes "BEGIN"] [SaslAuth.agreeUnixFd]

/-- Lines and answers: any number of restarts, the user id, and the end. -/
inductive Handshake (auth : SaslAuth) (processUid uid : UInt32) :
    List (List UInt8) → List (List UInt8) → Prop
  | claim {lines replies lines' replies'} (claims : ClaimsUid auth processUid uid lines replies)
      (begins : Begins lines' replies') :
      Handshake auth processUid uid (lines ++ lines') (replies ++ replies')
  | restart {line lines replies} (restarts : IsRestart line)
      (others : Handshake auth processUid uid lines replies) :
      Handshake auth processUid uid (line :: lines) (SaslAuth.rejected :: replies)

theorem Handshake.length {auth : SaslAuth} {processUid uid : UInt32}
    {lines replies : List (List UInt8)} (h : Handshake auth processUid uid lines replies) :
    lines.length = replies.length + 1 := by
  induction h with
  | claim claims begins => cases claims <;> cases begins <;> rfl
  | restart _ _ ih => simp [ih]

theorem isRestart_iff (line : List UInt8) :
    IsRestart line ↔ (utf8Bytes "AUTH EXTERNAL ").isPrefixOf line = false ∧
      line ≠ utf8Bytes "AUTH EXTERNAL" ∧
      (line = utf8Bytes "AUTH" ∨ (utf8Bytes "AUTH ").isPrefixOf line = true ∨
        line = utf8Bytes "CANCEL" ∨ line = utf8Bytes "ERROR" ∨
        (utf8Bytes "ERROR ").isPrefixOf line = true) := by
  have hstarts : ∀ pre : List UInt8, pre.isPrefixOf line = true ↔ ∃ h, line = pre ++ h := by
    intro pre
    rw [List.isPrefixOf_iff_prefix]
    exact exists_congr (fun h => eq_comm)
  constructor
  · rintro (h | h | h | ⟨reason, h⟩ | ⟨hauth, hne, hnot⟩)
    · subst h
      exact ⟨by decide, by decide, Or.inl rfl⟩
    · subst h
      exact ⟨by decide, by decide, Or.inr (Or.inr (Or.inl rfl))⟩
    · subst h
      exact ⟨by decide, by decide, Or.inr (Or.inr (Or.inr (Or.inl rfl)))⟩
    · -- the first byte decides
      have hfirst : ∀ rest, line ≠ utf8Bytes "AUTH" ++ rest := by
        intro rest heq
        have hhead : some (69 : UInt8) = some 65 := congrArg List.head? (h.symm.trans heq)
        exact absurd hhead (by decide)
      refine ⟨?_, ?_, Or.inr (Or.inr (Or.inr (Or.inr ((hstarts _).mpr ⟨reason, h⟩))))⟩
      · rw [← Bool.not_eq_true, hstarts]
        rintro ⟨rest, heq⟩
        exact hfirst (utf8Bytes " EXTERNAL " ++ rest) heq
      · exact hfirst (utf8Bytes " EXTERNAL")
    · refine ⟨?_, hne, Or.inr (Or.inl ((hstarts _).mpr hauth))⟩
      rw [← Bool.not_eq_true, hstarts]
      exact hnot
  · rintro ⟨hnot, hne, h | h | h | h | h⟩
    · exact Or.inl h
    · rw [← Bool.not_eq_true, hstarts] at hnot
      exact Or.inr (Or.inr (Or.inr (Or.inr ⟨(hstarts _).mp h, hne, hnot⟩)))
    · exact Or.inr (Or.inl h)
    · exact Or.inr (Or.inr (Or.inl h))
    · exact Or.inr (Or.inr (Or.inr (Or.inl ((hstarts _).mp h))))

/-! ## What the server does with a line -/

namespace SaslStream

def toCome (stream : SaslStream) : List UInt8 := stream.reader.stream

end SaslStream

theorem run_readLine (s : SaslStream) :
    readLine.run s =
      if isUtf8 (split s.toCome).1 = true then
        if strip (split s.toCome).1 = [] then .error .unexpectedEof
        else .ok (strip (split s.toCome).1,
          { s with reader := (readUntil s.reader.buffer s.reader.arriving).2 })
      else .error .streamNotUtf8 := by
  have hraw : (readUntil s.reader.buffer s.reader.arriving).1 = (split s.toCome).1 :=
    readUntil_fst s.reader.buffer s.reader.arriving
  unfold readLine
  rw [← hraw]
  cases hutf8 : isUtf8 (readUntil s.reader.buffer s.reader.arriving).1 with
  | false =>
      simp only [StateT.run_bind, StateT.run_get, StateT.run_set, pure_bind, hutf8]
      rfl
  | true =>
      by_cases hempty : strip (readUntil s.reader.buffer s.reader.arriving).1 = []
      · simp only [StateT.run_bind, StateT.run_get, StateT.run_set, pure_bind, hutf8, hempty]
        rfl
      · simp only [StateT.run_bind, StateT.run_get, StateT.run_set, pure_bind, hutf8, hempty]
        rfl

theorem run_bind_ok {α β : Type} {x : Auth α} {f : α → Auth β} {s t : SaslStream} {b : β} :
    (x >>= f).run s = .ok (b, t) ↔ ∃ a m, x.run s = .ok (a, m) ∧ (f a).run m = .ok (b, t) := by
  rw [StateT.run_bind]
  cases h : x.run s with
  | error e =>
      constructor
      · intro h
        cases h
      · rintro ⟨_, _, h, _⟩
        cases h
  | ok result =>
      constructor
      · exact fun h => ⟨result.1, result.2, rfl, h⟩
      · rintro ⟨a, m, heq, hrest⟩
        cases heq
        exact hrest

theorem readLine_ok {s t : SaslStream} {line : List UInt8}
    (h : readLine.run s = .ok (line, t)) :
    TakesLine s.toCome line t.toCome ∧ t.written = s.written := by
  rw [run_readLine] at h
  split at h
  · next hutf8 =>
      split at h
      · cases h
      · next hempty =>
          cases h
          have hrest := stream_readUntil s.reader.buffer s.reader.arriving
          exact ⟨takesLine_iff.mpr ⟨rfl, hrest, hempty, hutf8⟩, rfl⟩
  · cases h

theorem readLine_of_takesLine {s : SaslStream} {line rest : List UInt8}
    (h : TakesLine s.toCome line rest) :
    ∃ t, readLine.run s = .ok (line, t) ∧ t.toCome = rest ∧ t.written = s.written := by
  obtain ⟨hline, hrest, hne, hutf8⟩ := takesLine_iff.mp h
  refine ⟨{ s with reader := (readUntil s.reader.buffer s.reader.arriving).2 }, ?_, ?_, rfl⟩
  · rw [run_readLine, if_pos hutf8, ← hline, if_neg hne]
  · exact (stream_readUntil s.reader.buffer s.reader.arriving).trans hrest.symm

/-- The four branches of the loop that start again as one. -/
theorem authLoop_succ (auth : SaslAuth) (processUid : UInt32) (fuel : Nat) :
    auth.authLoop processUid (fuel + 1) = (do
      let line ← readLine
      if (utf8Bytes "AUTH EXTERNAL ").isPrefixOf line then
        let uid ← liftExcept (parseHexUid (line.drop (utf8Bytes "AUTH EXTERNAL ").length))
        auth.completeAuth uid
      else if line = utf8Bytes "AUTH EXTERNAL" then auth.challenge processUid
      else if line = utf8Bytes "AUTH" ∨ (utf8Bytes "AUTH ").isPrefixOf line = true ∨
          line = utf8Bytes "CANCEL" ∨ line = utf8Bytes "ERROR" ∨
          (utf8Bytes "ERROR ").isPrefixOf line = true then
        writeAll SaslAuth.rejected
        auth.authLoop processUid fuel
      else throw (.unexpectedLine line)) := by
  conv_lhs => unfold SaslAuth.authLoop
  simp only [ite_or]

/-! ## Soundness: what is accepted is a handshake -/

section Soundness

variable {auth : SaslAuth} {processUid : UInt32} {s t : SaslStream} {result : AuthResult}

theorem completeAuth_sound {uid : UInt32}
    (h : (auth.completeAuth uid).run s = .ok (result, t)) :
    result = ⟨uid, t.reader.buffer⟩ ∧ ∃ lines replies, Begins lines replies ∧
      TakesLines s.toCome lines t.toCome ∧
      t.written = s.written ++ auth.okResponse :: replies := by
  unfold SaslAuth.completeAuth at h
  obtain ⟨_, _, ⟨⟩, h⟩ := run_bind_ok.mp h
  obtain ⟨line, m, hline, h⟩ := run_bind_ok.mp h
  obtain ⟨hfirst, hwritten⟩ := readLine_ok hline
  split at h
  · next hfd =>
      obtain ⟨_, _, ⟨⟩, h⟩ := run_bind_ok.mp h
      obtain ⟨line', m', hline', h⟩ := run_bind_ok.mp h
      obtain ⟨hsecond, hwritten'⟩ := readLine_ok hline'
      split at h
      · cases h
      · next hbegin =>
          rw [not_not] at hbegin
          cases h
          subst hfd hbegin
          refine ⟨rfl, _, _, .fds, .cons hfirst (.cons hsecond (.nil _)), ?_⟩
          rw [hwritten']
          simp [hwritten]
  · split at h
    · cases h
    · next hbegin =>
        rw [not_not] at hbegin
        cases h
        subst hbegin
        refine ⟨rfl, _, _, .plain, .cons hfirst (.nil _), ?_⟩
        rw [hwritten]

theorem liftExcept_ok {α : Type} {parsed : Except AuthError α} {a : α}
    (h : (liftExcept parsed).run s = .ok (a, t)) : parsed = .ok a ∧ t = s := by
  cases parsed with
  | error e => cases h
  | ok b =>
      cases h
      exact ⟨rfl, rfl⟩

theorem eq_append_drop {pre line : List UInt8} (h : pre.isPrefixOf line = true) :
    line = pre ++ line.drop pre.length := by
  rcases List.isPrefixOf_iff_prefix.mp h with ⟨rest, hrest⟩
  rw [← hrest, List.drop_left]

/-- The lines of the rest of a handshake, when its first line has been read. -/
theorem challenge_sound (h : (auth.challenge processUid).run s = .ok (result, t)) :
    result.bufferedData = t.reader.buffer ∧ ∃ lines replies lines' replies',
      ClaimsUid auth processUid result.uid (utf8Bytes "AUTH EXTERNAL" :: lines) replies ∧
      Begins lines' replies' ∧ TakesLines s.toCome (lines ++ lines') t.toCome ∧
      t.written = s.written ++ (replies ++ replies') := by
  unfold SaslAuth.challenge at h
  obtain ⟨_, _, ⟨⟩, h⟩ := run_bind_ok.mp h
  obtain ⟨line, m, hline, h⟩ := run_bind_ok.mp h
  obtain ⟨hfirst, hwritten⟩ := readLine_ok hline
  split at h
  · next hdata =>
      obtain ⟨uid, n, hlift, hcomplete⟩ := run_bind_ok.mp h
      obtain ⟨hparsed, hsame⟩ := liftExcept_ok hlift
      subst hsame
      obtain ⟨rfl, lines, replies, hbegins, htakes, hw⟩ := completeAuth_sound hcomplete
      refine ⟨rfl, [line], [SaslAuth.dataChallenge, auth.okResponse], lines, replies, ?_, hbegins,
        .cons hfirst htakes, ?_⟩
      · rw [eq_append_drop hdata]
        exact .challenge _ hparsed
      · rw [hw, hwritten]
        simp
  · split at h
    · next hdata =>
        obtain ⟨rfl, lines, replies, hbegins, htakes, hw⟩ := completeAuth_sound h
        refine ⟨rfl, [line], [SaslAuth.dataChallenge, auth.okResponse], lines, replies, ?_, hbegins,
          .cons hfirst htakes, ?_⟩
        · rw [hdata]
          exact .empty rfl
        · rw [hw, hwritten]
          simp
    · cases h

/-- The rounds of the loop: a user id, the challenge, or a restart line. -/
theorem authLoop_round {fuel : Nat}
    (h : (auth.authLoop processUid (fuel + 1)).run s = .ok (result, t)) :
    ∃ line m, readLine.run s = .ok (line, m) ∧
      ((∃ uid, (utf8Bytes "AUTH EXTERNAL ").isPrefixOf line = true ∧
          parseHexUid (line.drop (utf8Bytes "AUTH EXTERNAL ").length) = .ok uid ∧
          (auth.completeAuth uid).run m = .ok (result, t)) ∨
        (line = utf8Bytes "AUTH EXTERNAL" ∧ (auth.challenge processUid).run m = .ok (result, t)) ∨
        (IsRestart line ∧ (auth.authLoop processUid fuel).run
          { m with written := m.written ++ [SaslAuth.rejected] } = .ok (result, t))) := by
  rw [authLoop_succ] at h
  obtain ⟨line, m, hline, h⟩ := run_bind_ok.mp h
  refine ⟨line, m, hline, ?_⟩
  split at h
  · next hdirect =>
      obtain ⟨uid, n, hlift, hcomplete⟩ := run_bind_ok.mp h
      obtain ⟨hparsed, hsame⟩ := liftExcept_ok hlift
      subst hsame
      exact Or.inl ⟨uid, hdirect, hparsed, hcomplete⟩
  · next hdirect =>
      split at h
      · next hbare => exact Or.inr (Or.inl ⟨hbare, h⟩)
      · next hbare =>
          split at h
          · next hrestarts =>
              rw [Bool.not_eq_true] at hdirect
              exact Or.inr (Or.inr ⟨(isRestart_iff line).mpr ⟨hdirect, hbare, hrestarts⟩, h⟩)
          · cases h

theorem authLoop_sound {fuel : Nat}
    (h : (auth.authLoop processUid fuel).run s = .ok (result, t)) :
    result.bufferedData = t.reader.buffer ∧ ∃ lines replies,
      Handshake auth processUid result.uid lines replies ∧
      TakesLines s.toCome lines t.toCome ∧ t.written = s.written ++ replies := by
  induction fuel generalizing s with
  | zero => cases h
  | succ fuel ih =>
      obtain ⟨line, m, hline, hround⟩ := authLoop_round h
      obtain ⟨hfirst, hwritten⟩ := readLine_ok hline
      rcases hround with ⟨uid, hdirect, hparsed, hcomplete⟩ | ⟨rfl, hchallenge⟩ | ⟨hrestart, hloop⟩
      · obtain ⟨rfl, lines, replies, hbegins, htakes, hw⟩ := completeAuth_sound hcomplete
        refine ⟨rfl, [line] ++ lines, [auth.okResponse] ++ replies, .claim ?_ hbegins,
          .cons hfirst htakes, ?_⟩
        · rw [eq_append_drop hdirect]
          exact .direct _ hparsed
        · rw [hw, hwritten]
          rfl
      · obtain ⟨hbuffer, lines, replies, lines', replies', hclaims, hbegins, htakes, hw⟩ :=
          challenge_sound hchallenge
        refine ⟨hbuffer, _, _, .claim hclaims hbegins, .cons hfirst htakes, ?_⟩
        rw [hw, hwritten]
      · obtain ⟨hbuffer, lines, replies, hshake, htakes, hw⟩ := ih hloop
        refine ⟨hbuffer, _, _, .restart hrestart hshake, .cons hfirst htakes, ?_⟩
        rw [hw]
        simp [hwritten]

end Soundness

/-! ## Completeness: every handshake is accepted -/

/-- The run ends with this user id, the rest of the stream unused and these answers
given. What was read too far is handed over. -/
def Accepts (x : Auth AuthResult) (s : SaslStream) (uid : UInt32) (rest : List UInt8)
    (replies : List (List UInt8)) : Prop :=
  ∃ t, x.run s = .ok (⟨uid, t.reader.buffer⟩, t) ∧ t.toCome = rest ∧
    t.written = s.written ++ replies

section Completeness

variable {auth : SaslAuth} {processUid uid : UInt32} {s : SaslStream} {rest : List UInt8}
variable {lines replies : List (List UInt8)}

theorem Accepts.write {line : List UInt8} {f : Unit → Auth AuthResult}
    (h : ∀ t, t.toCome = s.toCome → Accepts (f ()) t uid rest replies) :
    Accepts (writeAll line >>= f) s uid rest (line :: replies) := by
  obtain ⟨t, hrun, hrest, hw⟩ := h { s with written := s.written ++ [line] } rfl
  refine ⟨t, run_bind_ok.mpr ⟨(), _, rfl, hrun⟩, hrest, ?_⟩
  rw [hw, List.append_assoc]
  rfl

theorem Accepts.read {line after : List UInt8} {f : List UInt8 → Auth AuthResult}
    (first : TakesLine s.toCome line after)
    (h : ∀ t, t.toCome = after → Accepts (f line) t uid rest replies) :
    Accepts (readLine >>= f) s uid rest replies := by
  obtain ⟨m, hline, hafter, hsame⟩ := readLine_of_takesLine first
  obtain ⟨t, hrun, hrest, hw⟩ := h m hafter
  exact ⟨t, run_bind_ok.mpr ⟨line, m, hline, hrun⟩, hrest, by rw [hw, hsame]⟩

theorem Accepts.parsed {hex : List UInt8} (parsed : parseHexUid hex = .ok uid)
    (h : Accepts (auth.completeAuth uid) s uid rest replies) :
    Accepts (liftExcept (parseHexUid hex) >>= auth.completeAuth) s uid rest replies := by
  obtain ⟨t, hrun, hrest, hw⟩ := h
  refine ⟨t, run_bind_ok.mpr ⟨uid, s, ?_, hrun⟩, hrest, hw⟩
  rw [parsed]
  rfl

theorem Accepts.finish : Accepts (do let stream ← get; return ⟨uid, stream.reader.buffer⟩) s uid
    s.toCome [] := ⟨s, rfl, rfl, (List.append_nil _).symm⟩

theorem completeAuth_complete (begins : Begins lines replies)
    (takes : TakesLines s.toCome lines rest) :
    Accepts (auth.completeAuth uid) s uid rest (auth.okResponse :: replies) := by
  refine Accepts.write fun m hm => ?_
  rw [← hm] at takes
  cases begins with
  | plain =>
      cases takes with
      | cons first others =>
          cases others
          refine Accepts.read first fun t ht => ?_
          subst ht
          exact Accepts.finish
  | fds =>
      cases takes with
      | cons first others =>
          refine Accepts.read first fun n hn => ?_
          subst hn
          refine Accepts.write fun k hk => ?_
          rw [← hk] at others
          cases others with
          | cons second others =>
              cases others
              refine Accepts.read second fun t ht => ?_
              subst ht
              exact Accepts.finish

theorem isPrefixOf_append (pre rest : List UInt8) : pre.isPrefixOf (pre ++ rest) = true :=
  List.isPrefixOf_iff_prefix.mpr (List.prefix_append pre rest)

/-- Everything after the line with the bare mechanism. -/
theorem challenge_complete {line : List UInt8} (begins : Begins lines replies)
    (claims : (∃ h, line = utf8Bytes "DATA " ++ h ∧ parseHexUid h = .ok uid) ∨
      (line = utf8Bytes "DATA" ∧ uid = processUid))
    (takes : TakesLines s.toCome (line :: lines) rest) :
    Accepts (auth.challenge processUid) s uid rest
      (SaslAuth.dataChallenge :: auth.okResponse :: replies) := by
  refine Accepts.write fun m hm => ?_
  rw [← hm] at takes
  cases takes with
  | cons first others =>
      refine Accepts.read first fun n hn => ?_
      subst hn
      have hcomplete : Accepts (auth.completeAuth uid) n uid rest (auth.okResponse :: replies) :=
        completeAuth_complete begins others
      rcases claims with ⟨h, rfl, hparsed⟩ | ⟨rfl, rfl⟩
      · rw [if_pos (isPrefixOf_append _ h), List.drop_left]
        exact Accepts.parsed hparsed hcomplete
      · exact hcomplete

/-- One round for each line is fuel enough. -/
theorem authLoop_complete {fuel : Nat} (h : Handshake auth processUid uid lines replies)
    (takes : TakesLines s.toCome lines rest) (enough : lines.length ≤ fuel) :
    Accepts (auth.authLoop processUid fuel) s uid rest replies := by
  obtain ⟨fuel, rfl⟩ : ∃ k, fuel = k + 1 := by
    have hlength := h.length
    exact ⟨fuel - 1, by omega⟩
  rw [authLoop_succ]
  induction h generalizing s fuel with
  | claim claims begins =>
      cases claims with
      | direct h parsed =>
          cases takes with
          | cons first others =>
              refine Accepts.read first fun n hn => ?_
              subst hn
              rw [if_pos (isPrefixOf_append _ h), List.drop_left]
              exact Accepts.parsed parsed (completeAuth_complete begins others)
      | challenge h parsed =>
          cases takes with
          | cons first others =>
              refine Accepts.read first fun n hn => ?_
              subst hn
              exact challenge_complete begins (Or.inl ⟨h, rfl, parsed⟩) others
      | empty same =>
          cases takes with
          | cons first others =>
              refine Accepts.read first fun n hn => ?_
              subst hn
              exact challenge_complete begins (Or.inr ⟨rfl, same⟩) others
  | restart restarts others ih =>
      cases takes with
      | cons first takesOthers =>
          obtain ⟨hdirect, hbare, hrestart⟩ := (isRestart_iff _).mp restarts
          refine Accepts.read first fun n hn => ?_
          subst hn
          rw [if_neg (Bool.not_eq_true _ ▸ hdirect), if_neg hbare, if_pos hrestart]
          refine Accepts.write fun m hm => ?_
          have hlength := others.length
          rw [List.length_cons] at enough
          obtain ⟨k, rfl⟩ : ∃ k, fuel = k + 1 := ⟨fuel - 1, by omega⟩
          rw [authLoop_succ]
          exact ih (hm ▸ takesOthers) k (by omega)

end Completeness

/-! ## The null byte -/

theorem readByte_ok {arriving arriving' : List (List UInt8)} {b : UInt8} :
    SaslAuth.readByte arriving = .ok (b, arriving') →
      arriving.flatten = b :: arriving'.flatten := by
  intro h
  induction arriving with
  | nil => cases h
  | cons piece arriving ih =>
      cases piece with
      | nil => exact ih h
      | cons c piece =>
          cases h
          rfl

theorem readByte_of_flatten {arriving : List (List UInt8)} {b : UInt8} {body : List UInt8}
    (h : arriving.flatten = b :: body) :
    ∃ arriving', SaslAuth.readByte arriving = .ok (b, arriving') ∧ arriving'.flatten = body := by
  induction arriving with
  | nil => cases h
  | cons piece arriving ih =>
      cases piece with
      | nil => exact ih h
      | cons c piece =>
          cases h
          exact ⟨piece :: arriving, rfl, rfl⟩

/-! ## The server -/

/-- What a run that ends well has read, said, and left. -/
theorem authenticateServer_sound {auth : SaslAuth} {processUid : UInt32}
    {arriving : List (List UInt8)} {result : AuthResult} {t : SaslStream}
    (h : auth.authenticateServer processUid arriving = .ok (result, t)) :
    result.bufferedData = t.reader.buffer ∧ ∃ body lines, arriving.flatten = 0 :: body ∧
      Handshake auth processUid result.uid lines t.written ∧ TakesLines body lines t.toCome := by
  unfold SaslAuth.authenticateServer at h
  cases hbyte : SaslAuth.readByte arriving with
  | error e =>
      simp only [hbyte] at h
      cases h
  | ok taken =>
      obtain ⟨b, arriving'⟩ := taken
      simp only [hbyte] at h
      split at h
      · cases h
      · next hzero =>
          rw [not_not] at hzero
          subst hzero
          obtain ⟨hbuffer, lines, replies, hshake, htakes, hw⟩ := authLoop_sound h
          rw [List.nil_append] at hw
          subst hw
          exact ⟨hbuffer, arriving'.flatten, lines, readByte_ok hbyte, hshake, htakes⟩

theorem authenticateServer_complete {auth : SaslAuth} {processUid uid : UInt32}
    {arriving : List (List UInt8)} {body rest : List UInt8} {lines replies : List (List UInt8)}
    (starts : arriving.flatten = 0 :: body) (takes : TakesLines body lines rest)
    (h : Handshake auth processUid uid lines replies) :
    ∃ t, auth.authenticateServer processUid arriving = .ok (⟨uid, t.reader.buffer⟩, t) ∧
      t.toCome = rest ∧ t.written = replies := by
  obtain ⟨arriving', hbyte, hbody⟩ := readByte_of_flatten starts
  have hcome : SaslStream.toCome ⟨⟨[], arriving'⟩, []⟩ = body := hbody
  obtain ⟨t, hrun, hrest, hw⟩ := authLoop_complete h (hcome.symm ▸ takes)
    (hcome.symm ▸ takes.length_le)
  refine ⟨t, ?_, hrest, hw⟩
  unfold SaslAuth.authenticateServer
  rw [hbyte]
  exact hrun

/-- The server accepts exactly its language, and writes exactly the answers that
belong to it, one for each line but the last. -/
theorem authenticateServer_iff (auth : SaslAuth) (processUid uid : UInt32)
    (arriving replies : List (List UInt8)) :
    (∃ buffered reader, auth.authenticateServer processUid arriving =
        .ok (⟨uid, buffered⟩, ⟨reader, replies⟩)) ↔
      ∃ body lines rest, arriving.flatten = 0 :: body ∧ TakesLines body lines rest ∧
        Handshake auth processUid uid lines replies ∧ lines.length = replies.length + 1 := by
  constructor
  · rintro ⟨buffered, reader, h⟩
    obtain ⟨_, body, lines, hstarts, hshake, htakes⟩ := authenticateServer_sound h
    exact ⟨body, lines, _, hstarts, htakes, hshake, hshake.length⟩
  · rintro ⟨body, lines, rest, hstarts, htakes, hshake, _⟩
    obtain ⟨t, hrun, _, hw⟩ := authenticateServer_complete hstarts htakes hshake
    subst hw
    exact ⟨t.reader.buffer, t.reader, hrun⟩

def directHandshake : List UInt8 := 0 :: utf8Bytes "AUTH EXTERNAL 31303030\r\nBEGIN\r\n"

end KapsuleDbusMux
