import KapsuleDbusMux.Auth.Language
import KapsuleDbusMux.Library.Coupling

/-! # Where the client's bytes are cut does not matter

The same bytes may reach the server in one piece or one by one. Two runs of the server on
the same bytes are compared step by step: they read the same lines, write the same answers,
and turn the client away for the same reason or accept it as the same user. Only how much
has come into the buffer depends on the cuts, and that is made up for by what is still in
the socket.
-/

namespace KapsuleDbusMux

open Lines Coupling

/-- The client still has the same to say, and has been told the same. -/
structure SaslStream.SameTalk (s s' : SaslStream) : Prop where
  toCome : s.toCome = s'.toCome
  written : s.written = s'.written

def AuthResult.SameUser (r r' : AuthResult) : Prop := r.uid = r'.uid

/-! ## Every part of the server -/

theorem respects_readLine : Respects SaslStream.SameTalk Eq readLine := by
  intro s s' hs
  rw [run_readLine, run_readLine, ← hs.toCome]
  split
  · split
    · exact .error _
    · refine .ok rfl ⟨?_, hs.written⟩
      show (readUntil _ _).2.stream = (readUntil _ _).2.stream
      rw [stream_readUntil, stream_readUntil]
      exact congrArg (fun stream => (split stream).2) hs.toCome
  · exact .error _

theorem respects_writeAll (line : List UInt8) :
    Respects SaslStream.SameTalk Eq (writeAll line) := by
  intro s s' hs
  refine .ok rfl ⟨hs.toCome, ?_⟩
  exact congrArg (fun written => written ++ [line]) hs.written

theorem respects_liftExcept {α : Type} (parsed : Except AuthError α) :
    Respects SaslStream.SameTalk Eq (liftExcept parsed) := by
  cases parsed with
  | error e => exact respects_throw e
  | ok a => exact respects_pure rfl

theorem readByte_of_flatten_nil {arriving : List (List UInt8)} (h : arriving.flatten = []) :
    SaslAuth.readByte arriving = .error .unexpectedEof := by
  induction arriving with
  | nil => rfl
  | cons piece arriving ih =>
      rw [List.flatten_cons, List.append_eq_nil_iff] at h
      rw [h.1]
      exact ih h.2

section Server

variable (auth : SaslAuth) (processUid : UInt32)

theorem respects_handOver (uid : UInt32) :
    Respects SaslStream.SameTalk AuthResult.SameUser
      (do
        let stream ← get
        return ⟨uid, stream.reader.buffer⟩ : Auth AuthResult) := by
  intro s s' hs
  have huser : AuthResult.SameUser ⟨uid, s.reader.buffer⟩ ⟨uid, s'.reader.buffer⟩ := rfl
  exact .ok huser hs

theorem respects_completeAuth (uid : UInt32) :
    Respects SaslStream.SameTalk AuthResult.SameUser
      (auth.completeAuth uid) := by
  unfold SaslAuth.completeAuth
  refine (respects_writeAll _).bind (fun _ => ?_)
  refine respects_readLine.bind (fun line => ?_)
  refine respects_ite ?_ ?_
  · refine (respects_writeAll _).bind (fun _ => ?_)
    refine respects_readLine.bind (fun line => ?_)
    exact respects_ite (respects_throw _) (respects_handOver uid)
  · exact respects_ite (respects_throw _) (respects_handOver uid)

theorem respects_challenge :
    Respects SaslStream.SameTalk AuthResult.SameUser
      (auth.challenge processUid) := by
  unfold SaslAuth.challenge
  refine (respects_writeAll _).bind (fun _ => ?_)
  refine respects_readLine.bind (fun line => ?_)
  refine respects_ite ?_ (respects_ite ?_ (respects_throw _))
  · exact (respects_liftExcept _).bind (fun uid => respects_completeAuth auth uid)
  · exact respects_completeAuth auth processUid

theorem respects_authLoop (fuel : Nat) :
    Respects SaslStream.SameTalk AuthResult.SameUser
      (auth.authLoop processUid fuel) := by
  induction fuel with
  | zero => exact respects_throw _
  | succ fuel ih =>
      rw [authLoop_succ]
      refine respects_readLine.bind (fun line => ?_)
      refine respects_ite ?_ (respects_ite ?_ (respects_ite ?_ (respects_throw _)))
      · exact (respects_liftExcept _).bind (fun uid => respects_completeAuth auth uid)
      · exact respects_challenge auth processUid
      · exact (respects_writeAll _).bind (fun _ => ih)

/-- Whatever a client sends, and however two ways of cutting it into reads differ: it is
turned away for the same reason, or accepted as the same user with the same answers and
with the same bytes left over for the messages. -/
theorem cuts_do_not_matter {arriving arriving' : List (List UInt8)}
    (hsame : arriving.flatten = arriving'.flatten) :
    (∃ e, auth.authenticateServer processUid arriving = .error e ∧
      auth.authenticateServer processUid arriving' = .error e) ∨
    ∃ uid t t', auth.authenticateServer processUid arriving = .ok (⟨uid, t.reader.buffer⟩, t) ∧
      auth.authenticateServer processUid arriving' = .ok (⟨uid, t'.reader.buffer⟩, t') ∧
      t.written = t'.written ∧
      t.reader.buffer ++ t.reader.arriving.flatten =
        t'.reader.buffer ++ t'.reader.arriving.flatten := by
  have halike : Alike SaslStream.SameTalk AuthResult.SameUser
      (auth.authenticateServer processUid arriving)
      (auth.authenticateServer processUid arriving') := by
    unfold SaslAuth.authenticateServer
    cases hflat : arriving.flatten with
    | nil =>
        rw [readByte_of_flatten_nil hflat, readByte_of_flatten_nil (hsame ▸ hflat)]
        exact .error _
    | cons b body =>
        obtain ⟨rest, hbyte, hrest⟩ := readByte_of_flatten hflat
        obtain ⟨rest', hbyte', hrest'⟩ := readByte_of_flatten (hsame ▸ hflat)
        rw [hbyte, hbyte']
        dsimp only
        split
        · exact .error _
        · have hstream : rest.flatten = rest'.flatten := hrest.trans hrest'.symm
          have hfuel : BufReader.stream ⟨[], rest⟩ = BufReader.stream ⟨[], rest'⟩ := hstream
          rw [hfuel]
          exact respects_authLoop auth processUid _ _ _ ⟨hfuel, rfl⟩
  generalize hfirst : auth.authenticateServer processUid arriving = first at halike
  generalize hsecond : auth.authenticateServer processUid arriving' = second at halike
  cases halike with
  | error e => exact Or.inl ⟨e, rfl, rfl⟩
  | @ok r r' t t' results states =>
      obtain ⟨uid, buffered⟩ := r
      obtain ⟨uid', buffered'⟩ := r'
      have huid : uid = uid' := results
      have hbuffer : buffered = t.reader.buffer := (authenticateServer_sound hfirst).1
      have hbuffer' : buffered' = t'.reader.buffer := (authenticateServer_sound hsecond).1
      subst huid hbuffer hbuffer'
      exact Or.inr ⟨uid, t, t', rfl, rfl, states.written, states.toCome⟩

end Server

/-- The same handshake in one piece and byte by byte. -/
theorem cuts_do_not_matter_byteByByte :
    ∃ t, (SaslAuth.mk "0123").authenticateServer 0 (directHandshake.map (fun b => [b])) =
        .ok (⟨1000, t.reader.buffer⟩, t) ∧ t.written = [utf8Bytes "OK 0123\r\n"] := by
  have haccepted : (SaslAuth.mk "0123").authenticateServer 0 [directHandshake] =
      .ok (⟨1000, []⟩, ⟨⟨[], []⟩, [utf8Bytes "OK 0123\r\n"]⟩) := by decide
  have hsame : [directHandshake].flatten = (directHandshake.map (fun b => [b])).flatten := by
    decide
  rcases cuts_do_not_matter (SaslAuth.mk "0123") 0 hsame with ⟨e, he, _⟩ |
    ⟨uid, t, t', hok, hok', hwritten, _⟩
  · rw [haccepted] at he
    cases he
  · rw [haccepted] at hok
    have huid : uid = 1000 := by
      injection hok with hpair
      exact (congrArg (fun p => p.1.uid) hpair).symm
    have htalk : t.written = [utf8Bytes "OK 0123\r\n"] := by
      injection hok with hpair
      exact (congrArg (fun p => p.2.written) hpair).symm
    rw [huid] at hok'
    exact ⟨t', hok', hwritten.symm.trans htalk⟩

end KapsuleDbusMux
