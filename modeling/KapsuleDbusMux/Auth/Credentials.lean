import KapsuleDbusMux.Auth.Language
import KapsuleDbusMux.Client.ReadMessage
import KapsuleDbusMux.Multiplexer.Driver
import KapsuleDbusMux.Names.ColonNames

/-! # Where the credentials of a client come from

`ClientHandler::accept` asks the kernel for the process and the group of a client, and
takes the user from the handshake. What is stored in `ClientInfo` never changes while the
client is connected, so the driver reports the user the client has named, which is
the user of the socket only if the client said so. A well-known name can be in the records
of several clients; which of them is then reported is up to the order of the client map.
-/

namespace KapsuleDbusMux

/-- `UCred` of the peer of a socket. -/
structure PeerCred where
  uid : UInt32
  pid : Option Int32
  gid : UInt32
  deriving DecidableEq, Repr

/-- A socket with a client that wants to connect. `arriving` has what the client sends;
`peer_cred` may fail. -/
structure Socket where
  peerCred : Option PeerCred
  arriving : List (List UInt8)
  deriving DecidableEq, Repr

/-- `ClientHandler::accept`: the credentials of the client and its handler. -/
def SaslAuth.accept (auth : SaslAuth) (processUid : UInt32) (socket : Socket) :
    Except AuthError (ClientCredentials × ClientHandler) :=
  let (pid, gid) :=
    match socket.peerCred with
    | some cred => (cred.pid.map Int32.toUInt32, cred.gid)
    | none => (none, 0)
  match auth.authenticateServer processUid socket.arriving with
  | .error e => .error e
  | .ok (result, _) => .ok (⟨result.uid, pid, gid⟩, .accept result.bufferedData)

/-- The stream is a handshake that names this user: as the argument of `AUTH EXTERNAL` or
of `DATA`, or by an empty `DATA` the user the multiplexer runs as. -/
def SaslAuth.Names (auth : SaslAuth) (processUid uid : UInt32) (arriving : List (List UInt8)) :
    Prop :=
  ∃ body lines rest replies, arriving.flatten = 0 :: body ∧ TakesLines body lines rest ∧
    Handshake auth processUid uid lines replies

theorem accept_uid {auth : SaslAuth} {processUid : UInt32} {socket : Socket}
    {credentials : ClientCredentials} {handler : ClientHandler}
    (h : auth.accept processUid socket = .ok (credentials, handler)) (uid : UInt32) :
    credentials.uid = uid ↔ auth.Names processUid uid socket.arriving := by
  unfold SaslAuth.accept at h
  cases hauth : auth.authenticateServer processUid socket.arriving with
  | error e =>
      simp only [hauth] at h
      cases h
  | ok outcome =>
      simp only [hauth] at h
      cases h
      constructor
      · rintro rfl
        obtain ⟨_, body, lines, hstarts, hshake, htakes⟩ := authenticateServer_sound hauth
        exact ⟨body, lines, _, _, hstarts, htakes, hshake⟩
      · rintro ⟨body, lines, rest, replies, hstarts, htakes, hshake⟩
        obtain ⟨t, hrun, _⟩ := authenticateServer_complete hstarts htakes hshake
        rw [hauth] at hrun
        cases hrun
        rfl

/-! ## Credentials in a run -/

theorem Clients.credentials_updateOwned (clients : Clients) (clientId c : ClientId)
    (f : Finset String → Finset String) :
    ((clients.updateOwned clientId f).lookup c).map ClientInfo.credentials =
      (clients.lookup c).map ClientInfo.credentials := by
  rw [Clients.lookup_updateOwned]
  split
  · rw [Option.map_map]
    rfl
  · rfl

namespace NameState

/-- The handlers of names have nothing to do with credentials. -/
theorem credentials_resume {s t : NameState} {answered : Bool} (hstep : s.resume answered = some t)
    (c : ClientId) :
    (t.clients.lookup c).map ClientInfo.credentials =
      (s.clients.lookup c).map ClientInfo.credentials := by
  cases resume_stepped hstep with
  | requestOwned _ _ _ => exact Clients.credentials_updateOwned s.clients _ c _
  | promoteOwned _ _ _ _ => simp only [Clients.credentials_updateOwned]
  | releaseOwned _ _ _ => exact Clients.credentials_updateOwned s.clients _ c _
  | _ => rfl

theorem credentials_cleanUp {s t : NameState} {clientId : ClientId} {cleanup : Cleanup}
    {answered : Bool} (hstep : s.cleanUp clientId cleanup answered = some t) (c : ClientId) :
    (t.clients.lookup c).map ClientInfo.credentials =
      (s.clients.lookup c).map ClientInfo.credentials := by
  cases cleanUp_stepped hstep with
  | promoteOwned _ _ _ _ => exact Clients.credentials_updateOwned s.clients _ c _
  | _ => rfl

/-- Clients are registered with what `accept` makes of their sockets. -/
def FromSocket (auth : SaslAuth) (processUid : UInt32) (sockets : ClientId → Socket) :
    NameEvent → Prop
  | .connect clientId credentials =>
      ∃ handler, auth.accept processUid (sockets clientId) = .ok (credentials, handler)
  | _ => True

/-- The credentials of every connected client are what `accept` made of its socket. -/
def Accepted (auth : SaslAuth) (processUid : UInt32) (sockets : ClientId → Socket)
    (s : NameState) : Prop :=
  ∀ c info, s.clients.lookup c = some info →
    ∃ handler, auth.accept processUid (sockets c) = .ok (info.credentials, handler)

section Accepted

variable {auth : SaslAuth} {processUid : UInt32} {sockets : ClientId → Socket} {s t : NameState}

theorem Accepted.of_credentials (h : s.Accepted auth processUid sockets)
    (hsame : ∀ c, (t.clients.lookup c).map ClientInfo.credentials =
      (s.clients.lookup c).map ClientInfo.credentials) : t.Accepted auth processUid sockets := by
  intro c info hl
  have hcred := hsame c
  rw [hl] at hcred
  rcases Option.map_eq_some_iff.mp hcred.symm with ⟨old, hold, heq⟩
  rw [← heq]
  exact h c old hold

theorem step_accepted {e : NameEvent} (h : s.Accepted auth processUid sockets)
    (he : FromSocket auth processUid sockets e) (hstep : s.step e = some t) :
    t.Accepted auth processUid sockets := by
  cases step_stepped hstep with
  | connect clientId credentials hnew =>
      intro c info hl
      dsimp only at hl
      rw [AList.lookup_insert_if] at hl
      split at hl
      · next hc =>
          cases hl
          rw [hc]
          exact he
      · exact h c info hl
  | ignored clientId name flags => exact h
  | requestName clientId name flags info hidle hl => exact h
  | releaseName clientId name hidle => exact h
  | resume answered _ hresume => exact h.of_credentials (credentials_resume hresume)
  | nameOwnerChanged name oldOwner newOwner signals hidle hsignals => exact h
  | disconnect clientId ownedNames hclient =>
      intro c info hl
      dsimp only at hl
      rw [AList.lookup_erase_if] at hl
      split at hl
      · cases hl
      · exact h c info hl
  | removeFromQueues clientId results cleanup hl hphase hresults => exact h
  | cleanUp clientId answered cleanup _ hl hclean =>
      exact h.of_credentials (credentials_cleanUp hclean)

theorem run_accepted {routing : RoutingTable} {bus : ContainerBus} {events : List NameEvent}
    (hsockets : ∀ e ∈ events, FromSocket auth processUid sockets e)
    (hrun : Trace.run step (initial routing bus) events = some t) :
    t.Accepted auth processUid sockets := by
  refine Trace.invariant_of_along (I := fun s => s.Accepted auth processUid sockets)
    (P := fun _ e => FromSocket auth processUid sockets e)
    (fun _ _ _ hs he hu => step_accepted hs he hu) ?_ (Trace.along_of_forall hsockets) hrun
  intro c info hl
  cases hl

end Accepted

/-! ## What is reported -/

/-- A name of this client: its unique name, or a well-known name in its record. -/
def IsNameOf (s : NameState) (c : ClientId) (n : String) : Prop :=
  ∃ info, s.clients.lookup c = some info ∧
    (n = info.uniqueName ∨ n ≠ Driver.busName ∧ n ∈ info.ownedNames)

/-- The two clients have a name in common. A name stays in the record of an owner that was
replaced, and is in the record of the new one too. -/
def SharesName (s : NameState) (c d : ClientId) : Prop := ∃ n, s.IsNameOf c n ∧ s.IsNameOf d n

/-- This user is stored for a client, and reported for each of its names. -/
structure Reports (s : NameState) (process : Process) (c : ClientId) (uid : UInt32) : Prop where
  stored : ∀ info, s.clients.lookup c = some info → info.credentials.uid = uid
  unixUser : ∀ infos : List ClientInfo, infos.Perm (s.clients.entries.map Sigma.snd) →
    ∀ n, s.IsNameOf c n → Driver.getConnectionUnixUser infos n = .ok (.uint32 uid)
  credentials : ∀ infos : List ClientInfo, infos.Perm (s.clients.entries.map Sigma.snd) →
    ∀ n, s.IsNameOf c n → ∃ pid gid,
      Driver.getConnectionCredentials process infos n = .ok (Driver.credentialsDict uid pid gid)

theorem isNameOf_uniqueName {s : NameState} {c : ClientId} {info : ClientInfo}
    (hl : s.clients.lookup c = some info) : s.IsNameOf c info.uniqueName :=
  ⟨info, hl, Or.inl rfl⟩

/-- All names on record are well-known names. -/
def WellKnown (s : NameState) : Prop :=
  ∀ c info, s.clients.lookup c = some info → ∀ n ∈ info.ownedNames, isUniqueName n = false

theorem run_wellKnown {routing : RoutingTable} {bus : ContainerBus} {events : List NameEvent}
    {t : NameState} (hrun : Trace.run step (initial routing bus) events = some t) :
    t.WellKnown := by
  intro c info hl n hmem
  by_contra hcolon
  have hnot := run_unrecorded hrun (n := n) (by simpa using hcolon)
  exact hnot.records c info hl hmem

section Found

variable {s : NameState} (hwf : s.Wf) {n : String} {infos : List ClientInfo}
  (horder : infos.Perm (s.clients.entries.map Sigma.snd))

include hwf

theorem IsNameOf.ne_busName {c : ClientId} (hname : s.IsNameOf c n) : n ≠ Driver.busName := by
  obtain ⟨info, hl, hn | ⟨hbus, _⟩⟩ := hname
  · have hcolon := isUniqueName_muxUniqueName c
    rw [← hwf.clients c info hl, ← hn] at hcolon
    rintro rfl
    exact absurd hcolon (by decide)
  · exact hbus

include horder

theorem find?_uniqueName {c : ClientId} {info : ClientInfo} (hl : s.clients.lookup c = some info) :
    infos.find? (fun other => other.uniqueName == info.uniqueName) = some info := by
  refine find?_of_only horder hl (beq_self_eq_true _) (fun c' other hl' hother => ?_)
  have hsame : other.uniqueName = info.uniqueName := beq_iff_eq.mp hother
  rw [hwf.clients c' other hl', hwf.clients c info hl] at hsame
  exact muxUniqueName_injective hsame

theorem find?_uniqueName_wellKnown (hcolon : isUniqueName n = false) :
    infos.find? (fun other => other.uniqueName == n) = none := by
  refine find?_of_none horder (fun c other hl => ?_)
  rw [beq_eq_false_iff_ne, hwf.clients c other hl]
  rintro rfl
  rw [isUniqueName_muxUniqueName] at hcolon
  cases hcolon

/-- The credentials found for a name are those of a client that has it. -/
theorem IsNameOf.found (hknown : s.WellKnown) {c : ClientId} (hname : s.IsNameOf c n) :
    ∃ d info, s.IsNameOf d n ∧ s.clients.lookup d = some info ∧
      findClientCredentials infos n = some info.credentials := by
  obtain ⟨info, hl, rfl | ⟨hbus, hmem⟩⟩ := hname
  · refine ⟨c, info, isNameOf_uniqueName hl, hl, ?_⟩
    unfold findClientCredentials
    rw [find?_uniqueName hwf horder hl]
  · have hunique := find?_uniqueName_wellKnown hwf horder (hknown c info hl n hmem)
    have hinfo : info ∈ infos :=
      horder.mem_iff.mpr (List.mem_map.mpr ⟨⟨c, info⟩, AList.mem_lookup_iff.mp hl, rfl⟩)
    cases hfind : infos.find? (fun other => decide (n ∈ other.ownedNames)) with
    | none => exact absurd (decide_eq_true hmem) (List.find?_eq_none.mp hfind info hinfo)
    | some other =>
        have hother := horder.mem_iff.mp (List.mem_of_find?_eq_some hfind)
        obtain ⟨⟨d, _⟩, hentry, rfl⟩ := List.mem_map.mp hother
        have hl' := AList.mem_lookup_iff.mpr hentry
        have hfits := List.find?_some hfind
        rw [decide_eq_true_iff] at hfits
        refine ⟨d, _, ⟨_, hl', Or.inr ⟨hbus, hfits⟩⟩, hl', ?_⟩
        unfold findClientCredentials
        rw [hunique, hfind]
        rfl

omit horder in
/-- In some order of the clients the credentials of this one are found. -/
theorem IsNameOf.may_be_found (hknown : s.WellKnown) {d : ClientId} {info : ClientInfo}
    (hl : s.clients.lookup d = some info) (hname : s.IsNameOf d n) :
    ∃ infos : List ClientInfo, infos.Perm (s.clients.entries.map Sigma.snd) ∧
      findClientCredentials infos n = some info.credentials := by
  have hinfo : info ∈ s.clients.entries.map Sigma.snd :=
    List.mem_map.mpr ⟨⟨d, info⟩, AList.mem_lookup_iff.mp hl, rfl⟩
  obtain ⟨before, after, hsplit⟩ := List.append_of_mem hinfo
  have horder : (info :: (before ++ after)).Perm (s.clients.entries.map Sigma.snd) := by
    rw [hsplit]
    exact List.perm_middle.symm
  refine ⟨info :: (before ++ after), horder, ?_⟩
  obtain ⟨other, hother, hn⟩ := hname
  cases hl.symm.trans hother
  unfold findClientCredentials
  rcases hn with rfl | ⟨_, hmem⟩
  · rw [find?_uniqueName hwf horder hl]
  · have howned : (info :: (before ++ after)).find?
        (fun other => decide (n ∈ other.ownedNames)) = some info :=
      List.find?_cons_of_pos (decide_eq_true hmem)
    rw [find?_uniqueName_wellKnown hwf horder (hknown d info hl n hmem), howned]
    rfl

end Found

/-- A user is reported for a client's names exactly when it is stored for all clients that
have one of them. -/
theorem reports_iff {s : NameState} (hwf : s.Wf) (hknown : s.WellKnown) (process : Process)
    (c : ClientId) (uid : UInt32) :
    s.Reports process c uid ↔
      ∀ d other, s.SharesName c d → s.clients.lookup d = some other →
        other.credentials.uid = uid := by
  constructor
  · rintro h d other ⟨n, hn, hd⟩ hother
    obtain ⟨infos, horder, hfind⟩ := hd.may_be_found hwf hknown hother
    have huser := h.unixUser infos horder n hn
    unfold Driver.getConnectionUnixUser at huser
    rw [if_neg (hn.ne_busName hwf), hfind] at huser
    cases huser
    rfl
  · intro h
    refine ⟨fun other hother => ?_, fun infos horder n hn => ?_, fun infos horder n hn => ?_⟩
    · exact h c other ⟨_, isNameOf_uniqueName hother, isNameOf_uniqueName hother⟩ hother
    · obtain ⟨d, other, hd, hother, hfind⟩ := hn.found hwf horder hknown
      unfold Driver.getConnectionUnixUser
      rw [if_neg (hn.ne_busName hwf), hfind, ← h d other ⟨n, hn, hd⟩ hother]
    · obtain ⟨d, other, hd, hother, hfind⟩ := hn.found hwf horder hknown
      refine ⟨other.credentials.pid, other.credentials.gid, ?_⟩
      unfold Driver.getConnectionCredentials
      rw [if_neg (hn.ne_busName hwf), hfind, ← h d other ⟨n, hn, hd⟩ hother]

/-- For every connected client, in every state of every run: the user of its socket is
stored, and reported for each of its names, exactly when that is the user its handshake
names and the user named by every client that has a name in common with it. -/
theorem reported_uid_iff {auth : SaslAuth} {processUid : UInt32} {sockets : ClientId → Socket}
    {routing : RoutingTable} {bus : ContainerBus} {events : List NameEvent} {t : NameState}
    (hsockets : ∀ e ∈ events, FromSocket auth processUid sockets e)
    (hrun : Trace.run step (initial routing bus) events = some t) (process : Process)
    {c : ClientId} (hclient : c ∈ t.clients) :
    (∀ peer, (sockets c).peerCred = some peer → t.Reports process c peer.uid) ↔
      ∀ peer, (sockets c).peerCred = some peer →
        auth.Names processUid peer.uid (sockets c).arriving ∧
          ∀ d, t.SharesName c d → auth.Names processUid peer.uid (sockets d).arriving := by
  rcases Option.isSome_iff_exists.mp (AList.lookup_isSome.mpr hclient) with ⟨info, hl⟩
  have haccepted := run_accepted hsockets hrun
  have hself : t.SharesName c c := ⟨_, isNameOf_uniqueName hl, isNameOf_uniqueName hl⟩
  refine forall_congr' (fun peer => imp_congr_right (fun _ => ?_))
  rw [reports_iff (run_wf hrun) (run_wellKnown hrun) process c]
  constructor
  · intro h
    have hall : ∀ d, t.SharesName c d →
        auth.Names processUid peer.uid (sockets d).arriving := by
      rintro d ⟨n, hn, hd⟩
      obtain ⟨other, hother, hrest⟩ := hd
      obtain ⟨handler, haccept⟩ := haccepted d other hother
      exact (accept_uid haccept peer.uid).mp (h d other ⟨n, hn, other, hother, hrest⟩ hother)
    exact ⟨hall c hself, hall⟩
  · rintro ⟨_, hall⟩ d other hshares hother
    obtain ⟨handler, haccept⟩ := haccepted d other hother
    exact (accept_uid haccept peer.uid).mpr (hall d hshares)

/-- A client of this user that sends the handshake of the user with id 1000. -/
def socketOf (uid : UInt32) : Socket := ⟨some ⟨uid, some 77, 1000⟩, [directHandshake]⟩

theorem accept_socketOf (uid : UInt32) :
    (SaslAuth.mk "0123").accept 0 (socketOf uid) = .ok (⟨1000, some 77, 1000⟩, .accept []) := by
  have hauth : (SaslAuth.mk "0123").authenticateServer 0 [directHandshake] =
      .ok (⟨1000, []⟩, ⟨⟨[], []⟩, [utf8Bytes "OK 0123\r\n"]⟩) := by decide
  unfold SaslAuth.accept socketOf
  simp only [hauth]
  rfl

def oneConnect : List NameEvent := [.connect 1 ⟨1000, some 77, 1000⟩]

theorem fromSocket_oneConnect (uid : UInt32) : ∀ e ∈ oneConnect,
    FromSocket (SaslAuth.mk "0123") 0 (fun _ => socketOf uid) e := by
  intro e he
  rw [List.mem_singleton.mp he]
  exact ⟨_, accept_socketOf uid⟩

/-- The user with id 1000 is reported with that id. -/
theorem reported_uid_honest :
    ∃ t, Trace.run step (initial .new ⟨":1.5", by decide, ∅, []⟩) oneConnect = some t ∧
      t.Reports ⟨0, 42, 0, none⟩ 1 1000 := by
  have heval : (Trace.run step (initial .new ⟨":1.5", by decide, ∅, []⟩) oneConnect).any
      (fun t => decide (1 ∈ t.clients)) = true := by decide
  rcases Trace.exists_of_eval heval with ⟨t, hrun, hclient⟩
  have hnames := (accept_uid (accept_socketOf 1000) 1000).mp rfl
  refine ⟨t, hrun, (reported_uid_iff (fromSocket_oneConnect 1000) hrun ⟨0, 42, 0, none⟩
    hclient).mpr (fun peer hpeer => ?_) ⟨1000, some 77, 1000⟩ rfl⟩
  cases hpeer
  exact ⟨hnames, fun _ _ => hnames⟩

/-- Another user that sends the same handshake is reported with that id as well. -/
theorem named_uid_reported :
    ¬ ∀ (auth : SaslAuth) (processUid : UInt32) (sockets : ClientId → Socket)
        (routing : RoutingTable) (bus : ContainerBus) (events : List NameEvent) (t : NameState)
        (process : Process) (c : ClientId) (peer : PeerCred),
      (∀ e ∈ events, FromSocket auth processUid sockets e) →
      Trace.run step (initial routing bus) events = some t → c ∈ t.clients →
      (sockets c).peerCred = some peer → t.Reports process c peer.uid := by
  intro hclaim
  have heval : (Trace.run step (initial .new ⟨":1.5", by decide, ∅, []⟩) oneConnect).any
      (fun t => decide (1 ∈ t.clients ∧
        (t.clients.lookup 1).map (fun info => info.credentials.uid) = some 1000)) = true := by
    decide
  rcases Trace.exists_of_eval heval with ⟨t, hrun, hclient, huid⟩
  have hreports := hclaim _ 0 _ _ _ _ t ⟨0, 42, 0, none⟩ 1 ⟨1001, some 77, 1000⟩
    (fromSocket_oneConnect 1001) hrun hclient rfl
  rcases Option.map_eq_some_iff.mp huid with ⟨info, hl, hinfo⟩
  rw [hreports.stored info hl] at hinfo
  exact absurd hinfo (by decide)

end NameState

end KapsuleDbusMux
