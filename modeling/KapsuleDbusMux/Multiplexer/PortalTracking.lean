import KapsuleDbusMux.Library.History
import KapsuleDbusMux.Multiplexer.Loop
import KapsuleDbusMux.Multiplexer.Outcome

/-! # Whose request a portal response answers

A reply is matched to its call by the bus it came from and its serial. The handle in a
reply of a portal is tracked by its path alone, so a response on one bus may be taken
for the answer to a request on the other. Everything else about the tracking is right:
the records below are made as the run goes, and a tracked path always leads to the
last reply that registered it, which nothing has consumed since.
-/

namespace KapsuleDbusMux

/-- What happens to requests: a call goes to a bus under a serial, the reply to it
registers a path for its client, and a response consumes the path. -/
inductive PortalRecord where
  | called (clientId : ClientId) (route : Route) (serial : UInt32)
  | registered (clientId : ClientId) (route : Route) (serial : UInt32) (path : String)
  | consumed (route : Route) (path : String)
  deriving DecidableEq

namespace PortalRecord

def concerns (path : String) : PortalRecord → Bool
  | .called _ _ _ => false
  | .registered _ _ _ handle => decide (handle = path)
  | .consumed _ handle => decide (handle = path)

def isCall (route : Route) (serial : UInt32) : PortalRecord → Bool
  | .called _ onRoute withSerial => decide (onRoute = route ∧ withSerial = serial)
  | _ => false

/-- The last reply that registered the path came from this bus, with this serial, to a
call of this client, and no response has consumed the path since. -/
def Traced (log : List PortalRecord) (route : Route) (serial : UInt32) (path : String)
    (clientId : ClientId) : Prop :=
  ∃ before after, log = before ++ .registered clientId route serial path :: after ∧
    (∀ record ∈ after, record.concerns path = false) ∧
    History.last (isCall route serial) before = some (.called clientId route serial)

variable {log more : List PortalRecord} {route : Route} {serial : UInt32} {path : String}
variable {clientId : ClientId}

theorem Traced.append (h : Traced log route serial path clientId)
    (hmore : ∀ record ∈ more, record.concerns path = false) :
    Traced (log ++ more) route serial path clientId := by
  obtain ⟨before, after, rfl, hafter, hcall⟩ := h
  refine ⟨before, after ++ more, by simp, fun record hrecord => ?_, hcall⟩
  rcases List.mem_append.mp hrecord with h | h
  · exact hafter record h
  · exact hmore record h

theorem Traced.registered
    (hcall : History.last (isCall route serial) log = some (.called clientId route serial)) :
    Traced (log ++ [.registered clientId route serial path]) route serial path clientId :=
  ⟨log, [], rfl, fun _ h => (nomatch h), hcall⟩

theorem Traced.last (h : Traced log route serial path clientId) :
    History.last (concerns path) log = some (.registered clientId route serial path) := by
  obtain ⟨before, after, rfl, hafter, _⟩ := h
  exact History.last_of_split (by simp [concerns]) hafter

end PortalRecord

/-! ## Messages from the buses -/

namespace Multiplexer

def portalRecords (mux : Multiplexer) (msg : Message) (route : Route) : List PortalRecord :=
  if msg.isMethodReturn then
    match msg.replySerial, mux.answeredCall msg route, extractRequestHandle msg with
    | some serial, some call, some path => [.registered call.clientId route serial path]
    | _, _, _ => []
  else
    match mux.trackedClient msg, msg.path with
    | some _, some path => [.consumed route path]
    | _, _ => []

/-- All a message from a bus can do to tracked requests. -/
inductive PortalEffect (mux after : Multiplexer) (msg : Message) (route : Route) :
    List PortalRecord → Prop
  | registered (serial : UInt32) (call : PendingCall) (path : String)
      (hcall : mux.router.pendingAt route serial = some call)
      (howner : ∀ p, after.portalRequests.ownerOf p =
        if p = path then some call.clientId else mux.portalRequests.ownerOf p) :
      PortalEffect mux after msg route [.registered call.clientId route serial path]
  | consumed (path : String)
      (howner : ∀ p, after.portalRequests.ownerOf p =
        if p = path then none else mux.portalRequests.ownerOf p) :
      PortalEffect mux after msg route [.consumed route path]
  | kept (howner : after.portalRequests = mux.portalRequests) :
      PortalEffect mux after msg route []

variable (mux : Multiplexer) (builder : MessageBuilder) (now : Instant) (msg : Message)
variable (route : Route)

theorem portalEffect_handleReplyMessage (hreturn : msg.isMethodReturn = true) :
    PortalEffect mux (mux.handleReplyMessage builder now msg route) msg route
      (mux.portalRecords msg route) := by
  have herror : msg.isError = false := by
    simp only [Message.isMethodReturn, beq_iff_eq] at hreturn
    simp [Message.isError, hreturn]
  unfold handleReplyMessage portalRecords answeredCall
  simp only [hreturn, if_true]
  cases hserial : msg.replySerial with
  | none =>
      simp only [MessageRouter.handleReply, hserial]
      exact .kept rfl
  | some serial =>
      have hfound := mux.router.handleReply_fst hserial route
      cases hreply : mux.router.handleReply msg route with
      | mk result router =>
          rw [hreply] at hfound
          dsimp only at hfound
          subst hfound
          cases hcall : mux.router.pendingAt route serial with
          | none =>
              simp only [Option.map_none, Option.bind_some, hcall]
              exact .kept rfl
          | some call =>
              simp only [Option.map_some, Option.bind_some, hcall, herror, Bool.false_eq_true,
                if_false]
              cases hpath : extractRequestHandle msg with
              | none => exact .kept rfl
              | some path =>
                  refine .registered serial call path hcall (fun p => ?_)
                  simp only [PortalRequestTracker.ownerOf, PortalRequestTracker.register,
                    AList.lookup_insert_if]
                  split <;> rfl

theorem portalEffect_handleSignal (hsignal : msg.isSignal = true) :
    PortalEffect mux (mux.handleSignal builder msg route) msg route
      (mux.portalRecords msg route) := by
  have hreturn : msg.isMethodReturn = false := by
    simp only [Message.isSignal, beq_iff_eq] at hsignal
    simp [Message.isMethodReturn, hsignal]
  unfold handleSignal portalRecords trackedClient
  simp only [hreturn, Bool.false_eq_true, if_false]
  cases hportal : isPortalResponseSignal msg with
  | false => exact .kept rfl
  | true =>
      simp only [if_true]
      cases hpath : msg.path with
      | none => exact .kept rfl
      | some path =>
          unfold PortalRequestTracker.lookupAndRemove PortalRequestTracker.ownerOf
          cases hpending : mux.portalRequests.requests.lookup path with
          | none =>
              simp only [Option.bind_some, hpending, Option.map_none]
              exact .kept rfl
          | some pending =>
              simp only [Option.bind_some, hpending, Option.map_some]
              refine .consumed path (fun p => ?_)
              simp only [PortalRequestTracker.ownerOf, AList.lookup_erase_if]
              split <;> rfl

theorem portalEffect_handleBusMessage :
    PortalEffect mux (mux.handleBusMessage builder now msg route) msg route
      (mux.portalRecords msg route) := by
  have huntracked : isPortalResponseSignal msg = false → msg.isMethodReturn = false →
      mux.portalRecords msg route = [] := by
    intro hportal hreturn
    simp [portalRecords, hreturn, trackedClient, hportal]
  unfold handleBusMessage
  cases hchanged : msg.isNameOwnerChanged with
  | true =>
      have hsignal : msg.msgType = .signal := by
        simp only [Message.isNameOwnerChanged, Message.isSignal, Bool.and_eq_true, beq_iff_eq]
          at hchanged
        exact hchanged.1.1
      rw [huntracked (isPortalResponseSignal_of_nameOwnerChanged hchanged)
        (by simp [Message.isMethodReturn, hsignal])]
      refine .kept ?_
      unfold handleNameOwnerChanged
      simp only [if_true]
      split <;> rfl
  | false =>
      cases htype : msg.msgType with
      | methodCall =>
          have hsignal : msg.isSignal = false := by simp [Message.isSignal, htype]
          have hreply : (msg.isMethodReturn || msg.isError) = false := by
            simp [Message.isMethodReturn, Message.isError, htype]
          rw [huntracked (by simp [isPortalResponseSignal, hsignal])
            (by simp [Message.isMethodReturn, htype])]
          simp only [hsignal, hreply, Bool.false_eq_true, if_false]
          exact .kept rfl
      | methodReturn =>
          have hreturn : msg.isMethodReturn = true := by simp [Message.isMethodReturn, htype]
          have hsignal : msg.isSignal = false := by simp [Message.isSignal, htype]
          simp only [hreturn, hsignal, Bool.true_or, Bool.false_eq_true, if_true, if_false]
          exact portalEffect_handleReplyMessage mux builder now msg route hreturn
      | error =>
          have herror : msg.isError = true := by simp [Message.isError, htype]
          have hsignal : msg.isSignal = false := by simp [Message.isSignal, htype]
          rw [huntracked (by simp [isPortalResponseSignal, hsignal])
            (by simp [Message.isMethodReturn, htype])]
          simp only [herror, hsignal, Bool.or_true, Bool.false_eq_true, if_true, if_false]
          refine .kept ?_
          unfold handleReplyMessage
          simp only [herror, if_true]
          split <;> rfl
      | signal =>
          have hsignal : msg.isSignal = true := by simp [Message.isSignal, htype]
          have hreply : (msg.isMethodReturn || msg.isError) = false := by
            simp [Message.isMethodReturn, Message.isError, htype]
          simp only [hsignal, hreply, Bool.false_eq_true, if_true, if_false]
          exact portalEffect_handleSignal mux builder msg route hsignal

variable {mux builder now msg route} in
theorem pendingAt_of_handleBusMessage {other : Route} {serial : UInt32} {call : PendingCall}
    (h : (mux.handleBusMessage builder now msg route).router.pendingAt other serial = some call) :
    mux.router.pendingAt other serial = some call := by
  rcases router_handleBusMessage mux builder now msg route with hrouter | hrouter
  · rwa [hrouter] at h
  · rw [hrouter] at h
    cases hserial : msg.replySerial with
    | none =>
        rw [MessageRouter.handleReply, hserial] at h
        exact h
    | some replySerial =>
        rw [MessageRouter.pendingAt_handleReply hserial] at h
        split at h
        · cases h
        · exact h

end Multiplexer

namespace MuxState

/-! ## What the records say about every state -/

def records (s : MuxState) : MuxEvent → List PortalRecord
  | .clientMessage clientId msg env =>
      ((s.handleClientMessage env clientId msg).sent.drop s.sent.length).map
        (fun copy => .called clientId copy.1 copy.2.serial)
  | .busMessage route msg _ _ => s.portalRecords msg route
  | _ => []

/-- Every pending call is the last one under its serial, and every tracked path leads to
the reply that registered it. -/
structure Recorded (s : MuxState) (log : List PortalRecord) : Prop where
  calls : ∀ route serial call, s.router.pendingAt route serial = some call →
    History.last (PortalRecord.isCall route serial) log =
      some (.called call.clientId route serial)
  requests : ∀ path clientId, s.portalRequests.ownerOf path = some clientId →
    ∃ route serial, PortalRecord.Traced log route serial path clientId

variable {s t : MuxState} {log : List PortalRecord}

theorem Recorded.forget (h : s.Recorded log)
    (hcalls : ∀ route serial call, t.router.pendingAt route serial = some call →
      s.router.pendingAt route serial = some call)
    (hrequests : ∀ path clientId, t.portalRequests.ownerOf path = some clientId →
      s.portalRequests.ownerOf path = some clientId) : t.Recorded log where
  calls route serial call hcall := h.calls route serial call (hcalls route serial call hcall)
  requests path clientId howner := h.requests path clientId (hrequests path clientId howner)

theorem Recorded.replied (h : s.Recorded log) {env : Environment} {clientId : ClientId}
    {msg : Message} (hreplied : Replied env s clientId msg t) :
    t.Recorded log ∧ t.sent = s.sent := by
  obtain ⟨m, hm, hsame⟩ := hreplied.undisturbed
  rw [hsame]
  refine ⟨h.forget (fun route serial call hcall => ?_) (fun path owner howner => ?_), hm.sent⟩
  · unfold MessageRouter.pendingAt at hcall ⊢
    rwa [← hm.pending]
  · rwa [← hm.portal]

theorem Recorded.forwarded (h : s.Recorded log) {now : Instant} {clientId : ClientId}
    {msg : Message} {route : Route} (hforwarded : s.Forwarded t now clientId msg route) :
    t.Recorded (log ++ (t.sent.drop s.sent.length).map
      (fun copy => .called clientId copy.1 copy.2.serial)) := by
  obtain ⟨serial, hsent, hpending⟩ := hforwarded.copied
  have hrecords : (t.sent.drop s.sent.length).map
      (fun copy => PortalRecord.called clientId copy.1 copy.2.serial) =
        [.called clientId route serial] := by
    rw [hsent, List.drop_left]
    rfl
  rw [hrecords]
  constructor
  · intro other otherSerial call hcall
    rw [MessageRouter.pendingAt, hpending, AList.lookup_insert_if] at hcall
    rw [History.last_concat]
    split at hcall
    · next hkey =>
        cases hkey
        cases hcall
        simp [PortalRecord.isCall]
    · next hkey =>
        have hother : PortalRecord.isCall other otherSerial (.called clientId route serial) =
            false := by
          simp only [PortalRecord.isCall, decide_eq_false_iff_not]
          rintro ⟨rfl, rfl⟩
          exact hkey rfl
        rw [if_neg (by rw [hother]; exact Bool.false_ne_true)]
        exact h.calls other otherSerial call hcall
  · intro path owner howner
    rw [hforwarded.portal] at howner
    obtain ⟨onRoute, underSerial, htraced⟩ := h.requests path owner howner
    refine ⟨onRoute, underSerial, htraced.append (fun record hrecord => ?_)⟩
    rw [List.mem_singleton.mp hrecord]
    rfl

theorem Recorded.clientMessage (h : s.Recorded log) (env : Environment) (clientId : ClientId)
    (msg : Message) :
    (s.handleClientMessage env clientId msg).Recorded
      (log ++ s.records (.clientMessage clientId msg env)) := by
  have hnothing : ∀ t : MuxState, t.sent = s.sent → (t.sent.drop s.sent.length).map
      (fun copy => PortalRecord.called clientId copy.1 copy.2.serial) = [] := by
    intro t hsent
    rw [hsent, List.drop_length]
    rfl
  simp only [records]
  by_cases hcall : msg.isMethodCall = true
  · rcases handleClientMessage_cases env s clientId hcall with hreplied | hforwarded
    · rw [hnothing _ (h.replied hreplied).2, List.append_nil]
      exact (h.replied hreplied).1
    · exact h.forwarded hforwarded.1
  · rw [handleClientMessage_of_not_call env s clientId hcall, hnothing s rfl, List.append_nil]
    exact h

theorem Recorded.busMessage (h : s.Recorded log) (builder : MessageBuilder) (now : Instant)
    (msg : Message) (route : Route) :
    MuxState.Recorded { s with toMultiplexer := s.handleBusMessage builder now msg route }
      (log ++ s.portalRecords msg route) := by
  have heffect := s.portalEffect_handleBusMessage builder now msg route
  generalize s.portalRecords msg route = more at heffect
  constructor
  · intro other serial call hcall
    have hmore : ∀ record ∈ more, PortalRecord.isCall other serial record = false := by
      intro record hrecord
      cases heffect with
      | registered _ _ _ _ _ => rw [List.mem_singleton.mp hrecord]; rfl
      | consumed _ _ => rw [List.mem_singleton.mp hrecord]; rfl
      | kept _ => cases hrecord
    rw [History.last_append_of_forall log hmore]
    exact h.calls other serial call (Multiplexer.pendingAt_of_handleBusMessage hcall)
  · intro path clientId howner
    dsimp only at howner
    have hkept : s.portalRequests.ownerOf path = some clientId →
        (∀ record ∈ more, record.concerns path = false) →
        ∃ route serial, PortalRecord.Traced (log ++ more) route serial path clientId := by
      intro hbefore hmore
      obtain ⟨onRoute, serial, htraced⟩ := h.requests path clientId hbefore
      exact ⟨onRoute, serial, htraced.append hmore⟩
    cases heffect with
    | registered serial call handle hcall hafter =>
        rw [hafter] at howner
        split at howner
        · next hsame =>
            cases howner
            subst hsame
            exact ⟨route, serial, .registered (h.calls route serial call hcall)⟩
        · next hother =>
            refine hkept howner (fun record hrecord => ?_)
            rw [List.mem_singleton.mp hrecord]
            simpa [PortalRecord.concerns] using fun hsame => hother hsame.symm
    | consumed handle hafter =>
        rw [hafter] at howner
        split at howner
        · cases howner
        · next hother =>
            refine hkept howner (fun record hrecord => ?_)
            rw [List.mem_singleton.mp hrecord]
            simpa [PortalRecord.concerns] using fun hsame => hother hsame.symm
    | kept hafter =>
        rw [hafter] at howner
        exact hkept howner (fun _ hrecord => nomatch hrecord)

theorem Recorded.step (h : s.Recorded log) {e : MuxEvent} (hstep : s.step e = some t) :
    t.Recorded (log ++ s.records e) := by
  cases e with
  | clientMessage clientId msg env =>
      cases hstep
      exact h.clientMessage env clientId msg
  | busMessage route msg builder now =>
      cases hstep
      exact h.busMessage builder now msg route
  | connect clientId credentials =>
      simp only [MuxState.step] at hstep
      split at hstep
      · cases hstep
      · cases hstep
        exact (List.append_nil log).symm ▸ h.forget (fun _ _ _ => id) (fun _ _ => id)
  | disconnect clientId =>
      cases hstep
      exact (List.append_nil log).symm ▸ h.forget (fun _ _ _ => id) (fun _ _ => id)
  | removeRequests clientId =>
      cases hstep
      refine (List.append_nil log).symm ▸ h.forget (fun _ _ _ => id) (fun path owner howner => ?_)
      exact PortalRequestTracker.ownerOf_of_removeClient howner
  | removeNames routing queue refcount owned =>
      cases hstep
      exact (List.append_nil log).symm ▸ h.forget (fun _ _ _ => id) (fun _ _ => id)
  | cleanupTick now =>
      cases hstep
      refine (List.append_nil log).symm ▸ h.forget (fun route serial call hcall => ?_)
        (fun path owner howner => ?_)
      · dsimp only at hcall
        rw [MessageRouter.pendingAt_cleanupExpired] at hcall
        exact (Option.filter_eq_some_iff.mp hcall).1
      · exact PortalRequestTracker.ownerOf_of_cleanupExpired howner

/-! ## Responses -/

/-- A response that is taken for the answer to a request comes from the bus of the reply
that registered the request, which answered a call of the client that gets the
response, and no other response has consumed the registration. -/
def ResponseTraced (p : MuxState × List PortalRecord) : MuxEvent → Prop
  | .busMessage route msg _ _ => ∀ path clientId, msg.path = some path →
      p.1.trackedClient msg = some clientId →
      ∃ serial, PortalRecord.Traced p.2 route serial path clientId
  | _ => True

/-- A response to a tracked path does not come from the other bus than the last reply
with that path. -/
def SameBus (p : MuxState × List PortalRecord) : MuxEvent → Prop
  | .busMessage route msg _ _ => ∀ path clientId onRoute serial, msg.path = some path →
      (p.1.trackedClient msg).isSome = true →
      History.last (PortalRecord.concerns path) p.2 =
        some (.registered clientId onRoute serial path) → onRoute = route
  | _ => True

theorem responseTraced_iff {p : MuxState × List PortalRecord} (h : p.1.Recorded p.2)
    (e : MuxEvent) : ResponseTraced p e ↔ SameBus p e := by
  cases e with
  | busMessage route msg builder now =>
      constructor
      · intro htraced path clientId onRoute serial hpath htracked hlast
        obtain ⟨tracked, htracked⟩ := Option.isSome_iff_exists.mp htracked
        obtain ⟨serial', hfrom⟩ := htraced path tracked hpath htracked
        have hsame := hlast.symm.trans hfrom.last
        cases hsame
        rfl
      · intro hsame path clientId hpath htracked
        have howner : p.1.portalRequests.ownerOf path = some clientId := by
          unfold Multiplexer.trackedClient at htracked
          split at htracked
          · rwa [hpath] at htracked
          · cases htracked
        obtain ⟨onRoute, serial, htraced⟩ := h.requests path clientId howner
        have hroute := hsame path clientId onRoute serial hpath (by rw [htracked]; rfl) htraced.last
        exact ⟨serial, hroute ▸ htraced⟩
  | connect _ _ => exact Iff.rfl
  | clientMessage _ _ _ => exact Iff.rfl
  | disconnect _ => exact Iff.rfl
  | removeRequests _ => exact Iff.rfl
  | removeNames _ _ _ _ => exact Iff.rfl
  | cleanupTick _ => exact Iff.rfl

/-- In every run responses go where they belong, exactly as long as none of them carries a
path that the other bus has handed out last. -/
theorem responses_traced_iff (containerName hostName : Option String) (timeout : Nat)
    (routing : RoutingTable) (guid : String) (events : List MuxEvent) :
    Trace.Along (Trace.recorded step records) ResponseTraced
        (initial containerName hostName timeout routing guid, []) events ↔
      Trace.Along (Trace.recorded step records) SameBus
        (initial containerName hostName timeout routing guid, []) events := by
  have hinitial : (initial containerName hostName timeout routing guid).Recorded [] :=
    ⟨fun _ _ _ h => (nomatch h), fun _ _ h => (nomatch h)⟩
  refine Trace.along_iff_of_invariant (I := fun p => p.1.Recorded p.2) (W := fun _ _ => True)
    (fun p e q h _ _ hq => ?_) (fun p e h _ => responseTraced_iff h e) hinitial
    (Trace.along_of_forall (fun _ _ => trivial))
  obtain ⟨t, ht, rfl⟩ := Trace.recorded_eq_some.mp hq
  exact h.step ht

/-! ## Two requests with one path -/

/-- A path with the name that both buses have given to the multiplexer. -/
def sharedHandle : String := "/org/freedesktop/portal/desktop/request/1_5/t"

def replyWithHandle : Message where
  msgType := .methodReturn
  serial := 9
  replySerial := some 1
  path := none
  interface := none
  member := none
  destination := some ":1.5"
  sender := some ":1.20"
  body := ⟨[.objectPath sharedHandle], true⟩
  fds := []

def response : Message :=
  Multiplexer.signalFrom sharedHandle "org.freedesktop.portal.Request" "Response" [.uint32 0]

/-- Client 1 has a request at the portal of the host, and client 2 one at a portal in the
container, with the same token. -/
def twoRequests : List MuxEvent :=
  [.connect 1 ⟨1000, none, 1000⟩, .connect 2 ⟨1000, none, 1000⟩,
    .clientMessage 1 (callTo "org.freedesktop.portal.Desktop" "OpenFile") cooperative,
    .busMessage .host replyWithHandle .unfailing 1,
    .clientMessage 2 (callTo "org.b.Portal" "OpenFile") cooperative,
    .busMessage .container replyWithHandle .unfailing 2]

def portalInContainer : RoutingTable :=
  RoutingTable.new.onContainerNameChange "org.b.Portal" "" ":1.7"

/-- The response of the host's portal to client 1 goes to client 2. -/
theorem response_for_other_client :
    ¬ ∀ (containerName hostName : Option String) (timeout : Nat) (routing : RoutingTable)
      (guid : String) (events : List MuxEvent),
      Trace.Along (Trace.recorded step records) ResponseTraced
        (initial containerName hostName timeout routing guid, []) events := by
  intro hclaim
  have hall := hclaim (some ":1.5") (some ":1.5") 30 portalInContainer "0123"
    (twoRequests ++ [.busMessage .host response .unfailing 3])
  obtain ⟨p, hrun, htracked, hlog⟩ : ∃ p, Trace.run (Trace.recorded step records)
      (initial (some ":1.5") (some ":1.5") 30 portalInContainer "0123", []) twoRequests = some p ∧
      p.1.trackedClient response = some 2 ∧
      p.2 = [.called 1 .host 1, .registered 1 .host 1 sharedHandle, .called 2 .container 1,
        .registered 2 .container 1 sharedHandle] :=
    Trace.exists_of_eval (by decide)
  obtain ⟨serial, before, after, hsplit, _⟩ := hall.at_event hrun sharedHandle 2 rfl htracked
  have hmem : PortalRecord.registered 2 .host serial sharedHandle ∈ p.2 := by
    rw [hsplit]
    exact List.mem_append_right before List.mem_cons_self
  rw [hlog] at hmem
  simp at hmem

end MuxState

end KapsuleDbusMux
