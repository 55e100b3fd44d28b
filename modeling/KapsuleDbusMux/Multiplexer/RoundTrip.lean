import KapsuleDbusMux.Multiplexer.Transcript

/-! # Calls that come back

The way of a call through the main loop: it is renumbered and sent to a bus, other
things happen, and the reply of the bus is given to the client under the number the
client chose. When the reply has the handle of a portal request, the response to that
request finds the client too. What may happen in between is left open but for what
ends the wait: the reply itself, a cleanup after the timeout, and so many other calls
that the serial is used again.
-/

namespace KapsuleDbusMux

namespace MuxState

open SerialGenerator (drawn serialOf cycle)

/-! ## What a client's message does to the router -/

/-- The router, and what has been sent to the buses. -/
def traffic (s : MuxState) : MessageRouter × List (Route × Message) := (s.router, s.sent)

theorem traffic_eq_iff {s : MuxState} {router : MessageRouter} {sent : List (Route × Message)} :
    s.traffic = (router, sent) ↔ s.router = router ∧ s.sent = sent :=
  Prod.mk_inj

section Handlers

variable (env : Environment) (s : MuxState) (clientId : ClientId) (msg : Message)

@[simp] theorem traffic_sendReplyToClient (body : ReplyBody) :
    (s.sendReplyToClient env clientId msg body).traffic = s.traffic := by
  unfold sendReplyToClient
  split
  · rfl
  · split <;> rfl

@[simp] theorem traffic_sendErrorToClient (e : DriverError) :
    (s.sendErrorToClient env clientId msg e).traffic = s.traffic := by
  unfold sendErrorToClient
  split
  · rfl
  · split <;> rfl

theorem traffic_answer (result : Answer) :
    (s.answer env clientId msg result).traffic = s.traffic := by
  cases result with
  | ok body => exact traffic_sendReplyToClient env s clientId msg body
  | error e => exact traffic_sendErrorToClient env s clientId msg e

theorem traffic_answerAbout (query : String → Answer) :
    (s.answerAbout env clientId msg query).traffic = s.traffic := by
  unfold answerAbout
  split
  · exact traffic_sendErrorToClient env s clientId msg _
  · exact traffic_answer env s clientId msg _

theorem traffic_handleHello : (s.handleHello env clientId msg).traffic = s.traffic := by
  unfold handleHello
  split
  · rfl
  · exact traffic_sendReplyToClient env s clientId msg _

theorem traffic_handleRequestName : (s.handleRequestName env clientId msg).traffic = s.traffic := by
  unfold handleRequestName
  split
  · exact traffic_sendErrorToClient env s clientId msg _
  · split
    · rfl
    · dsimp only
      split
      · split
        · rw [traffic_sendReplyToClient]
          unfold recordName
          split <;> rfl
        · exact traffic_sendErrorToClient env _ clientId msg _
      · exact traffic_sendReplyToClient env _ clientId msg _

theorem traffic_handleReleaseName : (s.handleReleaseName env clientId msg).traffic = s.traffic := by
  unfold handleReleaseName
  split
  · exact traffic_sendErrorToClient env s clientId msg _
  · dsimp only
    rw [traffic_sendReplyToClient]
    unfold settleRelease
    split
    · rfl
    · split
      · split <;> rfl
      · rfl

theorem traffic_handleAddMatch : (s.handleAddMatch env clientId msg).traffic = s.traffic := by
  unfold handleAddMatch
  split
  · exact traffic_sendErrorToClient env s clientId msg _
  · split
    · exact traffic_sendErrorToClient env s clientId msg _
    · exact traffic_sendReplyToClient env _ clientId msg _

theorem traffic_handleRemoveMatch : (s.handleRemoveMatch env clientId msg).traffic = s.traffic := by
  unfold handleRemoveMatch
  split
  · exact traffic_sendErrorToClient env s clientId msg _
  · dsimp only
    split
    · exact traffic_sendReplyToClient env _ clientId msg _
    · exact traffic_sendErrorToClient env _ clientId msg _

def nextSerialOn (route : Route) : UInt32 := (s.router.connectionFor route).nextSerial.1

/-- The router with one serial less to draw. -/
def drawnRouter (route : Route) : MessageRouter :=
  s.router.setConnection (s.router.connectionFor route).nextSerial.2 route

inductive Traffic (t : MuxState) : Prop
  | kept (hsame : t.traffic = s.traffic)
  | failed (route : Route) (hdrawn : t.traffic = (s.drawnRouter route, s.sent))
  | forwarded (route : Route)
      (hrecorded : t.traffic =
        ((s.drawnRouter route).recordForward env.now
            ⟨clientId, msg.serial, route, s.nextSerialOn route⟩,
          s.sent ++ [(route, { msg with serial := s.nextSerialOn route, fds := [] })]))

theorem traffic_forwardOr (route : Route) (onError : String → DriverError) :
    Traffic env s clientId msg (s.forwardOr env clientId msg route onError) := by
  have hrouter := s.router.prepareForward_router clientId msg route
  unfold forwardOr forwardMethodCall
  cases hprepared : s.router.prepareForward clientId msg route with
  | mk prepared router =>
      rw [hprepared] at hrouter
      have hdrawn : router = s.drawnRouter route := hrouter
      subst hdrawn
      cases prepared with
      | error e => exact .failed route (traffic_sendErrorToClient env _ clientId msg _)
      | ok forward =>
          obtain ⟨call, forwarded⟩ := forward
          have hcall := MessageRouter.prepareForward_ok (congrArg Prod.fst hprepared)
          have hforwarded := MessageRouter.prepareForward_forwarded (congrArg Prod.fst hprepared)
          cases hsend : env.send route forwarded with
          | error e =>
              simp only [hsend]
              exact .failed route (traffic_sendErrorToClient env _ clientId msg _)
          | ok sent =>
              simp only [hsend]
              refine .forwarded route ?_
              rw [hforwarded, hcall]
              rfl

theorem traffic_handleDbusMethod :
    Traffic env s clientId msg (s.handleDbusMethod env clientId msg) := by
  have hanswer : ∀ result, Traffic env s clientId msg (s.answer env clientId msg result) :=
    fun result => .kept (traffic_answer env s clientId msg result)
  have habout : ∀ query, Traffic env s clientId msg (s.answerAbout env clientId msg query) :=
    fun query => .kept (traffic_answerAbout env s clientId msg query)
  have hreply : ∀ body, Traffic env s clientId msg (s.sendReplyToClient env clientId msg body) :=
    fun body => .kept (traffic_sendReplyToClient env s clientId msg body)
  unfold handleDbusMethod
  split
  case h_19 => exact traffic_forwardOr env s clientId msg .container _
  · exact .kept (traffic_handleHello env s clientId msg)
  · exact .kept (traffic_handleRequestName env s clientId msg)
  · exact .kept (traffic_handleReleaseName env s clientId msg)
  · exact hanswer _
  · exact hanswer _
  · exact habout _
  · exact habout _
  · exact hreply _
  · exact hreply _
  · exact hanswer _
  · exact habout _
  · exact habout _
  · exact habout _
  · exact habout _
  · exact .kept (traffic_handleAddMatch env s clientId msg)
  · exact .kept (traffic_handleRemoveMatch env s clientId msg)
  · exact hanswer _
  · exact hanswer _

theorem traffic_handleClientMessage :
    Traffic env s clientId msg (s.handleClientMessage env clientId msg) := by
  unfold handleClientMessage
  split
  · exact traffic_handleDbusMethod env s clientId msg
  · split
    · exact traffic_forwardOr env s clientId msg _ _
    · exact .kept rfl

end Handlers

/-! ## Waiting for a reply -/

/-- The counter of a connection after `n` calls. -/
def Numbering (s : MuxState) (route : Route) (n : Nat) : Prop :=
  (s.router.connectionFor route).serialGen = drawn n

def isCall : MuxEvent → Bool
  | .clientMessage _ msg _ => msg.isMethodCall
  | _ => false

/-- The events that end the wait for a reply on `route` to a call that was sent under
`serial` at the instant `since`. -/
def Settles (route : Route) (serial : UInt32) (since : Instant) (timeout : Nat) :
    MuxEvent → Prop
  | .busMessage onRoute msg _ _ =>
      onRoute = route ∧ (msg.isMethodReturn || msg.isError) = true ∧
        msg.replySerial = some serial
  | .cleanupTick now => timeout ≤ now - since
  | _ => False

instance (route : Route) (serial : UInt32) (since : Instant) (timeout : Nat) :
    DecidablePred (Settles route serial since timeout)
  | .busMessage _ _ _ _ => inferInstanceAs (Decidable (_ ∧ _ ∧ _))
  | .cleanupTick _ => inferInstanceAs (Decidable (_ ≤ _))
  | .connect _ _ => isFalse id
  | .clientMessage _ _ _ => isFalse id
  | .disconnect _ => isFalse id
  | .removeRequests _ => isFalse id
  | .removeNames _ _ _ _ => isFalse id

variable {s t : MuxState} {e : MuxEvent} {route : Route} {n : Nat}

theorem Numbering.nextSerialOn (h : s.Numbering route n) : s.nextSerialOn route = serialOf n := by
  unfold MuxState.nextSerialOn BusConnection.nextSerial serialOf
  rw [h]

theorem Numbering.drawnRouter (h : s.Numbering route n) (onRoute : Route) :
    ((s.drawnRouter onRoute).connectionFor route).serialGen =
      if route = onRoute then drawn (n + 1) else drawn n := by
  unfold MuxState.drawnRouter
  rw [MessageRouter.setConnection_connectionFor]
  split
  · next hsame =>
      rw [← hsame]
      show (s.router.connectionFor route).serialGen.next.2 = _
      rw [h]
      rfl
  · exact h

theorem Numbering.step (h : s.Numbering route n) (hstep : s.step e = some t) :
    t.Numbering route n ∨ isCall e = true ∧ t.Numbering route (n + 1) := by
  have hsame : (∀ other, t.router.connectionFor other = s.router.connectionFor other) →
      t.Numbering route n := by
    intro hrouter
    unfold Numbering
    rw [hrouter]
    exact h
  cases e with
  | clientMessage clientId msg env =>
      cases hstep
      by_cases hcall : msg.isMethodCall = true
      · have hdrawn := h.drawnRouter
        have hrouter : ∀ onRoute, (s.handleClientMessage env clientId msg).router.connectionFor
              route = (s.drawnRouter onRoute).connectionFor route →
            Numbering (s.handleClientMessage env clientId msg) route n ∨
              isCall (.clientMessage clientId msg env) = true ∧
                Numbering (s.handleClientMessage env clientId msg) route (n + 1) := by
          intro onRoute hconnection
          unfold Numbering
          rw [hconnection, hdrawn onRoute]
          split
          · exact Or.inr ⟨hcall, rfl⟩
          · exact Or.inl rfl
        cases traffic_handleClientMessage env s clientId msg with
        | kept hkept => exact Or.inl (hsame (fun other => by rw [(traffic_eq_iff.mp hkept).1]))
        | failed onRoute hfailed => exact hrouter onRoute (by rw [(traffic_eq_iff.mp hfailed).1])
        | forwarded onRoute hforwarded =>
            refine hrouter onRoute ?_
            rw [(traffic_eq_iff.mp hforwarded).1]
            cases route <;> rfl
      · rw [handleClientMessage_of_not_call env s clientId hcall]
        exact Or.inl h
  | busMessage onRoute msg builder now =>
      cases hstep
      refine Or.inl (hsame (fun other => ?_))
      rcases s.router_handleBusMessage builder now msg onRoute with hrouter | hrouter
      · exact congrArg (MessageRouter.connectionFor · other) hrouter
      · refine (congrArg (MessageRouter.connectionFor · other) hrouter).trans ?_
        exact s.router.connectionFor_handleReply msg onRoute other
  | connect clientId credentials =>
      simp only [MuxState.step] at hstep
      split at hstep
      · cases hstep
      · cases hstep
        exact Or.inl h
  | cleanupTick now =>
      cases hstep
      refine Or.inl (hsame (fun other => ?_))
      cases other <;> rfl
  | _ =>
      cases hstep
      exact Or.inl h

/-- The `index`-th call on `route` is still to be answered. -/
structure Awaits (s : MuxState) (route : Route) (index : Nat) (call : PendingCall)
    (timeout : Nat) : Prop where
  timeout : s.router.serialMap.timeout = timeout
  pending : s.router.pendingAt route (serialOf index) = some call

variable {index timeout : Nat} {call : PendingCall}

theorem Awaits.of_serialMap (h : s.Awaits route index call timeout)
    (hsame : t.router.serialMap = s.router.serialMap) : t.Awaits route index call timeout where
  timeout := by rw [hsame]; exact h.timeout
  pending := by
    unfold MessageRouter.pendingAt
    rw [hsame]
    exact h.pending

theorem Awaits.clientMessage (h : s.Awaits route index call timeout) (hn : s.Numbering route n)
    (hindex : index < n) {clientId : ClientId} {msg : Message} {env : Environment}
    (hroom : msg.isMethodCall = true → n < index + cycle) :
    (s.handleClientMessage env clientId msg).Awaits route index call timeout := by
  by_cases hcall : msg.isMethodCall = true
  · have hdrawn : ∀ onRoute, (s.drawnRouter onRoute).serialMap = s.router.serialMap :=
      fun onRoute => MessageRouter.setConnection_serialMap _ _ _
    cases traffic_handleClientMessage env s clientId msg with
    | kept hkept => exact h.of_serialMap (by rw [(traffic_eq_iff.mp hkept).1])
    | failed onRoute hfailed =>
        exact h.of_serialMap (by rw [(traffic_eq_iff.mp hfailed).1, hdrawn])
    | forwarded onRoute hforwarded =>
        have hrouter := (traffic_eq_iff.mp hforwarded).1
        constructor
        · rw [hrouter]
          show (s.drawnRouter onRoute).serialMap.timeout = timeout
          rw [hdrawn, h.timeout]
        · -- the new call has another serial, since the counter has not come round
          have hother : ¬ (route = onRoute ∧ serialOf index = s.nextSerialOn onRoute) := by
            rintro ⟨rfl, hserial⟩
            rw [hn.nextSerialOn] at hserial
            have hgap := hroom hcall
            exact SerialGenerator.serialOf_inj_of_lt_cycle hindex (by omega) hserial
          rw [hrouter, MessageRouter.pendingAt_recordForward, if_neg hother]
          unfold MessageRouter.pendingAt
          rw [hdrawn]
          exact h.pending
  · rw [handleClientMessage_of_not_call env s clientId hcall]
    exact h

theorem Awaits.busMessage (h : s.Awaits route index call timeout) {onRoute : Route} {msg : Message}
    {builder : MessageBuilder} {now : Instant}
    (hwaits : ¬ (onRoute = route ∧ (msg.isMethodReturn || msg.isError) = true ∧
      msg.replySerial = some (serialOf index))) :
    Awaits { s with toMultiplexer := s.handleBusMessage builder now msg onRoute } route index call
      timeout := by
  have hrouter := s.router_handleBusMessage builder now msg onRoute
  cases hkind : (msg.isMethodReturn || msg.isError) with
  | false =>
      exact h.of_serialMap
        (congrArg MessageRouter.serialMap
          (router_of_not_reply hkind s.toMultiplexer builder now onRoute))
  | true =>
      rcases hrouter with hsame | hreply
      · exact h.of_serialMap (congrArg MessageRouter.serialMap hsame)
      · cases hserial : msg.replySerial with
        | none =>
            refine h.of_serialMap ((congrArg MessageRouter.serialMap hreply).trans ?_)
            rw [MessageRouter.handleReply, hserial]
        | some replySerial =>
            constructor
            · refine (congrArg (fun router => router.serialMap.timeout) hreply).trans ?_
              rw [MessageRouter.handleReply, hserial]
              exact h.timeout
            · have hother : ¬ (route = onRoute ∧ serialOf index = replySerial) := by
                rintro ⟨rfl, rfl⟩
                exact hwaits ⟨rfl, hkind, hserial⟩
              refine (congrArg (MessageRouter.pendingAt · route (serialOf index)) hreply).trans ?_
              rw [MessageRouter.pendingAt_handleReply hserial, if_neg hother]
              exact h.pending

theorem Awaits.step (h : s.Awaits route index call timeout) (hn : s.Numbering route n)
    (hindex : index < n) (hroom : isCall e = true → n < index + cycle)
    (hwaits : ¬ Settles route (serialOf index) call.timestamp timeout e)
    (hstep : s.step e = some t) : t.Awaits route index call timeout := by
  cases e with
  | clientMessage clientId msg env =>
      cases hstep
      exact h.clientMessage hn hindex hroom
  | busMessage onRoute msg builder now =>
      cases hstep
      exact h.busMessage hwaits
  | connect clientId credentials =>
      simp only [MuxState.step] at hstep
      split at hstep
      · cases hstep
      · cases hstep
        exact h.of_serialMap rfl
  | cleanupTick now =>
      cases hstep
      refine ⟨h.timeout, ?_⟩
      have hyoung : now - call.timestamp < s.router.serialMap.timeout := by
        rw [h.timeout]
        exact Nat.lt_of_not_le hwaits
      refine (s.router.pendingAt_cleanupExpired now route (serialOf index)).trans ?_
      rw [h.pending, Option.filter_some, if_pos (decide_eq_true hyoung)]
  | _ =>
      cases hstep
      exact h.of_serialMap rfl

/-- The wait outlasts every run without an event that ends it, in which the counter
does not come round to the serial again. -/
theorem Awaits.run {events : List MuxEvent} (h : s.Awaits route index call timeout)
    (hn : s.Numbering route n) (hindex : index < n)
    (hroom : n + events.countP isCall ≤ index + cycle)
    (hwaits : ∀ e ∈ events, ¬ Settles route (serialOf index) call.timestamp timeout e)
    (hrun : Trace.run MuxState.step s events = some t) : t.Awaits route index call timeout := by
  induction events generalizing s n with
  | nil =>
      cases hrun
      exact h
  | cons e events ih =>
      obtain ⟨m, hstep, hrest⟩ := Trace.run_cons_eq_some.mp hrun
      rw [List.countP_cons] at hroom
      have hlater : ∀ e' ∈ events, ¬ Settles route (serialOf index) call.timestamp timeout e' :=
        fun e' he' => hwaits e' (List.mem_cons_of_mem e he')
      have hm := h.step hn hindex (fun hcall => by rw [if_pos hcall] at hroom; omega)
        (hwaits e List.mem_cons_self) hstep
      rcases hn.step hstep with hsame | ⟨hcall, hnext⟩
      · exact ih hm hsame hindex (by split at hroom <;> omega) hlater hrest
      · rw [if_pos hcall] at hroom
        exact ih hm hnext (by omega) (by omega) hlater hrest

theorem exists_numbering {containerName hostName : Option String} {routing : RoutingTable}
    {guid : String} {events : List MuxEvent}
    (hrun : Trace.run step (initial containerName hostName timeout routing guid) events = some s)
    (route : Route) : ∃ n, s.Numbering route n := by
  refine Trace.invariant_of_run (I := fun s => ∃ n, s.Numbering route n) ?_ ?_ hrun
  · rintro s e t ⟨n, hn⟩ hstep
    rcases hn.step hstep with hsame | ⟨_, hnext⟩
    · exact ⟨n, hsame⟩
    · exact ⟨n + 1, hnext⟩
  · exact ⟨0, by cases route <;> rfl⟩

theorem step_timeout (hstep : s.step e = some t) :
    t.router.serialMap.timeout = s.router.serialMap.timeout := by
  cases e with
  | clientMessage clientId msg env =>
      cases hstep
      have hdrawn : ∀ onRoute, (s.drawnRouter onRoute).serialMap = s.router.serialMap :=
        fun onRoute => MessageRouter.setConnection_serialMap _ _ _
      cases traffic_handleClientMessage env s clientId msg with
      | kept hkept => rw [(traffic_eq_iff.mp hkept).1]
      | failed onRoute hfailed => rw [(traffic_eq_iff.mp hfailed).1, hdrawn]
      | forwarded onRoute hforwarded =>
          rw [(traffic_eq_iff.mp hforwarded).1]
          show (s.drawnRouter onRoute).serialMap.timeout = _
          rw [hdrawn]
  | busMessage onRoute msg builder now =>
      cases hstep
      rcases s.router_handleBusMessage builder now msg onRoute with hrouter | hrouter
      · exact congrArg (fun router => router.serialMap.timeout) hrouter
      · refine (congrArg (fun router => router.serialMap.timeout) hrouter).trans ?_
        unfold MessageRouter.handleReply
        split <;> rfl
  | connect clientId credentials =>
      simp only [MuxState.step] at hstep
      split at hstep
      · cases hstep
      · cases hstep
        rfl
  | _ =>
      cases hstep
      rfl

/-! ## The way of a call -/

theorem router_of_reply {reply : Message} (hkind : (reply.isMethodReturn || reply.isError) = true)
    (mux : Multiplexer) (builder : MessageBuilder) (now : Instant) (route : Route) :
    (mux.handleBusMessage builder now reply route).router =
      (mux.router.handleReply reply route).2 := by
  rw [handleBusMessage_of_reply hkind]
  unfold Multiplexer.handleReplyMessage
  split
  · next h => rw [h]
  · next h => rw [h]

/-- A reply goes to the client of the call it answers. -/
theorem channel_of_reply {reply : Message}
    (hkind : (reply.isMethodReturn || reply.isError) = true) (s : MuxState)
    (builder : MessageBuilder) (now : Instant) (route : Route) (c : ClientId) :
    channel { s with toMultiplexer := s.handleBusMessage builder now reply route } c =
      (s.channel c).map (· ++ match s.answeredCall reply route with
        | some call =>
            if c = call.clientId then [Multiplexer.replyFor builder reply call.clientSerial]
            else []
        | none => []) := by
  have hchanged : reply.isNameOwnerChanged = false := by
    simp only [Message.isMethodReturn, Message.isError, Bool.or_eq_true, beq_iff_eq] at hkind
    rcases hkind with h | h
    · simp [Message.isNameOwnerChanged, Message.isSignal, h]
    · simp [Message.isNameOwnerChanged, Message.isSignal, h]
  unfold channel
  rw [contact_handleBusMessage]
  unfold contact Multiplexer.deliveries
  simp only [hchanged, hkind, Bool.false_eq_true, if_false, if_true, Option.map_map]
  rfl

/-- The call of a client has gone to a bus, and what happened since has not ended the
wait for its reply. -/
structure InTime (timeout : Nat) (s t : MuxState) (c : ClientId) (msg : Message)
    (env : Environment) (route : Route) (forwarded : Message) (between : List MuxEvent) : Prop where
  sent : (s.handleClientMessage env c msg).sent = s.sent ++ [(route, forwarded)]
  run : Trace.run step (s.handleClientMessage env c msg) between = some t
  calls : between.countP isCall < cycle
  waits : ∀ e ∈ between, ¬ Settles route forwarded.serial env.now timeout e

/-! ## Waiting for a portal -/

/-- The events that end the wait for the response to a portal request: a response on
its path, a reply with the same path, the cleanup of the client, and a cleanup tick
after the timeout. -/
def SettlesRequest (path : String) (c : ClientId) (since : Instant) : MuxEvent → Prop
  | .busMessage _ msg _ _ =>
      (isPortalResponseSignal msg = true ∧ msg.path = some path) ∨
        extractRequestHandle msg = some path
  | .removeRequests clientId => clientId = c
  | .cleanupTick now => PortalRequestTracker.new.timeout ≤ now - since
  | _ => False

instance (path : String) (c : ClientId) (since : Instant) :
    DecidablePred (SettlesRequest path c since)
  | .busMessage _ _ _ _ => inferInstanceAs (Decidable (_ ∧ _ ∨ _))
  | .removeRequests _ => inferInstanceAs (Decidable (_ = _))
  | .cleanupTick _ => inferInstanceAs (Decidable (_ ≤ _))
  | .connect _ _ => isFalse id
  | .clientMessage _ _ _ => isFalse id
  | .disconnect _ => isFalse id
  | .removeNames _ _ _ _ => isFalse id

structure Tracks (s : MuxState) (path : String) (c : ClientId) (since : Instant) : Prop where
  timeout : s.portalRequests.timeout = PortalRequestTracker.new.timeout
  request : s.portalRequests.requests.lookup path = some ⟨c, since⟩

variable {path : String} {c : ClientId} {since : Instant}

theorem Tracks.of_portalRequests (h : s.Tracks path c since)
    (hsame : t.portalRequests = s.portalRequests) : t.Tracks path c since where
  timeout := by rw [hsame]; exact h.timeout
  request := by rw [hsame]; exact h.request

theorem Tracks.trackedClient (h : s.Tracks path c since) {response : Message}
    (hresponse : isPortalResponseSignal response = true) (hpath : response.path = some path) :
    s.trackedClient response = some c := by
  unfold Multiplexer.trackedClient PortalRequestTracker.ownerOf
  rw [if_pos hresponse, hpath, Option.bind_some, h.request]
  rfl

/-- All that a message from a bus can do to the tracker. -/
inductive TrackerEffect (mux : Multiplexer) (now : Instant) (msg : Message)
    (tracker : PortalRequestTracker) : Prop
  | kept (hsame : tracker = mux.portalRequests)
  | registered (path : String) (c : ClientId) (hhandle : extractRequestHandle msg = some path)
      (hregistered : tracker = mux.portalRequests.register now path c)
  | consumed (path : String) (hresponse : isPortalResponseSignal msg = true)
      (hpath : msg.path = some path)
      (hconsumed : tracker = (mux.portalRequests.lookupAndRemove path).2)

theorem tracker_handleBusMessage (mux : Multiplexer) (builder : MessageBuilder) (now : Instant)
    (msg : Message) (route : Route) :
    TrackerEffect mux now msg (mux.handleBusMessage builder now msg route).portalRequests := by
  cases hkind : (msg.isMethodReturn || msg.isError) with
  | true =>
      rw [handleBusMessage_of_reply hkind]
      unfold Multiplexer.handleReplyMessage
      split
      · next clientId _ _ _ =>
          dsimp only
          split
          · next path hpath =>
              split at hpath
              · cases hpath
              · exact .registered path clientId hpath rfl
          · exact .kept rfl
      · exact .kept rfl
  | false =>
      unfold Multiplexer.handleBusMessage
      rw [hkind]
      split
      · refine .kept ?_
        unfold Multiplexer.handleNameOwnerChanged
        split <;> rfl
      · rw [if_neg Bool.false_ne_true]
        dsimp only
        split
        · unfold Multiplexer.handleSignal
          split
          · exact .kept rfl
          · next path hpath =>
              split at hpath
              · next hresponse =>
                  refine .consumed path hresponse hpath ?_
                  split
                  · next h => rw [h]; rfl
                  · next h => rw [h]
              · cases hpath
        · exact .kept rfl

theorem timeout_lookupAndRemove (tracker : PortalRequestTracker) (path : String) :
    (tracker.lookupAndRemove path).2.timeout = tracker.timeout := by
  unfold PortalRequestTracker.lookupAndRemove
  split <;> rfl

theorem lookup_lookupAndRemove (tracker : PortalRequestTracker) {path other : String}
    (hother : path ≠ other) :
    (tracker.lookupAndRemove other).2.requests.lookup path = tracker.requests.lookup path := by
  unfold PortalRequestTracker.lookupAndRemove
  split
  · exact (AList.lookup_erase_if _ _ _).trans (if_neg hother)
  · rfl

theorem Tracks.busMessage (h : s.Tracks path c since) {msg : Message}
    (hresponse : ¬ (isPortalResponseSignal msg = true ∧ msg.path = some path))
    (hhandle : extractRequestHandle msg ≠ some path) (builder : MessageBuilder) (now : Instant)
    (route : Route) :
    Tracks { s with toMultiplexer := s.handleBusMessage builder now msg route } path c since := by
  cases tracker_handleBusMessage s.toMultiplexer builder now msg route with
  | kept hsame => exact h.of_portalRequests hsame
  | registered other owner hother hregistered =>
      have hne : path ≠ other := by
        rintro rfl
        exact hhandle hother
      constructor
      · exact (congrArg PortalRequestTracker.timeout hregistered).trans h.timeout
      · refine (congrArg (fun tracker => tracker.requests.lookup path) hregistered).trans ?_
        exact ((AList.lookup_insert_if _ _ _ _).trans (if_neg hne)).trans h.request
  | consumed other hportal hother hconsumed =>
      have hne : path ≠ other := by
        rintro rfl
        exact hresponse ⟨hportal, hother⟩
      constructor
      · refine (congrArg PortalRequestTracker.timeout hconsumed).trans ?_
        rw [timeout_lookupAndRemove]
        exact h.timeout
      · refine (congrArg (fun tracker => tracker.requests.lookup path) hconsumed).trans ?_
        rw [lookup_lookupAndRemove _ hne]
        exact h.request

theorem portalRequests_handleClientMessage (env : Environment) (s : MuxState) (clientId : ClientId)
    (msg : Message) :
    (s.handleClientMessage env clientId msg).portalRequests = s.portalRequests := by
  by_cases hcall : msg.isMethodCall = true
  · rcases handleClientMessage_cases env s clientId hcall with hreplied | hforwarded
    · obtain ⟨m, hm, hsame⟩ := hreplied.undisturbed
      rw [hsame]
      exact hm.portal
    · exact hforwarded.1.portal
  · rw [handleClientMessage_of_not_call env s clientId hcall]

theorem Tracks.step (h : s.Tracks path c since) (hwaits : ¬ SettlesRequest path c since e)
    (hstep : s.step e = some t) : t.Tracks path c since := by
  cases e with
  | clientMessage clientId msg env =>
      cases hstep
      exact h.of_portalRequests (portalRequests_handleClientMessage env s clientId msg)
  | busMessage route msg builder now =>
      cases hstep
      have hothers := not_or.mp hwaits
      exact h.busMessage hothers.1 hothers.2 builder now route
  | connect clientId credentials =>
      simp only [MuxState.step] at hstep
      split at hstep
      · cases hstep
      · cases hstep
        exact h.of_portalRequests rfl
  | removeRequests clientId =>
      cases hstep
      refine ⟨h.timeout, ?_⟩
      have hother : (c != clientId) = true := bne_iff_ne.mpr (fun hc => hwaits hc.symm)
      refine (AList.lookup_retain _ _ _).trans ?_
      rw [h.request, Option.filter_some, if_pos hother]
  | cleanupTick now =>
      cases hstep
      refine ⟨h.timeout, ?_⟩
      have hyoung : ¬ now - since ≥ s.portalRequests.timeout := by
        rw [h.timeout]
        exact hwaits
      refine (AList.lookup_retain _ _ _).trans ?_
      rw [h.request, Option.filter_some, if_pos (by simpa using hyoung)]
  | _ =>
      cases hstep
      exact h.of_portalRequests rfl

section Runs

variable {containerName hostName : Option String} {routing : RoutingTable} {guid : String}
  {before between : List MuxEvent} {msg forwarded : Message} {env : Environment}

theorem InTime.pendingAt
    (hbefore : Trace.run step (initial containerName hostName timeout routing guid) before =
      some s)
    (h : InTime timeout s t c msg env route forwarded between) :
    t.router.pendingAt route forwarded.serial = some ⟨c, msg.serial, env.now⟩ := by
  have htimeout : s.router.serialMap.timeout = timeout :=
    Trace.invariant_of_run (I := fun s => s.router.serialMap.timeout = timeout)
      (fun _ _ _ hs hstep => (step_timeout hstep).trans hs) rfl hbefore
  have hafter : (s.handleClientMessage env c msg).router.serialMap.timeout = timeout :=
    (step_timeout (e := .clientMessage c msg env) rfl).trans htimeout
  have hsent := h.sent
  have hnone : (s.handleClientMessage env c msg).sent ≠ s.sent := by
    rw [hsent]
    exact fun hnil => List.cons_ne_nil _ _ (List.self_eq_append_right.mp hnil.symm)
  cases traffic_handleClientMessage env s c msg with
  | kept hkept => exact absurd (traffic_eq_iff.mp hkept).2 hnone
  | failed onRoute hfailed => exact absurd (traffic_eq_iff.mp hfailed).2 hnone
  | forwarded onRoute hforwarded =>
      obtain ⟨hrouter, hcopy⟩ := traffic_eq_iff.mp hforwarded
      rw [hcopy] at hsent
      obtain ⟨rfl, rfl⟩ : onRoute = route ∧
          ({ msg with serial := s.nextSerialOn onRoute, fds := [] } : Message) = forwarded := by
        simpa using hsent
      obtain ⟨n, hn⟩ := exists_numbering hbefore onRoute
      have hserial := hn.nextSerialOn
      have hnext : (s.handleClientMessage env c msg).Numbering onRoute (n + 1) := by
        unfold Numbering
        have hdrawn := hn.drawnRouter onRoute
        rw [if_pos rfl] at hdrawn
        rw [hrouter, ← hdrawn]
        cases onRoute <;> rfl
      have hawaits : (s.handleClientMessage env c msg).Awaits onRoute n ⟨c, msg.serial, env.now⟩
          timeout := by
        refine ⟨hafter, ?_⟩
        rw [hrouter, MessageRouter.pendingAt_recordForward, if_pos ⟨rfl, hserial.symm⟩]
      have hwaits := h.waits
      have hcalls := h.calls
      dsimp only at hwaits ⊢
      rw [hserial] at hwaits ⊢
      exact (hawaits.run hnext (Nat.lt_succ_self n) (by omega) hwaits h.run).pending

/-- A call that was forwarded, and a reply of that bus with the serial of the copy, after
whatever else has happened: the reply goes to the client that called and to nobody else,
under the serial of its call, or as it came if it cannot be rewritten. A second reply goes
to nobody. -/
theorem reply_reaches_caller
    (hbefore : Trace.run step (initial containerName hostName timeout routing guid) before =
      some s)
    (h : InTime timeout s t c msg env route forwarded between) (hserial : msg.serial ≠ 0)
    {reply : Message} (hkind : (reply.isMethodReturn || reply.isError) = true)
    (hreply : reply.replySerial = some forwarded.serial) (builder : MessageBuilder)
    (now : Instant) :
    let u : MuxState := { t with toMultiplexer := t.handleBusMessage builder now reply route }
    (∃ m : Message,
        (if builder.RewritesReply reply then
          builder.cloneFds reply.fds = some m.fds ∧
            m = { reply with replySerial := some msg.serial, fds := m.fds }
        else m = reply) ∧
        ∀ c', u.channel c' = (t.channel c').map (· ++ if c' = c then [m] else [])) ∧
      ∀ second : Message, (second.isMethodReturn || second.isError) = true →
        second.replySerial = some forwarded.serial → ∀ builder' now' c',
          MuxState.channel
              { u with toMultiplexer := u.handleBusMessage builder' now' second route } c' =
            u.channel c' := by
  intro u
  have hpending := h.pendingAt hbefore
  have hfirst : t.answeredCall reply route = some ⟨c, msg.serial, env.now⟩ := by
    unfold Multiplexer.answeredCall
    rw [hreply]
    exact hpending
  refine ⟨⟨Multiplexer.replyFor builder reply msg.serial, ?_, fun c' => ?_⟩,
    fun second hsecond hsame builder' now' c' => ?_⟩
  · rcases Multiplexer.replyFor_cases builder reply msg.serial with
      ⟨fds, hrewrites, _, hfds, hrewritten⟩ | ⟨hnot, hunchanged⟩
    · rw [if_pos hrewrites, hrewritten]
      exact ⟨hfds, rfl⟩
    · rw [if_neg (fun hrewrites => hnot ⟨hrewrites, hserial⟩)]
      exact hunchanged
  · rw [channel_of_reply hkind, hfirst]
  · have hgone : u.answeredCall second route = none := by
      unfold Multiplexer.answeredCall
      rw [hsame, Option.bind_some]
      show (t.handleBusMessage builder now reply route).router.pendingAt _ _ = none
      rw [router_of_reply hkind, MessageRouter.pendingAt_handleReply hreply, if_pos ⟨rfl, rfl⟩]
    rw [channel_of_reply hsecond, hgone]
    simp

theorem portalTimeout_of_run
    (hrun : Trace.run step (initial containerName hostName timeout routing guid) before =
      some s) : s.portalRequests.timeout = PortalRequestTracker.new.timeout := by
  refine Trace.invariant_of_run
    (I := fun s => s.portalRequests.timeout = PortalRequestTracker.new.timeout) ?_ rfl hrun
  intro s e t hs hstep
  cases e with
  | clientMessage clientId msg env =>
      cases hstep
      rw [portalRequests_handleClientMessage]
      exact hs
  | busMessage route msg builder now =>
      cases hstep
      cases tracker_handleBusMessage s.toMultiplexer builder now msg route with
      | kept hsame => exact (congrArg PortalRequestTracker.timeout hsame).trans hs
      | registered path owner _ hregistered =>
          exact (congrArg PortalRequestTracker.timeout hregistered).trans hs
      | consumed path _ _ hconsumed =>
          refine (congrArg PortalRequestTracker.timeout hconsumed).trans ?_
          rw [timeout_lookupAndRemove]
          exact hs
  | connect clientId credentials =>
      simp only [MuxState.step] at hstep
      split at hstep
      · cases hstep
      · cases hstep
        exact hs
  | _ =>
      cases hstep
      exact hs

theorem InTime.tracks
    (hbefore : Trace.run step (initial containerName hostName timeout routing guid) before =
      some s)
    (h : InTime timeout s t c msg env route forwarded between)
    {reply : Message} (hreturn : reply.isMethodReturn = true)
    (hreply : reply.replySerial = some forwarded.serial)
    (hhandle : extractRequestHandle reply = some path) (builder : MessageBuilder)
    (now : Instant) :
    Tracks { t with toMultiplexer := t.handleBusMessage builder now reply route } path c now := by
  have hkind : (reply.isMethodReturn || reply.isError) = true := by rw [hreturn, Bool.true_or]
  have herror : reply.isError = false := by
    simp only [Message.isMethodReturn, beq_iff_eq] at hreturn
    simp [Message.isError, hreturn]
  have hfound := t.router.handleReply_fst hreply route
  rw [h.pendingAt hbefore, Option.map_some] at hfound
  have htracker : (t.handleBusMessage builder now reply route).portalRequests =
      t.portalRequests.register now path c := by
    rw [handleBusMessage_of_reply hkind]
    unfold Multiplexer.handleReplyMessage
    cases hlookup : t.router.handleReply reply route with
    | mk result router =>
        rw [hlookup] at hfound
        dsimp only at hfound
        subst hfound
        simp only [herror, Bool.false_eq_true, if_false, hhandle]
  have hreached : Trace.run step (initial containerName hostName timeout routing guid)
      (before ++ .clientMessage c msg env :: between) = some t :=
    Trace.run_append_eq_some.mpr ⟨s, hbefore, Trace.run_cons_eq_some.mpr ⟨_, rfl, h.run⟩⟩
  constructor
  · exact (congrArg PortalRequestTracker.timeout htracker).trans (portalTimeout_of_run hreached)
  · refine (congrArg (fun tracker => tracker.requests.lookup path) htracker).trans ?_
    exact (AList.lookup_insert_if _ _ _ _).trans (if_pos rfl)

/-- When the reply to a call has the handle of a portal request, the response on that path
goes to the client that called, whether it has a rule for it or not, and to nobody
else. A second response is a signal like any other. -/
theorem portal_response_reaches_caller
    (hbefore : Trace.run step (initial containerName hostName timeout routing guid) before =
      some s)
    (h : InTime timeout s t c msg env route forwarded between)
    {reply : Message} (hreturn : reply.isMethodReturn = true)
    (hreply : reply.replySerial = some forwarded.serial)
    (hhandle : extractRequestHandle reply = some path) (builder : MessageBuilder) (now : Instant)
    {later : List MuxEvent} {v : MuxState}
    (hlater : Trace.run MuxState.step
      { t with toMultiplexer := t.handleBusMessage builder now reply route } later = some v)
    (hwaits : ∀ e ∈ later, ¬ SettlesRequest path c now e)
    {response : Message} (hresponse : isPortalResponseSignal response = true)
    (hpath : response.path = some path) (onRoute : Route) (builder' : MessageBuilder)
    (now' : Instant) :
    let w : MuxState :=
      { v with toMultiplexer := v.handleBusMessage builder' now' response onRoute }
    (∀ c' info, v.clients.lookup c' = some info → w.channel c' =
        some (info.tx ++ if c' = c then [v.portalResponseFor builder' response info] else [])) ∧
      w.trackedClient response = none := by
  intro w
  have hv : v.Tracks path c now :=
    Trace.invariant_of_along (I := fun s => s.Tracks path c now)
      (P := fun _ e => ¬ SettlesRequest path c now e) (fun _ _ _ hs he hstep => hs.step he hstep)
      (h.tracks hbefore hreturn hreply hhandle builder now) (Trace.along_of_forall hwaits) hlater
  have htracked := hv.trackedClient hresponse hpath
  have hsignal : response.isSignal = true := by
    simp only [isPortalResponseSignal, Bool.and_eq_true] at hresponse
    exact hresponse.1.1
  have hchanged : response.isNameOwnerChanged = false := by
    cases hchanged : response.isNameOwnerChanged with
    | false => rfl
    | true =>
        rw [isPortalResponseSignal_of_nameOwnerChanged hchanged] at hresponse
        cases hresponse
  have hhandled := Multiplexer.handleBusMessage_of_signal hsignal hchanged v.toMultiplexer builder'
    now' onRoute
  refine ⟨fun c' info hl => ?_, ?_⟩
  · have htx := Multiplexer.handleSignal_tracked htracked builder' onRoute hl
    rw [← hhandled] at htx
    rw [← htx]
    show Option.map Prod.snd (Option.map _ _) = _
    rw [Option.map_map]
    rfl
  · show (v.handleBusMessage builder' now' response onRoute).trackedClient response = none
    rw [hhandled]
    unfold Multiplexer.trackedClient PortalRequestTracker.ownerOf
    rw [if_pos hresponse, hpath, Option.bind_some]
    unfold Multiplexer.handleSignal PortalRequestTracker.lookupAndRemove
    simp only [hresponse, if_true, hpath, hv.request]
    rw [AList.lookup_erase_if, if_pos rfl]
    rfl

end Runs

/-- Another client connects and makes the same call, and there is a tick. -/
def meanwhile : List MuxEvent :=
  [.connect 2 ⟨1000, none, 1000⟩, .clientMessage 2 (callTo "org.a" "Run") cooperative,
    .cleanupTick 29]

theorem inTime_meanwhile :
    ∃ t, InTime 30 oneClient t 1 (callTo "org.a" "Run") cooperative .host
        { callTo "org.a" "Run" with serial := 1 } meanwhile ∧ t.channel 1 = some [] := by
  have heval : (Trace.run step (oneClient.handleClientMessage cooperative 1 (callTo "org.a" "Run"))
      meanwhile).any (fun t => decide (t.channel 1 = some [])) = true := by
    decide
  obtain ⟨t, hrun, hchannel⟩ := Trace.exists_of_eval heval
  exact ⟨t, ⟨by decide, hrun, by decide, by decide⟩, hchannel⟩

theorem run_oneClient :
    Trace.run step (initial (some ":1.5") (some ":1.88") 30 .new "0123")
      [.connect 1 ⟨1000, none, 1000⟩] = some oneClient := rfl

/-- The bus answers the first call, and the first client gets the answer. -/
theorem reply_reaches_caller_meanwhile :
    ∃ t, InTime 30 oneClient t 1 (callTo "org.a" "Run") cooperative .host
        { callTo "org.a" "Run" with serial := 1 } meanwhile ∧
      channel { t with
        toMultiplexer := t.handleBusMessage .unfailing 40 replyToMux
          .host } 1 = some [{ replyToMux with replySerial := some 3 }] := by
  obtain ⟨t, htime, hchannel⟩ := inTime_meanwhile
  have hkind : (replyToMux.isMethodReturn || replyToMux.isError) = true := rfl
  obtain ⟨⟨m, hm, hreaches⟩, _⟩ := reply_reaches_caller run_oneClient htime (by decide) hkind rfl
    .unfailing 40
  rw [if_pos (by decide)] at hm
  have hfds : m.fds = [] := (Option.some.inj hm.1).symm
  refine ⟨t, htime, ?_⟩
  rw [hreaches 1, hchannel, hm.2, hfds]
  rfl

/-- A portal answers the call with a handle, the other client goes away, and then the
portal responds. -/
theorem portal_response_reaches_caller_meanwhile :
    ∃ (t v : MuxState) (info : ClientInfo),
      InTime 30 oneClient t 1 (callTo "org.a" "Run") cooperative .host
        { callTo "org.a" "Run" with serial := 1 } meanwhile ∧
      Trace.run step { t with
        toMultiplexer := t.handleBusMessage .unfailing 40 replyWithHandle .host }
          [.disconnect 2, .cleanupTick 59] = some v ∧
      v.clients.lookup 1 = some info ∧
      channel { v with
        toMultiplexer := v.handleBusMessage .unfailing 60 response .host } 1 =
          some (info.tx ++ [v.portalResponseFor .unfailing response info]) := by
  obtain ⟨t, htime, _⟩ := inTime_meanwhile
  have heval : ((Trace.run step (oneClient.handleClientMessage cooperative 1
      (callTo "org.a" "Run")) meanwhile).bind fun t => Trace.run step { t with
        toMultiplexer := t.handleBusMessage .unfailing 40 replyWithHandle .host }
          [.disconnect 2, .cleanupTick 59]).any
      (fun v => (v.clients.lookup 1).isSome) = true := by
    decide
  rw [htime.run, Option.bind_some] at heval
  obtain ⟨v, hlater, hconnected⟩ := (Option.any_eq_true _ _).mp heval
  obtain ⟨info, hl⟩ := Option.isSome_iff_exists.mp hconnected
  have hwaits : ∀ e ∈ [MuxEvent.disconnect 2, .cleanupTick 59],
      ¬ SettlesRequest sharedHandle 1 40 e := by
    decide
  refine ⟨t, v, info, htime, hlater, hl, ?_⟩
  exact (portal_response_reaches_caller run_oneClient htime rfl rfl (by decide) _ 40 hlater hwaits
    (by decide) rfl .host _ 60).1 1 info hl

end MuxState

end KapsuleDbusMux
