import KapsuleDbusMux.Multiplexer.ClientInfo
import KapsuleDbusMux.Portal.PortalRequest
import KapsuleDbusMux.Serial.Router

/-! # Messages from the buses

`handle_bus_message`: replies go back to the client whose call they answer, a
portal response goes to the client whose request it is about, and other signals
go to the clients with a matching rule. `NameOwnerChanged` updates the routing
table and goes no further. The channels to connected clients accept every message.
-/

namespace KapsuleDbusMux

/-- The parts of the multiplexer that messages from the buses touch. -/
structure Multiplexer where
  router : MessageRouter
  routingTable : RoutingTable
  portalRequests : PortalRequestTracker
  clients : Clients

def Clients.send (clients : Clients) (clientId : ClientId) (msg : Message) : Clients :=
  clients.modify clientId (fun info => { info with tx := info.tx ++ [msg] })

namespace Multiplexer

def handleNameOwnerChanged (mux : Multiplexer) (msg : Message) (route : Route) : Multiplexer :=
  match msg.parseNameOwnerChanged with
  | .error _ => mux
  | .ok (name, oldOwner, newOwner) =>
      { mux with
        routingTable :=
          match route with
          | .container => mux.routingTable.onContainerNameChange name oldOwner newOwner
          | .host => mux.routingTable.onHostNameChange name oldOwner newOwner }

/-- What the client gets for a reply: one that cannot be rewritten is forwarded as it came. -/
def replyFor (builder : MessageBuilder) (msg : Message) (clientSerial : UInt32) : Message :=
  match builder.cloneReplyWithSerial msg clientSerial with
  | .ok reply => reply
  | .error _ => msg

/-- A reply is rewritten for a serial other than 0 if it can be, and left as it is otherwise. -/
theorem replyFor_cases (builder : MessageBuilder) (msg : Message) (clientSerial : UInt32) :
    (∃ fds, builder.RewritesReply msg ∧ clientSerial ≠ 0 ∧ builder.cloneFds msg.fds = some fds ∧
      replyFor builder msg clientSerial =
        { msg with replySerial := some clientSerial, fds := fds }) ∨
      ¬ (builder.RewritesReply msg ∧ clientSerial ≠ 0) ∧
        replyFor builder msg clientSerial = msg := by
  unfold replyFor
  by_cases hserial : clientSerial = 0
  · refine Or.inr ⟨fun h => h.2 hserial, ?_⟩
    rw [hserial]
    rfl
  · by_cases hrewrites : builder.RewritesReply msg
    · obtain ⟨fds, hfds, hclone⟩ :=
        MessageBuilder.cloneReplyWithSerial_of_rewrites hrewrites hserial
      exact Or.inl ⟨fds, hrewrites, hserial, hfds, by rw [hclone]⟩
    · obtain ⟨error, hclone⟩ :=
        MessageBuilder.cloneReplyWithSerial_of_not_rewrites hrewrites clientSerial
      exact Or.inr ⟨fun h => hrewrites h.1, by rw [hclone]⟩

def handleReplyMessage (mux : Multiplexer) (builder : MessageBuilder) (now : Instant)
    (msg : Message) (route : Route) : Multiplexer :=
  match mux.router.handleReply msg route with
  | (.ok (some (clientId, clientSerial)), router) =>
      let portalRequests :=
        match if msg.isError then none else extractRequestHandle msg with
        | some requestPath => mux.portalRequests.register now requestPath clientId
        | none => mux.portalRequests
      { mux with
        router := router
        portalRequests := portalRequests
        clients := mux.clients.send clientId (replyFor builder msg clientSerial) }
  | (_, router) => { mux with router := router }

def uniqueNameOn (mux : Multiplexer) (route : Route) : Option String :=
  (mux.router.connectionFor route).uniqueName

def isUnicastToMux (mux : Multiplexer) (msg : Message) (route : Route) : Bool :=
  match msg.destination with
  | some dest => (mux.uniqueNameOn route).any (fun name => name == dest)
  | none => false

def shouldForward (mux : Multiplexer) (msg : Message) (route : Route) (info : ClientInfo) : Bool :=
  if mux.isUnicastToMux msg route then info.matchRules.matchesIgnoringDestination msg
  else info.matchRules.isMatch msg

/-- The loop over the clients at the end of `handle_bus_message`. -/
def forwardSignal (mux : Multiplexer) (msg : Message) (route : Route) : Multiplexer :=
  { mux with
    clients := mux.clients.mapValues (fun _ info =>
      if mux.shouldForward msg route info then { info with tx := info.tx ++ [msg] } else info) }

/-- What a client gets for a portal response: the rewritten signal, or the
original when it cannot be rewritten. -/
def portalResponseFor (mux : Multiplexer) (builder : MessageBuilder) (msg : Message)
    (info : ClientInfo) : Message :=
  match builder.clonePortalResponseSignal msg ((mux.uniqueNameOn .host).getD "")
      info.uniqueName with
  | .ok rewritten => rewritten
  | .error _ => msg

def handleSignal (mux : Multiplexer) (builder : MessageBuilder) (msg : Message) (route : Route) :
    Multiplexer :=
  match if isPortalResponseSignal msg then msg.path else none with
  | none => mux.forwardSignal msg route
  | some path =>
      match mux.portalRequests.lookupAndRemove path with
      | (none, portalRequests) =>
          { mux with portalRequests := portalRequests }.forwardSignal msg route
      | (some clientId, portalRequests) =>
          { mux with
            portalRequests := portalRequests
            clients :=
              match mux.clients.lookup clientId with
              | some info => mux.clients.send clientId (mux.portalResponseFor builder msg info)
              | none => mux.clients }

def handleBusMessage (mux : Multiplexer) (builder : MessageBuilder) (now : Instant)
    (msg : Message) (route : Route) : Multiplexer :=
  if msg.isNameOwnerChanged then mux.handleNameOwnerChanged msg route
  else
    let mux :=
      if msg.isMethodReturn || msg.isError then mux.handleReplyMessage builder now msg route
      else mux
    if msg.isSignal then mux.handleSignal builder msg route else mux

/-! ## Who ought to get a message -/

def trackedClient (mux : Multiplexer) (msg : Message) : Option ClientId :=
  if isPortalResponseSignal msg then msg.path.bind mux.portalRequests.ownerOf else none

def answeredCall (mux : Multiplexer) (msg : Message) (route : Route) : Option PendingCall :=
  msg.replySerial.bind (mux.router.pendingAt route)

/-- A client has a rule for the signal. What a rule says about the destination does
not count when the signal is for the multiplexer's own connection to that bus. -/
def Interested (mux : Multiplexer) (msg : Message) (route : Route) (info : ClientInfo) : Prop :=
  ∃ rule ∈ info.matchRules.rules,
    (if msg.destination.isSome ∧ msg.destination = mux.uniqueNameOn route then
      rule.matchesIgnoringDestination msg
    else rule.isMatch msg) = true

instance (mux : Multiplexer) (msg : Message) (route : Route) (info : ClientInfo) :
    Decidable (mux.Interested msg route info) :=
  inferInstanceAs (Decidable (∃ rule ∈ info.matchRules.rules, _ = true))

/-- The channels after a signal: a response to a tracked request has reached the
client of that request and nobody else, and every other signal has reached the
interested clients, once each, and nobody else. -/
def SignalDelivered (mux after : Multiplexer) (msg : Message) (route : Route) : Prop :=
  match mux.trackedClient msg with
  | some tracked =>
      tracked ∈ mux.clients ∧ ∀ c info, mux.clients.lookup c = some info →
        ∃ delivered, (after.clients.lookup c).map ClientInfo.tx = some (info.tx ++ delivered) ∧
          if c = tracked then ∃ copy : Message, copy.IsCopyOf msg ∧ delivered = [copy]
          else delivered = []
  | none =>
      ∀ c info, mux.clients.lookup c = some info →
        (after.clients.lookup c).map ClientInfo.tx =
          some (info.tx ++ if mux.Interested msg route info then [msg] else [])

theorem shouldForward_iff (mux : Multiplexer) (msg : Message) (route : Route) (info : ClientInfo) :
    mux.shouldForward msg route info = true ↔ mux.Interested msg route info := by
  have hunicast : mux.isUnicastToMux msg route = true ↔
      msg.destination.isSome ∧ msg.destination = mux.uniqueNameOn route := by
    unfold isUnicastToMux
    cases msg.destination with
    | none => simp
    | some dest =>
        cases mux.uniqueNameOn route with
        | none => simp
        | some name =>
            show (name == dest) = true ↔ _
            rw [beq_iff_eq, Option.some.injEq]
            exact ⟨fun h => ⟨rfl, h.symm⟩, fun h => h.2.symm⟩
  unfold shouldForward Interested
  by_cases h : mux.isUnicastToMux msg route = true
  · simp only [if_pos h, if_pos (hunicast.mp h)]
    exact List.any_eq_true
  · simp only [if_neg h, if_neg (mt hunicast.mpr h)]
    exact List.any_eq_true

/-! ## What the handler does -/

theorem lookup_forwardSignal (mux : Multiplexer) (msg : Message) (route : Route) (c : ClientId) :
    (((mux.forwardSignal msg route).clients).lookup c).map ClientInfo.tx =
      (mux.clients.lookup c).map (fun info =>
        info.tx ++ if mux.Interested msg route info then [msg] else []) := by
  unfold forwardSignal
  rw [AList.lookup_mapValues, Option.map_map]
  congr 1
  funext info
  have hiff := shouldForward_iff mux msg route info
  by_cases h : mux.shouldForward msg route info = true
  · simp [h, hiff.mp h]
  · simp [h, mt hiff.mpr h]

theorem lookup_send (clients : Clients) (clientId : ClientId) (msg : Message) (c : ClientId) :
    ((clients.send clientId msg).lookup c).map ClientInfo.tx =
      (clients.lookup c).map (fun info => info.tx ++ if c = clientId then [msg] else []) := by
  unfold Clients.send
  rw [AList.lookup_modify]
  split
  · rw [Option.map_map]
    rfl
  · simp

theorem isCopyOf_portalResponseFor (mux : Multiplexer) (builder : MessageBuilder) (msg : Message)
    (info : ClientInfo) : (mux.portalResponseFor builder msg info).IsCopyOf msg := by
  unfold portalResponseFor
  split
  · next rewritten h => exact isCopyOf_clonePortalResponseSignal h
  · rfl

theorem handleSignal_untracked {mux : Multiplexer} {msg : Message}
    (h : mux.trackedClient msg = none) (builder : MessageBuilder) (route : Route) (c : ClientId) :
    (((mux.handleSignal builder msg route).clients).lookup c).map ClientInfo.tx =
      (mux.clients.lookup c).map (fun info =>
        info.tx ++ if mux.Interested msg route info then [msg] else []) := by
  unfold trackedClient at h
  unfold handleSignal
  split
  · exact lookup_forwardSignal mux msg route c
  · next path hpath =>
      have howner : (mux.portalRequests.lookupAndRemove path).1 = none := by
        rw [PortalRequestTracker.lookupAndRemove_fst]
        split at hpath
        · next hportal => simpa [hportal, hpath] using h
        · cases hpath
      split
      · next portalRequests _ =>
          exact lookup_forwardSignal { mux with portalRequests := portalRequests } msg route c
      · next clientId portalRequests heq =>
          rw [heq] at howner
          cases howner

theorem handleSignal_tracked {mux : Multiplexer} {msg : Message} {tracked : ClientId}
    (h : mux.trackedClient msg = some tracked) (builder : MessageBuilder) (route : Route)
    {c : ClientId} {info : ClientInfo} (hl : mux.clients.lookup c = some info) :
    (((mux.handleSignal builder msg route).clients).lookup c).map ClientInfo.tx =
      some (info.tx ++
        if c = tracked then [mux.portalResponseFor builder msg info] else []) := by
  unfold trackedClient at h
  unfold handleSignal
  split at h
  · next hportal =>
      rcases Option.bind_eq_some_iff.mp h with ⟨path, hpath, howner⟩
      rw [← PortalRequestTracker.lookupAndRemove_fst] at howner
      simp only [hportal, if_true, hpath]
      split
      · next heq =>
          rw [heq] at howner
          cases howner
      · next clientId portalRequests heq =>
          rw [heq] at howner
          cases howner
          cases hmem : mux.clients.lookup tracked with
          | none =>
              have hne : c ≠ tracked := by
                intro hc
                rw [hc, hmem] at hl
                cases hl
              simp [hl, hne]
          | some owner =>
              dsimp only
              rw [lookup_send, hl]
              by_cases hc : c = tracked
              · subst hc
                rw [hl] at hmem
                cases hmem
                rfl
              · simp [hc]
  · cases h

theorem router_handleBusMessage (mux : Multiplexer) (builder : MessageBuilder) (now : Instant)
    (msg : Message) (route : Route) :
    (mux.handleBusMessage builder now msg route).router = mux.router ∨
      (mux.handleBusMessage builder now msg route).router =
        (mux.router.handleReply msg route).2 := by
  have hsignal : ∀ mux : Multiplexer, (mux.handleSignal builder msg route).router = mux.router := by
    intro mux
    unfold handleSignal
    split
    · rfl
    · split <;> rfl
  have hreply : (mux.handleReplyMessage builder now msg route).router =
      (mux.router.handleReply msg route).2 := by
    unfold handleReplyMessage
    split
    · next h => rw [h]
    · next h => rw [h]
  unfold handleBusMessage
  split
  · left
    unfold handleNameOwnerChanged
    split <;> rfl
  · dsimp only
    by_cases hreplied : (msg.isMethodReturn || msg.isError) = true
    · right
      rw [if_pos hreplied]
      split
      · rw [hsignal, hreply]
      · exact hreply
    · left
      rw [if_neg hreplied]
      split
      · exact hsignal mux
      · rfl

/-! ## The law of signal delivery -/

theorem trackedClient_of_nameOwnerChanged {msg : Message} (h : msg.isNameOwnerChanged = true)
    (mux : Multiplexer) : mux.trackedClient msg = none := by
  unfold trackedClient
  rw [if_neg (by rw [isPortalResponseSignal_of_nameOwnerChanged h]; exact Bool.false_ne_true)]

theorem clients_handleNameOwnerChanged (mux : Multiplexer) (msg : Message) (route : Route) :
    (mux.handleNameOwnerChanged msg route).clients = mux.clients := by
  unfold handleNameOwnerChanged
  split <;> rfl

theorem handleBusMessage_of_signal {msg : Message} (hsignal : msg.isSignal = true)
    (hchanged : msg.isNameOwnerChanged = false) (mux : Multiplexer) (builder : MessageBuilder)
    (now : Instant) (route : Route) :
    mux.handleBusMessage builder now msg route = mux.handleSignal builder msg route := by
  have htype : msg.msgType = .signal := by simpa [Message.isSignal] using hsignal
  unfold handleBusMessage
  simp [hchanged, hsignal, Message.isMethodReturn, Message.isError, htype]

/-- A signal is delivered as it should be exactly when it is not a `NameOwnerChanged`
that somebody has a rule for, and not the response to a tracked request of a
client that has gone. -/
theorem signal_delivered_iff (mux : Multiplexer) (builder : MessageBuilder) (now : Instant)
    (msg : Message) (route : Route) (hsignal : msg.isSignal = true) :
    mux.SignalDelivered (mux.handleBusMessage builder now msg route) msg route ↔
      (msg.isNameOwnerChanged = true → ∀ c info, mux.clients.lookup c = some info →
          ¬ mux.Interested msg route info) ∧
        ∀ tracked, mux.trackedClient msg = some tracked → tracked ∈ mux.clients := by
  cases hchanged : msg.isNameOwnerChanged with
  | true =>
      have hnone := trackedClient_of_nameOwnerChanged hchanged mux
      have hhandled : (mux.handleBusMessage builder now msg route).clients = mux.clients := by
        unfold handleBusMessage
        rw [if_pos hchanged]
        exact clients_handleNameOwnerChanged mux msg route
      unfold SignalDelivered
      rw [hhandled, hnone]
      constructor
      · intro hdelivered
        refine ⟨fun _ c info hl hwants => ?_, fun tracked htracked => by cases htracked⟩
        have hlost := hdelivered c info hl
        rw [hl, if_pos hwants] at hlost
        simp at hlost
      · intro hnobody c info hl
        rw [hl, if_neg (hnobody.1 rfl c info hl)]
        simp
  | false =>
      rw [handleBusMessage_of_signal hsignal hchanged]
      unfold SignalDelivered
      cases htracked : mux.trackedClient msg with
      | none =>
          refine iff_of_true (fun c info hl => ?_) (by simp)
          rw [handleSignal_untracked htracked, hl]
          rfl
      | some tracked =>
          have hrest : ∀ c info, mux.clients.lookup c = some info → ∃ delivered,
              (((mux.handleSignal builder msg route).clients).lookup c).map ClientInfo.tx =
                  some (info.tx ++ delivered) ∧
                if c = tracked then ∃ copy : Message, copy.IsCopyOf msg ∧ delivered = [copy]
                else delivered = [] := by
            intro c info hl
            refine ⟨_, handleSignal_tracked htracked builder route hl, ?_⟩
            by_cases hc : c = tracked
            · rw [if_pos hc, if_pos hc]
              exact ⟨_, isCopyOf_portalResponseFor mux builder msg info, rfl⟩
            · rw [if_neg hc, if_neg hc]
          constructor
          · intro hdelivered
            refine ⟨fun hfalse => absurd hfalse Bool.false_ne_true, fun other hother => ?_⟩
            cases hother
            exact hdelivered.1
          · intro hconnected
            exact ⟨hconnected.2 tracked rfl, hrest⟩

/-- A client with one rule, and the multiplexer with that client only. -/
def listener (rule : String) : ClientInfo :=
  match MatchRule.parse rule with
  | .ok rule =>
      { ClientInfo.registered 1 ⟨1000, none, 1000⟩ with matchRules := ClientMatchRules.new.add rule }
  | .error _ => .registered 1 ⟨1000, none, 1000⟩

def listening (rule : String) : Multiplexer where
  router := ⟨.connect (some ":1.5"), .connect (some ":1.88"), .withTimeout 30⟩
  routingTable := .new
  portalRequests :=
    PortalRequestTracker.new.register 0 "/org/freedesktop/portal/desktop/request/1_88/t" 1
  clients := (∅ : Clients).insert 1 (listener rule)

def signalFrom (path interface member : String) (args : List Value) : Message where
  msgType := .signal
  serial := 7
  replySerial := none
  path := some path
  interface := some interface
  member := some member
  destination := none
  sender := some "org.freedesktop.DBus"
  body := ⟨args, !args.isEmpty⟩
  fds := []

/-- The response to a tracked request reaches its client, which has no rule for it. -/
theorem signal_delivered_portalResponse :
    (listening "member='Closed'").SignalDelivered
      ((listening "member='Closed'").handleBusMessage .unfailing 5
        (signalFrom "/org/freedesktop/portal/desktop/request/1_88/t"
          "org.freedesktop.portal.Request" "Response" [.uint32 0]) .host)
      (signalFrom "/org/freedesktop/portal/desktop/request/1_88/t"
        "org.freedesktop.portal.Request" "Response" [.uint32 0]) .host := by
  refine (signal_delivered_iff _ _ _ _ _ rfl).mpr ⟨fun h => absurd h (by decide), ?_⟩
  intro tracked htracked
  have hclient : (listening "member='Closed'").trackedClient
      (signalFrom "/org/freedesktop/portal/desktop/request/1_88/t"
        "org.freedesktop.portal.Request" "Response" [.uint32 0]) = some 1 := by
    decide
  rw [hclient] at htracked
  cases htracked
  decide

/-- A client that asked for `NameOwnerChanged` does not get it. -/
theorem nameOwnerChanged_not_delivered :
    ¬ ∀ (mux : Multiplexer) (builder : MessageBuilder) (now : Instant) (msg : Message)
      (route : Route), msg.isSignal = true →
      mux.SignalDelivered (mux.handleBusMessage builder now msg route) msg route := by
  intro hclaim
  have hdelivered := hclaim (listening "type='signal',member='NameOwnerChanged'")
    .unfailing 5
    (signalFrom "/org/freedesktop/DBus" "org.freedesktop.DBus" "NameOwnerChanged"
      [.str "org.a", .str "", .str ":1.9"]) .host rfl
  have hnone : (listening "type='signal',member='NameOwnerChanged'").trackedClient
      (signalFrom "/org/freedesktop/DBus" "org.freedesktop.DBus" "NameOwnerChanged"
        [.str "org.a", .str "", .str ":1.9"]) = none := by
    decide
  unfold SignalDelivered at hdelivered
  rw [hnone] at hdelivered
  exact absurd (hdelivered 1 (listener "type='signal',member='NameOwnerChanged'") rfl) (by decide)

end Multiplexer

end KapsuleDbusMux
