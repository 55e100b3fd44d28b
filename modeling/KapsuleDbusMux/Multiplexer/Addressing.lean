import KapsuleDbusMux.Multiplexer.Loop
import KapsuleDbusMux.Multiplexer.Outcome

/-! # To whom messages on a client's channel are addressed

What the multiplexer builds itself is addressed to the client it goes to, and so is a
portal response it has rewritten. Replies and signals of a bus are passed on with the
destination they came with, which for a reply and for a unicast signal is the name of
the multiplexer's own connection.
-/

namespace KapsuleDbusMux

/-- Without destination, or for the client with this name. -/
def Message.AddressedTo (msg : Message) (uniqueName : String) : Prop :=
  msg.destination = none ∨ msg.destination = some uniqueName

instance (msg : Message) (uniqueName : String) : Decidable (msg.AddressedTo uniqueName) :=
  inferInstanceAs (Decidable (_ ∨ _))

namespace Multiplexer

/-! ## What a message from a bus adds to the channels -/

theorem destination_replyFor (builder : MessageBuilder) (msg : Message) (clientSerial : UInt32) :
    (replyFor builder msg clientSerial).destination = msg.destination := by
  rcases replyFor_cases builder msg clientSerial with ⟨_, _, _, _, hreply⟩ | ⟨_, hreply⟩
  · rw [hreply]
  · rw [hreply]

def deliveries (mux : Multiplexer) (builder : MessageBuilder) (msg : Message) (route : Route)
    (c : ClientId) (info : ClientInfo) : List Message :=
  if msg.isNameOwnerChanged then []
  else if msg.isMethodReturn || msg.isError then
    match mux.answeredCall msg route with
    | some call => if c = call.clientId then [replyFor builder msg call.clientSerial] else []
    | none => []
  else if msg.isSignal then
    match mux.trackedClient msg with
    | some tracked => if c = tracked then [mux.portalResponseFor builder msg info] else []
    | none => if mux.Interested msg route info then [msg] else []
  else []

theorem handleReplyMessage_tx (mux : Multiplexer) (builder : MessageBuilder) (now : Instant)
    (msg : Message) (route : Route)
    {c : ClientId} {info : ClientInfo} (hl : mux.clients.lookup c = some info) :
    (((mux.handleReplyMessage builder now msg route).clients).lookup c).map ClientInfo.tx =
      some (info.tx ++ match mux.answeredCall msg route with
        | some call => if c = call.clientId then [replyFor builder msg call.clientSerial] else []
        | none => []) := by
  unfold handleReplyMessage answeredCall
  cases hserial : msg.replySerial with
  | none => simp [MessageRouter.handleReply, hserial, hl]
  | some serial =>
      have hfound := mux.router.handleReply_fst hserial route
      rw [Option.bind_some]
      cases hreply : mux.router.handleReply msg route with
      | mk result router =>
          rw [hreply] at hfound
          dsimp only at hfound
          subst hfound
          cases mux.router.pendingAt route serial with
          | none => simp [hl]
          | some call =>
              dsimp only [Option.map_some]
              rw [lookup_send, hl]
              rfl

theorem handleBusMessage_tx (mux : Multiplexer) (builder : MessageBuilder) (now : Instant)
    (msg : Message) (route : Route) {c : ClientId} {info : ClientInfo}
    (hl : mux.clients.lookup c = some info) :
    (((mux.handleBusMessage builder now msg route).clients).lookup c).map ClientInfo.tx =
      some (info.tx ++ mux.deliveries builder msg route c info) := by
  unfold deliveries
  cases hchanged : msg.isNameOwnerChanged with
  | true =>
      unfold handleBusMessage
      rw [if_pos hchanged, clients_handleNameOwnerChanged, hl]
      simp
  | false =>
      by_cases hreply : (msg.isMethodReturn || msg.isError) = true
      · have hsignal : msg.isSignal = false := by
          simp only [Message.isMethodReturn, Message.isError, Bool.or_eq_true, beq_iff_eq] at hreply
          rcases hreply with h | h
          · simp [Message.isSignal, h]
          · simp [Message.isSignal, h]
        unfold handleBusMessage
        simp only [hchanged, hreply, hsignal, Bool.false_eq_true, if_false, if_true]
        exact handleReplyMessage_tx mux builder now msg route hl
      · cases hsignal : msg.isSignal with
        | false =>
            unfold handleBusMessage
            simp [hchanged, hreply, hsignal, hl]
        | true =>
            rw [handleBusMessage_of_signal hsignal hchanged]
            simp only [hreply, Bool.false_eq_true, if_false, if_true]
            cases htracked : mux.trackedClient msg with
            | none =>
                rw [handleSignal_untracked htracked, hl]
                rfl
            | some tracked => exact handleSignal_tracked htracked builder route hl

theorem uniqueName_send (clients : Clients) (clientId : ClientId) (msg : Message) (c : ClientId) :
    ((clients.send clientId msg).lookup c).map ClientInfo.uniqueName =
      (clients.lookup c).map ClientInfo.uniqueName := by
  unfold Clients.send
  rw [AList.lookup_modify]
  split
  · rw [Option.map_map]
    rfl
  · rfl

theorem uniqueName_forwardSignal (mux : Multiplexer) (msg : Message) (route : Route)
    (c : ClientId) :
    (((mux.forwardSignal msg route).clients).lookup c).map ClientInfo.uniqueName =
      (mux.clients.lookup c).map ClientInfo.uniqueName := by
  unfold forwardSignal
  rw [AList.lookup_mapValues, Option.map_map]
  congr 1
  funext info
  show (if mux.shouldForward msg route info then _ else _ : ClientInfo).uniqueName = _
  split <;> rfl

theorem uniqueName_handleBusMessage (mux : Multiplexer) (builder : MessageBuilder) (now : Instant)
    (msg : Message) (route : Route) (c : ClientId) :
    (((mux.handleBusMessage builder now msg route).clients).lookup c).map ClientInfo.uniqueName =
      (mux.clients.lookup c).map ClientInfo.uniqueName := by
  have hreply : (((mux.handleReplyMessage builder now msg route).clients).lookup c).map
      ClientInfo.uniqueName = (mux.clients.lookup c).map ClientInfo.uniqueName := by
    unfold handleReplyMessage
    split
    · exact uniqueName_send mux.clients _ _ c
    · rfl
  have hsignal : ∀ mux : Multiplexer, (((mux.handleSignal builder msg route).clients).lookup
      c).map ClientInfo.uniqueName = (mux.clients.lookup c).map ClientInfo.uniqueName := by
    intro mux
    unfold handleSignal
    split
    · exact uniqueName_forwardSignal mux msg route c
    · split
      · exact uniqueName_forwardSignal _ msg route c
      · dsimp only
        split
        · exact uniqueName_send mux.clients _ _ c
        · rfl
  unfold handleBusMessage
  split
  · rw [clients_handleNameOwnerChanged]
  · dsimp only
    by_cases hreplied : (msg.isMethodReturn || msg.isError) = true
    · rw [if_pos hreplied]
      split
      · rw [hsignal, hreply]
      · exact hreply
    · rw [if_neg hreplied]
      split
      · exact hsignal mux
      · rfl

theorem uniqueNameOn_handleBusMessage (mux : Multiplexer) (builder : MessageBuilder)
    (now : Instant) (msg : Message) (route other : Route) :
    (mux.handleBusMessage builder now msg route).uniqueNameOn other = mux.uniqueNameOn other := by
  unfold uniqueNameOn
  rcases router_handleBusMessage mux builder now msg route with h | h
  · rw [h]
  · rw [h, MessageRouter.connectionFor_handleReply]

/-! ## What is passed on as it came -/

/-- The client gets the message with the destination it came with: as the reply to its
call, as the response to its request when that cannot be rewritten, or because of a rule. -/
def PassesOn (mux : Multiplexer) (builder : MessageBuilder) (msg : Message) (route : Route)
    (c : ClientId) (info : ClientInfo) : Prop :=
  msg.isNameOwnerChanged = false ∧
    ((msg.isMethodReturn || msg.isError) = true ∧
        (mux.answeredCall msg route).map PendingCall.clientId = some c ∨
      msg.isSignal = true ∧
        match mux.trackedClient msg with
        | some tracked =>
            c = tracked ∧ ¬ builder.Rewrites msg ((mux.uniqueNameOn .host).getD "") info.uniqueName
        | none => mux.Interested msg route info)

variable {mux : Multiplexer} {builder : MessageBuilder} {msg m : Message} {route : Route}
variable {c : ClientId} {info : ClientInfo}

theorem destination_portalResponseFor (mux : Multiplexer) (builder : MessageBuilder)
    (msg : Message) (info : ClientInfo) :
    (mux.portalResponseFor builder msg info).destination =
      if builder.Rewrites msg ((mux.uniqueNameOn .host).getD "") info.uniqueName
      then some info.uniqueName else msg.destination := by
  unfold portalResponseFor
  split
  · next rewritten hok =>
      rw [if_pos (MessageBuilder.rewrites_iff.mpr ⟨rewritten, hok⟩)]
      exact MessageBuilder.destination_clonePortalResponseSignal hok
  · next e herror =>
      rw [if_neg]
      intro hrewrites
      obtain ⟨copy, hcopy⟩ := MessageBuilder.rewrites_iff.mp hrewrites
      rw [herror] at hcopy
      cases hcopy

/-- A client gets messages that are for it, and messages as they came. -/
theorem destination_of_mem_deliveries (h : m ∈ mux.deliveries builder msg route c info) :
    m.destination = some info.uniqueName ∨
      mux.PassesOn builder msg route c info ∧ m.destination = msg.destination := by
  unfold deliveries at h
  split at h
  · cases h
  · next hchanged =>
      have hchanged : msg.isNameOwnerChanged = false := by simpa using hchanged
      split at h
      · next hreply =>
          split at h
          · next call hcall =>
              split at h
              · next hc =>
                  rw [List.mem_singleton.mp h, destination_replyFor]
                  exact Or.inr ⟨⟨hchanged, Or.inl ⟨hreply, by rw [hcall, hc]; rfl⟩⟩, rfl⟩
              · cases h
          · cases h
      · split at h
        · next hsignal =>
            split at h
            · next tracked htracked =>
                split at h
                · next hc =>
                    rw [List.mem_singleton.mp h, destination_portalResponseFor]
                    split
                    · exact Or.inl rfl
                    · next hfails =>
                        refine Or.inr ⟨⟨hchanged, Or.inr ⟨hsignal, ?_⟩⟩, rfl⟩
                        rw [htracked]
                        exact ⟨hc, hfails⟩
                · cases h
            · next htracked =>
                split at h
                · next hwants =>
                    rw [List.mem_singleton.mp h]
                    refine Or.inr ⟨⟨hchanged, Or.inr ⟨hsignal, ?_⟩⟩, rfl⟩
                    rw [htracked]
                    exact hwants
                · cases h
        · cases h

theorem exists_mem_deliveries_of_passesOn (h : mux.PassesOn builder msg route c info) :
    ∃ m ∈ mux.deliveries builder msg route c info, m.destination = msg.destination := by
  obtain ⟨hchanged, ⟨hreply, hcall⟩ | ⟨hsignal, hgets⟩⟩ := h
  · obtain ⟨call, hcall, hc⟩ := Option.map_eq_some_iff.mp hcall
    refine ⟨replyFor builder msg call.clientSerial, ?_, destination_replyFor builder msg call.clientSerial⟩
    simp [deliveries, hchanged, hreply, hcall, hc]
  · have hreply : (msg.isMethodReturn || msg.isError) = false := by
      have htype : msg.msgType = .signal := by simpa [Message.isSignal] using hsignal
      simp [Message.isMethodReturn, Message.isError, htype]
    cases htracked : mux.trackedClient msg with
    | none =>
        rw [htracked] at hgets
        refine ⟨msg, ?_, rfl⟩
        simp [deliveries, hchanged, hreply, hsignal, htracked, show mux.Interested _ _ _ from hgets]
    | some tracked =>
        rw [htracked] at hgets
        refine ⟨mux.portalResponseFor builder msg info, ?_, ?_⟩
        · simp [deliveries, hchanged, hreply, hsignal, htracked, hgets.1]
        · rw [destination_portalResponseFor, if_neg hgets.2]

end Multiplexer

namespace MuxState

/-! ## What a message from a client adds to the channels -/

/-- Channels have only got messages that name their client as the destination. -/
def Grown (s t : MuxState) : Prop :=
  ∀ c, ∃ new, t.contact c = (s.contact c).map (fun p => (p.1, p.2 ++ new)) ∧
    ∀ m ∈ new, m.destination = s.uniqueNameOf c

theorem grown_of_contact {s t : MuxState} (h : ∀ c, t.contact c = s.contact c) : s.Grown t := by
  intro c
  refine ⟨[], ?_, fun m hm => nomatch hm⟩
  rw [h c]
  simp

theorem Undisturbed.grown_send {s t : MuxState} (h : s.Undisturbed t) {clientId : ClientId}
    {info : ClientInfo} (hl : t.clients.lookup clientId = some info) {reply : Message}
    (hreply : reply.destination = some info.uniqueName) :
    s.Grown { t with clients := t.clients.send clientId reply } := by
  intro c
  refine ⟨_, by rw [contact_send, h.contact], fun m hm => ?_⟩
  split at hm
  · next hc =>
      rw [List.mem_singleton.mp hm, hreply, ← h.uniqueNameOf, hc]
      simp [MuxState.uniqueNameOf, MuxState.contact, hl]
  · cases hm

theorem Replied.grown {env : Environment} {s t : MuxState} {clientId : ClientId} {msg : Message}
    (h : Replied env s clientId msg t) : s.Grown t := by
  cases h with
  | reply m hm _ =>
      unfold sendReplyToClient
      cases hl : m.clients.lookup clientId with
      | none => exact grown_of_contact hm.contact
      | some info =>
          dsimp only
          split
          · exact grown_of_contact hm.contact
          · next hreply =>
              exact hm.grown_send hl (ReplyBuilder.answers_of_methodReturn hreply).destination
  | error m hm _ =>
      unfold sendErrorToClient
      cases hl : m.clients.lookup clientId with
      | none => exact grown_of_contact hm.contact
      | some info =>
          dsimp only
          split
          · exact grown_of_contact hm.contact
          · next hreply =>
              exact hm.grown_send hl (ReplyBuilder.answers_of_error hreply).destination
  | gone hgone => exact grown_of_contact (fun _ => rfl)

theorem handleClientMessage_grown (env : Environment) (s : MuxState) (clientId : ClientId)
    (msg : Message) :
    s.Grown (s.handleClientMessage env clientId msg) ∧
      ∀ route, (s.handleClientMessage env clientId msg).uniqueNameOn route =
        s.uniqueNameOn route := by
  by_cases hcall : msg.isMethodCall = true
  · rcases handleClientMessage_cases env s clientId hcall with h | h
    · refine ⟨h.grown, fun route => ?_⟩
      obtain ⟨m, hm, hsame⟩ := h.undisturbed
      rw [hsame]
      exact hm.names route
    · exact ⟨grown_of_contact h.1.contact, h.1.names⟩
  · rw [handleClientMessage_of_not_call env s clientId hcall]
    exact ⟨grown_of_contact (fun _ => rfl), fun _ => rfl⟩

/-! ## Runs -/

/-- Clients have the names made from their ids, and the buses use other names for the
multiplexer's connections. -/
structure Named (s : MuxState) : Prop where
  clients : ∀ c name, s.uniqueNameOf c = some name → name = muxUniqueName c
  own : ∀ route c, s.uniqueNameOn route ≠ some (muxUniqueName c)

/-- Everything an event puts on the channel to a client is addressed to the client or
to nobody, and not to one of the multiplexer's connections. -/
def AllAddressed (s : MuxState) (e : MuxEvent) : Prop :=
  ∀ t, s.step e = some t → ∀ c name tx, t.contact c = some (name, tx) →
    ∃ new, tx = (s.channel c).getD [] ++ new ∧ ∀ m ∈ new, m.AddressedTo name ∧
      ∀ route own, s.uniqueNameOn route = some own → m.destination ≠ some own

/-- A message with a destination is passed on as it came to no client but the one it names. -/
def PassedOnToDestination (s : MuxState) : MuxEvent → Prop
  | .busMessage route msg builder _ =>
      ∀ dest, msg.destination = some dest → ∀ c info, s.clients.lookup c = some info →
        s.PassesOn builder msg route c info → dest = muxUniqueName c
  | _ => True

variable {s t : MuxState} {e : MuxEvent}

theorem contact_handleBusMessage (s : MuxState) (builder : MessageBuilder) (now : Instant)
    (msg : Message) (route : Route) (c : ClientId) :
    contact { s with toMultiplexer := s.handleBusMessage builder now msg route } c =
      (s.clients.lookup c).map (fun info =>
        (info.uniqueName, info.tx ++ s.deliveries builder msg route c info)) := by
  have hname := s.uniqueName_handleBusMessage builder now msg route c
  unfold contact
  cases hl : s.clients.lookup c with
  | none =>
      rw [hl] at hname
      simpa using hname
  | some info =>
      have htx := s.handleBusMessage_tx builder now msg route hl
      rw [hl] at hname
      obtain ⟨after, hafter, hsame⟩ := Option.map_eq_some_iff.mp hname
      rw [hafter] at htx
      simp only [hafter, Option.map_some] at htx ⊢
      rw [hsame, Option.some.inj htx]

theorem Named.grown (h : s.Named) (hgrown : s.Grown t)
    (hown : ∀ route, t.uniqueNameOn route = s.uniqueNameOn route) : t.Named where
  clients c name hname := by
    obtain ⟨new, hcontact, _⟩ := hgrown c
    refine h.clients c name ?_
    simpa [uniqueNameOf, hcontact, Option.map_map, Function.comp_def] using hname
  own route c := hown route ▸ h.own route c

theorem Named.step (h : s.Named) (hstep : s.step e = some t) : t.Named := by
  cases e with
  | connect clientId credentials =>
      simp only [MuxState.step] at hstep
      split at hstep
      · cases hstep
      · cases hstep
        refine ⟨fun c name hname => ?_, h.own⟩
        simp only [uniqueNameOf, contact, AList.lookup_insert_if] at hname
        split at hname
        · next hc =>
            rw [hc]
            simpa [ClientInfo.registered] using hname.symm
        · exact h.clients c name hname
  | clientMessage clientId msg env =>
      cases hstep
      have hgrown := handleClientMessage_grown env s clientId msg
      exact h.grown hgrown.1 hgrown.2
  | busMessage route msg builder now =>
      cases hstep
      refine ⟨fun c name hname => h.clients c name ?_, fun other c => ?_⟩
      · unfold uniqueNameOf at hname ⊢
        rw [contact_handleBusMessage] at hname
        simpa [contact, Option.map_map, Function.comp_def] using hname
      · exact (s.uniqueNameOn_handleBusMessage builder now msg route other).symm ▸ h.own other c
  | disconnect clientId =>
      cases hstep
      refine ⟨fun c name hname => ?_, h.own⟩
      simp only [uniqueNameOf, contact, AList.lookup_erase_if] at hname
      split at hname
      · cases hname
      · exact h.clients c name hname
  | removeRequests clientId =>
      cases hstep
      exact ⟨h.clients, h.own⟩
  | removeNames routing queue refcount owned =>
      cases hstep
      refine h.grown (grown_of_contact fun c => ?_) (fun _ => rfl)
      exact lookup_removeNames s.clients owned c
  | cleanupTick now =>
      cases hstep
      refine ⟨h.clients, fun route c => ?_⟩
      cases route with
      | container => exact h.own .container c
      | host => exact h.own .host c

theorem addressedTo_of_destination {m : Message} {c : ClientId} (h : s.Named)
    (hm : m.destination = none ∨ m.destination = some (muxUniqueName c)) :
    m.AddressedTo (muxUniqueName c) ∧
      ∀ route own, s.uniqueNameOn route = some own → m.destination ≠ some own := by
  refine ⟨hm, fun route own hown hdest => ?_⟩
  rcases hm with hm | hm
  · rw [hm] at hdest
    cases hdest
  · rw [hdest] at hm
    exact h.own route c (hown.trans hm)

/-- A step that adds only messages which name their client. -/
theorem allAddressed_of_grown (h : s.Named) (hgrown : ∀ t, s.step e = some t → s.Grown t) :
    s.AllAddressed e := by
  intro t ht c name tx hcontact
  obtain ⟨new, hnew, hdest⟩ := hgrown t ht c
  rw [hnew] at hcontact
  obtain ⟨⟨before, sent⟩, hbefore, hafter⟩ := Option.map_eq_some_iff.mp hcontact
  cases hafter
  have hname : s.uniqueNameOf c = some before := by rw [uniqueNameOf, hbefore]; rfl
  refine ⟨new, by rw [channel, hbefore]; rfl, fun m hm => ?_⟩
  have hc := h.clients c before hname
  rw [hc]
  exact addressedTo_of_destination h (Or.inr ((hdest m hm).trans (hc ▸ hname)))

theorem allAddressed_busMessage_iff (h : s.Named) (route : Route) (msg : Message)
    (builder : MessageBuilder) (now : Instant) :
    s.AllAddressed (.busMessage route msg builder now) ↔
      s.PassedOnToDestination (.busMessage route msg builder now) := by
  have hnamed : ∀ c info, s.clients.lookup c = some info → info.uniqueName = muxUniqueName c :=
    fun c info hl => h.clients c info.uniqueName (by simp [uniqueNameOf, contact, hl])
  have hchannel : ∀ c info, s.clients.lookup c = some info →
      (s.channel c).getD [] = info.tx := by
    intro c info hl
    simp [channel, contact, hl]
  constructor
  · intro hall dest hdest c info hl hpasses
    obtain ⟨new, hnew, haddressed⟩ := hall _ rfl c _ _
      (by rw [contact_handleBusMessage, hl]; rfl)
    rw [hchannel c info hl] at hnew
    rw [← List.append_cancel_left hnew] at haddressed
    obtain ⟨m, hm, hsame⟩ := Multiplexer.exists_mem_deliveries_of_passesOn hpasses
    have hto := (haddressed m hm).1
    rw [Message.AddressedTo, hsame, hdest, hnamed c info hl] at hto
    simpa using hto
  · intro hpassed t ht c name tx hcontact
    cases ht
    rw [contact_handleBusMessage] at hcontact
    obtain ⟨info, hl, hafter⟩ := Option.map_eq_some_iff.mp hcontact
    cases hafter
    refine ⟨_, by rw [hchannel c info hl], fun m hm => ?_⟩
    rw [hnamed c info hl]
    refine addressedTo_of_destination h ?_
    rcases Multiplexer.destination_of_mem_deliveries hm with hm | ⟨hpasses, hm⟩
    · exact Or.inr (hm.trans (congrArg some (hnamed c info hl)))
    · cases hdest : msg.destination with
      | none => exact Or.inl (hm.trans hdest)
      | some dest =>
          rw [hm, hdest, hpassed dest hdest c info hl hpasses]
          exact Or.inr rfl

theorem allAddressed_iff (h : s.Named) (e : MuxEvent) :
    s.AllAddressed e ↔ s.PassedOnToDestination e := by
  cases e with
  | busMessage route msg builder now => exact allAddressed_busMessage_iff h route msg builder now
  | clientMessage clientId msg env =>
      refine iff_of_true (allAddressed_of_grown h fun t ht => ?_) trivial
      cases ht
      exact (handleClientMessage_grown env s clientId msg).1
  | connect clientId credentials =>
      refine iff_of_true (fun t ht c name tx hcontact => ⟨[], ?_, fun m hm => nomatch hm⟩) trivial
      simp only [MuxState.step] at ht
      split at ht
      · cases ht
      · next hnew =>
          cases ht
          simp only [contact, AList.lookup_insert_if] at hcontact
          split at hcontact
          · next hc =>
              cases hcontact
              have hnone : s.clients.lookup c = none := by
                rw [hc]
                exact AList.lookup_eq_none.mpr hnew
              simp [channel, contact, hnone, ClientInfo.registered]
          · simp [channel, show s.contact c = _ from hcontact]
  | disconnect clientId =>
      refine iff_of_true (fun t ht c name tx hcontact => ⟨[], ?_, fun m hm => nomatch hm⟩) trivial
      cases ht
      simp only [contact, AList.lookup_erase_if] at hcontact
      split at hcontact
      · cases hcontact
      · simp [channel, show s.contact c = _ from hcontact]
  | removeRequests clientId =>
      refine iff_of_true (allAddressed_of_grown h fun t ht => ?_) trivial
      cases ht
      exact grown_of_contact (fun _ => rfl)
  | removeNames routing queue refcount owned =>
      refine iff_of_true (allAddressed_of_grown h fun t ht => ?_) trivial
      cases ht
      exact grown_of_contact (lookup_removeNames s.clients owned)
  | cleanupTick now =>
      refine iff_of_true (allAddressed_of_grown h fun t ht => ?_) trivial
      cases ht
      exact grown_of_contact (fun _ => rfl)

/-- In every run all that clients get is addressed to them, exactly as long as no message
with another destination is passed on to them as it came. -/
theorem addressed_along_iff {containerName hostName : Option String} {timeout : Nat}
    {routing : RoutingTable} {guid : String}
    (hcontainer : ∀ c, containerName ≠ some (muxUniqueName c))
    (hhost : ∀ c, hostName ≠ some (muxUniqueName c)) (events : List MuxEvent) :
    Trace.Along step AllAddressed (initial containerName hostName timeout routing guid) events ↔
      Trace.Along step PassedOnToDestination
        (initial containerName hostName timeout routing guid) events := by
  have hnamed : (initial containerName hostName timeout routing guid).Named := by
    refine ⟨fun c name hname => (nomatch hname), fun route c => ?_⟩
    cases route with
    | container => exact hcontainer c
    | host => exact hhost c
  exact Trace.along_iff_of_invariant (W := fun _ _ => True)
    (fun s e t h _ _ ht => h.step ht) (fun s e h _ => allAddressed_iff h e) hnamed
    (Trace.along_of_forall (fun _ _ => trivial))

theorem ne_muxUniqueName_of_digit (name : String) (h : name.toList[1]? = some '1')
    (c : ClientId) : some name ≠ some (muxUniqueName c) := by
  intro hsame
  rw [Option.some.inj hsame] at h
  simp [muxUniqueName] at h

def broadcastRun : List MuxEvent :=
  [.connect 1 ⟨1000, none, 1000⟩,
    .clientMessage 1
      { callTo "org.freedesktop.DBus" "AddMatch" with body := ⟨[.str "member='Changed'"], true⟩ }
      cooperative,
    .busMessage .host (Multiplexer.signalFrom "/a" "org.a" "Changed" [])
      .unfailing 5]

theorem addressed_along_broadcast :
    Trace.Along step AllAddressed (initial (some ":1.5") (some ":1.88") 30 .new "0123")
      broadcastRun ∧
    ((Trace.run step (initial (some ":1.5") (some ":1.88") 30 .new "0123") broadcastRun).bind
      (fun t => t.channel 1)).map List.length = some 2 := by
  refine ⟨?_, by decide⟩
  refine (addressed_along_iff (ne_muxUniqueName_of_digit ":1.5" rfl)
    (ne_muxUniqueName_of_digit ":1.88" rfl) broadcastRun).mpr ?_
  refine ⟨trivial, fun _ _ => ⟨trivial, fun _ _ => ⟨?_, fun _ _ => trivial⟩⟩⟩
  intro dest hdest
  cases hdest

/-- The reply of a service on the host to the first call that was forwarded there. -/
def replyToMux : Message where
  msgType := .methodReturn
  serial := 9
  replySerial := some 1
  path := none
  interface := none
  member := none
  destination := some ":1.88"
  sender := some ":1.20"
  body := ⟨[], false⟩
  fds := []

/-- A client calls a service on the host. The reply it gets is addressed to the
multiplexer's connection to that bus. -/
theorem forwarded_reply_misaddressed :
    ¬ ∀ (containerName hostName : Option String) (timeout : Nat) (routing : RoutingTable)
      (guid : String) (events : List MuxEvent), (∀ c, containerName ≠ some (muxUniqueName c)) →
      (∀ c, hostName ≠ some (muxUniqueName c)) →
      Trace.Along step AllAddressed (initial containerName hostName timeout routing guid)
        events := by
  intro hclaim
  have hall := hclaim (some ":1.5") (some ":1.88") 30 .new "0123"
    [.connect 1 ⟨1000, none, 1000⟩, .clientMessage 1 (callTo "org.a" "Run") cooperative,
      .busMessage .host replyToMux .unfailing 5]
    (ne_muxUniqueName_of_digit ":1.5" rfl) (ne_muxUniqueName_of_digit ":1.88" rfl)
  have hreply := (hall.2 _ rfl).2 _ rfl
  obtain ⟨new, hnew, haddressed⟩ := hreply.1 _ rfl 1 ":mux.1"
    [{ replyToMux with replySerial := some 3 }] (by decide)
  have hgot : [{ replyToMux with replySerial := some 3 }] = new := hnew
  have hto := (haddressed _ (hgot ▸ List.mem_singleton_self _)).2 .host ":1.88" rfl
  exact hto rfl

end MuxState

end KapsuleDbusMux
