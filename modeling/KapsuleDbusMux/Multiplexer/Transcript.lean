import KapsuleDbusMux.Multiplexer.Addressing
import KapsuleDbusMux.Multiplexer.PortalTracking

/-! # What passes through the multiplexer

The main loop over whole runs. What is on a channel to a client, or on a bus, came out
of the events of the run one by one: each event puts at most one message on a channel
and at most one copy on a bus, so nothing is reordered and nothing is sent twice. What
a client is answered is counted against what it asked, however the buses behave.
-/

namespace KapsuleDbusMux

namespace MuxState

/-! ## Where messages come from -/

/-- How a message on the channel to a client comes out of an event: as the answer to a
call of that client, as a reply from a bus up to its reply serial, with its descriptors
or their duplicates, or as a signal from a bus up to its path and destination. -/
inductive CameFrom (c : ClientId) (m : Message) : MuxEvent → Prop
  | answer {msg : Message} {env : Environment} (hcall : msg.isMethodCall = true)
      (hkind : m.isMethodReturn = true ∨ m.isError = true)
      (hserial : m.replySerial = some msg.serial) : CameFrom c m (.clientMessage c msg env)
  | reply {route : Route} {msg : Message} {builder : MessageBuilder} {now : Instant}
      (hkind : (msg.isMethodReturn || msg.isError) = true)
      (hsame : m = { msg with replySerial := m.replySerial, fds := m.fds })
      (hfds : m.fds = msg.fds ∨ builder.cloneFds msg.fds = some m.fds) :
      CameFrom c m (.busMessage route msg builder now)
  | signal {route : Route} {msg : Message} {builder : MessageBuilder} {now : Instant}
      (hsignal : msg.isSignal = true) (hcopy : m.IsCopyOf msg) :
      CameFrom c m (.busMessage route msg builder now)

/-- A copy of a call on a bus. -/
def IsForwarded (p : Route × Message) : MuxEvent → Prop
  | .clientMessage _ msg _ =>
      msg.isMethodCall = true ∧ p.2 = { msg with serial := p.2.serial, fds := [] }
  | _ => False

variable {s t : MuxState} {e : MuxEvent}

/-! ## One event -/

theorem cameFrom_replyFor {msg : Message} (hkind : (msg.isMethodReturn || msg.isError) = true)
    (c : ClientId) (route : Route) (builder : MessageBuilder) (now : Instant)
    (clientSerial : UInt32) :
    CameFrom c (Multiplexer.replyFor builder msg clientSerial)
      (.busMessage route msg builder now) := by
  rcases Multiplexer.replyFor_cases builder msg clientSerial with
    ⟨fds, _, _, hfds, hreply⟩ | ⟨_, hreply⟩
  · rw [hreply]
    exact .reply hkind rfl (Or.inr hfds)
  · rw [hreply]
    exact .reply hkind rfl (Or.inl rfl)

theorem deliveries_cases (mux : Multiplexer) (builder : MessageBuilder) (msg : Message)
    (route : Route) (now : Instant) (c : ClientId) (info : ClientInfo) :
    mux.deliveries builder msg route c info = [] ∨
      ∃ m, CameFrom c m (.busMessage route msg builder now) ∧
        mux.deliveries builder msg route c info = [m] := by
  unfold Multiplexer.deliveries
  split
  · exact Or.inl rfl
  · split
    · next hkind =>
        split
        · next call _ =>
            split
            · exact Or.inr ⟨_, cameFrom_replyFor hkind c route builder now call.clientSerial, rfl⟩
            · exact Or.inl rfl
        · exact Or.inl rfl
    · split
      · next hsignal =>
          split
          · split
            · exact Or.inr ⟨_, .signal hsignal
                (Multiplexer.isCopyOf_portalResponseFor mux builder msg info), rfl⟩
            · exact Or.inl rfl
          · split
            · exact Or.inr ⟨msg, .signal hsignal rfl, rfl⟩
            · exact Or.inl rfl
      · exact Or.inl rfl

/-- What is on the channel to a client; nothing when there is none. -/
def channelLog (c : ClientId) (s : MuxState) : List Message := (s.channel c).getD []

theorem channelLog_of_contact {c : ClientId} (h : t.contact c = s.contact c) :
    channelLog c t = channelLog c s := by
  unfold channelLog channel
  rw [h]

theorem channelLog_send (s : MuxState) (clientId c : ClientId) (m : Message) :
    channelLog c { s with clients := s.clients.send clientId m } = channelLog c s ∨
      c = clientId ∧
        channelLog c { s with clients := s.clients.send clientId m } = channelLog c s ++ [m] := by
  unfold channelLog
  rw [channel_send]
  cases s.channel c with
  | none => exact Or.inl rfl
  | some tx =>
      by_cases hc : c = clientId
      · exact Or.inr ⟨hc, by simp [hc]⟩
      · exact Or.inl (by simp [hc])

theorem Replied.channelLog_cases {env : Environment} {clientId : ClientId} {msg : Message}
    (h : Replied env s clientId msg t) (hcall : msg.isMethodCall = true) (c : ClientId) :
    channelLog c t = channelLog c s ∨
      ∃ m, CameFrom c m (.clientMessage clientId msg env) ∧
        channelLog c t = channelLog c s ++ [m] := by
  have hsend : ∀ (u : MuxState) (reply : Message) (name : String), s.Undisturbed u →
      reply.Answers msg name →
      channelLog c { u with clients := u.clients.send clientId reply } = channelLog c s ∨
        ∃ m, CameFrom c m (.clientMessage clientId msg env) ∧
          channelLog c { u with clients := u.clients.send clientId reply } =
            channelLog c s ++ [m] := by
    intro u reply name hu hreply
    rw [← channelLog_of_contact (hu.contact c)]
    rcases channelLog_send u clientId c reply with hsame | ⟨rfl, hgrown⟩
    · exact Or.inl hsame
    · exact Or.inr ⟨reply, .answer hcall hreply.kind hreply.serial, hgrown⟩
  cases h with
  | reply u hu _ =>
      unfold sendReplyToClient
      split
      · exact Or.inl (channelLog_of_contact (hu.contact c))
      · split
        · exact Or.inl (channelLog_of_contact (hu.contact c))
        · next hreply => exact hsend u _ _ hu (ReplyBuilder.answers_of_methodReturn hreply)
  | error u hu _ =>
      unfold sendErrorToClient
      split
      · exact Or.inl (channelLog_of_contact (hu.contact c))
      · split
        · exact Or.inl (channelLog_of_contact (hu.contact c))
        · next hreply => exact hsend u _ _ hu (ReplyBuilder.answers_of_error hreply)
  | gone _ => exact Or.inl rfl

/-- Registering a client and removing it leave its channel without messages. -/
theorem step_channelLog_of_turnover (hstep : s.step e = some t) {c : ClientId}
    (h : (∃ credentials, e = .connect c credentials) ∨ e = .disconnect c) :
    channelLog c t = [] := by
  rcases h with ⟨credentials, rfl⟩ | rfl
  · simp only [step] at hstep
    split at hstep
    · cases hstep
    · cases hstep
      simp [channelLog, channel, contact, ClientInfo.registered]
  · cases hstep
    simp [channelLog, channel, contact]

/-- Anything else puts at most one message on the channel, behind what is there. -/
theorem step_channelLog_of_stays (hstep : s.step e = some t) {c : ClientId}
    (hconnect : ∀ credentials, e ≠ .connect c credentials) (hdisconnect : e ≠ .disconnect c) :
    channelLog c t = channelLog c s ∨
      ∃ m, CameFrom c m e ∧ channelLog c t = channelLog c s ++ [m] := by
  cases e with
  | connect clientId credentials =>
      have hc : c ≠ clientId := fun hc => hconnect credentials (by rw [hc])
      simp only [step] at hstep
      split at hstep
      · cases hstep
      · cases hstep
        exact Or.inl (channelLog_of_contact (by simp [contact, hc]))
  | clientMessage clientId msg env =>
      cases hstep
      by_cases hcall : msg.isMethodCall = true
      · rcases handleClientMessage_cases env s clientId hcall with h | h
        · exact h.channelLog_cases hcall c
        · exact Or.inl (channelLog_of_contact (h.1.contact c))
      · rw [handleClientMessage_of_not_call env s clientId hcall]
        exact Or.inl rfl
  | busMessage route msg builder now =>
      cases hstep
      unfold channelLog channel
      rw [contact_handleBusMessage]
      unfold contact
      cases s.clients.lookup c with
      | none => exact Or.inl rfl
      | some info =>
          rcases deliveries_cases s.toMultiplexer builder msg route now c info with h | ⟨m, hm, h⟩
          · left
            simp [h]
          · right
            exact ⟨m, hm, by simp [h]⟩
  | disconnect clientId =>
      have hc : c ≠ clientId := fun hc => hdisconnect (by rw [hc])
      cases hstep
      exact Or.inl (channelLog_of_contact (by simp [contact, hc]))
  | removeRequests clientId =>
      cases hstep
      exact Or.inl rfl
  | removeNames routing queue refcount owned =>
      cases hstep
      exact Or.inl (channelLog_of_contact (lookup_removeNames s.clients owned c))
  | cleanupTick now =>
      cases hstep
      exact Or.inl rfl

theorem step_channelLog (hstep : s.step e = some t) (c : ClientId) :
    channelLog c t = [] ∨ channelLog c t = channelLog c s ∨
      ∃ m, CameFrom c m e ∧ channelLog c t = channelLog c s ++ [m] := by
  by_cases hturnover : (∃ credentials, e = .connect c credentials) ∨ e = .disconnect c
  · exact Or.inl (step_channelLog_of_turnover hstep hturnover)
  · rw [not_or, not_exists] at hturnover
    exact Or.inr (step_channelLog_of_stays hstep hturnover.1 hturnover.2)

theorem step_sent (hstep : s.step e = some t) :
    t.sent = s.sent ∨ ∃ p, IsForwarded p e ∧ t.sent = s.sent ++ [p] := by
  cases e with
  | clientMessage clientId msg env =>
      cases hstep
      by_cases hcall : msg.isMethodCall = true
      · rcases handleClientMessage_cases env s clientId hcall with h | h
        · obtain ⟨m, hm, hsame⟩ := h.undisturbed
          rw [hsame]
          exact Or.inl hm.sent
        · obtain ⟨serial, hsent, _⟩ := h.1.copied
          exact Or.inr ⟨_, ⟨hcall, rfl⟩, hsent⟩
      · rw [handleClientMessage_of_not_call env s clientId hcall]
        exact Or.inl rfl
  | connect clientId credentials =>
      simp only [step] at hstep
      split at hstep
      · cases hstep
      · cases hstep
        exact Or.inl rfl
  | _ =>
      cases hstep
      exact Or.inl rfl

/-! ## Whole runs -/

section Runs

variable {containerName hostName : Option String} {timeout : Nat} {routing : RoutingTable}
  {guid : String} {events : List MuxEvent}

theorem run_channelLog
    (hrun : Trace.run step (initial containerName hostName timeout routing guid) events = some t)
    (c : ClientId) : List.SublistForall₂ (CameFrom c) (channelLog c t) events := by
  have hstep : ∀ (s : MuxState) (e : MuxEvent) (t : MuxState), s.step e = some t →
      channelLog c t = [] ∨ channelLog c t = channelLog c s ∨
        ∃ m, CameFrom c m e ∧ channelLog c t = channelLog c s ++ [m] :=
    fun _ _ _ h => step_channelLog h c
  exact Trace.log_follows_run (channelLog c) hstep rfl hrun

/-- For every run, what went to the buses is a copy of some of the clients' calls, in
the order the calls were handled, and at most one copy of each. -/
theorem sent_follows_calls
    (hrun : Trace.run step (initial containerName hostName timeout routing guid) events = some t) :
    List.SublistForall₂ IsForwarded t.sent events := by
  have hstep : ∀ (s : MuxState) (e : MuxEvent) (t : MuxState), s.step e = some t →
      t.sent = [] ∨ t.sent = s.sent ∨ ∃ p, IsForwarded p e ∧ t.sent = s.sent ++ [p] :=
    fun _ _ _ h => Or.inr (step_sent h)
  exact Trace.log_follows_run MuxState.sent hstep rfl hrun

end Runs

def callingRun : List MuxEvent :=
  [.connect 1 ⟨1000, none, 1000⟩, .clientMessage 1 (callTo "org.a" "Run") cooperative,
    .clientMessage 1 (callTo "org.freedesktop.DBus" "Hello") cooperative,
    .clientMessage 1 (callTo "org.a" "Run") cooperative]

theorem sent_follows_calls_twice :
    ∃ t, Trace.run step (initial (some ":1.5") (some ":1.88") 30 .new "0123") callingRun =
        some t ∧ t.sent.length = 2 ∧ List.SublistForall₂ IsForwarded t.sent callingRun := by
  have heval : (Trace.run step (initial (some ":1.5") (some ":1.88") 30 .new "0123")
      callingRun).any (fun t => decide (t.sent.length = 2)) = true := by
    decide
  obtain ⟨t, hrun, hlength⟩ := Trace.exists_of_eval heval
  exact ⟨t, hrun, hlength, sent_follows_calls hrun⟩

/-! ## Answers and calls -/

def isCallOf (c : ClientId) (serial : UInt32) : MuxEvent → Bool
  | .clientMessage clientId msg _ =>
      decide (clientId = c) && msg.isMethodCall && decide (msg.serial = serial)
  | _ => false

def isAnswerTo (serial : UInt32) (m : Message) : Bool :=
  (m.isMethodReturn || m.isError) && decide (m.replySerial = some serial)

/-- A reply that has this reply serial from the bus and keeps it, since it cannot be
rewritten for the client it goes to. -/
def isUnrewritten (serial : UInt32) : MuxEvent → Bool
  | .busMessage _ msg builder _ => isAnswerTo serial msg && !decide (builder.RewritesReply msg)
  | _ => false

/-- The answers a client has got to a serial, and those that are still expected. -/
def answersDue (c : ClientId) (serial : UInt32) (s : MuxState) : Nat :=
  (channelLog c s).countP (isAnswerTo serial) +
    s.router.serialMap.pending.count
      (fun _ call => decide (call.clientId = c ∧ call.clientSerial = serial))

/-- Calls are expected to be answered under the serials they came with, which are not 0. -/
def Numbered (s : MuxState) : Prop :=
  ∀ key call, s.router.serialMap.pending.lookup key = some call → call.clientSerial ≠ 0

/-- Messages have serials other than 0. -/
def NumberedEvent (_ : MuxState) : MuxEvent → Prop
  | .clientMessage _ msg _ => msg.serial ≠ 0
  | _ => True

theorem Replied.pending {env : Environment} {clientId : ClientId} {msg : Message}
    (h : Replied env s clientId msg t) : t.router.serialMap = s.router.serialMap := by
  obtain ⟨m, hm, hsame⟩ := h.undisturbed
  rw [hsame]
  exact hm.pending

theorem handleBusMessage_of_reply {msg : Message}
    (hkind : (msg.isMethodReturn || msg.isError) = true) (mux : Multiplexer)
    (builder : MessageBuilder) (now : Instant) (route : Route) :
    mux.handleBusMessage builder now msg route = mux.handleReplyMessage builder now msg route := by
  have hsignal : msg.isSignal = false := by
    simp only [Message.isMethodReturn, Message.isError, Bool.or_eq_true, beq_iff_eq] at hkind
    rcases hkind with h | h
    · simp [Message.isSignal, h]
    · simp [Message.isSignal, h]
  unfold Multiplexer.handleBusMessage
  simp [Message.isNameOwnerChanged, hsignal, hkind]

theorem router_of_not_reply {msg : Message} (hkind : (msg.isMethodReturn || msg.isError) = false)
    (mux : Multiplexer) (builder : MessageBuilder) (now : Instant) (route : Route) :
    (mux.handleBusMessage builder now msg route).router = mux.router := by
  unfold Multiplexer.handleBusMessage
  split
  · unfold Multiplexer.handleNameOwnerChanged
    split <;> rfl
  · rw [hkind]
    dsimp only
    split
    · unfold Multiplexer.handleSignal
      split
      · rfl
      · split <;> rfl
    · rfl

theorem not_isAnswerTo_of_cameFrom {c : ClientId} {m msg : Message} {route : Route}
    {builder : MessageBuilder} {now : Instant} (serial : UInt32)
    (hkind : (msg.isMethodReturn || msg.isError) = false)
    (h : CameFrom c m (.busMessage route msg builder now)) : isAnswerTo serial m = false := by
  cases h with
  | reply hreply _ _ =>
      rw [hkind] at hreply
      cases hreply
  | signal hsignal hcopy =>
      have htype : m.msgType = msg.msgType := by rw [hcopy]
      simp only [Message.isMethodReturn, Message.isError] at hkind
      simp [isAnswerTo, Message.isMethodReturn, Message.isError, htype, hkind]

/-- A reply from a bus is an answer to the call it is handed on for, unless it cannot be
rewritten. -/
theorem isAnswerTo_replyFor {builder : MessageBuilder} {msg : Message} {clientSerial : UInt32}
    (hserial : clientSerial ≠ 0) {serial : UInt32}
    (h : isAnswerTo serial (Multiplexer.replyFor builder msg clientSerial) = true) :
    clientSerial = serial ∨ ¬ builder.RewritesReply msg ∧ isAnswerTo serial msg = true := by
  rcases Multiplexer.replyFor_cases builder msg clientSerial with
    ⟨fds, _, _, _, hreply⟩ | ⟨hnot, hreply⟩
  · rw [hreply] at h
    simp only [isAnswerTo, Bool.and_eq_true, decide_eq_true_eq, Option.some.injEq] at h
    exact Or.inl h.2
  · rw [hreply] at h
    exact Or.inr ⟨fun hrewrites => hnot ⟨hrewrites, hserial⟩, h⟩

/-- A reply that is handed on takes the place of the call it was expected for, unless it
cannot be rewritten. -/
theorem answersDue_settled (hs : s.Numbered) {key : SerialKey} {call : PendingCall}
    (hcall : s.router.serialMap.pending.lookup key = some call) (route : Route)
    (msg : Message) (builder : MessageBuilder) (now : Instant) (c : ClientId) (serial : UInt32) :
    (channelLog c
        { s with
          clients := s.clients.send call.clientId
            (Multiplexer.replyFor builder msg call.clientSerial) }).countP (isAnswerTo serial) +
      (s.router.serialMap.pending.erase key).count
        (fun _ call => decide (call.clientId = c ∧ call.clientSerial = serial)) ≤
      answersDue c serial s +
        if isUnrewritten serial (.busMessage route msg builder now) then 1 else 0 := by
  have hcount := AList.count_erase_add
    (fun _ (call : PendingCall) => decide (call.clientId = c ∧ call.clientSerial = serial))
    s.router.serialMap.pending key
  rw [hcall, Option.any_some] at hcount
  unfold answersDue
  rcases channelLog_send s call.clientId c (Multiplexer.replyFor builder msg call.clientSerial) with
    hsame | ⟨hc, hgrown⟩
  · rw [hsame]
    omega
  · rw [hgrown, List.countP_append, List.countP_singleton]
    cases hanswer : isAnswerTo serial (Multiplexer.replyFor builder msg call.clientSerial) with
    | false =>
        rw [if_neg Bool.false_ne_true]
        omega
    | true =>
        rcases isAnswerTo_replyFor (hs key call hcall) hanswer with hfor | ⟨hnot, hsame⟩
        · rw [if_pos (decide_eq_true ⟨hc.symm, hfor⟩)] at hcount
          rw [if_pos rfl]
          omega
        · have hunrewritten :
              isUnrewritten serial (.busMessage route msg builder now) = true := by
            simp [isUnrewritten, hsame, hnot]
          rw [if_pos rfl, if_pos hunrewritten]
          omega

theorem answersDue_busMessage (hs : s.Numbered) (c : ClientId) (serial : UInt32) (route : Route)
    (msg : Message) (builder : MessageBuilder) (now : Instant) :
    answersDue c serial { s with toMultiplexer := s.handleBusMessage builder now msg route } ≤
      answersDue c serial s +
        if isUnrewritten serial (.busMessage route msg builder now) then 1 else 0 := by
  cases hkind : (msg.isMethodReturn || msg.isError) with
  | false =>
      have hrouter := router_of_not_reply hkind s.toMultiplexer builder now route
      unfold answersDue
      rw [hrouter]
      refine Nat.le_trans (Nat.add_le_add_right ?_ _) (Nat.le_add_right _ _)
      rcases step_channelLog (s := s) (e := .busMessage route msg builder now) rfl c with
        hnil | hsame | ⟨m, hm, hgrown⟩
      · rw [hnil]
        exact Nat.zero_le _
      · rw [hsame]
      · rw [hgrown, List.countP_append, List.countP_singleton,
          not_isAnswerTo_of_cameFrom serial hkind hm]
        exact Nat.le_refl _
  | true =>
      rw [handleBusMessage_of_reply hkind]
      unfold Multiplexer.handleReplyMessage MessageRouter.handleReply
      cases hreply : msg.replySerial with
      | none => exact Nat.le_add_right _ _
      | some replySerial =>
          dsimp only [SerialMap.remove]
          cases hcall : s.router.serialMap.pending.lookup ⟨route, replySerial⟩ with
          | none =>
              have hcount := AList.count_erase_of_notMem
                (fun _ (call : PendingCall) =>
                  decide (call.clientId = c ∧ call.clientSerial = serial))
                s.router.serialMap.pending (AList.lookup_eq_none.mp hcall)
              unfold answersDue
              dsimp only [Option.map_none]
              rw [hcount]
              exact Nat.le_add_right _ _
          | some call => exact answersDue_settled hs hcall route msg builder now c serial

theorem answersDue_clientMessage (c : ClientId) (serial : UInt32) (env : Environment)
    (s : MuxState) (clientId : ClientId) (msg : Message) :
    answersDue c serial (s.handleClientMessage env clientId msg) ≤
      answersDue c serial s +
        if isCallOf c serial (.clientMessage clientId msg env) then 1 else 0 := by
  by_cases hcall : msg.isMethodCall = true
  · rcases handleClientMessage_cases env s clientId hcall with h | h
    · unfold answersDue
      rw [h.pending]
      rcases h.channelLog_cases hcall c with hsame | ⟨m, hm, hgrown⟩
      · rw [hsame]
        omega
      · rw [hgrown, List.countP_append, List.countP_singleton]
        cases hm with
        | answer _ hkind hserial =>
            cases hanswer : isAnswerTo serial m with
            | false =>
                rw [if_neg Bool.false_ne_true]
                omega
            | true =>
                simp only [isAnswerTo, Bool.and_eq_true, decide_eq_true_eq] at hanswer
                rw [hanswer.2] at hserial
                have hsame := Option.some.inj hserial
                rw [if_pos rfl, if_pos (by simp [isCallOf, hcall, hsame])]
                omega
    · obtain ⟨forwarded, _, hpending⟩ := h.1.copied
      have hcount := AList.count_erase_add
        (fun _ (call : PendingCall) => decide (call.clientId = c ∧ call.clientSerial = serial))
        s.router.serialMap.pending ⟨s.routeOf msg, forwarded⟩
      unfold answersDue
      rw [channelLog_of_contact (h.1.contact c), hpending, AList.count_insert]
      by_cases hfor : clientId = c ∧ msg.serial = serial
      · rw [if_pos (decide_eq_true hfor),
          if_pos (by simp [isCallOf, hcall, hfor.1, hfor.2])]
        omega
      · rw [if_neg (by simpa using hfor)]
        omega
  · rw [handleClientMessage_of_not_call env s clientId hcall]
    omega

theorem Numbered.step (h : s.Numbered) (he : s.NumberedEvent e) (hstep : s.step e = some t) :
    t.Numbered := by
  cases e with
  | connect clientId credentials =>
      simp only [MuxState.step] at hstep
      split at hstep
      · cases hstep
      · cases hstep
        exact h
  | clientMessage clientId msg env =>
      cases hstep
      unfold Numbered
      by_cases hcall : msg.isMethodCall = true
      · rcases handleClientMessage_cases env s clientId hcall with hreplied | hforwarded
        · rw [hreplied.pending]
          exact h
        · obtain ⟨serial, _, hpending⟩ := hforwarded.1.copied
          intro key call hl
          rw [hpending, AList.lookup_insert_if] at hl
          split at hl
          · cases hl
            exact he
          · exact h key call hl
      · rw [handleClientMessage_of_not_call env s clientId hcall]
        exact h
  | busMessage route msg builder now =>
      cases hstep
      intro key call hl
      exact h key call (Multiplexer.pendingAt_of_handleBusMessage hl)
  | cleanupTick now =>
      cases hstep
      intro key call hl
      have hkept := s.router.serialMap.lookup_cleanupExpired now key
      rw [show (s.router.serialMap.cleanupExpired now).2.pending.lookup key = some call from hl]
        at hkept
      exact h key call (Option.filter_eq_some_iff.mp hkept.symm).1
  | _ =>
      cases hstep
      exact h

theorem step_answersDue (h : s.Numbered) (hstep : s.step e = some t) (c : ClientId)
    (serial : UInt32) :
    answersDue c serial t ≤ answersDue c serial s +
      if isCallOf c serial e || isUnrewritten serial e then 1 else 0 := by
  have hsame : t.router.serialMap.pending = s.router.serialMap.pending →
      channelLog c t = [] ∨ channelLog c t = channelLog c s →
      answersDue c serial t ≤ answersDue c serial s := by
    intro hpending hlog
    unfold answersDue
    rw [hpending]
    rcases hlog with hlog | hlog
    · rw [hlog]
      simp
    · rw [hlog]
  have hquiet : ∀ {e : MuxEvent}, s.step e = some t → (∀ m, ¬ CameFrom c m e) →
      channelLog c t = [] ∨ channelLog c t = channelLog c s := by
    intro e hstep hnone
    rcases step_channelLog hstep c with hnil | hlog | ⟨m, hm, _⟩
    · exact Or.inl hnil
    · exact Or.inr hlog
    · exact absurd hm (hnone m)
  cases e with
  | clientMessage clientId msg env =>
      cases hstep
      have hle := answersDue_clientMessage c serial env s clientId msg
      rwa [show isUnrewritten serial (.clientMessage clientId msg env) = false from rfl,
        Bool.or_false]
  | busMessage route msg builder now =>
      cases hstep
      exact answersDue_busMessage h c serial route msg builder now
  | cleanupTick now =>
      cases hstep
      have hcount := AList.count_retain_le
        (fun _ (call : PendingCall) => decide (call.clientId = c ∧ call.clientSerial = serial))
        (fun _ call => decide (now - call.timestamp < s.router.serialMap.timeout))
        s.router.serialMap.pending
      exact Nat.le_trans (Nat.add_le_add_left hcount _) (Nat.le_add_right _ _)
  | connect clientId credentials =>
      have hlog := hquiet hstep (fun m hm => by cases hm)
      simp only [MuxState.step] at hstep
      split at hstep
      · cases hstep
      · cases hstep
        exact Nat.le_trans (hsame rfl hlog) (Nat.le_add_right _ _)
  | disconnect clientId =>
      have hlog := hquiet hstep (fun m hm => by cases hm)
      cases hstep
      exact Nat.le_trans (hsame rfl hlog) (Nat.le_add_right _ _)
  | removeRequests clientId =>
      have hlog := hquiet hstep (fun m hm => by cases hm)
      cases hstep
      exact Nat.le_trans (hsame rfl hlog) (Nat.le_add_right _ _)
  | removeNames routing queue refcount owned =>
      have hlog := hquiet hstep (fun m hm => by cases hm)
      cases hstep
      exact Nat.le_trans (hsame rfl hlog) (Nat.le_add_right _ _)

theorem run_answersDue {containerName hostName : Option String} {timeout : Nat}
    {routing : RoutingTable} {guid : String} {events : List MuxEvent}
    (hserials : ∀ clientId msg env, .clientMessage clientId msg env ∈ events → msg.serial ≠ 0)
    (hrun : Trace.run step (initial containerName hostName timeout routing guid) events = some t)
    (c : ClientId) (serial : UInt32) :
    answersDue c serial t ≤
      events.countP (isCallOf c serial) + events.countP (isUnrewritten serial) := by
  have hnumbered : Trace.Along step NumberedEvent
      (initial containerName hostName timeout routing guid) events := by
    refine Trace.along_of_forall (fun e he => ?_)
    cases e with
    | clientMessage clientId msg env => exact hserials clientId msg env he
    | _ => trivial
  have hinitial : (initial containerName hostName timeout routing guid).Numbered :=
    fun key call hl => by cases hl
  have hcount := Trace.count_le_of_run (fun e => isCallOf c serial e || isUnrewritten serial e)
    (answersDue c serial)
    (fun s e t h he hstep => h.step he hstep)
    (fun s e t h _ hstep => step_answersDue h hstep c serial) hinitial hnumbered hrun
  have hzero : answersDue c serial (initial containerName hostName timeout routing guid) = 0 := rfl
  rw [hzero, Nat.zero_add] at hcount
  exact Nat.le_trans hcount (Trace.countP_or_le _ _ events)

/-- However the buses behave, and whatever becomes of the clients: under a serial a
client has got and will get at most as many answers as it has made calls with it, not
counting replies that have this serial from the bus and cannot be rewritten. -/
theorem answers_le_calls {containerName hostName : Option String} {timeout : Nat}
    {routing : RoutingTable} {guid : String} {events : List MuxEvent}
    (hserials : ∀ clientId msg env, .clientMessage clientId msg env ∈ events → msg.serial ≠ 0)
    (hrun : Trace.run step (initial containerName hostName timeout routing guid) events = some t)
    (c : ClientId) (serial : UInt32) :
    ((t.channel c).getD []).countP (isAnswerTo serial) +
        t.router.serialMap.pending.count
          (fun _ call => decide (call.clientId = c ∧ call.clientSerial = serial)) ≤
      events.countP (isCallOf c serial) + events.countP (isUnrewritten serial) :=
  run_answersDue hserials hrun c serial

/-- The driver has answered one of the three calls; two replies are expected from the host. -/
theorem answers_le_calls_twice :
    ∃ t, Trace.run step (initial (some ":1.5") (some ":1.88") 30 .new "0123") callingRun =
        some t ∧ ((t.channel 1).getD []).countP (isAnswerTo 3) = 1 ∧
      t.router.serialMap.pending.count
        (fun _ call => decide (call.clientId = 1 ∧ call.clientSerial = 3)) ≤ 2 := by
  have heval : (Trace.run step (initial (some ":1.5") (some ":1.88") 30 .new "0123")
      callingRun).any
        (fun t => decide (((t.channel 1).getD []).countP (isAnswerTo 3) = 1)) = true := by
    decide
  obtain ⟨t, hrun, hanswers⟩ := Trace.exists_of_eval heval
  have hserials : ∀ clientId msg env,
      .clientMessage clientId msg env ∈ callingRun → msg.serial ≠ 0 := by
    intro clientId msg env hmem
    simp only [callingRun, List.mem_cons, List.not_mem_nil, or_false, reduceCtorEq, false_or,
      MuxEvent.clientMessage.injEq] at hmem
    rcases hmem with ⟨_, rfl, _⟩ | ⟨_, rfl, _⟩ | ⟨_, rfl, _⟩ <;> decide
  have hle := answers_le_calls hserials hrun 1 3
  have hcalls : callingRun.countP (isCallOf 1 3) = 3 := by decide
  have hunrewritten : callingRun.countP (isUnrewritten 3) = 0 := by decide
  exact ⟨t, hrun, hanswers, by omega⟩

end MuxState

end KapsuleDbusMux
