import KapsuleDbusMux.Multiplexer.Outcome
import KapsuleDbusMux.Names.Departures

/-! # A name needs the consent of the bus

`handle_request_name` lets the queue decide first and asks the bus afterwards. The
bus may give the name to the multiplexer, refuse it or fail. A failure is undone; of a
refusal only the routing table and the owned names hear, while the queue and the
client take the name for granted.
-/

namespace KapsuleDbusMux

namespace ReplyBuilder

variable {builder : ReplyBuilder} {msg reply : Message} {uniqueName : String}

theorem msgType_of_reply {msgType : MessageType} {body : ReplyBody}
    (h : builder.reply msgType msg uniqueName body = .ok reply) : reply.msgType = msgType := by
  unfold ReplyBuilder.reply at h
  split at h
  · cases hbody : builder.encode body with
    | none => simp [hbody] at h
    | some bytes =>
        simp only [hbody] at h
        cases h
        rfl
  · cases h

theorem msgType_of_error {e : DriverError} (h : builder.error msg uniqueName e = .ok reply) :
    reply.msgType = .error := by
  unfold ReplyBuilder.error at h
  split at h
  · exact msgType_of_reply h
  · cases h

end ReplyBuilder

namespace MuxState

/-- The bus has made the multiplexer the owner of the name, or it was that before. -/
def Granted (busAnswer : Except String UInt32) : Prop :=
  busAnswer = .ok RequestNameReply.primaryOwner ∨ busAnswer = .ok RequestNameReply.alreadyOwner

def ownedNamesOf (s : MuxState) (c : ClientId) : Option (Finset String) :=
  (s.clients.lookup c).map ClientInfo.ownedNames

/-- The client has been sent a reply with this code. -/
def Told (env : Environment) (s t : MuxState) (clientId : ClientId) (msg : Message)
    (code : UInt32) : Prop :=
  ∃ info reply, s.clients.lookup clientId = some info ∧
    env.builder.methodReturn msg info.uniqueName (.uint32 code) = .ok reply ∧
    t.channel clientId = some (info.tx ++ [reply])

/-- Queues, routes and owned names are as before. -/
structure SameNames (s t : MuxState) : Prop where
  queues : t.nameQueue.SameQueues s.nameQueue
  routes : t.routingTable = s.routingTable
  owned : ∀ c, t.ownedNamesOf c = s.ownedNamesOf c

/-- A request is settled as the bus answers: a client becomes owner and is told so only
when the bus agrees, and otherwise nothing has changed and the client is not told that
it owns the name. -/
structure SettledAsAnswered (env : Environment) (s t : MuxState) (clientId : ClientId)
    (msg : Message) (name : String) (busAnswer : Except String UInt32) : Prop where
  owner : s.Told env t clientId msg RequestNameReply.primaryOwner →
    (ObservedManager.queueOf t.nameQueue name).isPrimaryOwner clientId = true → Granted busAnswer
  same : ¬ Granted busAnswer → s.SameNames t
  quiet : ¬ Granted busAnswer → ¬ s.Told env t clientId msg RequestNameReply.primaryOwner ∧
    ¬ s.Told env t clientId msg RequestNameReply.alreadyOwner

/-! ## What an answer to the client changes -/

section Answers

variable (env : Environment) (s : MuxState) (clientId : ClientId) (msg : Message)

theorem ownedNamesOf_send (reply : Message) (c : ClientId) :
    ownedNamesOf { s with clients := s.clients.send clientId reply } c = s.ownedNamesOf c := by
  unfold ownedNamesOf Clients.send
  dsimp only
  rw [AList.lookup_modify]
  split
  · rw [Option.map_map]
    rfl
  · rfl

theorem sameNames_sendErrorToClient (e : DriverError) :
    s.SameNames (s.sendErrorToClient env clientId msg e) := by
  unfold sendErrorToClient
  split
  · exact ⟨fun _ => rfl, rfl, fun _ => rfl⟩
  · split
    · exact ⟨fun _ => rfl, rfl, fun _ => rfl⟩
    · exact ⟨fun _ => rfl, rfl, ownedNamesOf_send s clientId _⟩

theorem nameQueue_sendReplyToClient (body : ReplyBody) :
    (s.sendReplyToClient env clientId msg body).nameQueue = s.nameQueue := by
  unfold sendReplyToClient
  split
  · rfl
  · split <;> rfl

theorem nameQueue_recordName (name uniqueName : String) (code : UInt32) :
    (s.recordName clientId name uniqueName code).nameQueue = s.nameQueue := by
  unfold recordName
  split <;> rfl

theorem not_told_of_error {t : MuxState} (hundisturbed : s.Undisturbed t) (e : DriverError)
    (code : UInt32) : ¬ s.Told env (t.sendErrorToClient env clientId msg e) clientId msg code := by
  rintro ⟨info, reply, hclient, hreply, htold⟩
  have hbefore : t.channel clientId = some info.tx := by
    rw [hundisturbed.channel]
    simp [channel, contact, hclient]
  unfold sendErrorToClient at htold
  split at htold
  · rw [hbefore, Option.some.injEq] at htold
    have hlength := congrArg List.length htold
    simp at hlength
  · split at htold
    · rw [hbefore, Option.some.injEq] at htold
      have hlength := congrArg List.length htold
      simp at hlength
    · next hsent =>
        rw [channel_send, hbefore, Option.map_some, if_pos rfl, Option.some.injEq,
          List.append_cancel_left_eq, List.cons.injEq] at htold
        have herror := ReplyBuilder.msgType_of_error hsent
        rw [htold.1, ReplyBuilder.msgType_of_reply hreply] at herror
        cases herror

end Answers

/-! ## The three answers of the bus -/

section Forwarded

variable {env : Environment} {s : MuxState} {clientId : ClientId} {msg : Message} {name : String}
  {flags : UInt32} {info : ClientInfo}
  (hbody : msg.body.deserializeStringUInt32 = some (name, flags))
  (hclient : s.clients.lookup clientId = some info)
  (hforward : (s.nameQueue.requestName name clientId info.uniqueName flags).1.forwardToBus = true)
include hbody hclient hforward

theorem handleRequestName_of_ok {code : UInt32} (hbus : env.requestName name flags = .ok code) :
    (s.handleRequestName env clientId msg).nameQueue =
      (s.nameQueue.requestName name clientId info.uniqueName flags).2 := by
  unfold handleRequestName
  simp only [hbody, hclient, hforward, if_true, hbus]
  rw [nameQueue_sendReplyToClient, nameQueue_recordName]

theorem handleRequestName_of_error {e : String} (hbus : env.requestName name flags = .error e) :
    s.handleRequestName env clientId msg =
      sendErrorToClient env { s with nameQueue := ((s.nameQueue.requestName name clientId
        info.uniqueName flags).2.releaseName name clientId).2 } clientId msg
        ⟨ErrorNames.failed, "RequestName failed: " ++ e⟩ := by
  unfold handleRequestName
  simp only [hbody, hclient, hforward, if_true, hbus]

/-- A forwarded request is settled as the bus answers, if and only if the bus grants the
name or fails, and then the queue of the name, if there is one, has an owner. -/
theorem settled_as_answered_iff :
    SettledAsAnswered env s (s.handleRequestName env clientId msg) clientId msg name
        (env.requestName name flags) ↔
      Granted (env.requestName name flags) ∨
        (∃ e, env.requestName name flags = .error e) ∧
          ∀ queue, s.nameQueue.queues.lookup name = some queue →
            queue.primaryOwner.isSome = true := by
  by_cases hgranted : Granted (env.requestName name flags)
  · exact iff_of_true
      ⟨fun _ _ => hgranted, absurd hgranted, absurd hgranted⟩ (Or.inl hgranted)
  · rw [or_iff_right hgranted]
    cases hbus : env.requestName name flags with
    | ok code =>
        rw [hbus] at hgranted
        -- the queue keeps the new owner whatever the code is
        refine iff_of_false (fun h => ?_) (fun h => nomatch h.1.choose_spec)
        have hsame := (h.same hgranted).queues
        rw [handleRequestName_of_ok hbody hclient hforward hbus] at hsame
        exact NameQueueManager.not_sameQueues_of_forwarded hforward hsame
    | error e =>
        rw [hbus] at hgranted
        rw [handleRequestName_of_error hbody hclient hforward hbus,
          and_iff_right ⟨e, rfl⟩, ← NameQueueManager.sameQueues_revert_iff hforward]
        have hsent := sameNames_sendErrorToClient env { s with nameQueue :=
          ((s.nameQueue.requestName name clientId info.uniqueName flags).2.releaseName name
            clientId).2 } clientId msg ⟨ErrorNames.failed, "RequestName failed: " ++ e⟩
        have hquiet := not_told_of_error env s clientId msg (undisturbed_nameQueue s
          ((s.nameQueue.requestName name clientId info.uniqueName flags).2.releaseName name
            clientId).2) ⟨ErrorNames.failed, "RequestName failed: " ++ e⟩
        constructor
        · intro h n
          exact (hsent.queues n).symm.trans ((h.same hgranted).queues n)
        · intro hrestored
          exact {
            owner := fun htold _ => absurd htold (hquiet _)
            same := fun _ => ⟨fun n => (hsent.queues n).trans (hrestored n), hsent.routes,
              hsent.owned⟩
            quiet := fun _ => ⟨hquiet _, hquiet _⟩ }

end Forwarded

/-- The call for the name, and buses that answer it in one way. -/
def requestNameCall (name : String) : Message :=
  { callTo "org.freedesktop.DBus" "RequestName" with body := ⟨[.str name, .uint32 0], true⟩ }

def answering (busAnswer : Except String UInt32) : Environment :=
  { cooperative with requestName := fun _ _ => busAnswer }

/-- The bus is gone: the client hears of an error, and the name is free as before. -/
theorem settled_as_answered_busGone :
    SettledAsAnswered (answering (.error "Disconnected")) oneClient
        (oneClient.handleRequestName (answering (.error "Disconnected")) 1
          (requestNameCall "org.a")) 1 (requestNameCall "org.a") "org.a" (.error "Disconnected") ∧
      oneClient.nameQueue.nameHasOwner "org.a" = false := by
  have hbody : (requestNameCall "org.a").body.deserializeStringUInt32 = some ("org.a", 0) := rfl
  refine ⟨(settled_as_answered_iff hbody rfl rfl).mpr (Or.inr ⟨⟨"Disconnected", rfl⟩, ?_⟩),
    by decide⟩
  intro queue hqueue
  cases hqueue

/-- Somebody else owns the name on the bus, which answers `EXISTS`; the client is told
that it is the owner and is recorded as such. -/
theorem refused_name_kept :
    ¬ ∀ (env : Environment) (s : MuxState) (clientId : ClientId) (msg : Message) (name : String)
        (flags : UInt32) (info : ClientInfo),
        msg.body.deserializeStringUInt32 = some (name, flags) →
        s.clients.lookup clientId = some info →
        (s.nameQueue.requestName name clientId info.uniqueName flags).1.forwardToBus = true →
        SettledAsAnswered env s (s.handleRequestName env clientId msg) clientId msg name
          (env.requestName name flags) := by
  intro h
  have hsettled := h (answering (.ok RequestNameReply.nameExists)) oneClient 1
    (requestNameCall "org.a") "org.a" 0 _ rfl rfl rfl
  have hgranted := hsettled.owner ⟨_, _, rfl, rfl, rfl⟩ (by decide)
  rcases hgranted with hcode | hcode
  · cases hcode
  · cases hcode

end MuxState

end KapsuleDbusMux
