import KapsuleDbusMux.Multiplexer.ClientMessages
import Mathlib.Data.Finset.Sort
import Mathlib.Data.String.Basic
import Mathlib.Logic.Basic

/-! # Every call has one outcome

A call from a connected client is answered, or a copy of it goes to one bus and its
reply is expected from there. Every handler changes the multiplexer first and then
answers once; the changes before the answer send nothing to anybody.
-/

namespace KapsuleDbusMux

/-- A reply or an error to this call, for this client. -/
structure Message.Answers (reply msg : Message) (uniqueName : String) : Prop where
  kind : reply.isMethodReturn = true ∨ reply.isError = true
  serial : reply.replySerial = some msg.serial
  destination : reply.destination = some uniqueName

namespace ReplyBuilder

variable {builder : ReplyBuilder} {msg reply : Message} {uniqueName : String}

theorem answers_of_reply {msgType : MessageType} {body : ReplyBody}
    (htype : msgType = .methodReturn ∨ msgType = .error)
    (h : builder.reply msgType msg uniqueName body = .ok reply) : reply.Answers msg uniqueName := by
  unfold ReplyBuilder.reply at h
  split at h
  · cases hbody : builder.encode body with
    | none => simp [hbody] at h
    | some bytes =>
        simp only [hbody] at h
        cases h
        refine ⟨?_, rfl, rfl⟩
        rcases htype with rfl | rfl
        · exact Or.inl rfl
        · exact Or.inr rfl
  · cases h

theorem answers_of_methodReturn {body : ReplyBody}
    (h : builder.methodReturn msg uniqueName body = .ok reply) : reply.Answers msg uniqueName :=
  answers_of_reply (Or.inl rfl) h

theorem answers_of_error {e : DriverError}
    (h : builder.error msg uniqueName e = .ok reply) : reply.Answers msg uniqueName := by
  unfold ReplyBuilder.error at h
  split at h
  · exact answers_of_reply (Or.inr rfl) h
  · cases h

end ReplyBuilder

namespace MuxState

def contact (s : MuxState) (c : ClientId) : Option (String × List Message) :=
  (s.clients.lookup c).map (fun info => (info.uniqueName, info.tx))

def uniqueNameOf (s : MuxState) (c : ClientId) : Option String := (s.contact c).map Prod.fst

def channel (s : MuxState) (c : ClientId) : Option (List Message) := (s.contact c).map Prod.snd

/-- Nobody has been sent anything, and no other replies or responses are expected. -/
structure Undisturbed (s t : MuxState) : Prop where
  contact : ∀ c, t.contact c = s.contact c
  pending : t.router.serialMap = s.router.serialMap
  names : ∀ route, t.uniqueNameOn route = s.uniqueNameOn route
  portal : t.portalRequests = s.portalRequests
  sent : t.sent = s.sent

/-- One reply to the call is on the channel to its client, and nothing else has been
sent or is expected. -/
structure Answered (s t : MuxState) (clientId : ClientId) (msg : Message) : Prop where
  replied : ∃ reply uniqueName, s.uniqueNameOf clientId = some uniqueName ∧
    reply.Answers msg uniqueName ∧
    ∀ c, t.channel c = (s.channel c).map (· ++ if c = clientId then [reply] else [])
  pending : t.router.serialMap = s.router.serialMap
  sent : t.sent = s.sent

/-- One copy of the call is on the bus, the reply to it is expected for the client, and
no channel has anything new. -/
structure Forwarded (s t : MuxState) (now : Instant) (clientId : ClientId) (msg : Message)
    (route : Route) : Prop where
  copied : ∃ serial, t.sent = s.sent ++ [(route, { msg with serial := serial, fds := [] })] ∧
    t.router.serialMap.pending =
      s.router.serialMap.pending.insert ⟨route, serial⟩ ⟨clientId, msg.serial, now⟩
  contact : ∀ c, t.contact c = s.contact c
  names : ∀ route, t.uniqueNameOn route = s.uniqueNameOn route
  portal : t.portalRequests = s.portalRequests

/-! ## Changes that send nothing -/

section Undisturbed

variable {s t u : MuxState}

theorem Undisturbed.refl (s : MuxState) : s.Undisturbed s :=
  ⟨fun _ => rfl, rfl, fun _ => rfl, rfl, rfl⟩

theorem Undisturbed.trans (h : s.Undisturbed t) (h' : t.Undisturbed u) : s.Undisturbed u where
  contact c := (h'.contact c).trans (h.contact c)
  pending := h'.pending.trans h.pending
  names route := (h'.names route).trans (h.names route)
  portal := h'.portal.trans h.portal
  sent := h'.sent.trans h.sent

theorem Undisturbed.uniqueNameOf (h : s.Undisturbed t) (c : ClientId) :
    t.uniqueNameOf c = s.uniqueNameOf c := congrArg (Option.map Prod.fst) (h.contact c)

theorem Undisturbed.channel (h : s.Undisturbed t) (c : ClientId) : t.channel c = s.channel c :=
  congrArg (Option.map Prod.snd) (h.contact c)

theorem contact_modify (clients : Clients) (clientId : ClientId) (f : ClientInfo → ClientInfo)
    (hname : ∀ info, (f info).uniqueName = info.uniqueName) (htx : ∀ info, (f info).tx = info.tx)
    (c : ClientId) :
    ((clients.modify clientId f).lookup c).map (fun info => (info.uniqueName, info.tx)) =
      (clients.lookup c).map (fun info => (info.uniqueName, info.tx)) := by
  rw [AList.lookup_modify]
  split
  · rw [Option.map_map]
    simp only [Function.comp_def, hname, htx]
  · rfl

theorem contact_updateOwned (clients : Clients) (clientId : ClientId)
    (f : Finset String → Finset String) (c : ClientId) :
    ((clients.updateOwned clientId f).lookup c).map (fun info => (info.uniqueName, info.tx)) =
      (clients.lookup c).map (fun info => (info.uniqueName, info.tx)) :=
  contact_modify clients clientId (fun info => { info with ownedNames := f info.ownedNames })
    (fun _ => rfl) (fun _ => rfl) c

theorem undisturbed_recordName (s : MuxState) (clientId : ClientId) (name uniqueName : String)
    (code : UInt32) : s.Undisturbed (s.recordName clientId name uniqueName code) := by
  unfold recordName
  split
  · exact ⟨contact_updateOwned s.clients clientId _, rfl, fun _ => rfl, rfl, rfl⟩
  · exact .refl s

theorem undisturbed_settleRelease (env : Environment) (s : MuxState) (clientId : ClientId)
    (name : String) (result : ReleaseNameResult) :
    s.Undisturbed (s.settleRelease env clientId name result) := by
  unfold settleRelease
  split
  · refine ⟨fun c => ?_, rfl, fun _ => rfl, rfl, rfl⟩
    exact (contact_updateOwned _ _ _ c).trans (contact_updateOwned s.clients clientId _ c)
  · split
    · split
      · exact ⟨contact_updateOwned s.clients clientId _, rfl, fun _ => rfl, rfl, rfl⟩
      · exact .refl s
    · exact ⟨contact_updateOwned s.clients clientId _, rfl, fun _ => rfl, rfl, rfl⟩

theorem undisturbed_updateRules (s : MuxState) (clientId : ClientId)
    (f : ClientMatchRules → ClientMatchRules) : s.Undisturbed (s.updateRules clientId f) where
  contact := contact_modify s.clients clientId
    (fun info => { info with matchRules := f info.matchRules }) (fun _ => rfl) (fun _ => rfl)
  pending := rfl
  names _ := rfl
  portal := rfl
  sent := rfl

theorem undisturbed_addReferences (s : MuxState) (ruleString : String) :
    s.Undisturbed (s.addReferences ruleString) := ⟨fun _ => rfl, rfl, fun _ => rfl, rfl, rfl⟩

theorem undisturbed_dropReferences (s : MuxState) (ruleString : String) :
    s.Undisturbed (s.dropReferences ruleString) := ⟨fun _ => rfl, rfl, fun _ => rfl, rfl, rfl⟩

theorem undisturbed_nameQueue (s : MuxState) (queue : NameQueueManager) :
    s.Undisturbed { s with nameQueue := queue } := ⟨fun _ => rfl, rfl, fun _ => rfl, rfl, rfl⟩

end Undisturbed

/-! ## Handlers

Every handler of the driver ends in one of two calls, after changes that send nothing;
a message of a client that is gone may be dropped. -/

/-- The bodies the handlers reply with. -/
inductive DriverReply (env : Environment) (s : MuxState) (clientId : ClientId) : ReplyBody → Prop
  | empty : DriverReply env s clientId .empty
  | uint32 (n : UInt32) : DriverReply env s clientId (.uint32 n)
  | bool (b : Bool) : DriverReply env s clientId (.bool b)
  | uniqueName {info : ClientInfo} (h : s.clients.lookup clientId = some info) :
      DriverReply env s clientId (.str info.uniqueName)
  | owner {route : Route} {name owner : String}
      (h : env.getNameOwner route name = .ok (some owner)) :
      DriverReply env s clientId (.str owner)
  | guid : DriverReply env s clientId (.str s.guid)
  | machineId {id : String} (h : Driver.getMachineId env.process = .ok (.str id)) :
      DriverReply env s clientId (.str id)
  | introspect : DriverReply env s clientId (.str Driver.introspectXml)
  | names : DriverReply env s clientId (.nameSet s.routingTable.allNames)
  | activatable {names : List String} (h : env.listActivatableNames = .ok names) :
      DriverReply env s clientId (.strs names)
  | queuedOwners (name : String) :
      DriverReply env s clientId (.strs (s.nameQueue.listQueuedOwners name))
  | credentials (uid : UInt32) (pid : Option UInt32) (gid : UInt32) :
      DriverReply env s clientId (Driver.credentialsDict uid pid gid)
  | noProperties : DriverReply env s clientId (.dict [])

/-- What the handlers answer, with one of the names of `ErrorNames` when it is an error. -/
def DriverAnswer (env : Environment) (s : MuxState) (clientId : ClientId) : Answer → Prop
  | .ok body => s.DriverReply env clientId body
  | .error e => e.name ∈ ErrorNames.all

inductive Replied (env : Environment) (s : MuxState) (clientId : ClientId) (msg : Message) :
    MuxState → Prop
  | reply (t : MuxState) (h : s.Undisturbed t) {body : ReplyBody}
      (hbody : s.DriverReply env clientId body) :
      Replied env s clientId msg (t.sendReplyToClient env clientId msg body)
  | error (t : MuxState) (h : s.Undisturbed t) {e : DriverError} (hname : e.name ∈ ErrorNames.all) :
      Replied env s clientId msg (t.sendErrorToClient env clientId msg e)
  | gone (h : s.clients.lookup clientId = none) : Replied env s clientId msg s

theorem Replied.undisturbed {env : Environment} {s t : MuxState} {clientId : ClientId}
    {msg : Message} (h : Replied env s clientId msg t) :
    ∃ m, s.Undisturbed m ∧ t = { m with clients := t.clients } := by
  cases h with
  | reply m hm _ =>
      refine ⟨m, hm, ?_⟩
      unfold sendReplyToClient
      split
      · rfl
      · split <;> rfl
  | error m hm _ =>
      refine ⟨m, hm, ?_⟩
      unfold sendErrorToClient
      split
      · rfl
      · split <;> rfl
  | gone hgone => exact ⟨s, .refl s, rfl⟩

section Handlers

variable (env : Environment) (s : MuxState) (clientId : ClientId) (msg : Message)

theorem replied_answer {result : Answer} (h : s.DriverAnswer env clientId result) :
    Replied env s clientId msg (s.answer env clientId msg result) := by
  cases result with
  | ok body => exact .reply s (.refl s) h
  | error e => exact .error s (.refl s) h

theorem replied_invalidArgs : Replied env s clientId msg (s.invalidArgs env clientId msg) :=
  .error s (.refl s) (by simp [ErrorNames.all])

theorem replied_answerAbout {query : String → Answer}
    (h : ∀ name, s.DriverAnswer env clientId (query name)) :
    Replied env s clientId msg (s.answerAbout env clientId msg query) := by
  unfold answerAbout
  split
  · exact replied_invalidArgs env s clientId msg
  · exact replied_answer env s clientId msg (h _)

theorem driverAnswer_listActivatableNames :
    s.DriverAnswer env clientId (Driver.listActivatableNames env.listActivatableNames) := by
  cases h : env.listActivatableNames with
  | ok names => exact .activatable h
  | error e => simp [Driver.listActivatableNames, DriverAnswer, ErrorNames.all]

theorem driverAnswer_getNameOwner (route : Route) (name : String) :
    s.DriverAnswer env clientId (Driver.getNameOwner name (env.getNameOwner route name)) := by
  cases h : env.getNameOwner route name with
  | ok owner =>
      cases owner with
      | some owner => exact .owner h
      | none => simp [Driver.getNameOwner, DriverAnswer, ErrorNames.all]
  | error e => simp [Driver.getNameOwner, DriverAnswer, ErrorNames.all]

theorem driverAnswer_noSuchName (what name : String) :
    s.DriverAnswer env clientId (.error (Driver.noSuchName what name)) := by
  simp [Driver.noSuchName, DriverAnswer, ErrorNames.all]

theorem driverAnswer_getConnectionUnixUser (infos : List ClientInfo) (name : String) :
    s.DriverAnswer env clientId (Driver.getConnectionUnixUser infos name) := by
  unfold Driver.getConnectionUnixUser
  split
  · exact .uint32 0
  · split
    · exact .uint32 _
    · exact driverAnswer_noSuchName env s clientId _ name

theorem driverAnswer_getConnectionUnixProcessId (infos : List ClientInfo) (name : String) :
    s.DriverAnswer env clientId (Driver.getConnectionUnixProcessId env.process infos name) := by
  unfold Driver.getConnectionUnixProcessId
  split
  · exact .uint32 _
  · split
    · split
      · exact .uint32 _
      · simp [DriverAnswer, ErrorNames.all]
    · exact driverAnswer_noSuchName env s clientId _ name

theorem driverAnswer_getConnectionCredentials (infos : List ClientInfo) (name : String) :
    s.DriverAnswer env clientId (Driver.getConnectionCredentials env.process infos name) := by
  unfold Driver.getConnectionCredentials
  split
  · exact .credentials _ _ _
  · split
    · exact .credentials _ _ _
    · exact driverAnswer_noSuchName env s clientId _ name

theorem replied_handleHello : Replied env s clientId msg (s.handleHello env clientId msg) := by
  unfold handleHello
  cases hl : s.clients.lookup clientId with
  | none => exact .gone hl
  | some info => exact .reply s (.refl s) (.uniqueName hl)

theorem replied_handleRequestName :
    Replied env s clientId msg (s.handleRequestName env clientId msg) := by
  unfold handleRequestName
  split
  · exact replied_invalidArgs env s clientId msg
  · next name flags _ =>
      cases hl : s.clients.lookup clientId with
      | none => exact .gone hl
      | some info =>
          dsimp only
          split
          · split
            · refine .reply _ ?_ (.uint32 _)
              exact (undisturbed_nameQueue s _).trans
                (undisturbed_recordName _ clientId name info.uniqueName _)
            · exact .error _ (undisturbed_nameQueue s _) (by simp [ErrorNames.all])
          · exact .reply _ (undisturbed_nameQueue s _) (.uint32 _)

theorem replied_handleReleaseName :
    Replied env s clientId msg (s.handleReleaseName env clientId msg) := by
  unfold handleReleaseName
  split
  · exact replied_invalidArgs env s clientId msg
  · next name _ =>
      refine .reply _ ?_ (.uint32 _)
      exact (undisturbed_nameQueue s _).trans (undisturbed_settleRelease env _ clientId name _)

theorem replied_handleAddMatch :
    Replied env s clientId msg (s.handleAddMatch env clientId msg) := by
  unfold handleAddMatch
  split
  · exact replied_invalidArgs env s clientId msg
  · split
    · exact .error s (.refl s) (by simp [ErrorNames.all])
    · refine .reply _ ?_ .empty
      exact (undisturbed_updateRules s clientId _).trans (undisturbed_addReferences _ _)

theorem replied_handleRemoveMatch :
    Replied env s clientId msg (s.handleRemoveMatch env clientId msg) := by
  unfold handleRemoveMatch
  split
  · exact replied_invalidArgs env s clientId msg
  · have hrules := undisturbed_updateRules s clientId
    dsimp only
    split
    · exact .reply _ ((hrules _).trans (undisturbed_dropReferences _ _)) .empty
    · exact .error _ (hrules _) (by simp [ErrorNames.all])

theorem forwardOr_cases (route : Route) {onError : String → DriverError}
    (hname : ∀ e, (onError e).name ∈ ErrorNames.all) :
    Replied env s clientId msg (s.forwardOr env clientId msg route onError) ∨
      s.Forwarded (s.forwardOr env clientId msg route onError) env.now clientId msg route := by
  have hrouter := s.router.prepareForward_router clientId msg route
  unfold forwardOr forwardMethodCall
  cases hprepared : s.router.prepareForward clientId msg route with
  | mk prepared router =>
      rw [hprepared] at hrouter
      have hpending : router.serialMap = s.router.serialMap := by
        rw [show router = _ from hrouter, MessageRouter.setConnection_serialMap]
      have hnames : ∀ other, (router.connectionFor other).uniqueName = s.uniqueNameOn other := by
        intro other
        rw [show router = _ from hrouter, MessageRouter.setConnection_connectionFor]
        split
        · next hsame => rw [hsame]; rfl
        · rfl
      have hfailed : s.Undisturbed { s with router := router } :=
        ⟨fun _ => rfl, hpending, hnames, rfl, rfl⟩
      cases prepared with
      | error e => exact Or.inl (.error _ hfailed (hname _))
      | ok forward =>
          obtain ⟨call, forwarded⟩ := forward
          have hcall := MessageRouter.prepareForward_ok (congrArg Prod.fst hprepared)
          have hforwarded := MessageRouter.prepareForward_forwarded (congrArg Prod.fst hprepared)
          cases hsend : env.send route forwarded with
          | error e =>
              simp only [hsend]
              exact Or.inl (.error _ hfailed (hname _))
          | ok sent =>
              refine Or.inr ?_
              simp only [hsend]
              have hrecorded : ∀ other, ((router.recordForward env.now call).connectionFor other) =
                  router.connectionFor other := by
                intro other
                cases other <;> rfl
              refine ⟨⟨call.forwardedSerial, by rw [hforwarded], ?_⟩, fun _ => rfl,
                fun other => (congrArg _ (hrecorded other)).trans (hnames other), rfl⟩
              show router.serialMap.pending.insert ⟨call.route, call.forwardedSerial⟩
                ⟨call.clientId, call.clientSerial, env.now⟩ = _
              rw [hpending, hcall]

/-- A call to the driver is replied to, or goes to the container bus when the driver
does not know its method. -/
theorem handleDbusMethod_cases :
    Replied env s clientId msg (s.handleDbusMethod env clientId msg) ∨
      (msg.member.getD "" ∉ Driver.methods ∧
        s.Forwarded (s.handleDbusMethod env clientId msg) env.now clientId msg .container) := by
  have hanswer {result : Answer} (h : s.DriverAnswer env clientId result) :
      Replied env s clientId msg (s.answer env clientId msg result) :=
    replied_answer env s clientId msg h
  have habout {query : String → Answer} (h : ∀ name, s.DriverAnswer env clientId (query name)) :
      Replied env s clientId msg (s.answerAbout env clientId msg query) :=
    replied_answerAbout env s clientId msg h
  have hreply {body : ReplyBody} (h : s.DriverReply env clientId body) :
      Replied env s clientId msg (s.sendReplyToClient env clientId msg body) :=
    .reply s (.refl s) h
  unfold handleDbusMethod
  split
  case h_19 hmember =>
    refine (forwardOr_cases env s clientId msg .container ?_).imp_right (fun h => ⟨?_, h⟩)
    · intro e
      simp [ErrorNames.all]
    · simp_all [Driver.methods]
  · exact Or.inl (replied_handleHello env s clientId msg)
  · exact Or.inl (replied_handleRequestName env s clientId msg)
  · exact Or.inl (replied_handleReleaseName env s clientId msg)
  · exact Or.inl (hanswer DriverReply.names)
  · exact Or.inl (hanswer (driverAnswer_listActivatableNames env s clientId))
  · exact Or.inl (habout (fun name => driverAnswer_getNameOwner env s clientId _ name))
  · exact Or.inl (habout (fun _ => DriverReply.bool _))
  · exact Or.inl (hreply .guid)
  · exact Or.inl (hreply .empty)
  · exact Or.inl (hanswer (DriverReply.machineId rfl))
  · exact Or.inl (habout (driverAnswer_getConnectionUnixUser env s clientId _))
  · exact Or.inl (habout (driverAnswer_getConnectionUnixProcessId env s clientId _))
  · exact Or.inl (habout (driverAnswer_getConnectionCredentials env s clientId _))
  · exact Or.inl (habout (fun name => DriverReply.queuedOwners name))
  · exact Or.inl (replied_handleAddMatch env s clientId msg)
  · exact Or.inl (replied_handleRemoveMatch env s clientId msg)
  · exact Or.inl (hanswer DriverReply.introspect)
  · exact Or.inl (hanswer DriverReply.noProperties)

end Handlers

/-- The bus a call may be forwarded to: the container for calls to the driver, and the
bus of the destination for all others. -/
def routeOf (s : MuxState) (msg : Message) : Route :=
  if msg.isDbusDaemonCall then .container else s.routingTable.routeFor (msg.destination.getD "")

theorem handleClientMessage_cases (env : Environment) (s : MuxState) (clientId : ClientId)
    {msg : Message} (hcall : msg.isMethodCall = true) :
    Replied env s clientId msg (s.handleClientMessage env clientId msg) ∨
      (s.Forwarded (s.handleClientMessage env clientId msg) env.now clientId msg (s.routeOf msg) ∧
        (msg.isDbusDaemonCall = true → msg.member.getD "" ∉ Driver.methods)) := by
  unfold handleClientMessage routeOf
  cases hdriver : msg.isDbusDaemonCall with
  | true =>
      simp only [hcall, Bool.and_self, if_true]
      rcases handleDbusMethod_cases env s clientId msg with h | ⟨hunknown, h⟩
      · exact Or.inl h
      · exact Or.inr ⟨h, fun _ => hunknown⟩
  | false =>
      simp only [hcall, Bool.false_and, Bool.false_eq_true, if_false, if_true]
      refine (forwardOr_cases env s clientId msg
        (s.routingTable.routeFor (msg.destination.getD "")) ?_).imp_right
          (fun h => ⟨h, False.elim⟩)
      intro e
      simp [ErrorNames.all]

theorem handleClientMessage_of_not_call (env : Environment) (s : MuxState) (clientId : ClientId)
    {msg : Message} (h : msg.isMethodCall ≠ true) : s.handleClientMessage env clientId msg = s := by
  unfold handleClientMessage
  simp [h]

/-! ## Replies that reach the client -/

/-- The replies and the errors of the handlers can be built for this call. -/
structure Builds (env : Environment) (s : MuxState) (clientId : ClientId) (msg : Message)
    (uniqueName : String) : Prop where
  replies : ∀ body, s.DriverReply env clientId body →
    ∃ reply, env.builder.methodReturn msg uniqueName body = .ok reply
  errors : ∀ e, e.name ∈ ErrorNames.all →
    ∃ reply, env.builder.error msg uniqueName e = .ok reply

variable {env : Environment} {s t : MuxState} {clientId : ClientId} {msg : Message}
variable {uniqueName : String}

theorem contact_send (s : MuxState) (clientId : ClientId) (reply : Message) (c : ClientId) :
    contact { s with clients := s.clients.send clientId reply } c =
      (s.contact c).map (fun p => (p.1, p.2 ++ if c = clientId then [reply] else [])) := by
  unfold contact Clients.send
  dsimp only
  rw [AList.lookup_modify]
  split
  · simp [Option.map_map, Function.comp_def]
  · simp [Option.map_map, Function.comp_def]

theorem channel_send (s : MuxState) (clientId : ClientId) (reply : Message) (c : ClientId) :
    channel { s with clients := s.clients.send clientId reply } c =
      (s.channel c).map (· ++ if c = clientId then [reply] else []) := by
  unfold channel
  rw [contact_send]
  simp [Option.map_map, Function.comp_def]

theorem exists_info (hclient : s.uniqueNameOf clientId = some uniqueName) :
    ∃ info, s.clients.lookup clientId = some info ∧ info.uniqueName = uniqueName := by
  simpa [uniqueNameOf, contact] using hclient

theorem Undisturbed.send (h : s.Undisturbed t) (hclient : s.uniqueNameOf clientId = some uniqueName)
    {reply : Message} (hreply : reply.Answers msg uniqueName) :
    s.Answered { t with clients := t.clients.send clientId reply } clientId msg := by
  refine ⟨⟨reply, uniqueName, hclient, hreply, fun c => ?_⟩, h.pending, h.sent⟩
  rw [channel_send, h.channel]

theorem Replied.answered (h : Replied env s clientId msg t)
    (hclient : s.uniqueNameOf clientId = some uniqueName)
    (hbuilds : s.Builds env clientId msg uniqueName) : s.Answered t clientId msg := by
  cases h with
  | reply m hm hbody =>
      obtain ⟨info, hl, hname⟩ := exists_info ((hm.uniqueNameOf clientId).trans hclient)
      obtain ⟨reply, hreply⟩ := hbuilds.replies _ hbody
      unfold sendReplyToClient
      simp only [hl, hname, hreply]
      exact hm.send hclient (ReplyBuilder.answers_of_methodReturn hreply)
  | error m hm herror =>
      obtain ⟨info, hl, hname⟩ := exists_info ((hm.uniqueNameOf clientId).trans hclient)
      obtain ⟨reply, hreply⟩ := hbuilds.errors _ herror
      unfold sendErrorToClient
      simp only [hl, hname, hreply]
      exact hm.send hclient (ReplyBuilder.answers_of_error hreply)
  | gone hgone =>
      obtain ⟨info, hl, _⟩ := exists_info hclient
      rw [hl] at hgone
      cases hgone

theorem Forwarded.not_answered {now : Instant} {route : Route}
    (h : s.Forwarded t now clientId msg route) : ¬ s.Answered t clientId msg := by
  intro hanswered
  obtain ⟨serial, hsent, _⟩ := h.copied
  rw [hanswered.sent] at hsent
  exact List.cons_ne_nil _ _ (List.self_eq_append_right.mp hsent)

/-- Whatever state the multiplexer is in, whatever a connected client calls and whatever
the buses answer: the call is answered once, or forwarded once to the bus it is for,
and never both. -/
theorem client_call_outcome (hclient : s.uniqueNameOf clientId = some uniqueName)
    (hbuilds : s.Builds env clientId msg uniqueName) (hcall : msg.isMethodCall = true) :
    Xor (s.Answered (s.handleClientMessage env clientId msg) clientId msg)
      (s.Forwarded (s.handleClientMessage env clientId msg) env.now clientId msg (s.routeOf msg) ∧
        (msg.isDbusDaemonCall = true → msg.member.getD "" ∉ Driver.methods)) := by
  rcases handleClientMessage_cases env s clientId hcall with h | h
  · have hanswered := h.answered hclient hbuilds
    exact Or.inl ⟨hanswered, fun hforwarded => hforwarded.1.not_answered hanswered⟩
  · exact Or.inr ⟨h, h.1.not_answered⟩

def oneClient : MuxState where
  router := ⟨.connect (some ":1.5"), .connect (some ":1.88"), .withTimeout 30⟩
  routingTable := .new
  portalRequests := .new
  clients := (∅ : Clients).insert 1 (.registered 1 ⟨1000, none, 1000⟩)
  guid := "0123"

/-! Arrays are encoded in little endian, each item at its alignment. -/

def littleEndian (n : Nat) : List UInt8 :=
  [.ofNat n, .ofNat (n / 256), .ofNat (n / 65536), .ofNat (n / 16777216)]

def alignTo (alignment : Nat) (bytes : List UInt8) : List UInt8 :=
  bytes ++ .replicate ((alignment - bytes.length % alignment) % alignment) 0

def encodeString (s : String) : List UInt8 :=
  littleEndian s.utf8ByteSize ++ s.toUTF8.data.toList ++ [0]

def encodeStrings (names : List String) : List UInt8 :=
  let items := names.foldl (fun bytes name => alignTo 4 bytes ++ encodeString name) []
  littleEndian items.length ++ items

/-- Every value of the dictionary is a variant with the signature `u`. -/
def encodeEntries (entries : List (String × UInt32)) : List UInt8 :=
  let items := entries.foldl
    (fun bytes e =>
      alignTo 4 (alignTo 8 bytes ++ encodeString e.1 ++ [1, 117, 0]) ++ littleEndian e.2.toNat) []
  littleEndian items.length ++ [0, 0, 0, 0] ++ items

def encodeReply : ReplyBody → Body
  | .empty => ⟨[], false⟩
  | .str text => ⟨[.str text], true⟩
  | .uint32 n => ⟨[.uint32 n], true⟩
  | .bool b => ⟨[.other "b" (littleEndian b.toNat)], true⟩
  | .strs names => ⟨[.other "as" (encodeStrings names)], true⟩
  | .nameSet names => ⟨[.other "as" (encodeStrings (names.sort (· ≤ ·)))], true⟩
  | .dict entries => ⟨[.other "a\x7bsv\x7d" (encodeEntries entries)], true⟩

/-- Buses that answer every call, and a builder that builds every reply. -/
def cooperative : Environment where
  builder := ⟨7, fun _ => true, fun _ => true, some ∘ encodeReply⟩
  process := ⟨1000, 42, 1000, none⟩
  now := 0
  decodeError _ := "wrong signature"
  forwardError _ := "Message error: Invalid serial number"
  infos clients := clients.entries.map Sigma.snd
  requestName _ _ := .ok 1
  releaseName _ := .ok ()
  listActivatableNames := .ok []
  getNameOwner _ _ := .ok none
  send _ _ := .ok ()

def callTo (destination member : String) : Message where
  msgType := .methodCall
  serial := 3
  replySerial := none
  path := some "/"
  interface := none
  member := some member
  destination := some destination
  sender := none
  body := ⟨[], false⟩
  fds := []

/-- The first call of every client, and a call to a service of the host. -/
theorem client_call_outcome_hello :
    oneClient.Answered (oneClient.handleClientMessage cooperative 1
      (callTo "org.freedesktop.DBus" "Hello")) 1 (callTo "org.freedesktop.DBus" "Hello") ∧
    oneClient.Forwarded (oneClient.handleClientMessage cooperative 1 (callTo "org.a" "Run")) 0 1
      (callTo "org.a" "Run") .host := by
  have hclient : oneClient.uniqueNameOf 1 = some ":mux.1" := by decide
  have hbuilds : ∀ msg, oneClient.Builds cooperative 1 msg ":mux.1" :=
    fun msg => ⟨fun body _ => ⟨_, rfl⟩, fun e _ => ⟨_, rfl⟩⟩
  constructor
  · rcases client_call_outcome hclient (hbuilds (callTo "org.freedesktop.DBus" "Hello")) rfl with
      h | h
    · exact h.1
    · exact absurd (h.1.2 (by decide)) (by decide)
  · rcases client_call_outcome hclient (hbuilds (callTo "org.a" "Run")) rfl with h | h
    · exact absurd h.1.sent (by decide)
    · exact h.1.1

end MuxState

end KapsuleDbusMux
