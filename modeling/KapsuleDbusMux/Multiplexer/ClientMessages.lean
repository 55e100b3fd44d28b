import KapsuleDbusMux.Multiplexer.BusMessages
import KapsuleDbusMux.Multiplexer.Driver
import KapsuleDbusMux.Multiplexer.NameTasks

/-! # Messages from clients

`handle_client_message` and all it calls, for one message from its beginning to its
end: the methods of the driver, and calls that are forwarded to a bus. Whatever the
buses, zbus and the operating system answer while the message is handled is in an
`Environment`. The outcome is the same for all of them: one reply or error to the
client, or one copy on one bus and an entry for its reply.
-/

namespace KapsuleDbusMux

/-! ## What is needed from outside -/

/-- What zbus does while it builds a reply or an error: number it, check the names in
it and encode its body. -/
structure ReplyBuilder where
  serial : UInt32
  isBusName : String → Bool
  isErrorName : String → Bool
  encode : ReplyBody → Option Body

namespace ReplyBuilder

/-- The message both builders end in. `error_name` is not looked at again. -/
def reply (builder : ReplyBuilder) (msgType : MessageType) (original : Message)
    (destination : String) (body : ReplyBody) : Except MessageError Message :=
  if builder.isBusName destination then
    match builder.encode body with
    | none => .error .buildFailed
    | some body =>
        .ok {
          msgType := msgType
          serial := builder.serial
          replySerial := some original.serial
          path := none
          interface := none
          member := none
          destination := some destination
          sender := none
          body := body
          fds := [] }
  else .error .deserializeFailed

def methodReturn (builder : ReplyBuilder) (original : Message) (destination : String)
    (body : ReplyBody) : Except MessageError Message :=
  builder.reply .methodReturn original destination body

def error (builder : ReplyBuilder) (original : Message) (destination : String)
    (e : DriverError) : Except MessageError Message :=
  if builder.isErrorName e.name then builder.reply .error original destination (.str e.text)
  else .error .deserializeFailed

end ReplyBuilder

/-- The results of what is asked of zbus, of the buses and of the system. Errors are
the texts they display; `infos` has the clients in the order of the hash map. -/
structure Environment where
  builder : ReplyBuilder
  process : Process
  now : Instant
  decodeError : Body → String
  forwardError : MessageError → String
  infos : Clients → List ClientInfo
  requestName : String → UInt32 → Except String UInt32
  releaseName : String → Except String Unit
  listActivatableNames : Except String (List String)
  getNameOwner : Route → String → Except String (Option String)
  send : Route → Message → Except String Unit

/-- The multiplexer with all a client's message can change. `sent` has the copies
that went to the buses, oldest first. -/
structure MuxState extends Multiplexer where
  nameQueue : NameQueueManager := .new
  matchRuleRefcount : MatchRuleRefCount := .new
  guid : String
  sent : List (Route × Message) := []

namespace MuxState

variable (env : Environment) (s : MuxState) (clientId : ClientId) (msg : Message)

/-! ## Replies -/

def sendReplyToClient (body : ReplyBody) : MuxState :=
  match s.clients.lookup clientId with
  | none => s
  | some info =>
      match env.builder.methodReturn msg info.uniqueName body with
      | .error _ => s
      | .ok reply => { s with clients := s.clients.send clientId reply }

def sendErrorToClient (e : DriverError) : MuxState :=
  match s.clients.lookup clientId with
  | none => s
  | some info =>
      match env.builder.error msg info.uniqueName e with
      | .error _ => s
      | .ok reply => { s with clients := s.clients.send clientId reply }

def answer (result : Answer) : MuxState :=
  match result with
  | .ok body => s.sendReplyToClient env clientId msg body
  | .error e => s.sendErrorToClient env clientId msg e

def invalidArgs : MuxState :=
  s.sendErrorToClient env clientId msg
    ⟨ErrorNames.invalidArgs, "Invalid arguments: " ++ env.decodeError msg.body⟩

/-- The handlers that look up a single name. -/
def answerAbout (query : String → Answer) : MuxState :=
  match msg.body.deserializeString with
  | none => s.invalidArgs env clientId msg
  | some name => s.answer env clientId msg (query name)

/-! ## Methods of the driver -/

def handleHello : MuxState :=
  match s.clients.lookup clientId with
  | none => s
  | some info => s.sendReplyToClient env clientId msg (.str info.uniqueName)

/-- What `handle_request_name` does when the bus has given the name to the multiplexer. -/
def recordName (name uniqueName : String) (busReplyCode : UInt32) : MuxState :=
  if busReplyCode = RequestNameReply.primaryOwner ∨ busReplyCode = RequestNameReply.alreadyOwner then
    { s with
      routingTable := s.routingTable.onContainerNameChange name "" uniqueName
      clients := s.clients.updateOwned clientId (insert name) }
  else s

def handleRequestName : MuxState :=
  match msg.body.deserializeStringUInt32 with
  | none => s.invalidArgs env clientId msg
  | some (name, flags) =>
      match s.clients.lookup clientId with
      | none => s
      | some info =>
          let (result, queue) := s.nameQueue.requestName name clientId info.uniqueName flags
          let s := { s with nameQueue := queue }
          if result.forwardToBus then
            match env.requestName name flags with
            | .ok code =>
                (s.recordName clientId name info.uniqueName code).sendReplyToClient env clientId msg
                  (.uint32 result.replyCode)
            | .error e =>
                let s := { s with nameQueue := (queue.releaseName name clientId).2 }
                s.sendErrorToClient env clientId msg
                  ⟨ErrorNames.failed, "RequestName failed: " ++ e⟩
          else s.sendReplyToClient env clientId msg (.uint32 result.replyCode)

/-- The three branches of `handle_release_name` before its reply. -/
def settleRelease (name : String) (result : ReleaseNameResult) : MuxState :=
  match result.newOwner with
  | some (newOwnerId, newOwnerName) =>
      { s with
        routingTable := s.routingTable.onContainerNameChange name "" newOwnerName
        clients := (s.clients.updateOwned clientId (·.erase name)).updateOwned newOwnerId
          (insert name) }
  | none =>
      if result.forwardToBus then
        match env.releaseName name with
        | .ok () =>
            { s with
              routingTable :=
                match s.clients.lookup clientId with
                | some info => s.routingTable.onContainerNameChange name info.uniqueName ""
                | none => s.routingTable
              clients := s.clients.updateOwned clientId (·.erase name) }
        | .error _ => s
      else { s with clients := s.clients.updateOwned clientId (·.erase name) }

def handleReleaseName : MuxState :=
  match msg.body.deserializeString with
  | none => s.invalidArgs env clientId msg
  | some name =>
      let (result, queue) := s.nameQueue.releaseName name clientId
      let s := { s with nameQueue := queue }
      (s.settleRelease env clientId name result).sendReplyToClient env clientId msg
        (.uint32 result.replyCode)

def handleListNames : MuxState := s.answer env clientId msg (Driver.listNames s.routingTable)

def handleListActivatableNames : MuxState :=
  s.answer env clientId msg (Driver.listActivatableNames env.listActivatableNames)

def handleGetNameOwner : MuxState :=
  s.answerAbout env clientId msg (fun name =>
    Driver.getNameOwner name (env.getNameOwner (Driver.ownerRoute s.routingTable name) name))

def handleNameHasOwner : MuxState :=
  s.answerAbout env clientId msg (Driver.nameHasOwner s.routingTable)

def handleGetId : MuxState := s.sendReplyToClient env clientId msg (.str s.guid)

def handlePing : MuxState := s.sendReplyToClient env clientId msg .empty

def handleGetMachineId : MuxState := s.answer env clientId msg (Driver.getMachineId env.process)

def handleGetConnectionUnixUser : MuxState :=
  s.answerAbout env clientId msg (Driver.getConnectionUnixUser (env.infos s.clients))

def handleGetConnectionUnixProcessId : MuxState :=
  s.answerAbout env clientId msg
    (Driver.getConnectionUnixProcessId env.process (env.infos s.clients))

def handleGetConnectionCredentials : MuxState :=
  s.answerAbout env clientId msg
    (Driver.getConnectionCredentials env.process (env.infos s.clients))

def handleListQueuedOwners : MuxState :=
  s.answerAbout env clientId msg (Driver.listQueuedOwners s.nameQueue)

def handleIntrospect : MuxState := s.answer env clientId msg Driver.introspect

def updateRules (f : ClientMatchRules → ClientMatchRules) : MuxState :=
  { s with
    clients := s.clients.modify clientId
      (fun info => { info with matchRules := f info.matchRules }) }

/-- The buses are told about the first reference; what they answer is ignored. -/
def addReferences (ruleString : String) : MuxState :=
  let refcount := (s.matchRuleRefcount.increment "container" ruleString).2
  { s with matchRuleRefcount := (refcount.increment "host" ruleString).2 }

def dropReferences (ruleString : String) : MuxState :=
  let refcount := (s.matchRuleRefcount.decrement "container" ruleString).2
  { s with matchRuleRefcount := (refcount.decrement "host" ruleString).2 }

def handleAddMatch : MuxState :=
  match msg.body.deserializeString with
  | none => s.invalidArgs env clientId msg
  | some ruleString =>
      match MatchRule.parse ruleString with
      | .error e =>
          s.sendErrorToClient env clientId msg
            ⟨ErrorNames.matchRuleInvalid, "Invalid match rule: " ++ e.display⟩
      | .ok rule =>
          ((s.updateRules clientId (·.add rule)).addReferences ruleString).sendReplyToClient env
            clientId msg .empty

def handleRemoveMatch : MuxState :=
  match msg.body.deserializeString with
  | none => s.invalidArgs env clientId msg
  | some ruleString =>
      let removed := (s.clients.lookup clientId).any
        (fun info => (info.matchRules.remove ruleString).1)
      let s := s.updateRules clientId (fun rules => (rules.remove ruleString).2)
      if removed then
        (s.dropReferences ruleString).sendReplyToClient env clientId msg .empty
      else
        s.sendErrorToClient env clientId msg
          ⟨ErrorNames.matchRuleNotFound, "Match rule not found"⟩

def handleGetAll : MuxState := s.answer env clientId msg Driver.getAll

/-! ## Forwarding and dispatch -/

/-- `forward_method_call` from its beginning to its end. -/
def forwardMethodCall (route : Route) : Except String Unit × MuxState :=
  match s.router.prepareForward clientId msg route with
  | (.error e, router) => (.error (env.forwardError e), { s with router := router })
  | (.ok (call, forwarded), router) =>
      match env.send route forwarded with
      | .error e => (.error e, { s with router := router })
      | .ok () =>
          (.ok (), { s with
            router := router.recordForward env.now call
            sent := s.sent ++ [(route, forwarded)] })

/-- Forward a call, and tell the client when that fails. -/
def forwardOr (route : Route) (onError : String → DriverError) : MuxState :=
  match s.forwardMethodCall env clientId msg route with
  | (.ok (), s) => s
  | (.error e, s) => s.sendErrorToClient env clientId msg (onError e)

def handleDbusMethod : MuxState :=
  match msg.member.getD "" with
  | "Hello" => s.handleHello env clientId msg
  | "RequestName" => s.handleRequestName env clientId msg
  | "ReleaseName" => s.handleReleaseName env clientId msg
  | "ListNames" => s.handleListNames env clientId msg
  | "ListActivatableNames" => s.handleListActivatableNames env clientId msg
  | "GetNameOwner" => s.handleGetNameOwner env clientId msg
  | "NameHasOwner" => s.handleNameHasOwner env clientId msg
  | "GetId" => s.handleGetId env clientId msg
  | "Ping" => s.handlePing env clientId msg
  | "GetMachineId" => s.handleGetMachineId env clientId msg
  | "GetConnectionUnixUser" => s.handleGetConnectionUnixUser env clientId msg
  | "GetConnectionUnixProcessID" => s.handleGetConnectionUnixProcessId env clientId msg
  | "GetConnectionCredentials" => s.handleGetConnectionCredentials env clientId msg
  | "ListQueuedOwners" => s.handleListQueuedOwners env clientId msg
  | "AddMatch" => s.handleAddMatch env clientId msg
  | "RemoveMatch" => s.handleRemoveMatch env clientId msg
  | "Introspect" => s.handleIntrospect env clientId msg
  | "GetAll" => s.handleGetAll env clientId msg
  | member =>
      s.forwardOr env clientId msg .container
        (fun _ => ⟨ErrorNames.unknownMethod, "Unknown method: " ++ member⟩)

/-- A message that is no method call goes nowhere. -/
def handleClientMessage : MuxState :=
  if msg.isDbusDaemonCall && msg.isMethodCall then s.handleDbusMethod env clientId msg
  else if msg.isMethodCall then
    s.forwardOr env clientId msg (s.routingTable.routeFor (msg.destination.getD ""))
      (fun e => ⟨ErrorNames.failed, "Failed to forward: " ++ e⟩)
  else s

end MuxState

end KapsuleDbusMux
