import KapsuleDbusMux.Multiplexer.ClientInfo
import KapsuleDbusMux.Names.NameQueue

/-! # What the driver answers

The methods of `org.freedesktop.DBus` that only look something up in the state of
the multiplexer: what each of them replies, or the name and the text of its error.
The handlers around them are in `ClientMessages`.
-/

namespace KapsuleDbusMux

/-- The values the handlers pass to `send_reply_to_client`. A hash set or a hash map
comes out in an order of its own. -/
inductive ReplyBody where
  | empty
  | str (s : String)
  | uint32 (n : UInt32)
  | bool (b : Bool)
  | strs (names : List String)
  | nameSet (names : Finset String)
  | dict (entries : List (String × UInt32))
  deriving DecidableEq

namespace ErrorNames

def unknownMethod : String := "org.freedesktop.DBus.Error.UnknownMethod"
def nameHasNoOwner : String := "org.freedesktop.DBus.Error.NameHasNoOwner"
def failed : String := "org.freedesktop.DBus.Error.Failed"
def invalidArgs : String := "org.freedesktop.DBus.Error.InvalidArgs"
def matchRuleNotFound : String := "org.freedesktop.DBus.Error.MatchRuleNotFound"
def matchRuleInvalid : String := "org.freedesktop.DBus.Error.MatchRuleInvalid"
def unixProcessIdUnknown : String := "org.freedesktop.DBus.Error.UnixProcessIdUnknown"

/-- The names the handlers use. -/
def all : List String :=
  [unknownMethod, nameHasNoOwner, failed, invalidArgs, matchRuleNotFound, matchRuleInvalid,
    unixProcessIdUnknown]

end ErrorNames

/-- The two arguments of `send_error_to_client`. -/
structure DriverError where
  name : String
  text : String
  deriving DecidableEq, Repr

abbrev Answer := Except DriverError ReplyBody

/-- The process the multiplexer runs as, and the trimmed contents of `/etc/machine-id`,
if it can be read. -/
structure Process where
  uid : UInt32
  pid : UInt32
  gid : UInt32
  machineId : Option String
  deriving DecidableEq, Repr

namespace Driver

def busName : String := "org.freedesktop.DBus"

def methods : List String :=
  ["Hello", "RequestName", "ReleaseName", "ListNames", "ListActivatableNames", "GetNameOwner",
    "NameHasOwner", "GetId", "Ping", "GetMachineId", "GetConnectionUnixUser",
    "GetConnectionUnixProcessID", "GetConnectionCredentials", "ListQueuedOwners", "AddMatch",
    "RemoveMatch", "Introspect", "GetAll"]

/-! ## Names -/

def listNames (table : RoutingTable) : Answer := .ok (.nameSet table.allNames)

def ownerRoute (table : RoutingTable) (name : String) : Route :=
  match table.getNameOwnerRoute name with
  | some .container => .container
  | some .host => .host
  | none => .host

/-- What the bus said becomes the answer. -/
def getNameOwner (name : String) : Except String (Option String) → Answer
  | .ok (some owner) => .ok (.str owner)
  | .ok none => .error ⟨ErrorNames.nameHasNoOwner, "Name " ++ name ++ " has no owner"⟩
  | .error e => .error ⟨ErrorNames.failed, "GetNameOwner failed: " ++ e⟩

def nameHasOwner (table : RoutingTable) (name : String) : Answer :=
  .ok (.bool (table.nameHasOwner name))

def listActivatableNames : Except String (List String) → Answer
  | .ok names => .ok (.strs names)
  | .error e => .error ⟨ErrorNames.failed, "ListActivatableNames failed: " ++ e⟩

def listQueuedOwners (queue : NameQueueManager) (name : String) : Answer :=
  .ok (.strs (queue.listQueuedOwners name))

/-! ## Credentials -/

def noSuchName (what name : String) : DriverError :=
  ⟨ErrorNames.nameHasNoOwner, "Could not get " ++ what ++ " of name '" ++ name ++ "': no such name"⟩

def getConnectionUnixUser (infos : List ClientInfo) (name : String) : Answer :=
  if name = busName then .ok (.uint32 0)
  else
    match findClientCredentials infos name with
    | some creds => .ok (.uint32 creds.uid)
    | none => .error (noSuchName "UID" name)

def getConnectionUnixProcessId (process : Process) (infos : List ClientInfo) (name : String) :
    Answer :=
  if name = busName then .ok (.uint32 process.pid)
  else
    match findClientCredentials infos name with
    | some creds =>
        match creds.pid with
        | some pid => .ok (.uint32 pid)
        | none => .error ⟨ErrorNames.unixProcessIdUnknown,
            "Could not get PID of name '" ++ name ++ "': not available"⟩
    | none => .error (noSuchName "PID" name)

def credentialsDict (uid : UInt32) (pid : Option UInt32) (gid : UInt32) : ReplyBody :=
  .dict (("UnixUserID", uid) :: pid.toList.map (fun pid => ("ProcessID", pid)) ++
    [("UnixGroupID", gid)])

def getConnectionCredentials (process : Process) (infos : List ClientInfo) (name : String) :
    Answer :=
  if name = busName then .ok (credentialsDict process.uid (some process.pid) process.gid)
  else
    match findClientCredentials infos name with
    | some creds => .ok (credentialsDict creds.uid creds.pid creds.gid)
    | none => .error (noSuchName "credentials" name)

/-! ## The driver itself -/

def getMachineId (process : Process) : Answer :=
  .ok (.str (process.machineId.getD "00000000000000000000000000000000"))

def getAll : Answer := .ok (.dict [])

def introspectXml : String := "\n".intercalate [
  "<!DOCTYPE node PUBLIC \"-//freedesktop//DTD D-BUS Object Introspection 1.0//EN\"",
  "\"http://www.freedesktop.org/standards/dbus/1.0/introspect.dtd\">",
  "<node>",
  "  <interface name=\"org.freedesktop.DBus\">",
  "    <method name=\"Hello\">",
  "      <arg direction=\"out\" type=\"s\"/>",
  "    </method>",
  "    <method name=\"RequestName\">",
  "      <arg direction=\"in\" type=\"s\"/>",
  "      <arg direction=\"in\" type=\"u\"/>",
  "      <arg direction=\"out\" type=\"u\"/>",
  "    </method>",
  "    <method name=\"ReleaseName\">",
  "      <arg direction=\"in\" type=\"s\"/>",
  "      <arg direction=\"out\" type=\"u\"/>",
  "    </method>",
  "    <method name=\"ListNames\">",
  "      <arg direction=\"out\" type=\"as\"/>",
  "    </method>",
  "    <method name=\"ListActivatableNames\">",
  "      <arg direction=\"out\" type=\"as\"/>",
  "    </method>",
  "    <method name=\"GetNameOwner\">",
  "      <arg direction=\"in\" type=\"s\"/>",
  "      <arg direction=\"out\" type=\"s\"/>",
  "    </method>",
  "    <method name=\"NameHasOwner\">",
  "      <arg direction=\"in\" type=\"s\"/>",
  "      <arg direction=\"out\" type=\"b\"/>",
  "    </method>",
  "    <method name=\"GetId\">",
  "      <arg direction=\"out\" type=\"s\"/>",
  "    </method>",
  "    <method name=\"GetConnectionUnixUser\">",
  "      <arg direction=\"in\" type=\"s\"/>",
  "      <arg direction=\"out\" type=\"u\"/>",
  "    </method>",
  "    <method name=\"GetConnectionCredentials\">",
  "      <arg direction=\"in\" type=\"s\"/>",
  "      <arg direction=\"out\" type=\"a\x7bsv\x7d\"/>",
  "    </method>",
  "    <method name=\"ListQueuedOwners\">",
  "      <arg direction=\"in\" type=\"s\"/>",
  "      <arg direction=\"out\" type=\"as\"/>",
  "    </method>",
  "    <method name=\"AddMatch\">",
  "      <arg direction=\"in\" type=\"s\"/>",
  "    </method>",
  "    <method name=\"RemoveMatch\">",
  "      <arg direction=\"in\" type=\"s\"/>",
  "    </method>",
  "    <signal name=\"NameOwnerChanged\">",
  "      <arg type=\"s\"/>",
  "      <arg type=\"s\"/>",
  "      <arg type=\"s\"/>",
  "    </signal>",
  "    <signal name=\"NameAcquired\">",
  "      <arg type=\"s\"/>",
  "    </signal>",
  "    <signal name=\"NameLost\">",
  "      <arg type=\"s\"/>",
  "    </signal>",
  "  </interface>",
  "  <interface name=\"org.freedesktop.DBus.Peer\">",
  "    <method name=\"Ping\"/>",
  "    <method name=\"GetMachineId\">",
  "      <arg direction=\"out\" type=\"s\"/>",
  "    </method>",
  "  </interface>",
  "  <interface name=\"org.freedesktop.DBus.Introspectable\">",
  "    <method name=\"Introspect\">",
  "      <arg direction=\"out\" type=\"s\"/>",
  "    </method>",
  "  </interface>",
  "</node>"]

def introspect : Answer := .ok (.str introspectXml)

end Driver

end KapsuleDbusMux
