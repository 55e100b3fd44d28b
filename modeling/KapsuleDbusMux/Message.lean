import KapsuleDbusMux.Routing.RoutingTable

/-! # D-Bus messages as the multiplexer reads them

`message.rs`. A message is what zbus decodes from its bytes: the primary header,
the header fields, the typed top-level arguments of the body and the attached
file descriptors.
-/

namespace KapsuleDbusMux

inductive MessageType where
  | methodCall
  | methodReturn
  | error
  | signal
  deriving DecidableEq, Repr

/-- A decoded argument. Only strings, object paths and unsigned integers are
ever looked into; every other type keeps its signature and its bytes. -/
inductive Value where
  | str (s : String)
  | objectPath (p : String)
  | uint32 (n : UInt32)
  | other (signature : String) (data : List UInt8)
  deriving DecidableEq, Repr

/-- `isStructure` says that `deserialize::<Structure>()` succeeds and has the arguments as
its fields. For an empty body it fails. For a body that is one `STRUCT` zvariant has the
members of that as the fields; such a body is not described here. -/
structure Body where
  args : List Value
  isStructure : Bool
  deriving DecidableEq, Repr

namespace Body

def deserializeStructure (body : Body) : Option (List Value) :=
  if body.isStructure then some body.args else none

/-- `deserialize::<String>()`, and `deserialize::<(String,)>()`. -/
def deserializeString (body : Body) : Option String :=
  match body.args with
  | [.str s] => some s
  | _ => none

def deserializeStringPair (body : Body) : Option (String × String) :=
  match body.args with
  | [.str s₁, .str s₂] => some (s₁, s₂)
  | _ => none

def deserializeStringTriple (body : Body) : Option (String × String × String) :=
  match body.args with
  | [.str s₁, .str s₂, .str s₃] => some (s₁, s₂, s₃)
  | _ => none

def deserializeStringUInt32 (body : Body) : Option (String × UInt32) :=
  match body.args with
  | [.str s, .uint32 n] => some (s, n)
  | _ => none

def deserializeObjectPath (body : Body) : Option String :=
  match body.args with
  | [.objectPath p] => some p
  | _ => none

end Body

structure Message where
  msgType : MessageType
  serial : UInt32
  replySerial : Option UInt32
  path : Option String
  interface : Option String
  member : Option String
  destination : Option String
  sender : Option String
  body : Body
  fds : List Nat
  deriving DecidableEq, Repr

inductive MessageError where
  | invalidSerial
  | noReplySerial
  | deserializeFailed
  | buildFailed
  deriving DecidableEq, Repr

namespace Message

def isMethodCall (msg : Message) : Bool := msg.msgType == .methodCall

def isMethodReturn (msg : Message) : Bool := msg.msgType == .methodReturn

def isError (msg : Message) : Bool := msg.msgType == .error

def isSignal (msg : Message) : Bool := msg.msgType == .signal

def isDbusDaemonCall (msg : Message) : Bool := msg.destination == some "org.freedesktop.DBus"

def isNameOwnerChanged (msg : Message) : Bool :=
  msg.isSignal && msg.interface == some "org.freedesktop.DBus" &&
    msg.member == some "NameOwnerChanged"

/-- The serial is patched into the raw bytes and the message is decoded again,
which leaves the file descriptors behind. -/
def cloneMessageWithSerial (msg : Message) (newSerial : UInt32) : Except MessageError Message :=
  if newSerial = 0 then .error .invalidSerial
  else .ok { msg with serial := newSerial, fds := [] }

def parseNameOwnerChanged (msg : Message) : Except MessageError (String × String × String) :=
  match msg.body.deserializeStringTriple with
  | some change => .ok change
  | none => .error .deserializeFailed

end Message

/-! ## Messages that are built again -/

/-- What zbus checks and duplicates while it builds a message: object paths, bus names and
file descriptors, and whether `build_raw_body` takes a header and a body. -/
structure MessageBuilder where
  isObjectPath : String → Bool
  isBusName : String → Bool
  cloneFds : List Nat → Option (List Nat)
  buildsRawBody : Message → Bool

namespace MessageBuilder

/-- The message is built from its own header with another reply serial, which takes as much
room as the one it had. -/
def cloneReplyWithSerial (builder : MessageBuilder) (msg : Message) (newReplySerial : UInt32) :
    Except MessageError Message :=
  if newReplySerial = 0 then .error .invalidSerial
  else
    match builder.cloneFds msg.fds with
    | some fds =>
        if builder.buildsRawBody msg then
          .ok { msg with replySerial := some newReplySerial, fds := fds }
        else .error .buildFailed
    | none => .error .buildFailed

/-- The reply can be built again. -/
def RewritesReply (builder : MessageBuilder) (msg : Message) : Prop :=
  (builder.cloneFds msg.fds).isSome = true ∧ builder.buildsRawBody msg = true

instance (builder : MessageBuilder) (msg : Message) : Decidable (builder.RewritesReply msg) :=
  inferInstanceAs (Decidable (_ ∧ _))

theorem cloneReplyWithSerial_of_rewrites {builder : MessageBuilder} {msg : Message}
    (h : builder.RewritesReply msg) {newReplySerial : UInt32} (hserial : newReplySerial ≠ 0) :
    ∃ fds, builder.cloneFds msg.fds = some fds ∧
      builder.cloneReplyWithSerial msg newReplySerial =
        .ok { msg with replySerial := some newReplySerial, fds := fds } := by
  obtain ⟨fds, hfds⟩ := Option.isSome_iff_exists.mp h.1
  refine ⟨fds, hfds, ?_⟩
  unfold cloneReplyWithSerial
  rw [if_neg hserial, hfds]
  exact if_pos h.2

theorem cloneReplyWithSerial_of_not_rewrites {builder : MessageBuilder} {msg : Message}
    (h : ¬ builder.RewritesReply msg) (newReplySerial : UInt32) :
    ∃ error, builder.cloneReplyWithSerial msg newReplySerial = .error error := by
  unfold cloneReplyWithSerial
  split
  · exact ⟨_, rfl⟩
  · split
    · next fds hfds =>
        have hbuilds : ¬ builder.buildsRawBody msg = true := fun hbuilds =>
          h ⟨by rw [hfds]; rfl, hbuilds⟩
        exact ⟨_, if_neg hbuilds⟩
    · exact ⟨_, rfl⟩

def unfailing : MessageBuilder := ⟨fun _ => true, fun _ => true, some, fun _ => true⟩

end MessageBuilder

end KapsuleDbusMux
