import KapsuleDbusMux.Client.ReadMessage

/-! # Sending messages to a client

`fd_sendmsg`, `send_message` and the whole of `run` of `client.rs`, where the messages
for the client are taken from its channel. A message without file descriptors is
written with `write_all`. For one with descriptors `sendmsg` is tried once, when the
socket is writable, and the rest goes through `write_all`. Any error ends the handler.
The kernel takes as many bytes of a write as it likes.
-/

namespace KapsuleDbusMux

/-- Messages with the descriptors that are attached to them. -/
structure FdFormat (M : Type) extends MessageFormat M where
  fds : M → List Nat

/-- What is in a socket: bytes, each with the descriptors that arrive together with it. -/
abbrev SocketByte := UInt8 × List Nat

/-- Descriptors are attached to the first of the bytes they are sent with. -/
def withFds (bytes : List UInt8) (fds : List Nat) : List SocketByte :=
  match bytes with
  | [] => []
  | b :: rest => (b, fds) :: rest.map (fun b => (b, []))

/-- How a message ought to be in the socket. -/
def FdFormat.wire {M : Type} (format : FdFormat M) (msg : M) : List SocketByte :=
  withFds (format.data msg) (format.fds msg)

/-- `FDS_MAX`. The kernel takes no more in one message either. -/
def fdsMax : Nat := 253

inductive WriteResult where
  | wrote (n : Nat)
  | wouldBlock
  | failed
  deriving DecidableEq, Repr

/-- Where the future of `send_message` waits: for a socket that takes descriptors, or in
`write_all` with these bytes left. -/
inductive SendMessage (M : Type) where
  | writable (msg : M)
  | writeAll (rest : List UInt8)
  deriving DecidableEq, Repr

/-- A handler with both directions. `outbound` has what waits in the channel to the
client, `taken` what has been taken from it, and `written` what is in the socket. -/
structure HandlerLoop (M : Type) where
  session : Session M
  outbound : List M := []
  taken : List M := []
  sending : Option (SendMessage M) := none
  written : List SocketByte := []
  deriving DecidableEq

inductive HandlerEvent (M : Type) where
  | arrive (n : Nat)
  | poll (n : Nat)
  | hangUp
  | enqueue (msg : M)
  | recv
  | sendmsg (result : WriteResult)
  | write (result : WriteResult)
  deriving DecidableEq, Repr

namespace HandlerLoop

variable {M : Type} (format : FdFormat M)

def accepted (bufferedData toCome : List UInt8) : HandlerLoop M where
  session := .accepted bufferedData toCome

/-- An error while writing ends the loop. -/
def stop (h : HandlerLoop M) : HandlerLoop M :=
  { h with session := { h.session with running := false } }

/-- `write_all` with these bytes left: with none it returns. -/
def continueWith (h : HandlerLoop M) (rest : List UInt8) : HandlerLoop M :=
  { h with sending := if rest = [] then none else some (.writeAll rest) }

/-- `fd_sendmsg` and what follows it. A socket that was said to be writable may still
answer that it would block, and that is an error like any other. -/
def sendmsg (h : HandlerLoop M) (msg : M) : WriteResult → Option (HandlerLoop M)
  | .wrote n =>
      if fdsMax < (format.fds msg).length then some h.stop
      else if n ≤ (format.data msg).length then
        if n = 0 ∧ format.data msg ≠ [] then some h.stop
        else
          let written := h.written ++ withFds ((format.data msg).take n) (format.fds msg)
          some (({ h with written := written } : HandlerLoop M).continueWith
            ((format.data msg).drop n))
      else none
  | .wouldBlock => some h.stop
  | .failed => some h.stop

/-- One write of `write_all`, which waits when the socket is full. -/
def write (h : HandlerLoop M) (rest : List UInt8) : WriteResult → Option (HandlerLoop M)
  | .wrote n =>
      if n ≤ rest.length then
        if n = 0 then some h.stop
        else
          let written := h.written ++ withFds (rest.take n) []
          some (({ h with written := written } : HandlerLoop M).continueWith (rest.drop n))
      else none
  | .wouldBlock => some h
  | .failed => some h.stop

def sendMessage (h : HandlerLoop M) (msg : M) : HandlerLoop M :=
  if format.fds msg = [] then h.continueWith (format.data msg)
  else { h with sending := some (.writable msg) }

/-- While a message is being sent nothing is read, and no other message is taken. -/
def step (h : HandlerLoop M) (e : HandlerEvent M) : Option (HandlerLoop M) :=
  if h.session.running then
    match e, h.sending with
    | .arrive n, _ =>
        (h.session.step format.toMessageFormat (.arrive n)).map (fun s => { h with session := s })
    | .enqueue msg, _ => some { h with outbound := h.outbound ++ [msg] }
    | .poll n, none =>
        (h.session.step format.toMessageFormat (.poll n)).map (fun s => { h with session := s })
    | .hangUp, none =>
        (h.session.step format.toMessageFormat .hangUp).map (fun s => { h with session := s })
    | .recv, none =>
        match h.outbound with
        | [] => none
        | msg :: rest =>
            (h.session.step format.toMessageFormat .outbound).map (fun s =>
              sendMessage format
                { h with session := s, outbound := rest, taken := h.taken ++ [msg] } msg)
    | .sendmsg result, some (.writable msg) => h.sendmsg format msg result
    | .write result, some (.writeAll rest) => h.write rest result
    | _, _ => none
  else none

end HandlerLoop

end KapsuleDbusMux
