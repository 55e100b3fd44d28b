import KapsuleDbusMux.Message
import KapsuleDbusMux.Serial.SerialMap

/-! # Portal requests

`portal_request.rs` and the rewriting of `message.rs` that belongs to it. A portal
answers a call with the path of a request and later emits a `Response` signal on
that path. The path names the caller, which for the portal is the multiplexer, so
the tracker remembers whose request it was and the signal is rewritten for that
client.
-/

namespace KapsuleDbusMux

/-! ## The tracker -/

structure PendingPortalRequest where
  clientId : ClientId
  timestamp : Instant
  deriving DecidableEq, Repr

structure PortalRequestTracker where
  requests : AssocMap String PendingPortalRequest
  timeout : Nat

namespace PortalRequestTracker

/-- Requests expire after five minutes, here in nanoseconds. -/
def new : PortalRequestTracker := ⟨∅, 300000000000⟩

def register (tracker : PortalRequestTracker) (now : Instant) (requestPath : String)
    (clientId : ClientId) : PortalRequestTracker :=
  { tracker with requests := tracker.requests.insert requestPath ⟨clientId, now⟩ }

def lookupAndRemove (tracker : PortalRequestTracker) (requestPath : String) :
    Option ClientId × PortalRequestTracker :=
  match tracker.requests.lookup requestPath with
  | some pending =>
      (some pending.clientId, { tracker with requests := tracker.requests.erase requestPath })
  | none => (none, tracker)

def cleanupExpired (tracker : PortalRequestTracker) (now : Instant) : Nat × PortalRequestTracker :=
  let kept := tracker.requests.retain
    (fun _ pending => !decide (now - pending.timestamp ≥ tracker.timeout))
  (tracker.requests.entries.length - kept.entries.length, { tracker with requests := kept })

def removeClient (tracker : PortalRequestTracker) (clientId : ClientId) :
    Nat × PortalRequestTracker :=
  let kept := tracker.requests.retain (fun _ pending => pending.clientId != clientId)
  (tracker.requests.entries.length - kept.entries.length, { tracker with requests := kept })

/-- The client a response on this path belongs to. -/
def ownerOf (tracker : PortalRequestTracker) (requestPath : String) : Option ClientId :=
  (tracker.requests.lookup requestPath).map PendingPortalRequest.clientId

theorem lookupAndRemove_fst (tracker : PortalRequestTracker) (requestPath : String) :
    (tracker.lookupAndRemove requestPath).1 = tracker.ownerOf requestPath := by
  unfold lookupAndRemove ownerOf
  cases tracker.requests.lookup requestPath with
  | none => rfl
  | some pending => rfl

theorem ownerOf_of_removeClient {tracker : PortalRequestTracker} {clientId owner : ClientId}
    {requestPath : String}
    (h : (tracker.removeClient clientId).2.ownerOf requestPath = some owner) :
    tracker.ownerOf requestPath = some owner := by
  simp only [ownerOf, removeClient, AList.lookup_retain, Option.map_eq_some_iff,
    Option.filter_eq_some_iff] at h ⊢
  obtain ⟨pending, ⟨hpending, _⟩, howner⟩ := h
  exact ⟨pending, hpending, howner⟩

theorem ownerOf_of_cleanupExpired {tracker : PortalRequestTracker} {now : Instant}
    {owner : ClientId} {requestPath : String}
    (h : (tracker.cleanupExpired now).2.ownerOf requestPath = some owner) :
    tracker.ownerOf requestPath = some owner := by
  simp only [ownerOf, cleanupExpired, AList.lookup_retain, Option.map_eq_some_iff,
    Option.filter_eq_some_iff] at h ⊢
  obtain ⟨pending, ⟨hpending, _⟩, howner⟩ := h
  exact ⟨pending, hpending, howner⟩

end PortalRequestTracker

/-! ## Signals and handles -/

def isPortalResponseSignal (msg : Message) : Bool :=
  msg.isSignal && msg.interface == some "org.freedesktop.portal.Request" &&
    msg.member == some "Response"

def extractRequestHandle (msg : Message) : Option String :=
  if msg.isMethodReturn then
    msg.body.deserializeObjectPath.filter
      (fun path => startsWith path "/org/freedesktop/portal/desktop/request/")
  else none

theorem isPortalResponseSignal_of_nameOwnerChanged {msg : Message}
    (h : msg.isNameOwnerChanged = true) : isPortalResponseSignal msg = false := by
  simp only [Message.isNameOwnerChanged, Bool.and_eq_true, beq_iff_eq] at h
  simp [isPortalResponseSignal, h.1.2]

/-! ## Rewriting a response -/

/-- `str::replace` once a match has been found `skip` characters ago. -/
def replaceFrom (pattern replacement : List Char) : Nat → List Char → List Char
  | _, [] => []
  | skip + 1, _ :: rest => replaceFrom pattern replacement skip rest
  | 0, c :: rest =>
      if pattern.isPrefixOf (c :: rest) then
        replacement ++ replaceFrom pattern replacement (pattern.length - 1) rest
      else c :: replaceFrom pattern replacement 0 rest

/-- `str::replace`: every match from left to right. The empty pattern matches
before every character and at the end. -/
def replaceAll (s pattern replacement : String) : String :=
  if pattern.toList.isEmpty then
    String.ofList (replacement.toList ++ s.toList.flatMap (fun c => c :: replacement.toList))
  else String.ofList (replaceFrom pattern.toList replacement.toList 0 s.toList)

def uniqueNameToPathComponent (uniqueName : String) : String :=
  String.ofList ((uniqueName.toList.dropWhile (· == ':')).map (fun c => if c = '.' then '_' else c))

def MessageBuilder.clonePortalResponseSignal (builder : MessageBuilder) (msg : Message)
    (muxUniqueName clientUniqueName : String) : Except MessageError Message :=
  let newPath := replaceAll (msg.path.getD "") (uniqueNameToPathComponent muxUniqueName)
    (uniqueNameToPathComponent clientUniqueName)
  if builder.isObjectPath newPath && builder.isBusName clientUniqueName then
    match builder.cloneFds msg.fds with
    | some fds =>
        let newMsg := { msg with path := some newPath, destination := some clientUniqueName }
        if builder.buildsRawBody newMsg then .ok { newMsg with fds := fds }
        else .error .buildFailed
    | none => .error .buildFailed
  else .error .buildFailed

/-- The signal can be rewritten for this client. -/
def MessageBuilder.Rewrites (builder : MessageBuilder) (msg : Message)
    (muxUniqueName clientUniqueName : String) : Prop :=
  let newPath := replaceAll (msg.path.getD "") (uniqueNameToPathComponent muxUniqueName)
    (uniqueNameToPathComponent clientUniqueName)
  builder.isObjectPath newPath = true ∧ builder.isBusName clientUniqueName = true ∧
    (builder.cloneFds msg.fds).isSome = true ∧
    builder.buildsRawBody
      { msg with path := some newPath, destination := some clientUniqueName } = true

instance (builder : MessageBuilder) (msg : Message) (muxUniqueName clientUniqueName : String) :
    Decidable (builder.Rewrites msg muxUniqueName clientUniqueName) :=
  inferInstanceAs (Decidable (_ ∧ _ ∧ _ ∧ _))

theorem MessageBuilder.destination_clonePortalResponseSignal {builder : MessageBuilder}
    {msg copy : Message} {muxUniqueName clientUniqueName : String}
    (h : builder.clonePortalResponseSignal msg muxUniqueName clientUniqueName = .ok copy) :
    copy.destination = some clientUniqueName := by
  unfold MessageBuilder.clonePortalResponseSignal at h
  dsimp only at h
  split at h
  · split at h
    · split at h
      · cases h
        rfl
      · cases h
    · cases h
  · cases h

theorem MessageBuilder.rewrites_iff {builder : MessageBuilder} {msg : Message}
    {muxUniqueName clientUniqueName : String} :
    builder.Rewrites msg muxUniqueName clientUniqueName ↔
      ∃ copy, builder.clonePortalResponseSignal msg muxUniqueName clientUniqueName = .ok copy := by
  unfold MessageBuilder.Rewrites MessageBuilder.clonePortalResponseSignal
  dsimp only
  constructor
  · rintro ⟨hpath, hname, hfds, hbuilds⟩
    obtain ⟨fds, hfds⟩ := Option.isSome_iff_exists.mp hfds
    simp [hpath, hname, hfds, hbuilds]
  · rintro ⟨copy, hcopy⟩
    split at hcopy
    · next hnames =>
        rw [Bool.and_eq_true] at hnames
        split at hcopy
        · next hfds =>
            split at hcopy
            · next hbuilds => exact ⟨hnames.1, hnames.2, by rw [hfds]; rfl, hbuilds⟩
            · cases hcopy
        · cases hcopy
    · cases hcopy

/-- A signal that differs at most in where it is and to whom it goes. -/
def Message.IsCopyOf (copy msg : Message) : Prop :=
  copy = { msg with path := copy.path, destination := copy.destination, fds := copy.fds }

theorem isCopyOf_clonePortalResponseSignal {builder : MessageBuilder} {msg copy : Message}
    {muxUniqueName clientUniqueName : String}
    (h : builder.clonePortalResponseSignal msg muxUniqueName clientUniqueName = .ok copy) :
    copy.IsCopyOf msg := by
  unfold MessageBuilder.clonePortalResponseSignal at h
  dsimp only at h
  split at h
  · split at h
    · split at h
      · cases h
        rfl
      · cases h
    · cases h
  · cases h

end KapsuleDbusMux
