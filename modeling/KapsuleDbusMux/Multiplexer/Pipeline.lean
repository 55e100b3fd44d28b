import KapsuleDbusMux.Auth.Credentials
import KapsuleDbusMux.Auth.HandOver
import KapsuleDbusMux.Client.OutboundFraming
import KapsuleDbusMux.Multiplexer.Transcript

/-! # From socket to socket

The main loop together with the handlers of all clients. A handler puts the messages it
has read into the one channel to the main loop, and the main loop puts messages into the
channel to each handler. What a client writes, behind its handshake, is what the main
loop handles for it, each message once and in order; what it is sent is what the main
loop had put on its channel at some moment. This holds for each client whatever the
others do, and in whatever order the tasks run. The channels are taken without their
capacities: a full one only makes its sender wait.
-/

namespace KapsuleDbusMux

/-- The main loop, the handlers and the channel from them to it. A handler stays here when
it has ended, since identifiers are not used again. `history` has what the main loop has
done. -/
structure Pipeline where
  mux : MuxState
  handlers : AssocMap ClientId (HandlerLoop Message) := ∅
  inbound : List (ClientId × Message) := []
  history : List MuxEvent := []

/-- A client connects, a handler does something, the main loop takes a message of a client
from the channel, or it does something else. -/
inductive PipelineEvent where
  | accept (clientId : ClientId) (socket : Socket)
  | handler (clientId : ClientId) (event : HandlerEvent Message)
  | recv (env : Environment)
  | main (event : MuxEvent)

/-- A client behind its handshake: the handler has what was buffered, and the rest is on
its way. -/
def SaslAuth.opened (auth : SaslAuth) (processUid : UInt32) (socket : Socket) :
    Option (ClientCredentials × HandlerLoop Message) :=
  match auth.accept processUid socket, auth.authenticateServer processUid socket.arriving with
  | .ok (credentials, _), .ok (result, stream) =>
      some (credentials, .accepted result.bufferedData stream.reader.arriving.flatten)
  | _, _ => none

/-- Messages for the client are put into the channel by the main loop. -/
def HandlerEvent.isOwn : HandlerEvent Message → Bool
  | .enqueue _ => false
  | .arrive _ => true
  | .poll _ => true
  | .hangUp => true
  | .recv => true
  | .sendmsg _ => true
  | .write _ => true

/-- The receiving end of the channel is gone when the handler has ended. -/
def HandlerLoop.deliver (h : HandlerLoop Message) (msgs : List Message) : HandlerLoop Message :=
  if h.session.running then { h with outbound := h.outbound ++ msgs } else h

namespace Pipeline

open MuxState (channelLog)

def sentBetween (s t : MuxState) (c : ClientId) : List Message :=
  (channelLog c t).drop (channelLog c s).length

/-- The main loop has done `e`, and the handlers get what it has put on their channels. -/
def advanced (s : Pipeline) (e : MuxEvent) (mux : MuxState) : Pipeline :=
  { s with
    mux := mux
    handlers := s.handlers.mapValues (fun c h => h.deliver (sentBetween s.mux mux c))
    history := s.history ++ [e] }

def advance (s : Pipeline) (e : MuxEvent) : Option Pipeline := (s.mux.step e).map (s.advanced e)

/-- Clients are registered when they have been accepted, and their messages come through
the channel. A client is removed by its own task, when its handler has ended. -/
def mayDo (s : Pipeline) : MuxEvent → Bool
  | .connect _ _ => false
  | .clientMessage _ _ _ => false
  | .disconnect c => (s.handlers.lookup c).any (fun h => !h.session.running)
  | .busMessage _ _ _ _ => true
  | .removeRequests _ => true
  | .removeNames _ _ _ _ => true
  | .cleanupTick _ => true

def step (format : FdFormat Message) (processUid : UInt32) (s : Pipeline) :
    PipelineEvent → Option Pipeline
  | .accept c socket =>
      if c ∈ s.handlers then none
      else
        match (SaslAuth.mk s.mux.guid).opened processUid socket with
        | none => some s -- the task ends before the client is registered
        | some (credentials, h) =>
            (s.advance (.connect c credentials)).map (fun t =>
              { t with handlers := t.handlers.insert c h })
  | .handler c e =>
      if e.isOwn then
        match s.handlers.lookup c with
        | none => none
        | some h =>
            (h.step format e).map (fun h' =>
              let read := h'.session.inbound.drop h.session.inbound.length
              { s with
                handlers := s.handlers.insert c h'
                inbound := s.inbound ++ read.map (fun msg => (c, msg)) })
      else none
  | .recv env =>
      match s.inbound with
      | [] => none
      | (c, msg) :: rest => { s with inbound := rest }.advance (.clientMessage c msg env)
  | .main e => if s.mayDo e then s.advance e else none

def initial (mux : MuxState) : Pipeline where
  mux := mux

/-! ## One step -/

variable {format : FdFormat Message} {processUid : UInt32} {s t : Pipeline} {c : ClientId}
  {h : HandlerLoop Message}

/-- All that can happen. A client whose handshake fails is never registered. -/
inductive Stepped (format : FdFormat Message) (processUid : UInt32) (s : Pipeline) :
    PipelineEvent → Pipeline → Prop
  | refused {c : ClientId} {socket : Socket} : Stepped format processUid s (.accept c socket) s
  | accepted {c : ClientId} {socket : Socket} {credentials : ClientCredentials}
      {h : HandlerLoop Message} {mux : MuxState} (hnew : c ∉ s.handlers)
      (hopened : (SaslAuth.mk s.mux.guid).opened processUid socket = some (credentials, h))
      (hmux : s.mux.step (.connect c credentials) = some mux) :
      Stepped format processUid s (.accept c socket)
        { s.advanced (.connect c credentials) mux with
          handlers := (s.advanced (.connect c credentials) mux).handlers.insert c h }
  | handled {c : ClientId} {e : HandlerEvent Message} {h h' : HandlerLoop Message}
      (hown : e.isOwn = true) (hlookup : s.handlers.lookup c = some h)
      (hstep : h.step format e = some h') :
      Stepped format processUid s (.handler c e)
        { s with
          handlers := s.handlers.insert c h'
          inbound := s.inbound ++
            (h'.session.inbound.drop h.session.inbound.length).map (fun msg => (c, msg)) }
  | received {env : Environment} {c : ClientId} {msg : Message} {rest : List (ClientId × Message)}
      {mux : MuxState} (hinbound : s.inbound = (c, msg) :: rest)
      (hmux : s.mux.step (.clientMessage c msg env) = some mux) :
      Stepped format processUid s (.recv env)
        { s.advanced (.clientMessage c msg env) mux with inbound := rest }
  | did {e : MuxEvent} {mux : MuxState} (hmay : s.mayDo e = true)
      (hmux : s.mux.step e = some mux) :
      Stepped format processUid s (.main e) (s.advanced e mux)

theorem step_stepped {e : PipelineEvent} (hstep : s.step format processUid e = some t) :
    Stepped format processUid s e t := by
  cases e with
  | accept c socket =>
      simp only [step] at hstep
      split at hstep
      · cases hstep
      · next hnew =>
          split at hstep
          · cases hstep
            exact .refused
          · next credentials h hopened =>
              obtain ⟨u, hu, rfl⟩ := Option.map_eq_some_iff.mp hstep
              obtain ⟨mux, hmux, rfl⟩ := Option.map_eq_some_iff.mp hu
              exact .accepted hnew hopened hmux
  | handler c e =>
      simp only [step] at hstep
      split at hstep
      · next hown =>
          split at hstep
          · cases hstep
          · next h hlookup =>
              obtain ⟨h', hh', rfl⟩ := Option.map_eq_some_iff.mp hstep
              exact .handled hown hlookup hh'
      · cases hstep
  | recv env =>
      simp only [step] at hstep
      split at hstep
      · cases hstep
      · next c msg rest hinbound =>
          obtain ⟨mux, hmux, rfl⟩ := Option.map_eq_some_iff.mp hstep
          exact .received hinbound hmux
  | main e =>
      simp only [step] at hstep
      split at hstep
      · next hmay =>
          obtain ⟨mux, hmux, rfl⟩ := Option.map_eq_some_iff.mp hstep
          exact .did hmay hmux
      · cases hstep

/-! ## What each client has -/

def messageOf (c : ClientId) : MuxEvent → Option Message
  | .clientMessage d msg _ => if d = c then some msg else none
  | _ => none

def handledOf (c : ClientId) (history : List MuxEvent) : List Message :=
  history.filterMap (messageOf c)

/-- The messages of a client that wait in the channel to the main loop. -/
def waitingOf (c : ClientId) (inbound : List (ClientId × Message)) : List Message :=
  inbound.filterMap (fun p => if p.1 = c then some p.2 else none)

theorem handledOf_append (c : ClientId) (history more : List MuxEvent) :
    handledOf c (history ++ more) = handledOf c history ++ handledOf c more :=
  List.filterMap_append

theorem waitingOf_append (c : ClientId) (inbound more : List (ClientId × Message)) :
    waitingOf c (inbound ++ more) = waitingOf c inbound ++ waitingOf c more :=
  List.filterMap_append

theorem waitingOf_map (c d : ClientId) (msgs : List Message) :
    waitingOf c (msgs.map (fun msg => (d, msg))) = if d = c then msgs else [] := by
  unfold waitingOf
  rw [List.filterMap_map]
  by_cases hd : d = c
  · simp [hd]
  · simp [hd]

theorem handledOf_eq_nil {e : MuxEvent} (hmay : s.mayDo e = true) (c : ClientId) :
    handledOf c [e] = [] := by
  cases e with
  | clientMessage d msg env => cases hmay
  | _ => rfl

theorem handledOf_received (c d : ClientId) (msg : Message) (env : Environment)
    (rest : List (ClientId × Message)) :
    handledOf c [.clientMessage d msg env] ++ waitingOf c rest =
      waitingOf c ((d, msg) :: rest) := by
  by_cases hd : d = c
  · simp [handledOf, messageOf, waitingOf, hd]
  · simp [handledOf, messageOf, waitingOf, hd]

/-- What is on the channel to a client stays there until the client is removed. -/
theorem channelLog_eq_append {m mux : MuxState} {e : MuxEvent} (hmux : m.step e = some mux)
    (hconnect : ∀ credentials, e ≠ .connect c credentials) (hdisconnect : e ≠ .disconnect c) :
    channelLog c mux = channelLog c m ++ sentBetween m mux c := by
  unfold sentBetween
  rcases MuxState.step_channelLog_of_stays hmux hconnect hdisconnect with hsame | ⟨m', _, hgrown⟩
  · rw [hsame, List.drop_length, List.append_nil]
  · rw [hgrown, List.drop_left]

/-- A client between its handler and the main loop. What the handler has read is what the
main loop has handled and what waits for it. What the handler has got is what was on the
channel after some part of the history, which is all of it while the handler runs. -/
structure Served (format : FdFormat Message) (start : MuxState) (s : Pipeline) (c : ClientId)
    (h : HandlerLoop Message) : Prop where
  read : handledOf c s.history ++ waitingOf c s.inbound = h.session.inbound
  wf : h.session.Wf
  decoded : ∀ msg ∈ h.session.inbound, ∃ bytes, format.fromBytes bytes = some msg
  whole : h.Whole format
  fed : ∃ before mux, before <+: s.history ∧ Trace.run MuxState.step start before = some mux ∧
    channelLog c mux = h.taken ++ h.outbound ∧ (h.session.running = true → before = s.history)

theorem session_deliver (h : HandlerLoop Message) (msgs : List Message) :
    (h.deliver msgs).session = h.session := by
  unfold HandlerLoop.deliver
  split <;> rfl

theorem whole_deliver (hwhole : h.Whole format) (msgs : List Message) :
    (h.deliver msgs).Whole format := by
  unfold HandlerLoop.deliver
  split
  · exact ⟨hwhole.stream, hwhole.last⟩
  · exact hwhole

variable {start : MuxState}

theorem Served.advanced (hserved : s.Served format start c h)
    (hrun : Trace.run MuxState.step start s.history = some s.mux) {e : MuxEvent} {mux : MuxState}
    (hmux : s.mux.step e = some mux) (hconnect : ∀ credentials, e ≠ .connect c credentials)
    (hdisconnect : e = .disconnect c → h.session.running = false)
    {inbound : List (ClientId × Message)}
    (hread : handledOf c [e] ++ waitingOf c inbound = waitingOf c s.inbound) :
    Served format start { s.advanced e mux with inbound := inbound } c
      (h.deliver (sentBetween s.mux mux c)) where
  read := by
    show handledOf c (s.history ++ [e]) ++ waitingOf c inbound = _
    rw [handledOf_append, List.append_assoc, hread, session_deliver]
    exact hserved.read
  wf := by
    rw [session_deliver]
    exact hserved.wf
  decoded := by
    rw [session_deliver]
    exact hserved.decoded
  whole := whole_deliver hserved.whole _
  fed := by
    obtain ⟨before, m, hbefore, hm, hlog, hlive⟩ := hserved.fed
    rw [session_deliver]
    cases hrunning : h.session.running with
    | false =>
        refine ⟨before, m, hbefore.trans (List.prefix_append _ _), hm, ?_, fun hfalse => ?_⟩
        · rw [HandlerLoop.deliver, hrunning]
          exact hlog
        · cases hfalse
    | true =>
        have hsame : m = s.mux := by
          rw [hlive hrunning, hrun] at hm
          exact (Option.some.inj hm).symm
        subst hsame
        have hstays : e ≠ .disconnect c := by
          intro heq
          rw [hdisconnect heq] at hrunning
          cases hrunning
        refine ⟨s.history ++ [e], mux, List.prefix_refl _,
          Trace.run_concat_eq_some.mpr ⟨s.mux, hrun, hmux⟩, ?_, fun _ => rfl⟩
        rw [channelLog_eq_append hmux hconnect hstays, hlog, HandlerLoop.deliver, hrunning,
          if_pos rfl, List.append_assoc]

theorem enqueued_eq_nil {e : HandlerEvent Message} (hown : e.isOwn = true) :
    HandlerLoop.enqueued [e] = [] := by
  cases e with
  | enqueue msg => cases hown
  | _ => rfl

theorem Served.handled (hserved : s.Served format start c h) {e : HandlerEvent Message}
    {h' : HandlerLoop Message} (hown : e.isOwn = true) (hstep : h.step format e = some h')
    (handlers : AssocMap ClientId (HandlerLoop Message)) :
    Served format start
      { s with
        handlers := handlers
        inbound := s.inbound ++
          (h'.session.inbound.drop h.session.inbound.length).map (fun msg => (c, msg)) } c h' := by
  obtain ⟨hwf, hinbound⟩ := HandlerLoop.step_inbound hserved.wf hstep
  refine {
    read := ?_
    wf := hwf
    decoded := ?_
    whole := hserved.whole.step hstep
    fed := ?_ }
  · show handledOf c s.history ++ waitingOf c (s.inbound ++ _) = _
    rw [waitingOf_append, waitingOf_map, if_pos rfl, ← List.append_assoc, hserved.read]
    rcases hinbound with hsame | ⟨_, msg, _, hgrown⟩
    · rw [hsame, List.drop_length, List.append_nil]
    · rw [hgrown, List.drop_left]
  · rcases hinbound with hsame | ⟨bytes, msg, hbytes, hgrown⟩
    · rw [hsame]
      exact hserved.decoded
    · rw [hgrown]
      intro m hm
      rcases List.mem_append.mp hm with hm | hm
      · exact hserved.decoded m hm
      · rw [List.mem_singleton.mp hm]
        exact ⟨bytes, hbytes⟩
  · obtain ⟨before, mux, hbefore, hmux, hlog, hlive⟩ := hserved.fed
    refine ⟨before, mux, hbefore, hmux, ?_, fun _ => hlive (HandlerLoop.step_session hstep).1⟩
    rw [hlog, HandlerLoop.step_taken_append_outbound hstep, enqueued_eq_nil hown, List.append_nil]

theorem Served.others (hserved : s.Served format start c h) {d : ClientId} (hd : d ≠ c)
    (read : List Message) (handlers : AssocMap ClientId (HandlerLoop Message)) :
    Served format start
      { s with
        handlers := handlers
        inbound := s.inbound ++ read.map (fun msg => (d, msg)) } c h where
  read := by
    show handledOf c s.history ++ waitingOf c (s.inbound ++ _) = _
    rw [waitingOf_append, waitingOf_map, if_neg hd, List.append_nil]
    exact hserved.read
  wf := hserved.wf
  decoded := hserved.decoded
  whole := hserved.whole
  fed := hserved.fed

theorem opened_eq {auth : SaslAuth} {socket : Socket} {credentials : ClientCredentials}
    (hopened : auth.opened processUid socket = some (credentials, h)) :
    ∃ result stream, auth.authenticateServer processUid socket.arriving = .ok (result, stream) ∧
      h = .accepted result.bufferedData stream.reader.arriving.flatten := by
  unfold SaslAuth.opened at hopened
  split at hopened
  · next hauth =>
      cases hopened
      exact ⟨_, _, hauth, rfl⟩
  · cases hopened

theorem Served.registered (hhandled : handledOf c s.history = [])
    (hwaiting : waitingOf c s.inbound = [])
    (hrun : Trace.run MuxState.step start s.history = some s.mux) {socket : Socket}
    {credentials : ClientCredentials} {mux : MuxState}
    (hopened : (SaslAuth.mk s.mux.guid).opened processUid socket = some (credentials, h))
    (hmux : s.mux.step (.connect c credentials) = some mux)
    (handlers : AssocMap ClientId (HandlerLoop Message)) :
    Served format start
      { s.advanced (.connect c credentials) mux with handlers := handlers } c h := by
  obtain ⟨result, stream, _, rfl⟩ := opened_eq hopened
  refine {
    read := ?_
    wf := Session.wf_accepted _ _
    decoded := fun msg hmsg => by cases hmsg
    whole := HandlerLoop.whole_accepted format _ _
    fed := ⟨s.history ++ [.connect c credentials], mux, List.prefix_refl _,
      Trace.run_concat_eq_some.mpr ⟨s.mux, hrun, hmux⟩, ?_, fun _ => rfl⟩ }
  · show handledOf c (s.history ++ [.connect c credentials]) ++ waitingOf c s.inbound = []
    rw [handledOf_append, hhandled, hwaiting]
    rfl
  · exact MuxState.step_channelLog_of_turnover hmux (Or.inl ⟨credentials, rfl⟩)

/-! ## Runs -/

/-- The history is one of the main loop alone, and every client is served. -/
structure Inv (format : FdFormat Message) (start : MuxState) (s : Pipeline) : Prop where
  run : Trace.run MuxState.step start s.history = some s.mux
  fresh : ∀ c, s.handlers.lookup c = none →
    handledOf c s.history = [] ∧ waitingOf c s.inbound = []
  served : ∀ c h, s.handlers.lookup c = some h → s.Served format start c h

theorem lookup_advanced (s : Pipeline) (e : MuxEvent) (mux : MuxState) (c : ClientId) :
    (s.advanced e mux).handlers.lookup c =
      (s.handlers.lookup c).map (fun h => h.deliver (sentBetween s.mux mux c)) :=
  AList.lookup_mapValues _ _ _

theorem inv_initial (format : FdFormat Message) (start : MuxState) :
    (initial start).Inv format start where
  run := rfl
  fresh _ _ := ⟨rfl, rfl⟩
  served c h hlookup := by cases hlookup

theorem Inv.advanced (hinv : s.Inv format start) {e : MuxEvent} {mux : MuxState}
    (hmux : s.mux.step e = some mux) (hconnect : ∀ c credentials, e ≠ .connect c credentials)
    (hdisconnect : ∀ c h, s.handlers.lookup c = some h → e = .disconnect c →
      h.session.running = false)
    {inbound : List (ClientId × Message)}
    (hread : ∀ c, handledOf c [e] ++ waitingOf c inbound = waitingOf c s.inbound) :
    Inv format start { s.advanced e mux with inbound := inbound } where
  run := Trace.run_concat_eq_some.mpr ⟨s.mux, hinv.run, hmux⟩
  fresh c hlookup := by
    have hnone : s.handlers.lookup c = none := by
      rw [lookup_advanced, Option.map_eq_none_iff] at hlookup
      exact hlookup
    obtain ⟨hhandled, hwaiting⟩ := hinv.fresh c hnone
    have hboth := hread c
    rw [hwaiting, List.append_eq_nil_iff] at hboth
    refine ⟨?_, hboth.2⟩
    show handledOf c (s.history ++ [e]) = []
    rw [handledOf_append, hhandled, hboth.1, List.append_nil]
  served c h hlookup := by
    rw [lookup_advanced, Option.map_eq_some_iff] at hlookup
    obtain ⟨h, hold, rfl⟩ := hlookup
    exact (hinv.served c h hold).advanced hinv.run hmux (hconnect c) (hdisconnect c h hold)
      (hread c)

theorem Inv.accepted (hinv : s.Inv format start) (hnew : c ∉ s.handlers) {socket : Socket}
    {credentials : ClientCredentials} {mux : MuxState}
    (hopened : (SaslAuth.mk s.mux.guid).opened processUid socket = some (credentials, h))
    (hmux : s.mux.step (.connect c credentials) = some mux) :
    Inv format start
      { s.advanced (.connect c credentials) mux with
        handlers := (s.advanced (.connect c credentials) mux).handlers.insert c h } where
  run := Trace.run_concat_eq_some.mpr ⟨s.mux, hinv.run, hmux⟩
  fresh d hlookup := by
    rw [AList.lookup_insert_if] at hlookup
    split at hlookup
    · cases hlookup
    · rw [lookup_advanced, Option.map_eq_none_iff] at hlookup
      obtain ⟨hhandled, hwaiting⟩ := hinv.fresh d hlookup
      refine ⟨?_, hwaiting⟩
      show handledOf d (s.history ++ [.connect c credentials]) = []
      rw [handledOf_append, hhandled]
      rfl
  served d h' hlookup := by
    rw [AList.lookup_insert_if] at hlookup
    split at hlookup
    · next hd =>
        cases hlookup
        rw [hd]
        obtain ⟨hhandled, hwaiting⟩ := hinv.fresh c (AList.lookup_eq_none.mpr hnew)
        exact .registered hhandled hwaiting hinv.run hopened hmux _
    · next hd =>
        rw [lookup_advanced, Option.map_eq_some_iff] at hlookup
        obtain ⟨h', hold, rfl⟩ := hlookup
        have hconnect : ∀ others, MuxEvent.connect c credentials ≠ .connect d others := by
          intro others heq
          cases heq
          exact hd rfl
        have hserved := (hinv.served d h' hold).advanced hinv.run hmux hconnect
          (fun heq => by cases heq) rfl
        exact ⟨hserved.read, hserved.wf, hserved.decoded, hserved.whole, hserved.fed⟩

theorem Inv.handled (hinv : s.Inv format start) {e : HandlerEvent Message}
    {h' : HandlerLoop Message} (hown : e.isOwn = true) (hlookup : s.handlers.lookup c = some h)
    (hstep : h.step format e = some h') :
    Inv format start
      { s with
        handlers := s.handlers.insert c h'
        inbound := s.inbound ++
          (h'.session.inbound.drop h.session.inbound.length).map (fun msg => (c, msg)) } where
  run := hinv.run
  fresh d hnone := by
    rw [AList.lookup_insert_if] at hnone
    split at hnone
    · cases hnone
    · next hd =>
        obtain ⟨hhandled, hwaiting⟩ := hinv.fresh d hnone
        refine ⟨hhandled, ?_⟩
        rw [waitingOf_append, hwaiting, waitingOf_map, if_neg (Ne.symm hd), List.append_nil]
  served d h'' hsome := by
    rw [AList.lookup_insert_if] at hsome
    split at hsome
    · next hd =>
        cases hsome
        rw [hd]
        exact (hinv.served c h hlookup).handled hown hstep _
    · next hd => exact (hinv.served d h'' hsome).others (Ne.symm hd) _ _

theorem Inv.step (hinv : s.Inv format start) {e : PipelineEvent}
    (hstep : s.step format processUid e = some t) : t.Inv format start := by
  cases step_stepped hstep with
  | refused => exact hinv
  | accepted hnew hopened hmux => exact hinv.accepted hnew hopened hmux
  | handled hown hlookup hhandler => exact hinv.handled hown hlookup hhandler
  | @received env c msg rest _ hinbound hmux =>
      refine hinv.advanced hmux (fun _ _ heq => by cases heq) (fun _ _ _ heq => by cases heq) ?_
      intro d
      rw [hinbound]
      exact handledOf_received d c msg env rest
  | @did e mux hmay hmux =>
      refine hinv.advanced hmux ?_ ?_ (fun c => by rw [handledOf_eq_nil hmay]; rfl)
      · rintro c credentials rfl
        cases hmay
      · rintro c h hlookup rfl
        simpa [mayDo, hlookup] using hmay

theorem run_inv {events : List PipelineEvent}
    (hrun : Trace.run (step format processUid) (initial start) events = some t) :
    t.Inv format start :=
  Trace.invariant_of_run (fun _ _ _ hs hu => hs.step hu) (inv_initial format start) hrun

/-! ## From end to end -/

structure IsHandshake (auth : SaslAuth) (processUid : UInt32) (bytes : List UInt8) : Prop where
  accepted : ∃ result stream,
    auth.authenticateServer processUid [bytes] = .ok (result, stream) ∧ stream.toCome = []
  line : bytes.getLast? = some Lines.lineFeed

/-- The client sends a handshake and then these frames, and is sent messages only between
its frames. -/
def SendsFrames (format : FdFormat Message) (processUid : UInt32) (c : ClientId)
    (frames : List Message) (s : Pipeline) : PipelineEvent → Prop
  | .accept d socket => d = c → ∃ handshake,
      IsHandshake ⟨s.mux.guid⟩ processUid handshake ∧
        socket.arriving.flatten = handshake ++ frames.flatMap format.data
  | .handler d e => d = c → ∀ h, s.handlers.lookup c = some h → h.TakesBetweenFrames e
  | .recv _ => True
  | .main _ => True

theorem reads_deliver {frames : List Message} (hreads : h.Reads format frames)
    (msgs : List Message) : (h.deliver msgs).Reads format frames := by
  unfold HandlerLoop.Reads
  rw [session_deliver]
  exact hreads

section Client

variable {frames : List Message} (hframes : ∀ msg ∈ frames, format.WellFormed msg)

include hframes

/-- However the stream is cut, the handler starts with the first byte behind the handshake. -/
theorem reads_opened {auth : SaslAuth} {socket : Socket} {credentials : ClientCredentials}
    {handshake : List UInt8} (hhandshake : IsHandshake auth processUid handshake)
    (hstream : socket.arriving.flatten = handshake ++ frames.flatMap format.data)
    (hopened : auth.opened processUid socket = some (credentials, h)) :
    h.Reads format frames := by
  obtain ⟨result, stream, hauth, rfl⟩ := opened_eq hopened
  obtain ⟨⟨result', stream', haccepted, hwhole⟩, hline⟩ := hhandshake
  obtain ⟨u, hu, hleft, _⟩ :=
    authenticateServer_append haccepted hwhole (fun _ => hline) hstream
  cases hauth.symm.trans hu
  exact .accepted hframes hleft

theorem reads_step {e : PipelineEvent} (hsends : s.SendsFrames format processUid c frames e)
    (hreads : ∀ h, s.handlers.lookup c = some h → h.Reads format frames)
    (hstep : s.step format processUid e = some t) :
    ∀ h, t.handlers.lookup c = some h → h.Reads format frames := by
  have hadvanced : ∀ e mux h, (s.advanced e mux).handlers.lookup c = some h →
      h.Reads format frames := by
    intro e mux h hlookup
    rw [lookup_advanced, Option.map_eq_some_iff] at hlookup
    obtain ⟨h, hold, rfl⟩ := hlookup
    exact reads_deliver (hreads h hold) _
  intro h hlookup
  cases step_stepped hstep with
  | refused => exact hreads h hlookup
  | @accepted d socket credentials _ _ _ hopened _ =>
      rw [AList.lookup_insert_if] at hlookup
      split at hlookup
      · next hd =>
          cases hlookup
          obtain ⟨handshake, hhandshake, hstream⟩ := hsends hd.symm
          exact reads_opened hframes hhandshake hstream hopened
      · exact hadvanced _ _ h hlookup
  | handled _ hold hhandler =>
      rw [AList.lookup_insert_if] at hlookup
      split at hlookup
      · next hd =>
          cases hlookup
          subst hd
          exact (hreads _ hold).step hframes (hsends rfl _ hold) hhandler
      · exact hreads h hlookup
  | @received env d msg _ mux _ _ => exact hadvanced (.clientMessage d msg env) mux h hlookup
  | did _ _ => exact hadvanced _ _ h hlookup

theorem run_reads {events : List PipelineEvent}
    (hrun : Trace.run (step format processUid) (initial start) events = some t)
    (hsends : Trace.Along (step format processUid) (SendsFrames format processUid c frames)
      (initial start) events)
    (hclient : t.handlers.lookup c = some h) : h.Reads format frames := by
  have hall : ∀ h, t.handlers.lookup c = some h → h.Reads format frames :=
    Trace.invariant_of_along
      (I := fun s : Pipeline => ∀ h, s.handlers.lookup c = some h → h.Reads format frames)
      (fun _ _ _ hs he hu => reads_step hframes he hs hu) (fun h hlookup => by cases hlookup)
      hsends hrun
  exact hall h hclient

end Client

/-- What the bytes of `callA` say. -/
def callMessage : Message where
  msgType := .methodCall
  serial := 1
  replySerial := none
  path := some "/"
  interface := none
  member := some "A"
  destination := none
  sender := none
  body := ⟨[], false⟩
  fds := []

def callFormat : FdFormat Message where
  fromBytes bytes := if bytes = Session.callA then some callMessage else none
  data _ := Session.callA
  data_of_fromBytes bytes msg h := by
    split at h
    · next heq => exact heq.symm
    · cases h
  fds := Message.fds

/-- A client connects and its call is read, but the bus cannot be reached. -/
def failingCall : List PipelineEvent :=
  [.accept 1 ⟨none, [directHandshake ++ Session.callA]⟩, .handler 1 (.poll 16),
    .handler 1 (.poll 32),
    .recv { MuxState.cooperative with send := fun _ _ => .error "closed" }]

def startingMux : MuxState := .initial (some ":1.5") (some ":1.88") 30 .new "0123"

theorem wellFormed_callMessage : callFormat.WellFormed callMessage :=
  ⟨by decide, by decide, by decide, by decide⟩

theorem isHandshake_directHandshake : IsHandshake ⟨"0123"⟩ 0 directHandshake where
  accepted := ⟨⟨1000, []⟩, ⟨⟨[], []⟩, [utf8Bytes "OK 0123\r\n"]⟩, by decide, rfl⟩
  line := by decide

theorem sendsFrames_failingCall :
    Trace.Along (step callFormat 0) (SendsFrames callFormat 0 1 [callMessage])
      (initial startingMux) failingCall := by
  have hpoll : ∀ (s : Pipeline) (n : Nat),
      s.SendsFrames callFormat 0 1 [callMessage] (.handler 1 (.poll n)) :=
    fun s n _ h _ heq => by cases heq
  refine ⟨fun _ => ⟨directHandshake, isHandshake_directHandshake, by decide⟩, fun _ _ => ?_⟩
  exact ⟨hpoll _ 16, fun _ _ => ⟨hpoll _ 32, fun _ _ => ⟨trivial, fun _ _ => trivial⟩⟩⟩

theorem run_failingCall :
    ∃ t h, Trace.run (step callFormat 0) (initial startingMux) failingCall = some t ∧
      t.handlers.lookup 1 = some h ∧ h.session.drained ∧ t.inbound = [] ∧
      t.history.countP (MuxState.isUnrewritten 1) = 0 ∧
      h.session.inbound = [callMessage] ∧
      (h.taken ++ h.outbound).countP (MuxState.isAnswerTo 1) = 1 := by
  have heval : (Trace.run (step callFormat 0) (initial startingMux) failingCall).any
      (fun t => decide (t.inbound = [] ∧ t.history.countP (MuxState.isUnrewritten 1) = 0 ∧
        (t.handlers.lookup 1).any (fun h => decide
          (h.session.drained ∧ h.session.inbound = [callMessage] ∧
            (h.taken ++ h.outbound).countP (MuxState.isAnswerTo 1) = 1)) = true)) = true := by
    decide +kernel
  obtain ⟨t, hrun, hinbound, hunrewritten, hany⟩ := Trace.exists_of_eval heval
  obtain ⟨h, hclient, hh⟩ := (Option.any_eq_true _ _).mp hany
  obtain ⟨hdrained, hread, hanswers⟩ := of_decide_eq_true hh
  exact ⟨t, h, hrun, hclient, hdrained, hinbound, hunrewritten, hread, hanswers⟩

section Start

variable {containerName hostName : Option String} {timeout : Nat} {routing : RoutingTable}
  {guid : String} {events : List PipelineEvent}

/-- For every run, whatever the clients, the buses and the kernel do, and every client. What
its handler has read, the main loop has handled, each message once and in order, or it
waits. What the client is sent came out of different events of the main loop, in their
order; as long as the handler runs that is all the main loop has put on its channel, and
the socket has what was taken from there, but for the rest of the last message. Where the
client sends a handshake and well-formed frames, and is sent messages only between them,
what is handled are its first frames, and all of them when everything has been read. -/
theorem end_to_end (format : FdFormat Message) (processUid : UInt32) {c : ClientId}
    (hrun : Trace.run (step format processUid)
      (initial (.initial containerName hostName timeout routing guid)) events = some t)
    (hclient : t.handlers.lookup c = some h) :
    Trace.run MuxState.step (.initial containerName hostName timeout routing guid) t.history =
        some t.mux ∧
      handledOf c t.history ++ waitingOf c t.inbound = h.session.inbound ∧
      List.SublistForall₂ (MuxState.CameFrom c) (h.taken ++ h.outbound) t.history ∧
      (h.session.running = true → channelLog c t.mux = h.taken ++ h.outbound) ∧
      (∃ rest, h.written ++ rest = h.taken.flatMap format.wire ∧
        (rest = [] ∨ ∃ done msg, h.taken = done ++ [msg] ∧ rest <:+ format.wire msg)) ∧
      ∀ frames, (∀ msg ∈ frames, format.WellFormed msg) →
        Trace.Along (step format processUid) (SendsFrames format processUid c frames)
          (initial (.initial containerName hostName timeout routing guid)) events →
        handledOf c t.history ++ waitingOf c t.inbound <+: frames ∧
          (h.session.drained → handledOf c t.history ++ waitingOf c t.inbound = frames) := by
  have hinv := run_inv hrun
  have hserved := hinv.served c h hclient
  obtain ⟨before, mux, hbefore, hmux, hlog, hlive⟩ := hserved.fed
  refine ⟨hinv.run, hserved.read, ?_, ?_, ⟨_, hserved.whole.stream, hserved.whole.last⟩, ?_⟩
  · have hfollows := MuxState.run_channelLog hmux c
    rw [hlog] at hfollows
    obtain ⟨sub, hsub, hsublist⟩ := List.sublistForall₂_iff.mp hfollows
    exact List.sublistForall₂_iff.mpr ⟨sub, hsub, hsublist.trans hbefore.sublist⟩
  · intro hrunning
    rw [hlive hrunning, hinv.run] at hmux
    rw [Option.some.inj hmux]
    exact hlog
  · intro frames hframes hsends
    have hreads := run_reads hframes hrun hsends hclient
    rw [hserved.read]
    exact ⟨hreads.inbound_prefix hframes, hreads.inbound_eq hframes⟩

theorem end_to_end_failingCall :
    ∃ t, Trace.run (step callFormat 0) (initial startingMux) failingCall = some t ∧
      handledOf 1 t.history = [callMessage] := by
  obtain ⟨t, h, hrun, hclient, hdrained, hinbound, _, _, _⟩ := run_failingCall
  have hframes : ∀ msg ∈ [callMessage], callFormat.WellFormed msg := by
    intro msg hmsg
    rw [List.mem_singleton.mp hmsg]
    exact wellFormed_callMessage
  obtain ⟨_, _, _, _, _, hall⟩ := end_to_end callFormat 0 hrun hclient
  have hhandled := (hall [callMessage] hframes sendsFrames_failingCall).2 hdrained
  rw [hinbound] at hhandled
  exact ⟨t, hrun, (List.append_nil _).symm.trans hhandled⟩

def isCallWith (serial : UInt32) (msg : Message) : Bool :=
  msg.isMethodCall && decide (msg.serial = serial)

theorem countP_handledOf (c : ClientId) (serial : UInt32) (history : List MuxEvent) :
    (handledOf c history).countP (isCallWith serial) =
      history.countP (MuxState.isCallOf c serial) := by
  unfold handledOf
  rw [List.countP_filterMap]
  congr 1
  funext e
  cases e with
  | clientMessage d msg env =>
      by_cases hd : d = c
      · simp [messageOf, isCallWith, MuxState.isCallOf, hd]
      · simp [messageOf, MuxState.isCallOf, hd]
  | _ => rfl

/-- Every message the main loop has handled was decoded by a handler. -/
theorem Inv.decoded {start : MuxState} (hinv : s.Inv format start) {d : ClientId} {msg : Message}
    {env : Environment} (hmem : .clientMessage d msg env ∈ s.history) :
    ∃ bytes, format.fromBytes bytes = some msg := by
  have hhandled : msg ∈ handledOf d s.history :=
    List.mem_filterMap.mpr ⟨_, hmem, if_pos rfl⟩
  cases hlookup : s.handlers.lookup d with
  | none =>
      rw [(hinv.fresh d hlookup).1] at hhandled
      cases hhandled
  | some h =>
      have hserved := hinv.served d h hlookup
      refine hserved.decoded msg ?_
      rw [← hserved.read]
      exact List.mem_append_left _ hhandled

/-- Decoded messages have serials other than 0, as their type says. Then, under any serial,
a client is sent at most as many answers as calls have been read from its socket, not
counting replies that have this serial from a bus and cannot be rewritten. -/
theorem answers_le_read (format : FdFormat Message) (processUid : UInt32)
    (hserials : ∀ bytes msg, format.fromBytes bytes = some msg → msg.serial ≠ 0) {c : ClientId}
    (hrun : Trace.run (step format processUid)
      (initial (.initial containerName hostName timeout routing guid)) events = some t)
    (hclient : t.handlers.lookup c = some h) (serial : UInt32) :
    (h.taken ++ h.outbound).countP (MuxState.isAnswerTo serial) ≤
      h.session.inbound.countP (isCallWith serial) +
        t.history.countP (MuxState.isUnrewritten serial) := by
  have hinv := run_inv hrun
  have hserved := hinv.served c h hclient
  obtain ⟨before, mux, hbefore, hmux, hlog, _⟩ := hserved.fed
  have hnumbered : ∀ d msg env, .clientMessage d msg env ∈ before → msg.serial ≠ 0 := by
    intro d msg env hmem
    obtain ⟨bytes, hbytes⟩ := hinv.decoded (hbefore.subset hmem)
    exact hserials bytes msg hbytes
  have hcalls : before.countP (MuxState.isCallOf c serial) ≤
      h.session.inbound.countP (isCallWith serial) := by
    calc before.countP (MuxState.isCallOf c serial)
        ≤ t.history.countP (MuxState.isCallOf c serial) := hbefore.sublist.countP_le
      _ = (handledOf c t.history).countP (isCallWith serial) := (countP_handledOf c serial _).symm
      _ ≤ (handledOf c t.history ++ waitingOf c t.inbound).countP (isCallWith serial) :=
          (List.sublist_append_left _ _).countP_le
      _ = h.session.inbound.countP (isCallWith serial) := by rw [hserved.read]
  calc (h.taken ++ h.outbound).countP (MuxState.isAnswerTo serial)
      = (channelLog c mux).countP (MuxState.isAnswerTo serial) := by rw [hlog]
    _ ≤ MuxState.answersDue c serial mux := Nat.le_add_right _ _
    _ ≤ before.countP (MuxState.isCallOf c serial) +
          before.countP (MuxState.isUnrewritten serial) :=
        MuxState.run_answersDue hnumbered hmux c serial
    _ ≤ h.session.inbound.countP (isCallWith serial) +
          t.history.countP (MuxState.isUnrewritten serial) :=
        Nat.add_le_add hcalls hbefore.sublist.countP_le

theorem answers_le_read_failingCall :
    ∃ t h, Trace.run (step callFormat 0) (initial startingMux) failingCall = some t ∧
      t.handlers.lookup 1 = some h ∧
      (h.taken ++ h.outbound).countP (MuxState.isAnswerTo 1) = 1 ∧
      1 ≤ h.session.inbound.countP (isCallWith 1) := by
  obtain ⟨t, h, hrun, hclient, _, _, hunrewritten, _, hanswers⟩ := run_failingCall
  have hserials : ∀ bytes msg, callFormat.fromBytes bytes = some msg → msg.serial ≠ 0 := by
    intro bytes msg hmsg
    by_cases hbytes : bytes = Session.callA
    · rw [hbytes] at hmsg
      cases hmsg
      decide
    · simp [callFormat, hbytes] at hmsg
  have hle := answers_le_read callFormat 0 hserials hrun hclient 1
  rw [hanswers, hunrewritten] at hle
  exact ⟨t, h, hrun, hclient, hanswers, hle⟩

end Start

end Pipeline

end KapsuleDbusMux
