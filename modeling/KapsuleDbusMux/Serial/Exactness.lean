import KapsuleDbusMux.Serial.Correlation

/-! # Replies reach their callers, and only them

While fewer than a full cycle of serials is drawn during the life of a call,
the serial map holds one entry for each call that awaits its reply and nothing
else. Every result of `handle_reply` follows from that. A reply to one of the
multiplexer's own calls is the exception: its number comes from another counter
and may be the number of a waiting call.
-/

namespace KapsuleDbusMux.Correlation

open SerialGenerator (serialOf cycle)

/-- Fewer than 2³² − 1 further calls are forwarded on a route while a call awaits
its reply, and while a reply is still on its way. -/
def Window (s : System) : Event → Prop
  | .forward _ _ route _ => ∀ index call, s.calls ⟨route, index⟩ = some call →
      call.awaiting = true → s.drawn route - index < cycle
  | .recv route => ∀ arrival rest id, s.arrivals route = arrival :: rest →
      arrival.origin = .call id → s.drawn route - (id.index + 1) < cycle
  | _ => True

/-- No client call that awaits its reply on this route has the number of the
multiplexer's own call whose reply is received now. -/
def NoClash (s : System) : Event → Prop
  | .recv route => ∀ arrival rest serial, s.arrivals route = arrival :: rest →
      arrival.origin = .own serial → ∀ index call, s.calls ⟨route, index⟩ = some call →
      call.awaiting = true → serialOf index ≠ serial
  | _ => True

/-- The reply to an own call finds no pending entry and takes none away. -/
def OwnReplyQuiet (s : System) : Event → Prop
  | .recv route => ∀ arrival rest serial, s.arrivals route = arrival :: rest →
      arrival.origin = .own serial →
      (s.router.handleReply arrival.msg route).1 = .ok none ∧
      ∀ other z, (s.router.handleReply arrival.msg route).2.pendingAt other z =
        s.router.pendingAt other z
  | _ => True

structure Exact (s : System) : Prop extends Wf s where
  call_entry : ∀ route index call, s.calls ⟨route, index⟩ = some call → call.awaiting = true →
    ∃ time, s.router.pendingAt route (serialOf index) =
      some ⟨call.clientId, call.clientSerial, time⟩
  in_window : ∀ id call, s.calls id = some call → call.handled = false →
    call.expired = false → s.drawn id.route - id.index ≤ cycle
  outcome_exact : ∀ outcome ∈ s.outcomes, ∀ id, outcome.origin = .call id →
    ∀ call, s.calls id = some call →
      outcome.result =
        .ok (if call.expired then none else some (call.clientId, call.clientSerial))
  handled_outcome : ∀ id call, s.calls id = some call → call.handled = true →
    ∃ outcome ∈ s.outcomes, outcome.origin = .call id

theorem exact_init (containerName hostName : Option String) (timeout : Nat) (now : Instant) :
    Exact (init containerName hostName timeout now) where
  toWf := wf_init containerName hostName timeout now
  call_entry := by intro route index call h; cases h
  in_window := by intro id call h; cases h
  outcome_exact := by intro outcome h; cases h
  handled_outcome := by intro id call h; cases h

theorem Call.awaiting_iff {call : Call} :
    call.awaiting = true ↔
      call.recorded = true ∧ call.handled = false ∧ call.expired = false := by
  simp [Call.awaiting, and_assoc]

theorem serial_ne {drawn m n : Nat} (hm : m < drawn) (hn : n < drawn) (hne : m ≠ n)
    (hwm : drawn - m ≤ cycle) (hwn : drawn - n ≤ cycle) : serialOf m ≠ serialOf n := by
  rcases Nat.lt_or_gt_of_ne hne with h | h
  · exact SerialGenerator.serialOf_inj_of_lt_cycle h (by omega)
  · exact (SerialGenerator.serialOf_inj_of_lt_cycle h (by omega)).symm

namespace Exact

variable {s : System}

/-- The only entry under the number of a recent call is its own. -/
theorem pending_none (hs : Exact s) {id : CallId} {call : Call} (hcall : s.calls id = some call)
    (hwindow : s.drawn id.route - id.index ≤ cycle) (hnot : call.awaiting = false) :
    s.router.pendingAt id.route (serialOf id.index) = none := by
  cases hp : s.router.pendingAt id.route (serialOf id.index) with
  | none => rfl
  | some entry =>
      exfalso
      obtain ⟨index, other, hother, haw, hserial, _⟩ := hs.entry_call _ _ _ hp
      obtain ⟨_, hhandled, hexpired⟩ := Call.awaiting_iff.mp haw
      have hlt := (hs.call_serial _ _ hother).1
      have hltid := (hs.call_serial _ _ hcall).1
      have hw := hs.in_window _ _ hother hhandled hexpired
      have hne : index ≠ id.index := by
        intro he
        subst he
        rw [hcall] at hother
        cases hother
        rw [hnot] at haw
        cases haw
      exact serial_ne hlt hltid hne hw hwindow hserial

theorem draw (hs : Exact s) (route : Route)
    (hidle : s.recording = none)
    (hwindow : ∀ index call, s.calls ⟨route, index⟩ = some call →
      call.awaiting = true → s.drawn route - index < cycle) :
    Exact { s with
      router := s.router.setConnection (s.router.connectionFor route).nextSerial.2 route
      drawn := Function.update s.drawn route (s.drawn route + 1) } where
  toWf := hs.toWf.draw route
  call_entry := by
    intro other index call h haw
    have hentry := hs.call_entry other index call h haw
    simpa [MessageRouter.pendingAt] using hentry
  in_window := by
    intro id call h hhandled hexpired
    by_cases hr : id.route = route
    · subst hr
      have hrec := hs.toWf.recorded_of_idle hidle h
      have hw := hwindow id.index call h (Call.awaiting_iff.mpr ⟨hrec, hhandled, hexpired⟩)
      simp only [Function.update_self]
      omega
    · simp only [Function.update_of_ne hr]
      exact hs.in_window id call h hhandled hexpired
  outcome_exact := hs.outcome_exact
  handled_outcome := hs.handled_outcome

theorem send (hs : Exact s) (hidle : s.recording = none) (id : CallId) (hnew : s.calls id = none)
    (hindex : id.index + 1 = s.drawn id.route) (clientId : ClientId) (clientSerial : UInt32) :
    Exact { s with
      recording := some ⟨⟨clientId, clientSerial, id.route, serialOf id.index⟩, id.index⟩
      calls := Function.update s.calls id
        (some ⟨clientId, clientSerial, serialOf id.index, false, false, false, false⟩) } := by
  have hcases : ∀ {other : CallId} {call : Call},
      Function.update s.calls id
        (some ⟨clientId, clientSerial, serialOf id.index, false, false, false, false⟩) other =
        some call →
      s.calls other = some call ∨ (other = id ∧ call.recorded = false ∧ call.handled = false) := by
    intro other call h
    by_cases he : other = id
    · subst he
      rw [Function.update_self] at h
      cases h
      exact Or.inr ⟨rfl, rfl, rfl⟩
    · rw [Function.update_of_ne he] at h
      exact Or.inl h
  constructor
  case toWf =>
    exact hs.toWf.send hidle id hnew (by omega) clientId clientSerial
  case call_entry =>
    intro route index call h haw
    rcases hcases h with h | ⟨_, hrec, _⟩
    · exact hs.call_entry route index call h haw
    · rw [(Call.awaiting_iff.mp haw).1] at hrec
      cases hrec
  case in_window =>
    intro other call h hhandled hexpired
    rcases hcases h with h | ⟨rfl, _, _⟩
    · exact hs.in_window other call h hhandled hexpired
    · have hcycle : 1 ≤ cycle := by decide
      change s.drawn other.route - other.index ≤ cycle
      omega
  case outcome_exact =>
    intro outcome hmem other horigin call h
    rcases hcases h with h | ⟨rfl, _, hh⟩
    · exact hs.outcome_exact outcome hmem other horigin call h
    · obtain ⟨_, old, hold, _⟩ := hs.outcome_call outcome hmem other horigin
      rw [hnew] at hold
      cases hold
  case handled_outcome =>
    intro other call h hh
    rcases hcases h with h | ⟨_, _, hnot⟩
    · exact hs.handled_outcome other call h hh
    · rw [hnot] at hh
      cases hh

theorem forward (hs : Exact s) (hidle : s.recording = none) (clientId : ClientId) (msg : Message)
    (route : Route) (delivered : Bool)
    (hwindow : ∀ index call, s.calls ⟨route, index⟩ = some call →
      call.awaiting = true → s.drawn route - index < cycle) :
    Exact (s.forward clientId msg route delivered) := by
  have hserial : (s.router.connectionFor route).serialGen.next.1 = serialOf (s.drawn route) := by
    rw [hs.numbered]
    rfl
  rcases System.forward_eq s clientId msg route delivered with h | h
  · rw [h]
    exact hs.draw route hidle hwindow
  · rw [h, hserial]
    exact (hs.draw route hidle hwindow).send hidle ⟨route, s.drawn route⟩
      (hs.toWf.fresh route) (by simp) clientId msg.serial

/-- When a call is about to be recorded, its key is free. -/
theorem not_overwritten (hs : Exact s) {recording : Recording}
    (hrec : s.recording = some recording) :
    s.router.pendingAt recording.call.route recording.call.forwardedSerial = none := by
  obtain ⟨call, hcall, hnot, heq⟩ := hs.recording_call recording hrec
  obtain ⟨hhandled, hexpired, _⟩ := hs.unrecorded _ _ hcall hnot
  have hserial := (hs.call_serial _ _ hcall).2
  have hnone := hs.pending_none hcall (hs.in_window _ _ hcall hhandled hexpired)
    (by simp [Call.awaiting, hnot])
  rw [heq, hserial]
  exact hnone

theorem record (hs : Exact s) {recording : Recording} (hrec : s.recording = some recording) :
    Exact (s.record recording) := by
  obtain ⟨current, hcurrent, hnot, hcall⟩ := hs.recording_call recording hrec
  obtain ⟨hhandled, hexpired, _⟩ := hs.unrecorded _ _ hcurrent hnot
  have hserial := (hs.call_serial _ _ hcurrent).2
  have hbefore : ∀ {id : CallId} {call : Call}, (s.record recording).calls id = some call →
      ∃ before, s.calls id = some before ∧ call.clientId = before.clientId ∧
        call.clientSerial = before.clientSerial ∧ call.handled = before.handled ∧
        call.expired = before.expired ∧ (id ≠ recording.id → call = before) := by
    intro id call h
    obtain ⟨before, hb, rfl⟩ := System.amend_eq_some.mp h
    refine ⟨before, hb, ?_⟩
    split <;> simp_all
  constructor
  case toWf =>
    exact hs.toWf.record hrec
  case call_entry =>
    intro route index call h haw
    obtain ⟨before, hb, h1, h2, h3, h4, hsame⟩ := hbefore h
    rw [show (s.record recording).router = s.router.recordForward s.now recording.call from rfl,
      MessageRouter.pendingAt_recordForward]
    by_cases he : (⟨route, index⟩ : CallId) = recording.id
    · have hfields : route = recording.id.route ∧ index = recording.id.index := by
        rw [← he]
        exact ⟨rfl, rfl⟩
      rw [he, hcurrent] at hb
      cases hb
      rw [hcall, if_pos ⟨hfields.1, by rw [hfields.2]; exact hserial.symm⟩]
      exact ⟨s.now, by rw [h1, h2]⟩
    · obtain rfl := hsame he
      have hw := Call.awaiting_iff.mp haw
      rw [if_neg]
      · exact hs.call_entry route index call hb haw
      · rintro ⟨hr, hz⟩
        subst hr
        rw [hcall] at hz
        apply serial_ne (hs.call_serial _ _ hb).1 (hs.call_serial _ _ hcurrent).1
          (fun hi => he (CallId.ext rfl hi)) (hs.in_window _ _ hb hw.2.1 hw.2.2)
          (hs.in_window _ _ hcurrent hhandled hexpired)
        rw [hz]
        exact hserial
  case in_window =>
    intro id call h hh hx
    obtain ⟨before, hb, _, _, h3, h4, _⟩ := hbefore h
    exact hs.in_window id before hb (h3 ▸ hh) (h4 ▸ hx)
  case outcome_exact =>
    intro outcome hmem id horigin call h
    obtain ⟨before, hb, h1, h2, _, h4, _⟩ := hbefore h
    rw [h1, h2, h4]
    exact hs.outcome_exact outcome hmem id horigin before hb
  case handled_outcome =>
    intro id call h hh
    obtain ⟨before, hb, _, _, h3, _, _⟩ := hbefore h
    exact hs.handled_outcome id before hb (h3 ▸ hh)

theorem reply (hs : Exact s) {id : CallId} {arrivals : Route → List Arrival}
    (hwf : Wf { s with
      calls := s.amend id (fun call => { call with replied := true })
      arrivals := arrivals }) :
    Exact { s with
      calls := s.amend id (fun call => { call with replied := true })
      arrivals := arrivals } := by
  have hbefore : ∀ {other : CallId} {call : Call},
      s.amend id (fun call => { call with replied := true }) other = some call →
      ∃ before, s.calls other = some before ∧ call = { before with replied := call.replied } := by
    intro other call h
    obtain ⟨before, hb, rfl⟩ := System.amend_eq_some.mp h
    refine ⟨before, hb, ?_⟩
    split <;> rfl
  constructor
  case toWf =>
    exact hwf
  case call_entry =>
    intro route index call h haw
    obtain ⟨before, hb, heq⟩ := hbefore h
    rw [heq] at haw ⊢
    exact hs.call_entry route index before hb haw
  case in_window =>
    intro other call h hh hx
    obtain ⟨before, hb, heq⟩ := hbefore h
    rw [heq] at hh hx
    exact hs.in_window other before hb hh hx
  case outcome_exact =>
    intro outcome hmem other horigin call h
    obtain ⟨before, hb, heq⟩ := hbefore h
    rw [heq]
    exact hs.outcome_exact outcome hmem other horigin before hb
  case handled_outcome =>
    intro other call h hh
    obtain ⟨before, hb, heq⟩ := hbefore h
    rw [heq] at hh
    exact hs.handled_outcome other before hb hh

theorem handleReply_call (hs : Exact s) (hidle : s.recording = none) {id : CallId} {call : Call}
    {msg : Message} (hcall : s.calls id = some call) (hopen : call.handled = false)
    (hmsg : msg.replySerial = some call.forwardedSerial)
    (hwindow : s.drawn id.route - id.index ≤ cycle) :
    (s.router.handleReply msg id.route).1 =
      .ok (if call.expired then none else some (call.clientId, call.clientSerial)) := by
  have hserial := (hs.call_serial _ _ hcall).2
  have hrec := hs.toWf.recorded_of_idle hidle hcall
  rw [MessageRouter.handleReply_fst hmsg, hserial]
  cases hx : call.expired with
  | true =>
      rw [hs.pending_none hcall hwindow (by simp [Call.awaiting, hx])]
      rfl
  | false =>
      obtain ⟨time, hentry⟩ := hs.call_entry id.route id.index call hcall
        (Call.awaiting_iff.mpr ⟨hrec, hopen, hx⟩)
      rw [hentry]
      rfl

theorem recvCall (hs : Exact s) (hidle : s.recording = none) {route : Route} {arrival : Arrival}
    {rest : List Arrival} {id : CallId} (hstream : s.arrivals route = arrival :: rest)
    (horigin : arrival.origin = .call id) (hwindow : s.drawn route - (id.index + 1) < cycle) :
    Exact (s.recv route arrival rest) := by
  have hwf := hs.toWf.recv hidle hstream
  obtain ⟨hroute, call, hcall, _, hopen, hmsg⟩ :=
    hs.arrival_call route arrival id (by rw [hstream]; exact List.mem_cons_self) horigin
  subst hroute
  have hserial := (hs.call_serial _ _ hcall).2
  have hlt := (hs.call_serial _ _ hcall).1
  have hw : s.drawn id.route - id.index ≤ cycle := by omega
  have hresult := hs.handleReply_call hidle hcall hopen hmsg hw
  have hcalls : (s.recv id.route arrival rest).calls = s.handled (.call id) := by
    simp [System.recv, horigin]
  have hself : (s.recv id.route arrival rest).calls id = some { call with handled := true } := by
    rw [hcalls]
    exact System.amend_eq_some.mpr ⟨call, hcall, by simp⟩
  have hother : ∀ {other : CallId} {c : Call}, other ≠ id →
      (s.recv id.route arrival rest).calls other = some c → s.calls other = some c := by
    intro other c hne h
    rw [hcalls] at h
    obtain ⟨before, hb, rfl⟩ := System.amend_eq_some.mp h
    simpa [hne] using hb
  constructor
  case toWf =>
    exact hwf
  case call_entry =>
    intro other index c h haw
    obtain ⟨_, hh, hx⟩ := Call.awaiting_iff.mp haw
    have hne : (⟨other, index⟩ : CallId) ≠ id := by
      intro he
      rw [he, hself] at h
      cases h
      cases hh
    have hc := hother hne h
    obtain ⟨time, hentry⟩ := hs.call_entry other index c hc haw
    refine ⟨time, ?_⟩
    rw [← hentry]
    refine (MessageRouter.pendingAt_handleReply hmsg id.route other _).trans (if_neg ?_)
    rintro ⟨hr, hz⟩
    subst hr
    exact serial_ne (hs.call_serial _ _ hc).1 hlt (fun hi => hne (CallId.ext rfl hi))
      (hs.in_window _ _ hc hh hx) hw (hz.trans hserial)
  case in_window =>
    intro other c h hh hx
    have hne : other ≠ id := by
      intro he
      rw [he, hself] at h
      cases h
      cases hh
    exact hs.in_window other c (hother hne h) hh hx
  case outcome_exact =>
    intro outcome hmem other ho c h
    rcases List.mem_append.mp hmem with hold | hnew
    · have hne : other ≠ id := by
        intro he
        obtain ⟨_, c', hc', hh'⟩ := hs.outcome_call outcome hold other ho
        rw [he, hcall] at hc'
        cases hc'
        rw [hopen] at hh'
        cases hh'
      exact hs.outcome_exact outcome hold other ho c (hother hne h)
    · have heq := List.mem_singleton.mp hnew
      subst heq
      cases horigin.symm.trans ho
      cases hself.symm.trans h
      exact hresult
  case handled_outcome =>
    intro other c h hh
    by_cases he : other = id
    · subst he
      exact ⟨_, List.mem_append.mpr (Or.inr (List.mem_singleton.mpr rfl)), horigin⟩
    · obtain ⟨outcome, hmem, ho⟩ := hs.handled_outcome other c (hother he h) hh
      exact ⟨outcome, List.mem_append.mpr (Or.inl hmem), ho⟩

theorem recvOwn (hs : Exact s) (hidle : s.recording = none) {route : Route} {arrival : Arrival}
    {rest : List Arrival} {serial : UInt32} (hstream : s.arrivals route = arrival :: rest)
    (horigin : arrival.origin = .own serial)
    (hclash : ∀ index call, s.calls ⟨route, index⟩ = some call → call.awaiting = true →
      serialOf index ≠ serial) : Exact (s.recv route arrival rest) := by
  have hmsg := hs.arrival_own route arrival serial
    (by rw [hstream]; exact List.mem_cons_self) horigin
  have hcalls : (s.recv route arrival rest).calls = s.calls := by
    simp [System.recv, horigin, System.handled]
  constructor
  case toWf =>
    exact hs.toWf.recv hidle hstream
  case call_entry =>
    intro other index call h haw
    rw [hcalls] at h
    obtain ⟨time, hentry⟩ := hs.call_entry other index call h haw
    refine ⟨time, ?_⟩
    rw [← hentry]
    refine (MessageRouter.pendingAt_handleReply hmsg route other _).trans (if_neg ?_)
    rintro ⟨hr, hz⟩
    subst hr
    exact hclash index call h haw hz
  case in_window =>
    intro id call h
    rw [hcalls] at h
    exact hs.in_window id call h
  case outcome_exact =>
    intro outcome hmem id ho call h
    rw [hcalls] at h
    rcases List.mem_append.mp hmem with hold | hnew
    · exact hs.outcome_exact outcome hold id ho call h
    · have heq := List.mem_singleton.mp hnew
      subst heq
      cases horigin.symm.trans ho
  case handled_outcome =>
    intro id call h hh
    rw [hcalls] at h
    obtain ⟨outcome, hmem, ho⟩ := hs.handled_outcome id call h hh
    exact ⟨outcome, List.mem_append.mpr (Or.inl hmem), ho⟩

theorem tick (hs : Exact s) (hidle : s.recording = none) : Exact s.tick := by
  have hbefore : ∀ {id : CallId} {call : Call}, s.tick.calls id = some call →
      ∃ before, s.calls id = some before ∧ call = { before with expired := call.expired } ∧
        (call.expired = false → before.expired = false ∧
          System.removedBy s.router (s.router.cleanupExpired s.now).2 id before = false) ∧
        (before.handled = true → call = before) := by
    intro id call h
    obtain ⟨before, hb, rfl⟩ := Option.map_eq_some_iff.mp h
    refine ⟨before, hb, ?_⟩
    split
    · next hremoved =>
        refine ⟨rfl, fun hx => ?_, fun hh => ?_⟩
        · cases hx
        · simp [System.removedBy, Call.awaiting, hh] at hremoved
    · next hkept => exact ⟨rfl, fun hx => ⟨hx, by simpa using hkept⟩, fun _ => rfl⟩
  constructor
  case toWf =>
    exact hs.toWf.tick hidle
  case call_entry =>
    intro route index call h haw
    obtain ⟨before, hb, heq, hkeep, _⟩ := hbefore h
    obtain ⟨hrec, hh, hx⟩ := Call.awaiting_iff.mp haw
    obtain ⟨hbx, hkept⟩ := hkeep hx
    have hbaw : before.awaiting = true := by
      rw [heq] at hrec hh
      exact Call.awaiting_iff.mpr ⟨hrec, hh, hbx⟩
    obtain ⟨time, hentry⟩ := hs.call_entry route index before hb hbaw
    have hfs := (hs.call_serial _ _ hb).2
    refine ⟨time, ?_⟩
    change (s.router.cleanupExpired s.now).2.pendingAt route (serialOf index) = _
    cases hafter : (s.router.cleanupExpired s.now).2.pendingAt route (serialOf index) with
    | none =>
        simp only [System.removedBy] at hkept
        rw [hfs, hafter, hentry, hbaw] at hkept
        simp at hkept
    | some entry =>
        rw [MessageRouter.pendingAt_cleanupExpired, hentry] at hafter
        have hsome := (Option.filter_eq_some_iff.mp hafter).1
        cases hsome
        rw [heq]
  case in_window =>
    intro id call h hh hx
    obtain ⟨before, hb, heq, hkeep, _⟩ := hbefore h
    rw [heq] at hh
    exact hs.in_window id before hb hh (hkeep hx).1
  case outcome_exact =>
    intro outcome hmem id horigin call h
    obtain ⟨before, hb, _, _, hsame⟩ := hbefore h
    obtain ⟨_, c, hc, hh⟩ := hs.outcome_call outcome hmem id horigin
    rw [hb] at hc
    cases hc
    rw [hsame hh]
    exact hs.outcome_exact outcome hmem id horigin before hb
  case handled_outcome =>
    intro id call h hh
    obtain ⟨before, hb, heq, _, _⟩ := hbefore h
    rw [heq] at hh
    exact hs.handled_outcome id before hb hh

theorem step (hs : Exact s) {t : System} {e : Event} (hwindow : Window s e)
    (hclash : NoClash s e) (h : s.step e = some t) : Exact t := by
  have hwf := wf_step hs.toWf h
  cases e with
  | forward clientId msg route delivered =>
      obtain ⟨hidle, ⟨⟩⟩ := Option.ite_none_right_eq_some.mp h
      exact hs.forward hidle clientId msg route delivered hwindow
  | record =>
      obtain ⟨recording, hrec, rfl⟩ := Option.map_eq_some_iff.mp h
      exact hs.record hrec
  | reply id msg =>
      cases hc : s.calls id with
      | none => simp [System.step, hc] at h
      | some call =>
          simp only [System.step, hc] at h
          obtain ⟨_, ⟨⟩⟩ := Option.ite_none_right_eq_some.mp h
          exact hs.reply hwf
  | ownCall route serial =>
      cases h
      exact ⟨hwf, hs.call_entry, hs.in_window, hs.outcome_exact, hs.handled_outcome⟩
  | ownReply route serial msg =>
      obtain ⟨_, ⟨⟩⟩ := Option.ite_none_right_eq_some.mp h
      exact ⟨hwf, hs.call_entry, hs.in_window, hs.outcome_exact, hs.handled_outcome⟩
  | recv route =>
      obtain ⟨hidle, h⟩ := Option.ite_none_right_eq_some.mp h
      cases hstream : s.arrivals route with
      | nil => simp [hstream] at h
      | cons arrival rest =>
          simp only [hstream] at h
          cases h
          cases ho : arrival.origin with
          | call id => exact hs.recvCall hidle hstream ho (hwindow arrival rest id hstream ho)
          | own serial => exact hs.recvOwn hidle hstream ho (hclash arrival rest serial hstream ho)
  | tick =>
      obtain ⟨hidle, ⟨⟩⟩ := Option.ite_none_right_eq_some.mp h
      exact hs.tick hidle
  | elapse duration =>
      cases h
      exact ⟨hwf, hs.call_entry, hs.in_window, hs.outcome_exact, hs.handled_outcome⟩

end Exact

/-! ## Replies to the multiplexer's own calls -/

theorem Wf.quiet_of_noClash {s : System} (hs : Wf s) {e : Event} (h : NoClash s e) :
    OwnReplyQuiet s e := by
  cases e with
  | recv route =>
      intro arrival rest serial hstream horigin
      have hmsg := hs.arrival_own route arrival serial
        (by rw [hstream]; exact List.mem_cons_self) horigin
      have hnone : s.router.pendingAt route serial = none := by
        cases hp : s.router.pendingAt route serial with
        | none => rfl
        | some entry =>
            obtain ⟨index, call, hcall, haw, hserial, _⟩ := hs.entry_call _ _ _ hp
            exact (h arrival rest serial hstream horigin index call hcall haw hserial).elim
      refine ⟨by rw [MessageRouter.handleReply_fst hmsg, hnone]; rfl, fun other z => ?_⟩
      rw [MessageRouter.pendingAt_handleReply hmsg]
      split
      · next hkey => rw [hkey.1, hkey.2, hnone]
      · rfl
  | _ => trivial

theorem Exact.noClash_of_quiet {s : System} (hs : Exact s) {e : Event} (h : OwnReplyQuiet s e) :
    NoClash s e := by
  cases e with
  | recv route =>
      intro arrival rest serial hstream horigin index call hcall haw hserial
      have hmsg := hs.arrival_own route arrival serial
        (by rw [hstream]; exact List.mem_cons_self) horigin
      obtain ⟨time, hentry⟩ := hs.call_entry route index call hcall haw
      have hquiet := (h arrival rest serial hstream horigin).1
      rw [MessageRouter.handleReply_fst hmsg, ← hserial, hentry] at hquiet
      cases hquiet
  | _ => trivial

/-! ## Client traffic alone -/

/-- Nothing in the streams answers a call of the multiplexer itself. -/
def ClientOnly (s : System) : Prop :=
  (∀ route, ∀ arrival ∈ s.arrivals route, ∃ id, arrival.origin = .call id) ∧
    ∀ outcome ∈ s.outcomes, ∃ id, outcome.origin = .call id

theorem ClientOnly.step {s t : System} {e : Event} (hs : ClientOnly s) (he : e.isOwn = false)
    (h : s.step e = some t) : ClientOnly t := by
  cases e with
  | forward clientId msg route delivered =>
      obtain ⟨_, ⟨⟩⟩ := Option.ite_none_right_eq_some.mp h
      rcases System.forward_eq s clientId msg route delivered with hf | hf <;> rw [hf] <;> exact hs
  | record =>
      obtain ⟨recording, _, rfl⟩ := Option.map_eq_some_iff.mp h
      exact hs
  | reply id msg =>
      cases hc : s.calls id with
      | none => simp [System.step, hc] at h
      | some call =>
          simp only [System.step, hc] at h
          obtain ⟨_, ⟨⟩⟩ := Option.ite_none_right_eq_some.mp h
          refine ⟨fun route arrival hmem => ?_, hs.2⟩
          simp only [System.arrive, Function.update_apply] at hmem
          split at hmem
          · rcases List.mem_append.mp hmem with hmem | hmem
            · exact hs.1 _ arrival hmem
            · exact ⟨id, by rw [List.mem_singleton.mp hmem]⟩
          · exact hs.1 _ arrival hmem
  | ownCall route serial => cases he
  | ownReply route serial msg => cases he
  | recv route =>
      obtain ⟨hidle, h⟩ := Option.ite_none_right_eq_some.mp h
      cases hstream : s.arrivals route with
      | nil => simp [hstream] at h
      | cons arrival rest =>
          simp only [hstream] at h
          cases h
          have hhead : ∃ id, arrival.origin = .call id :=
            hs.1 route arrival (by rw [hstream]; exact List.mem_cons_self)
          constructor
          · intro other a hmem
            simp only [System.recv, Function.update_apply] at hmem
            split at hmem
            · exact hs.1 route a (by rw [hstream]; exact List.mem_cons_of_mem arrival hmem)
            · exact hs.1 other a hmem
          · intro outcome hmem
            rcases List.mem_append.mp hmem with hmem | hmem
            · exact hs.2 outcome hmem
            · rw [List.mem_singleton.mp hmem]
              exact hhead
  | tick =>
      obtain ⟨_, ⟨⟩⟩ := Option.ite_none_right_eq_some.mp h
      exact hs
  | elapse duration =>
      cases h
      exact hs

theorem ClientOnly.noClash {s : System} (hs : ClientOnly s) (e : Event) : NoClash s e := by
  cases e with
  | recv route =>
      intro arrival rest serial hstream horigin
      obtain ⟨id, hid⟩ := hs.1 route arrival (by rw [hstream]; exact List.mem_cons_self)
      cases hid.symm.trans horigin
  | _ => trivial

/-- Runs in which fewer events than a full cycle of serials happen meet the
window condition for want of calls. -/
theorem window_of_length {s : System} {es : List Event}
    (h : ∀ route, s.drawn route + es.length < cycle) : Trace.Along System.step Window s es := by
  induction es generalizing s with
  | nil => trivial
  | cons e es ih =>
      have hs : ∀ route, s.drawn route < cycle := by
        intro route
        have hr := h route
        omega
      refine ⟨?_, fun t ht => ih (fun route => ?_)⟩
      · cases e with
        | forward clientId msg route delivered =>
            intro index call _ _
            have hr := hs route
            omega
        | recv route =>
            intro arrival rest id _ _
            have hr := hs route
            omega
        | _ => trivial
      · have hle : t.drawn route ≤ s.drawn route + 1 := System.step_drawn_le ht route
        have hr := h route
        rw [List.length_cons] at hr
        omega

section Results

variable (containerName hostName : Option String) (timeout : Nat) (now : Instant)

/-- In every run of client calls, replies and cleanup ticks in which no serial
comes round while it is in use: `handle_reply` names the caller and its own
serial exactly when the call was made on that route and cleanup has not removed
its entry, no call is answered twice, every handled reply has one outcome, and
no entry is ever overwritten. -/
theorem reply_correlation_exact {es : List Event} {s : System}
    (hrun : Trace.run System.step (init containerName hostName timeout now) es = some s)
    (hclient : ∀ e ∈ es, e.isOwn = false)
    (hwindow : Trace.Along System.step Window (init containerName hostName timeout now) es) :
    (∀ outcome ∈ s.outcomes, ∃ id call, outcome.origin = .call id ∧ s.calls id = some call ∧
      id.route = outcome.route ∧
      ∀ clientId clientSerial, outcome.result = .ok (some (clientId, clientSerial)) ↔
        call.clientId = clientId ∧ call.clientSerial = clientSerial ∧ call.expired = false) ∧
    (∀ id call, s.calls id = some call → call.handled = true →
      ∃ outcome ∈ s.outcomes, outcome.origin = .call id) ∧
    (s.outcomes.filterMap (·.origin.callId?)).Nodup ∧
    (∀ recording, s.recording = some recording →
      s.router.pendingAt recording.call.route recording.call.forwardedSerial = none) := by
  have hinv : Exact s ∧ ClientOnly s := by
    refine Trace.invariant_of_along (I := fun s => Exact s ∧ ClientOnly s) ?_
      ⟨exact_init containerName hostName timeout now, ?_⟩
      (hwindow.and (Trace.along_of_forall hclient)) hrun
    · intro a e b ha he hstep
      exact ⟨ha.1.step he.1 (ha.2.noClash e) hstep, ha.2.step he.2 hstep⟩
    · refine ⟨fun _ _ h => ?_, fun _ h => ?_⟩
      · cases h
      · cases h
  obtain ⟨hexact, honly⟩ := hinv
  refine ⟨?_, hexact.handled_outcome, hexact.outcome_once, fun _ h => hexact.not_overwritten h⟩
  intro outcome hmem
  obtain ⟨id, horigin⟩ := honly.2 outcome hmem
  obtain ⟨hroute, call, hcall, _⟩ := hexact.outcome_call outcome hmem id horigin
  refine ⟨id, call, horigin, hcall, hroute, fun clientId clientSerial => ?_⟩
  rw [hexact.outcome_exact outcome hmem id horigin call hcall]
  cases call.expired <;> simp

/-- The reply to an own call is never handed to a client, and takes no entry
away, in every run in which no waiting client call has its number; as long as
serials do not come round, in no other run. -/
theorem own_replies_quiet_iff (es : List Event) :
    (Trace.Along System.step NoClash (init containerName hostName timeout now) es →
      Trace.Along System.step OwnReplyQuiet (init containerName hostName timeout now) es) ∧
    (Trace.Along System.step Window (init containerName hostName timeout now) es →
      (Trace.Along System.step OwnReplyQuiet (init containerName hostName timeout now) es ↔
        Trace.Along System.step NoClash (init containerName hostName timeout now) es)) := by
  constructor
  · exact Trace.Along.imp_of_invariant (fun _ _ _ => wf_step)
      (fun _ _ hs => hs.quiet_of_noClash) (wf_init containerName hostName timeout now)
  · intro hwindow
    exact (Trace.along_iff_of_invariant (I := Exact) (fun _ _ _ hs hw hp => hs.step hw hp)
      (fun _ _ hs _ => ⟨hs.toWf.quiet_of_noClash, hs.noClash_of_quiet⟩)
      (exact_init containerName hostName timeout now) hwindow).symm

end Results

/-! ## Two runs -/

def clientCall (serial : UInt32) : Message where
  msgType := .methodCall
  serial := serial
  replySerial := none
  path := some "/org/example/Object"
  interface := some "org.example.Interface"
  member := some "Work"
  destination := some "org.example.Service"
  sender := none
  body := ⟨[], false⟩
  fds := []

/-- The method return a bus sends for the call it saw as `replySerial`. -/
def busReturn (replySerial : UInt32) : Message where
  msgType := .methodReturn
  serial := 100
  replySerial := some replySerial
  path := none
  interface := none
  member := none
  destination := some ":1.5"
  sender := some ":1.7"
  body := ⟨[], false⟩
  fds := []

/-- Two clients use serial 5; the reply to the second arrives before its call is
recorded, and the first call expires. -/
def earlyReply : List Event :=
  [.forward 1 (clientCall 5) .host true, .record, .elapse 30, .forward 2 (clientCall 5) .host true,
    .reply ⟨.host, 1⟩ (busReturn 2), .record, .tick, .reply ⟨.host, 0⟩ (busReturn 1),
    .recv .host, .recv .host]

theorem reply_correlation_earlyReply :
    ∃ s, Trace.run System.step (init none none 30 0) earlyReply = some s ∧
      s.outcomes.map (·.result) = [.ok (some (2, 5)), .ok none] ∧
      (s.outcomes.filterMap (·.origin.callId?)).Nodup := by
  have hrun : (Trace.run System.step (init none none 30 0) earlyReply).map
      (fun s => s.outcomes.map (·.result)) = some [.ok (some (2, 5)), .ok none] := by decide
  rcases Option.map_eq_some_iff.mp hrun with ⟨s, hs, hresults⟩
  have hexact := reply_correlation_exact none none 30 0 hs (by decide)
    (window_of_length (by intro route; cases route <;> decide))
  exact ⟨s, hs, hresults, hexact.2.2.1⟩

/-- Nine calls of client 1 await their replies on the container bus, numbered 1
to 9. The multiplexer then calls `RequestName` there; zbus has numbered seven
messages at start-up and one reply to `Hello` since, so this one is 9 as well. -/
def clash : List Event :=
  (List.range 9).flatMap (fun n =>
    [.forward 1 (clientCall (UInt32.ofNat (n + 2))) .container true, .record]) ++
  [.ownCall .container 9, .ownReply .container 9 (busReturn 9)]

/-- The reply to `RequestName` is taken for the reply to the ninth call. -/
theorem own_reply_given_to_client :
    (∃ s, Trace.run System.step (init (some ":1.5") (some ":1.8") 30000 0)
        (clash ++ [.recv .container]) = some s ∧
      s.outcomes.map (·.result) = [.ok (some (1, 10))]) ∧
    ¬ Trace.Along System.step OwnReplyQuiet (init (some ":1.5") (some ":1.8") 30000 0)
      (clash ++ [.recv .container]) := by
  have hrun : (Trace.run System.step (init (some ":1.5") (some ":1.8") 30000 0)
      (clash ++ [.recv .container])).map (fun s => s.outcomes.map (·.result)) =
        some [.ok (some (1, 10))] := by decide
  refine ⟨Option.map_eq_some_iff.mp hrun, fun h => ?_⟩
  -- the state in which the reply is received, and what `handle_reply` makes of it
  have hbefore : (Trace.run System.step (init (some ":1.5") (some ":1.8") 30000 0) clash).map
      (fun s => (s.arrivals .container, (s.router.handleReply (busReturn 9) .container).1)) =
        some ([⟨.own 9, busReturn 9⟩], .ok (some (1, 10))) := by decide
  rcases Option.map_eq_some_iff.mp hbefore with ⟨m, hm, hstate⟩
  have hquiet := (h.at_event hm _ [] 9 (congrArg Prod.fst hstate) rfl).1
  cases (congrArg Prod.snd hstate).symm.trans hquiet

end KapsuleDbusMux.Correlation
