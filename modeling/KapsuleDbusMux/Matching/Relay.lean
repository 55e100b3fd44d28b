import KapsuleDbusMux.Matching.Accounting
import KapsuleDbusMux.Multiplexer.BusMessages

/-! # Signals that pass two filters

A bus sends the multiplexer the broadcast signals that one of its rules there selects,
and the multiplexer gives a client those that one of the client's own rules matches.
The rules on the buses are kept by reference counts, which may leave a rule there that
nobody holds any more. A rule that somebody holds is never taken away, whatever clients
do and in whatever order handlers and cleanups run. The handlers ignore the answers of the
buses, so a rule that a bus refuses is lost. Where none is, no signal is lost between the
two filters, and a client gets what it would get from the bus itself.
-/

namespace KapsuleDbusMux

def Route.busName : Route → String
  | .container => "container"
  | .host => "host"

theorem Route.busName_mem_buses (route : Route) : route.busName ∈ MatchAccounting.buses := by
  cases route <;> decide

namespace MatchAccounting

/-- How a daemon selects signals for a connection: by the text of a rule. -/
abbrev Selection := String → Message → Bool

/-! ## What the buses hold -/

/-- The handlers, and the rules that the daemons hold for the multiplexer, each as often as
it has been added. -/
structure Upstream where
  state : State := {}
  registered : Multiset (String × String) := 0

namespace Upstream

/-- An event, and whether the daemons carry out the calls that are made in it. -/
abbrev Event := MatchAccounting.Event × (String × String → Bool)

/-- The daemons carry out some of these calls. -/
def carriedOut (accepts : String × String → Bool) (calls : Finset (String × String)) :
    Multiset (String × String) :=
  (calls.filter (fun p => accepts p = true)).val

/-- The handlers call `AddMatch` on a bus for a rule that is subscribed there from now on and
`RemoveMatch` for one that no longer is, and go on in the same way whatever the bus answers. -/
def step (u : Upstream) (e : Event) : Option Upstream :=
  (MatchAccounting.step u.state e.1).map (fun t =>
    { state := t
      registered :=
        u.registered + carriedOut e.2 (t.references.subscribed \ u.state.references.subscribed) -
          carriedOut e.2 (u.state.references.subscribed \ t.references.subscribed) })

/-- No call of `AddMatch` fails. -/
def AddsAccepted (u : Upstream) (e : Event) : Prop :=
  ∀ t, MatchAccounting.step u.state e.1 = some t →
    ∀ p ∈ t.references.subscribed, p ∉ u.state.references.subscribed → e.2 p = true

instance (u : Upstream) (e : Event) : Decidable (u.AddsAccepted e) :=
  match h : MatchAccounting.step u.state e.1 with
  | none => isTrue (fun t ht => by cases h.symm.trans ht)
  | some t =>
      decidable_of_iff
        (∀ p ∈ t.references.subscribed, p ∉ u.state.references.subscribed → e.2 p = true)
        ⟨fun hall t' ht' => by cases h.symm.trans ht'; exact hall, fun hall => hall t h⟩

/-- What is subscribed the daemons hold. -/
def Covered (u : Upstream) : Prop := ∀ p ∈ u.state.references.subscribed, p ∈ u.registered

variable {u v : Upstream} {e : Event}

theorem step_eq_some :
    u.step e = some v ↔ MatchAccounting.step u.state e.1 = some v.state ∧
      v.registered =
        u.registered +
            carriedOut e.2 (v.state.references.subscribed \ u.state.references.subscribed) -
          carriedOut e.2 (u.state.references.subscribed \ v.state.references.subscribed) := by
  unfold step
  rw [Option.map_eq_some_iff]
  constructor
  · rintro ⟨t, ht, rfl⟩
    exact ⟨ht, rfl⟩
  · rintro ⟨ht, hregistered⟩
    exact ⟨v.state, ht, by rw [← hregistered]⟩

theorem Covered.step (h : u.Covered) (he : u.AddsAccepted e) (hstep : u.step e = some v) :
    v.Covered := by
  obtain ⟨ht, hregistered⟩ := step_eq_some.mp hstep
  intro p hp
  -- the rules that are taken away are others
  have hkept : p ∉ carriedOut e.2
      (u.state.references.subscribed \ v.state.references.subscribed) := fun hmem =>
    (Finset.mem_sdiff.mp (Finset.mem_filter.mp hmem).1).2 hp
  rw [hregistered, ← Multiset.count_pos, Multiset.count_sub, Multiset.count_add,
    Multiset.count_eq_zero.mpr hkept, Nat.sub_zero, ← Multiset.count_add, Multiset.count_pos,
    Multiset.mem_add]
  by_cases hold : p ∈ u.state.references.subscribed
  · exact Or.inl (h p hold)
  · have hnew : p ∈ v.state.references.subscribed \ u.state.references.subscribed :=
      Finset.mem_sdiff.mpr ⟨hp, hold⟩
    exact Or.inr (Finset.mem_filter.mpr ⟨hnew, he _ ht p hp hold⟩)

theorem run_covered {events : List Event} (hrun : Trace.run step {} events = some u)
    (haccepted : Trace.Along step AddsAccepted {} events) : u.Covered :=
  Trace.invariant_of_along (fun _ _ _ hs he hstep => hs.step he hstep)
    (fun p hp => absurd hp (Finset.notMem_empty p)) haccepted hrun

theorem run_state {events : List Event} (hrun : Trace.run step u events = some v) :
    Trace.run MatchAccounting.step u.state (events.map Prod.fst) = some v.state := by
  induction events generalizing u with
  | nil =>
      cases hrun
      rfl
  | cons e events ih =>
      obtain ⟨m, hm, hrest⟩ := Trace.run_cons_eq_some.mp hrun
      exact Trace.run_cons_eq_some.mpr ⟨m.state, (step_eq_some.mp hm).1, ih hrest⟩

def Selected (selects : Selection) (u : Upstream) (msg : Message) (route : Route) : Prop :=
  ∃ p ∈ u.registered, p.1 = route.busName ∧ selects p.2 msg = true

instance (selects : Selection) (u : Upstream) (msg : Message) (route : Route) :
    Decidable (Selected selects u msg route) :=
  decidable_of_iff
    (∃ p ∈ u.registered.toFinset, p.1 = route.busName ∧ selects p.2 msg = true)
    (by simp only [Selected, Multiset.mem_toFinset])

/-- A broadcast signal on a bus, from its daemon to the clients of the multiplexer. -/
def relay (selects : Selection) (u : Upstream) (mux : Multiplexer) (builder : MessageBuilder)
    (now : Instant) (msg : Message) (route : Route) : Multiplexer :=
  if Selected selects u msg route then mux.handleBusMessage builder now msg route else mux

end Upstream

/-! ## No signal is lost -/

/-- A client with this rule on the bus itself gets the signal. -/
def Direct (selects : Selection) (info : ClientInfo) (msg : Message) : Prop :=
  ∃ rule ∈ info.matchRules.rules, selects rule.ruleString msg = true

instance (selects : Selection) (info : ClientInfo) (msg : Message) :
    Decidable (Direct selects info msg) :=
  inferInstanceAs (Decidable (∃ rule ∈ info.matchRules.rules, _))

variable {events : List Event} {t : State}

/-- Between two handlers every rule of a connected client is on both buses, also while
cleanups are under way and after references have leaked. -/
theorem subscribed_of_holds (hrun : Trace.run step {} events = some t) (hidle : t.handler = .idle)
    {c : ClientId} {info : ClientInfo} (hl : t.clients.lookup c = some info) {rule : String}
    (hholds : info.matchRules.holds rule = true) {bus : String} (hbus : bus ∈ buses) :
    (bus, rule) ∈ t.references.subscribed := by
  have hwf : t.Wf := Trace.invariant_of_run (fun s e t hs ht => step_wf hs ht) wf_initial hrun
  have hholder : 0 < t.holders rule := (AList.count_pos_iff _ _).mpr ⟨c, info, hl, hholds⟩
  have hcovered := hwf.covered bus hbus rule
  have hcounted : t.counted bus rule = t.references.refs.count bus rule := by
    simp [State.counted, hidle]
  rw [hcounted] at hcovered
  unfold State.owed at hcovered
  exact (hwf.agrees bus rule).mpr (by omega)

namespace Upstream

variable {events : List Event} {u : Upstream}

theorem registered_of_run (hrun : Trace.run step {} events = some u)
    (haccepted : Trace.Along step AddsAccepted {} events) (hidle : u.state.handler = .idle)
    {c : ClientId} {info : ClientInfo} (hl : u.state.clients.lookup c = some info)
    {rule : MatchRule} (hrule : rule ∈ info.matchRules.rules) (route : Route) :
    (route.busName, rule.ruleString) ∈ u.registered := by
  have hholds : info.matchRules.holds rule.ruleString = true :=
    ClientMatchRules.mem_ruleStrings.mp (List.mem_map_of_mem hrule)
  exact run_covered hrun haccepted _
    (subscribed_of_holds (run_state hrun) hidle hl hholds route.busName_mem_buses)

/-- In every run in which the daemons accept the rules, whichever rules have leaked and
whatever has become of calls that take rules away: the daemons of both buses hold each rule
of a connected client. Where they agree with the multiplexer on what the rules of clients
match, a client gets a broadcast signal through the multiplexer exactly when it would get it
from the bus itself, and once. -/
theorem relay_is_direct (hrun : Trace.run step {} events = some u)
    (haccepted : Trace.Along step AddsAccepted {} events) (hidle : u.state.handler = .idle)
    {c : ClientId} {info : ClientInfo} (hl : u.state.clients.lookup c = some info) :
    (∀ rule ∈ info.matchRules.rules, ∀ route : Route,
        (route.busName, rule.ruleString) ∈ u.registered) ∧
      ∀ (mux : Multiplexer) (selects : Selection) (msg : Message),
        mux.clients = u.state.clients → msg.isSignal = true → msg.destination = none →
        msg.isNameOwnerChanged = false → mux.trackedClient msg = none →
        (∀ c info, u.state.clients.lookup c = some info → ∀ rule ∈ info.matchRules.rules,
          (selects rule.ruleString msg = true ↔ rule.isMatch msg = true)) →
        ∀ (builder : MessageBuilder) (now : Instant) (route : Route),
          ((relay selects u mux builder now msg route).clients.lookup c).map ClientInfo.tx =
            some (info.tx ++ if Direct selects info msg then [msg] else []) := by
  refine ⟨fun rule hrule => registered_of_run hrun haccepted hidle hl hrule, ?_⟩
  intro mux selects msg hclients hsignal hbroadcast hchanged huntracked hagree builder now route
  have hinterested : mux.Interested msg route info ↔ Direct selects info msg := by
    unfold Multiplexer.Interested Direct
    refine exists_congr (fun rule => and_congr_right (fun hrule => ?_))
    rw [if_neg (by simp [hbroadcast]), hagree c info hl rule hrule]
  unfold relay
  split
  · rw [Multiplexer.handleBusMessage_of_signal hsignal hchanged,
      Multiplexer.handleSignal_untracked huntracked, hclients, hl]
    simp only [Option.map_some, hinterested]
  · next hunselected =>
      have hnot : ¬ Direct selects info msg := by
        rintro ⟨rule, hrule, hselects⟩
        exact hunselected ⟨_, registered_of_run hrun haccepted hidle hl hrule route, rfl, hselects⟩
      rw [hclients, hl, if_neg hnot, List.append_nil]
      rfl

end Upstream

/-- A daemon that reads rules as the multiplexer does. -/
def parsed : Selection := fun rule msg =>
  match MatchRule.parse rule with
  | .ok rule => rule.isMatch msg
  | .error _ => false

/-- A client adds a rule twice and goes away; another one has a rule of its own, and the
daemons refuse to take away what it has removed. -/
def leakyRun : List Upstream.Event :=
  [(.connect 1 ⟨1000, none, 1000⟩, fun _ => true), (.connect 2 ⟨1000, none, 1000⟩, fun _ => true),
    (.addMatch 1 "member='Opened'", fun _ => true), (.updateReferences, fun _ => true),
    (.addMatch 1 "member='Opened'", fun _ => true), (.updateReferences, fun _ => true),
    (.addMatch 2 "member='Closed'", fun _ => true), (.updateReferences, fun _ => true),
    (.addMatch 2 "member='Moved'", fun _ => true), (.updateReferences, fun _ => true),
    (.removeMatch 2 "member='Moved'", fun _ => true), (.updateReferences, fun _ => false),
    (.disconnect 1, fun _ => true), (.releaseRules 1, fun _ => true)]

def closedSignal : Message := Multiplexer.signalFrom "/a" "org.a" "Closed" []

theorem relay_is_direct_leakyRun :
    ∃ u info, Trace.run Upstream.step {} leakyRun = some u ∧
      u.state.clients.lookup 2 = some info ∧
      ((Upstream.relay parsed u { Multiplexer.listening "" with clients := u.state.clients }
        .unfailing 5 closedSignal .host).clients.lookup 2).map ClientInfo.tx =
          some (info.tx ++ [closedSignal]) := by
  have heval : (Trace.run Upstream.step {} leakyRun).any (fun u =>
      decide (u.state.handler = .idle ∧
        (∀ e ∈ u.state.clients.entries, ∀ rule ∈ e.2.matchRules.rules,
          (parsed rule.ruleString closedSignal = true ↔ rule.isMatch closedSignal = true)) ∧
        (u.state.clients.lookup 2).any
          (fun info => decide (Direct parsed info closedSignal)) = true)) = true := by
    decide
  have haccepted : Trace.Along Upstream.step Upstream.AddsAccepted {} leakyRun := by
    decide
  obtain ⟨u, hrun, hidle, hagree, hdirect⟩ := Trace.exists_of_eval heval
  obtain ⟨info, hl, hinfo⟩ := (Option.any_eq_true _ _).mp hdirect
  have hrelayed := (Upstream.relay_is_direct hrun haccepted hidle hl).2
    { Multiplexer.listening "" with clients := u.state.clients } parsed closedSignal rfl rfl rfl
    (by decide) rfl (fun c info hl => hagree ⟨c, info⟩ (AList.mem_lookup_iff.mp hl))
    .unfailing 5 .host
  rw [if_pos (of_decide_eq_true hinfo)] at hrelayed
  exact ⟨u, info, hrun, hl, hrelayed⟩

end MatchAccounting

end KapsuleDbusMux
