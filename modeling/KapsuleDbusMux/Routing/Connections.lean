import KapsuleDbusMux.Library.Trace
import KapsuleDbusMux.Routing.NameHistory

/-! # Unique names and the bus their connection lives on

Two message bus daemons announce their connections and who owns which name. The
routing table learns from these announcements on which bus a connection lives.
It also forgets a connection whenever that connection loses a well-known name,
and an unknown connection is looked for on the host.
-/

namespace KapsuleDbusMux

/-! ## What the daemons announce -/

/-- The connections of each bus and the owners of the well-known names there. -/
structure Daemons where
  connected : Route → Finset String
  owners : Route → AssocMap String String

inductive DaemonEvent where
  | connect (route : Route) (u : String)
  | disconnect (route : Route) (u : String)
  | acquire (route : Route) (name u : String)
  | transfer (route : Route) (name u v : String)
  | release (route : Route) (name u : String)
  deriving DecidableEq, Repr

def DaemonEvent.change : DaemonEvent → NameOwnerChange
  | .connect route u => ⟨route, u, "", u⟩
  | .disconnect route u => ⟨route, u, u, ""⟩
  | .acquire route name u => ⟨route, name, "", u⟩
  | .transfer route name u v => ⟨route, name, u, v⟩
  | .release route name u => ⟨route, name, u, ""⟩

namespace Daemons

/-- A connection gives up its names before it is gone, and no unique name is in
use on both buses. -/
def step (d : Daemons) : DaemonEvent → Option Daemons
  | .connect route u =>
      if isUniqueName u ∧ u ∉ d.connected .container ∧ u ∉ d.connected .host then
        some { d with connected := Function.update d.connected route (insert u (d.connected route)) }
      else none
  | .disconnect route u =>
      if u ∈ d.connected route ∧ ∀ e ∈ (d.owners route).entries, e.2 ≠ u then
        some { d with
          connected := Function.update d.connected route ((d.connected route).erase u) }
      else none
  | .acquire route name u =>
      if isUniqueName name = false ∧ (d.owners route).lookup name = none ∧
          u ∈ d.connected route then
        some { d with owners := Function.update d.owners route ((d.owners route).insert name u) }
      else none
  | .transfer route name u v =>
      if (d.owners route).lookup name = some u ∧ v ∈ d.connected route ∧ u ≠ v then
        some { d with owners := Function.update d.owners route ((d.owners route).insert name v) }
      else none
  | .release route name u =>
      if (d.owners route).lookup name = some u then
        some { d with owners := Function.update d.owners route ((d.owners route).erase name) }
      else none

structure Wf (d : Daemons) : Prop where
  named : ∀ route u, u ∈ d.connected route → isUniqueName u = true
  apart : ∀ u, u ∈ d.connected .container → u ∉ d.connected .host
  owners : ∀ route name u, (d.owners route).lookup name = some u → u ∈ d.connected route

theorem mem_update {f : Route → Finset String} {route r : Route} {names : Finset String}
    {u : String} : u ∈ Function.update f route names r ↔ if r = route then u ∈ names else u ∈ f r := by
  by_cases hr : r = route
  · subst hr
    rw [Function.update_self, if_pos rfl]
  · rw [Function.update_of_ne hr, if_neg hr]

theorem lookup_update {f : Route → AssocMap String String} {route r : Route}
    {names : AssocMap String String} {name : String} :
    (Function.update f route names r).lookup name =
      if r = route then names.lookup name else (f r).lookup name := by
  by_cases hr : r = route
  · subst hr
    rw [Function.update_self, if_pos rfl]
  · rw [Function.update_of_ne hr, if_neg hr]

/-- The owners change and the connections do not: new owners have to be connected. -/
theorem Wf.setOwners {d : Daemons} (h : d.Wf) {route : Route} {names : AssocMap String String}
    (hnames : ∀ name u, names.lookup name = some u →
      (d.owners route).lookup name = some u ∨ u ∈ d.connected route) :
    Wf { d with owners := Function.update d.owners route names } where
  named := h.named
  apart := h.apart
  owners r name u hl := by
    dsimp only at hl
    rw [lookup_update] at hl
    split at hl
    · next hr =>
        subst hr
        rcases hnames name u hl with hold | hconnected
        · exact h.owners r name u hold
        · exact hconnected
    · exact h.owners r name u hl

theorem step_wf {d d' : Daemons} {e : DaemonEvent} (h : d.Wf) (hstep : d.step e = some d') :
    d'.Wf := by
  cases e with
  | connect route u =>
      obtain ⟨⟨hunique, hcontainer, hhost⟩, ⟨⟩⟩ := Option.ite_none_right_eq_some.mp hstep
      refine ⟨fun r v hv => ?_, fun v hv => ?_, fun r name v hl => ?_⟩
      · rw [mem_update] at hv
        split at hv
        · next hr =>
            rcases Finset.mem_insert.mp hv with heq | hv
            · exact heq ▸ hunique
            · exact h.named route v hv
        · exact h.named r v hv
      · dsimp only at hv ⊢
        rw [mem_update] at hv ⊢
        cases route with
        | container =>
            simp only [reduceCtorEq, if_true, if_false] at hv ⊢
            rcases Finset.mem_insert.mp hv with heq | hv
            · exact heq ▸ hhost
            · exact h.apart v hv
        | host =>
            simp only [reduceCtorEq, if_true, if_false, Finset.mem_insert, not_or] at hv ⊢
            exact ⟨fun heq => hcontainer (heq ▸ hv), h.apart v hv⟩
      · rw [mem_update]
        have hold := h.owners r name v hl
        split
        · next hr => exact Finset.mem_insert_of_mem (hr ▸ hold)
        · exact hold
  | disconnect route u =>
      obtain ⟨⟨_, hfree⟩, ⟨⟩⟩ := Option.ite_none_right_eq_some.mp hstep
      have hsub : ∀ r v, v ∈ Function.update d.connected route ((d.connected route).erase u) r →
          v ∈ d.connected r := by
        intro r v hv
        rw [mem_update] at hv
        split at hv
        · next hr => exact hr ▸ Finset.mem_of_mem_erase hv
        · exact hv
      refine ⟨fun r v hv => h.named r v (hsub r v hv),
        fun v hv hhost => h.apart v (hsub _ v hv) (hsub _ v hhost), fun r name v hl => ?_⟩
      rw [mem_update]
      have hold := h.owners r name v hl
      split
      · next hr =>
          subst hr
          refine Finset.mem_erase.mpr ⟨?_, hold⟩
          exact hfree ⟨name, v⟩ (AList.lookup_eq_some_iff.mp hl)
      · exact hold
  | acquire route name u =>
      obtain ⟨⟨_, _, hconnected⟩, ⟨⟩⟩ := Option.ite_none_right_eq_some.mp hstep
      refine h.setOwners (fun other v hl => ?_)
      rw [AList.lookup_insert_if] at hl
      split at hl
      · cases hl
        exact Or.inr hconnected
      · exact Or.inl hl
  | transfer route name u v =>
      obtain ⟨⟨_, hconnected, _⟩, ⟨⟩⟩ := Option.ite_none_right_eq_some.mp hstep
      refine h.setOwners (fun other w hl => ?_)
      rw [AList.lookup_insert_if] at hl
      split at hl
      · cases hl
        exact Or.inr hconnected
      · exact Or.inl hl
  | release route name u =>
      obtain ⟨_, ⟨⟩⟩ := Option.ite_none_right_eq_some.mp hstep
      refine h.setOwners (fun other w hl => ?_)
      rw [AList.lookup_erase_if] at hl
      split at hl
      · cases hl
      · exact Or.inl hl

/-! ## A connection while it lasts -/

structure Home (d : Daemons) (route : Route) (u : String) : Prop where
  wf : d.Wf
  here : u ∈ d.connected route
  only : ∀ r, u ∈ d.connected r → r = route

theorem home_of_mem {d : Daemons} (h : d.Wf) {route : Route} {u : String}
    (hu : u ∈ d.connected route) : d.Home route u := by
  refine ⟨h, hu, fun r hr => ?_⟩
  cases route with
  | container =>
      cases r with
      | container => rfl
      | host => exact absurd hr (h.apart u hu)
  | host =>
      cases r with
      | container => exact absurd hu (h.apart u hr)
      | host => rfl

theorem home_connect {d d' : Daemons} (h : d.Wf) {route : Route} {u : String}
    (hstep : d.step (.connect route u) = some d') : d'.Home route u := by
  have hwf := step_wf h hstep
  obtain ⟨_, ⟨⟩⟩ := Option.ite_none_right_eq_some.mp hstep
  refine home_of_mem hwf ?_
  rw [mem_update, if_pos rfl]
  exact Finset.mem_insert_self u _

theorem Home.step {d d' : Daemons} {route : Route} {u : String} (h : d.Home route u)
    {e : DaemonEvent} (hstays : e ≠ .disconnect route u) (hstep : d.step e = some d') :
    d'.Home route u := by
  refine home_of_mem (step_wf h.wf hstep) ?_
  cases e with
  | connect r v =>
      obtain ⟨_, ⟨⟩⟩ := Option.ite_none_right_eq_some.mp hstep
      rw [mem_update]
      split
      · next hr => exact Finset.mem_insert_of_mem (hr ▸ h.here)
      · exact h.here
  | disconnect r v =>
      obtain ⟨_, ⟨⟩⟩ := Option.ite_none_right_eq_some.mp hstep
      rw [mem_update]
      split
      · next hr =>
          subst hr
          exact Finset.mem_erase.mpr ⟨fun heq => hstays (by rw [heq]), h.here⟩
      · exact h.here
  | acquire r name v =>
      obtain ⟨_, ⟨⟩⟩ := Option.ite_none_right_eq_some.mp hstep
      exact h.here
  | transfer r name v w =>
      obtain ⟨_, ⟨⟩⟩ := Option.ite_none_right_eq_some.mp hstep
      exact h.here
  | release r name v =>
      obtain ⟨_, ⟨⟩⟩ := Option.ite_none_right_eq_some.mp hstep
      exact h.here

end Daemons

def NameOwnerChange.mentions (u : String) (change : NameOwnerChange) : Bool :=
  change.oldOwner == u || change.newOwner == u

/-- Only its own bus talks about a connection. -/
theorem Daemons.Home.route_of_mentions {d d' : Daemons} {route : Route} {u : String}
    (h : d.Home route u) {e : DaemonEvent} (hstep : d.step e = some d')
    (hmentions : e.change.mentions u = true) : e.change.route = route := by
  have hne : u ≠ "" := by
    intro hempty
    have hunique := h.wf.named route u h.here
    rw [hempty] at hunique
    exact absurd hunique (by decide)
  cases e with
  | connect r v =>
      obtain ⟨⟨_, hcontainer, hhost⟩, _⟩ := Option.ite_none_right_eq_some.mp hstep
      have hv : v = u := by
        simpa [NameOwnerChange.mentions, DaemonEvent.change, Ne.symm hne] using hmentions
      subst hv
      exfalso
      cases route with
      | container => exact hcontainer h.here
      | host => exact hhost h.here
  | disconnect r v =>
      obtain ⟨⟨hv, _⟩, _⟩ := Option.ite_none_right_eq_some.mp hstep
      have heq : v = u := by
        simpa [NameOwnerChange.mentions, DaemonEvent.change, Ne.symm hne] using hmentions
      exact h.only r (heq ▸ hv)
  | acquire r name v =>
      obtain ⟨⟨_, _, hv⟩, _⟩ := Option.ite_none_right_eq_some.mp hstep
      have heq : v = u := by
        simpa [NameOwnerChange.mentions, DaemonEvent.change, Ne.symm hne] using hmentions
      exact h.only r (heq ▸ hv)
  | transfer r name v w =>
      obtain ⟨⟨howner, hw, _⟩, _⟩ := Option.ite_none_right_eq_some.mp hstep
      have heq : v = u ∨ w = u := by
        simpa [NameOwnerChange.mentions, DaemonEvent.change] using hmentions
      rcases heq with heq | heq
      · exact h.only r (heq ▸ h.wf.owners r name v howner)
      · exact h.only r (heq ▸ hw)
  | release r name v =>
      obtain ⟨howner, _⟩ := Option.ite_none_right_eq_some.mp hstep
      have heq : v = u := by
        simpa [NameOwnerChange.mentions, DaemonEvent.change, Ne.symm hne] using hmentions
      exact h.only r (heq ▸ h.wf.owners r name v howner)

theorem Daemons.Home.route_of_run {d d' : Daemons} {route : Route} {u : String}
    (h : d.Home route u) {events : List DaemonEvent} (hstays : .disconnect route u ∉ events)
    (hrun : Trace.run Daemons.step d events = some d') :
    ∀ e ∈ events, e.change.mentions u = true → e.change.route = route := by
  induction events generalizing d with
  | nil => exact fun e he => absurd he List.not_mem_nil
  | cons first events ih =>
      obtain ⟨m, hstep, hrest⟩ := Trace.run_cons_eq_some.mp hrun
      rw [List.mem_cons, not_or] at hstays
      intro e he
      rcases List.mem_cons.mp he with heq | he
      · rw [heq]
        exact h.route_of_mentions hstep
      · exact ih (h.step (Ne.symm hstays.1) hstep) hstays.2 hrest e he

/-! ## What the table says about a connection -/

theorem RoutingTable.uniqueNames_onNameChange (table : RoutingTable) (change : NameOwnerChange)
    {u : String} (hu : u ≠ "") :
    (table.onNameChange change).uniqueNames.routeFor u =
      if change.mentions u then (if change.newOwner = u then some change.route else none)
      else table.uniqueNames.routeFor u := by
  rcases change with ⟨route, name, oldOwner, newOwner⟩
  have hroute : (table.onNameChange ⟨route, name, oldOwner, newOwner⟩).uniqueNames.routeFor u =
      if newOwner = u then some route
      else if oldOwner = u then none else table.uniqueNames.routeFor u := by
    cases route with
    | container => exact routeFor_onContainerNameChange table name oldOwner newOwner hu
    | host => exact routeFor_onHostNameChange table name oldOwner newOwner hu
  rw [hroute]
  by_cases hnew : newOwner = u <;> by_cases hold : oldOwner = u <;>
    simp [NameOwnerChange.mentions, hnew, hold]

/-- The last change about a connection comes from its bus. -/
theorem route_of_last {route : Route} {u : String} {events : List DaemonEvent}
    (hown : ∀ e ∈ events, e.change.mentions u = true → e.change.route = route)
    {change : NameOwnerChange}
    (hlast : History.last (NameOwnerChange.mentions u) (events.map DaemonEvent.change) =
      some change) : change.route = route := by
  have hmem := List.mem_filter.mp (List.mem_of_getLast? hlast)
  rcases List.mem_map.mp hmem.1 with ⟨e, he, heq⟩
  rw [← heq] at hmem ⊢
  exact hown e he hmem.2

/-- Of the names the connection has gained or lost since it was announced, it
gained the last one; or there was none. -/
def KeptItsLastName (u : String) (events : List DaemonEvent) : Prop :=
  ∀ change, History.last (NameOwnerChange.mentions u) (events.map DaemonEvent.change) =
    some change → change.newOwner = u

/-- From its announcement until it disconnects a connection is routed to its own
bus exactly if that is the host, where unknown connections go, or if the last
change about it was not the loss of a name. -/
theorem connection_route_iff {d₀ d : Daemons} (hwf : d₀.Wf) (table₀ : RoutingTable)
    {before after : List DaemonEvent} {route : Route} {u : String}
    (hrun : Trace.run Daemons.step d₀ (before ++ .connect route u :: after) = some d)
    (hstays : .disconnect route u ∉ after) :
    (((before ++ .connect route u :: after).map DaemonEvent.change).foldl
        RoutingTable.onNameChange table₀).routeFor u = route ↔
      route = .host ∨ KeptItsLastName u after := by
  obtain ⟨d₁, hbefore, hrest⟩ := Trace.run_append_eq_some.mp hrun
  obtain ⟨d₂, hconnect, hafter⟩ := Trace.run_cons_eq_some.mp hrest
  have hhome := Daemons.home_connect
    (Trace.invariant_of_run (fun _ _ _ hs ht => Daemons.step_wf hs ht) hwf hbefore) hconnect
  have hunique := hhome.wf.named route u hhome.here
  have hne : u ≠ "" := by
    intro hempty
    rw [hempty] at hunique
    exact absurd hunique (by decide)
  have hown := hhome.route_of_run hstays hafter
  -- the registry after `connect`, and then what the changes after it make of it
  have hfold := History.observe_foldl RoutingTable.onNameChange
    (fun table => table.uniqueNames.routeFor u)
    (fun table change => table.uniqueNames_onNameChange change hne)
    (((before.map DaemonEvent.change).foldl RoutingTable.onNameChange table₀).onNameChange
      (DaemonEvent.change (.connect route u))) (after.map DaemonEvent.change)
  rw [RoutingTable.uniqueNames_onNameChange _ _ hne] at hfold
  simp only [DaemonEvent.change, NameOwnerChange.mentions, beq_self_eq_true, Bool.or_true,
    if_true] at hfold
  rw [List.map_append, List.map_cons, List.foldl_append, List.foldl_cons]
  unfold RoutingTable.routeFor RoutingTable.routeForUniqueName KeptItsLastName
  rw [if_pos hunique]
  cases hlast : History.last (NameOwnerChange.mentions u) (after.map DaemonEvent.change) with
  | none =>
      rw [hlast] at hfold
      refine iff_of_true ?_ (Or.inr (fun change h => by cases h))
      exact congrArg (Option.getD · Route.host) hfold
  | some change =>
      rw [hlast] at hfold
      have hroute := route_of_last hown hlast
      simp only [Option.map_some, Option.getD_some, hroute] at hfold
      by_cases hgained : change.newOwner = u
      · rw [if_pos hgained] at hfold
        refine iff_of_true (congrArg (Option.getD · Route.host) hfold) (Or.inr ?_)
        rintro other ⟨⟩
        exact hgained
      · rw [if_neg hgained] at hfold
        have hhost := congrArg (Option.getD · Route.host) hfold
        constructor
        · intro h
          exact Or.inl (h.symm.trans hhost)
        · rintro (h | h)
          · exact hhost.trans h.symm
          · exact absurd (h change rfl) hgained

def serviceLifetime : List DaemonEvent :=
  [.connect .container ":1.7", .acquire .container "org.a" ":1.7",
    .release .container "org.a" ":1.7"]

def Daemons.quiet : Daemons := ⟨fun _ => ∅, fun _ => ∅⟩

theorem Daemons.wf_quiet : Daemons.quiet.Wf where
  named _ _ hu := absurd hu (Finset.notMem_empty _)
  apart _ hu := absurd hu (Finset.notMem_empty _)
  owners _ _ _ hl := by cases hl

theorem connection_route_serviceLifetime :
    (((serviceLifetime.take 2).map DaemonEvent.change).foldl RoutingTable.onNameChange
      RoutingTable.new).routeFor ":1.7" = .container := by
  have hrun : (Trace.run Daemons.step .quiet (serviceLifetime.take 2)).isSome = true := by decide
  rcases Option.isSome_iff_exists.mp hrun with ⟨d, hd⟩
  have htrace : Trace.run Daemons.step .quiet
      ([] ++ .connect .container ":1.7" :: [.acquire .container "org.a" ":1.7"]) = some d := hd
  refine (connection_route_iff Daemons.wf_quiet .new htrace (by decide)).mpr (Or.inr ?_)
  rintro change ⟨⟩
  rfl

/-- After the release the table looks for the service on the host, although it is
still connected to the container bus. -/
theorem released_name_loses_route :
    ¬ ∀ (d₀ d : Daemons) (table₀ : RoutingTable) (before after : List DaemonEvent) (route : Route)
        (u : String), d₀.Wf →
      Trace.run Daemons.step d₀ (before ++ .connect route u :: after) = some d →
      .disconnect route u ∉ after →
      (((before ++ .connect route u :: after).map DaemonEvent.change).foldl
        RoutingTable.onNameChange table₀).routeFor u = route := by
  intro hclaim
  have hrun : (Trace.run Daemons.step .quiet serviceLifetime).isSome = true := by decide
  rcases Option.isSome_iff_exists.mp hrun with ⟨d, hd⟩
  have hroute := hclaim .quiet d .new [] (serviceLifetime.drop 1) .container ":1.7"
    Daemons.wf_quiet hd (by decide)
  exact absurd hroute (by decide)

end KapsuleDbusMux
