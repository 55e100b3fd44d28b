import KapsuleDbusMux.Routing.Connections

/-! # How the routing table starts

`Multiplexer::new` asks both buses for the names they have, and only then has them
announce changes. The buses go on meanwhile. Signals that have been announced wait in
the stream of their connection until the main loop reads them. A name that changes hands
after the question and before the subscription is in the table as it was, until the
bus announces something else about it.

Every call succeeds: otherwise there is no multiplexer. The state carries what was owned
at certain moments and which names have been announced; the code never reads that.
-/

namespace KapsuleDbusMux

/-! ## The calls of `Multiplexer::new` -/

/-- What is done next: the three questions of `sync_routing_table`, the two
subscriptions, and then the main loop. -/
inductive StartupPhase where
  | listContainerNames
  | listHostNames
  | listHostActivatable
  | subscribeContainer
  | subscribeHost
  | running
  deriving DecidableEq, Repr

namespace StartupPhase

def hasListed : StartupPhase → Route → Bool
  | .listContainerNames, _ => false
  | .listHostNames, .host => false
  | _, _ => true

def hasSubscribed : StartupPhase → Route → Bool
  | .subscribeHost, .container => true
  | .running, _ => true
  | _, _ => false

end StartupPhase

namespace Daemons

def ownedNames (d : Daemons) (route : Route) : Finset String := (d.owners route).keys.toFinset

/-- What a daemon answers to `ListNames`: its own name, its connections and the names
they own. -/
def names (d : Daemons) (route : Route) : Finset String :=
  insert "org.freedesktop.DBus" (d.connected route ∪ d.ownedNames route)

theorem mem_ownedNames {d : Daemons} {route : Route} {n : String} :
    n ∈ d.ownedNames route ↔ (d.owners route).lookup n ≠ none := by
  rw [ownedNames, List.mem_toFinset, Ne, AList.lookup_eq_none, not_not]
  exact AList.mem_keys

end Daemons

structure Startup where
  daemons : Daemons
  phase : StartupPhase := .listContainerNames
  table : RoutingTable := .new
  streams : Route → List NameOwnerChange := fun _ => []
  listed : Route → Finset String := fun _ => ∅
  atSubscription : Route → Finset String := fun _ => ∅
  announced : Route → Finset String := fun _ => ∅

/-- A bus moves on, the next call of `Multiplexer::new` returns, or the main loop reads a
signal. The lists are the answers of the buses, in whatever order. -/
inductive StartupEvent where
  | daemon (e : DaemonEvent)
  | listNames (names : List String)
  | listActivatableNames (names : List String)
  | subscribeNameChanges
  | recv (route : Route)
  deriving DecidableEq, Repr

namespace RoutingTable

def setNames (table : RoutingTable) (names : List String) : Route → RoutingTable
  | .container => table.setContainerNames names
  | .host => table.setHostNames names

end RoutingTable

namespace Startup

/-- The answer to `ListNames`, without unique names, becomes the names of the bus. -/
def list (s : Startup) (route : Route) (names : List String) (next : StartupPhase) :
    Option Startup :=
  if names.toFinset = s.daemons.names route then
    some { s with
      phase := next
      table := s.table.setNames (names.filter (fun n => !isUniqueName n)) route
      listed := Function.update s.listed route (s.daemons.ownedNames route) }
  else none

def subscribe (s : Startup) (route : Route) (next : StartupPhase) : Startup :=
  { s with
    phase := next
    atSubscription := Function.update s.atSubscription route (s.daemons.ownedNames route) }

/-- The signal goes into the stream of a connection that has subscribed. -/
def announce (s : Startup) (change : NameOwnerChange) : Startup :=
  if s.phase.hasSubscribed change.route then
    { s with
      streams := Function.update s.streams change.route (s.streams change.route ++ [change])
      announced :=
        Function.update s.announced change.route (insert change.name (s.announced change.route)) }
  else s

def step (s : Startup) : StartupEvent → Option Startup
  | .daemon e =>
      (s.daemons.step e).map (fun daemons => { s with daemons := daemons }.announce e.change)
  | .listNames names =>
      match s.phase with
      | .listContainerNames => s.list .container names .listHostNames
      | .listHostNames => s.list .host names .listHostActivatable
      | _ => none
  | .listActivatableNames names =>
      match s.phase with
      | .listHostActivatable =>
          some { s with
            phase := .subscribeContainer
            table := s.table.setHostActivatable names }
      | _ => none
  | .subscribeNameChanges =>
      match s.phase with
      | .subscribeContainer => some (s.subscribe .container .subscribeHost)
      | .subscribeHost => some (s.subscribe .host .running)
      | _ => none
  | .recv route =>
      match s.phase, s.streams route with
      | .running, change :: rest =>
          some { s with
            table := s.table.onNameChange change
            streams := Function.update s.streams route rest }
      | _, _ => none

/-- The buses have been running for a while. -/
def initial (daemons : Daemons) : Startup := { daemons := daemons }

end Startup

/-! ## One step -/

namespace Daemons

theorem ne_empty_of_connected {d : Daemons} (h : d.Wf) {route : Route} {u : String}
    (hu : u ∈ d.connected route) : u ≠ "" := by
  intro hempty
  have hunique := h.named route u hu
  rw [hempty] at hunique
  exact absurd hunique (by decide)

theorem mem_ownedNames_step {d d' : Daemons} {e : DaemonEvent} (h : d.Wf)
    (hstep : d.step e = some d') (route : Route) {n : String} (hn : isUniqueName n = false) :
    n ∈ d'.ownedNames route ↔
      if e.change.route = route ∧ e.change.name = n then e.change.newOwner ≠ ""
      else n ∈ d.ownedNames route := by
  have hother : ∀ u : String, isUniqueName u = true → ∀ r : Route, ¬ (r = route ∧ u = n) := by
    rintro u hu r ⟨_, rfl⟩
    rw [hu] at hn
    cases hn
  have hset : ∀ (r : Route) (name : String) (names : AssocMap String String) (owner : String),
      (∀ other, names.lookup other ≠ none ↔
        if other = name then owner ≠ "" else (d.owners r).lookup other ≠ none) →
      (n ∈ ({ d with owners := Function.update d.owners r names } : Daemons).ownedNames route ↔
        if r = route ∧ name = n then owner ≠ "" else n ∈ d.ownedNames route) := by
    intro r name names owner hnames
    rw [mem_ownedNames, mem_ownedNames]
    dsimp only
    rw [lookup_update]
    by_cases hr : route = r
    · subst hr
      rw [if_pos rfl, hnames n]
      simp only [true_and, eq_comm]
    · rw [if_neg hr, if_neg (fun hboth => hr hboth.1.symm)]
  cases e with
  | connect r u =>
      obtain ⟨⟨hunique, _, _⟩, ⟨⟩⟩ := Option.ite_none_right_eq_some.mp hstep
      exact (iff_of_eq (if_neg (hother u hunique r))).symm
  | disconnect r u =>
      obtain ⟨⟨hconnected, _⟩, ⟨⟩⟩ := Option.ite_none_right_eq_some.mp hstep
      have hunique := h.named r u hconnected
      exact (iff_of_eq (if_neg (hother u hunique r))).symm
  | acquire r name u =>
      obtain ⟨⟨_, _, hconnected⟩, ⟨⟩⟩ := Option.ite_none_right_eq_some.mp hstep
      refine hset r name _ u (fun other => ?_)
      rw [AList.lookup_insert_if]
      split
      · simp [ne_empty_of_connected h hconnected]
      · exact Iff.rfl
  | transfer r name u v =>
      obtain ⟨⟨_, hconnected, _⟩, ⟨⟩⟩ := Option.ite_none_right_eq_some.mp hstep
      refine hset r name _ v (fun other => ?_)
      rw [AList.lookup_insert_if]
      split
      · simp [ne_empty_of_connected h hconnected]
      · exact Iff.rfl
  | release r name u =>
      obtain ⟨_, ⟨⟩⟩ := Option.ite_none_right_eq_some.mp hstep
      refine hset r name _ "" (fun other => ?_)
      rw [AList.lookup_erase_if]
      split
      · simp
      · exact Iff.rfl

end Daemons

namespace RoutingTable

/-- What a stream of signals says about a name does not depend on other names. -/
theorem mem_foldl_congr {table table' : RoutingTable} {route : Route} {n : String}
    (h : n ∈ table.namesOn route ↔ n ∈ table'.namesOn route) (changes : List NameOwnerChange) :
    n ∈ (changes.foldl onNameChange table).namesOn route ↔
      n ∈ (changes.foldl onNameChange table').namesOn route := by
  induction changes generalizing table table' with
  | nil => exact h
  | cons change changes ih =>
      refine ih ?_
      rw [mem_namesOn_onNameChange, mem_namesOn_onNameChange, h]

theorem namesOn_setNames (table : RoutingTable) (names : List String) (route other : Route) :
    (table.setNames names route).namesOn other =
      if other = route then names.toFinset else table.namesOn other := by
  cases route <;> cases other <;> rfl

end RoutingTable

/-! ## Whole runs -/

namespace Startup

variable {s t : Startup} {e : StartupEvent}

/-- What the table will have for a bus when all signals in its stream have been read. -/
def expected (s : Startup) (route : Route) : Finset String :=
  ((s.streams route).foldl RoutingTable.onNameChange s.table).namesOn route

/-- A name other than those of connections and of the daemon itself. -/
def IsService (n : String) : Prop := isUniqueName n = false ∧ n ≠ "org.freedesktop.DBus"

/-- The table follows the bus in what it has announced, and has what was listed for the
rest. -/
structure Follows (s : Startup) (route : Route) : Prop where
  own : ∀ change ∈ s.streams route, change.route = route
  silent : s.phase.hasSubscribed route = false → s.streams route = [] ∧ s.announced route = ∅
  told : ∀ n, IsService n → n ∈ s.announced route →
    (n ∈ s.expected route ↔ n ∈ s.daemons.ownedNames route)
  untold : s.phase.hasListed route = true → ∀ n, IsService n → n ∉ s.announced route →
    (n ∈ s.expected route ↔ n ∈ s.listed route)
  steady : s.phase.hasSubscribed route = true → ∀ n, IsService n → n ∉ s.announced route →
    (n ∈ s.daemons.ownedNames route ↔ n ∈ s.atSubscription route)

structure Inv (s : Startup) : Prop where
  daemons : s.daemons.Wf
  follows : ∀ route, s.Follows route

theorem inv_initial {daemons : Daemons} (h : daemons.Wf) : (initial daemons).Inv where
  daemons := h
  follows route :=
    ⟨List.forall_mem_nil _, fun _ => ⟨rfl, rfl⟩,
      fun n _ htold => absurd htold (Finset.notMem_empty n), fun hlisted => (by cases hlisted),
      fun hsubscribed => (by cases hsubscribed)⟩

theorem mem_expected_of_table {route : Route} (hstream : t.streams route = s.streams route)
    (htable : t.table.namesOn route = s.table.namesOn route) (n : String) :
    n ∈ t.expected route ↔ n ∈ s.expected route := by
  unfold expected
  rw [hstream]
  exact RoutingTable.mem_foldl_congr (by rw [htable]) _

theorem Follows.of_same {route : Route} (h : s.Follows route)
    (hlisted : t.phase.hasListed route = s.phase.hasListed route)
    (hsubscribed : t.phase.hasSubscribed route = s.phase.hasSubscribed route)
    (hstream : t.streams route = s.streams route)
    (htable : t.table.namesOn route = s.table.namesOn route)
    (howned : ∀ n, IsService n →
      (n ∈ t.daemons.ownedNames route ↔ n ∈ s.daemons.ownedNames route))
    (hhistory : t.listed route = s.listed route ∧
      t.atSubscription route = s.atSubscription route ∧ t.announced route = s.announced route) :
    t.Follows route := by
  obtain ⟨hnames, hat, hannounced⟩ := hhistory
  have hexpected := mem_expected_of_table hstream htable
  constructor
  · rw [hstream]
    exact h.own
  · rw [hsubscribed, hstream, hannounced]
    exact h.silent
  · intro n hn
    rw [hannounced, hexpected, howned n hn]
    exact h.told n hn
  · intro hl n hn
    rw [hannounced, hexpected, hnames]
    exact h.untold (hlisted ▸ hl) n hn
  · intro hs n hn
    rw [hannounced, howned n hn, hat]
    exact h.steady (hsubscribed ▸ hs) n hn

theorem mem_expected_announced {route : Route} {change : NameOwnerChange}
    (hroute : change.route = route) (htable : t.table = s.table)
    (hstream : t.streams route = s.streams route ++ [change]) (n : String) :
    n ∈ t.expected route ↔
      if change.name = n then change.newOwner ≠ "" else n ∈ s.expected route := by
  unfold expected
  rw [htable, hstream, List.foldl_append, List.foldl_cons, List.foldl_nil,
    RoutingTable.mem_namesOn_onNameChange]
  simp only [hroute, beq_self_eq_true, Bool.true_and, beq_iff_eq]

theorem Follows.announced {route : Route} (h : s.Follows route) {change : NameOwnerChange}
    (hroute : change.route = route) (hsubscribed : s.phase.hasSubscribed route = true)
    (howned : ∀ n, IsService n → (n ∈ t.daemons.ownedNames route ↔
      if change.route = route ∧ change.name = n then change.newOwner ≠ ""
      else n ∈ s.daemons.ownedNames route))
    (hphase : t.phase = s.phase) (htable : t.table = s.table)
    (hstream : t.streams route = s.streams route ++ [change])
    (hhistory : t.listed = s.listed ∧ t.atSubscription = s.atSubscription)
    (hannounced : t.announced route = insert change.name (s.announced route)) :
    t.Follows route := by
  have hexpected := mem_expected_announced hroute htable hstream
  constructor
  · intro c hc
    rw [hstream] at hc
    rcases List.mem_append.mp hc with hold | hnew
    · exact h.own c hold
    · rw [List.mem_singleton.mp hnew, hroute]
  · intro hsilent
    rw [hphase, hsubscribed] at hsilent
    cases hsilent
  · intro n hn htold
    rw [hexpected n, howned n hn]
    by_cases hname : change.name = n
    · rw [if_pos hname, if_pos ⟨hroute, hname⟩]
    · rw [if_neg hname, if_neg (fun hsame => hname hsame.2)]
      rw [hannounced, Finset.mem_insert] at htold
      exact h.told n hn (htold.resolve_left (fun hsame => hname hsame.symm))
  · intro hlisted n hn huntold
    rw [hannounced, Finset.mem_insert, not_or] at huntold
    rw [hexpected n, if_neg (fun hname => huntold.1 hname.symm), hhistory.1]
    exact h.untold (hphase ▸ hlisted) n hn huntold.2
  · intro _ n hn huntold
    rw [hannounced, Finset.mem_insert, not_or] at huntold
    rw [howned n hn, if_neg (fun hsame => huntold.1 hsame.2.symm), hhistory.2]
    exact h.steady hsubscribed n hn huntold.2

theorem Inv.daemon (h : s.Inv) {e : DaemonEvent} {daemons : Daemons}
    (hstep : s.daemons.step e = some daemons) :
    ({ s with daemons := daemons }.announce e.change : Startup).Inv := by
  have howned := fun route n (hn : IsService n) =>
    Daemons.mem_ownedNames_step h.daemons hstep route hn.1
  have hwf := Daemons.step_wf h.daemons hstep
  unfold announce
  dsimp only
  split
  · next hsubscribed =>
      refine ⟨hwf, fun route => ?_⟩
      by_cases hr : e.change.route = route
      · subst hr
        exact (h.follows _).announced rfl hsubscribed (howned _) rfl rfl
          (Function.update_self ..) ⟨rfl, rfl⟩ (Function.update_self ..)
      · refine (h.follows route).of_same rfl rfl (Function.update_of_ne (Ne.symm hr) ..) rfl
          (fun n hn => ?_) ⟨rfl, rfl, Function.update_of_ne (Ne.symm hr) ..⟩
        rw [howned route n hn, if_neg (fun hsame => hr hsame.1)]
  · next hunsubscribed =>
      refine ⟨hwf, fun route => ?_⟩
      by_cases hr : e.change.route = route
      · subst hr
        have hroute := h.follows e.change.route
        have hnone := (hroute.silent (Bool.not_eq_true _ ▸ hunsubscribed)).2
        refine ⟨hroute.own, hroute.silent, fun n _ htold => ?_, hroute.untold,
          fun hsubscribed => absurd hsubscribed hunsubscribed⟩
        rw [show _ = ∅ from hnone] at htold
        exact absurd htold (Finset.notMem_empty n)
      · refine (h.follows route).of_same rfl rfl rfl rfl (fun n hn => ?_) ⟨rfl, rfl, rfl⟩
        rw [howned route n hn, if_neg (fun hsame => hr hsame.1)]

/-- A service is listed exactly when it has an owner. -/
theorem mem_listed {names : List String} {route : Route} (hwf : s.daemons.Wf)
    (hnames : names.toFinset = s.daemons.names route) {n : String} (hn : IsService n) :
    n ∈ (names.filter (fun n => !isUniqueName n)).toFinset ↔ n ∈ s.daemons.ownedNames route := by
  have hconnected : n ∉ s.daemons.connected route := by
    intro hmem
    have hunique := hwf.named route n hmem
    rw [hn.1] at hunique
    cases hunique
  rw [List.toFinset_filter, Finset.mem_filter, hnames, Daemons.names, Finset.mem_insert,
    Finset.mem_union]
  simp [hn.1, hn.2, hconnected]

theorem Inv.list (h : s.Inv) {route : Route} {names : List String} {next : StartupPhase}
    (hbefore : s.phase.hasSubscribed route = false) (hafter : next.hasSubscribed route = false)
    (hothers : ∀ other, other ≠ route → next.hasListed other = s.phase.hasListed other ∧
      next.hasSubscribed other = s.phase.hasSubscribed other)
    (hstep : s.list route names next = some t) : t.Inv := by
  obtain ⟨hnames, ⟨⟩⟩ := Option.ite_none_right_eq_some.mp hstep
  refine ⟨h.daemons, fun other => ?_⟩
  by_cases hother : other = route
  · subst hother
    have hroute := h.follows other
    obtain ⟨hstream, hannounced⟩ := hroute.silent hbefore
    refine ⟨hroute.own, fun _ => ⟨hstream, hannounced⟩, fun n _ htold => ?_, fun _ n hn _ => ?_,
      fun hsubscribed => ?_⟩
    · rw [show _ = ∅ from hannounced] at htold
      exact absurd htold (Finset.notMem_empty n)
    · unfold expected
      dsimp only
      rw [hstream, List.foldl_nil, RoutingTable.namesOn_setNames, if_pos rfl,
        Function.update_self]
      exact mem_listed h.daemons hnames hn
    · rw [show _ = false from hafter] at hsubscribed
      cases hsubscribed
  · obtain ⟨hlisted, hsubscribed⟩ := hothers other hother
    refine (h.follows other).of_same hlisted hsubscribed rfl ?_ (fun _ _ => Iff.rfl)
      ⟨Function.update_of_ne hother .., rfl, rfl⟩
    dsimp only
    rw [RoutingTable.namesOn_setNames, if_neg hother]

theorem Inv.subscribe (h : s.Inv) {route : Route} {next : StartupPhase}
    (hafter : next.hasSubscribed route = true)
    (hlisted : ∀ other, next.hasListed other = s.phase.hasListed other)
    (hothers : ∀ other, other ≠ route →
      next.hasSubscribed other = s.phase.hasSubscribed other) : (s.subscribe route next).Inv := by
  refine ⟨h.daemons, fun other => ?_⟩
  by_cases hother : other = route
  · subst hother
    have hroute := h.follows other
    refine ⟨hroute.own, fun hsilent => ?_, hroute.told,
      fun hl => hroute.untold (hlisted other ▸ hl), fun _ n _ _ => ?_⟩
    · cases hafter.symm.trans hsilent
    · unfold Startup.subscribe
      dsimp only
      rw [Function.update_self]
  · exact (h.follows other).of_same (hlisted other) (hothers other hother) rfl rfl
      (fun _ _ => Iff.rfl) ⟨rfl, Function.update_of_ne hother .., rfl⟩

theorem Inv.recv (h : s.Inv) {route : Route} {change : NameOwnerChange}
    {rest : List NameOwnerChange} (hstream : s.streams route = change :: rest)
    (hsubscribed : s.phase.hasSubscribed route = true) :
    Inv { s with
      table := s.table.onNameChange change
      streams := Function.update s.streams route rest } := by
  refine ⟨h.daemons, fun other => ?_⟩
  by_cases hother : other = route
  · subst hother
    have hroute := h.follows other
    have hexpected : expected { s with
        table := s.table.onNameChange change
        streams := Function.update s.streams other rest } other = s.expected other := by
      unfold expected
      dsimp only
      rw [Function.update_self, hstream, List.foldl_cons]
    refine ⟨fun c hc => ?_, fun hsilent => ?_, ?_, ?_, hroute.steady⟩
    · dsimp only at hc
      rw [Function.update_self] at hc
      exact hroute.own c (hstream ▸ List.mem_cons_of_mem change hc)
    · rw [show _ = true from hsubscribed] at hsilent
      cases hsilent
    · rw [hexpected]
      exact hroute.told
    · rw [hexpected]
      exact hroute.untold
  · refine (h.follows other).of_same rfl rfl (Function.update_of_ne hother ..) ?_
      (fun _ _ => Iff.rfl) ⟨rfl, rfl, rfl⟩
    have hfrom : change.route = route :=
      (h.follows route).own change (hstream ▸ List.mem_cons_self)
    ext n
    dsimp only
    rw [RoutingTable.mem_namesOn_onNameChange, if_neg]
    rw [hfrom, Bool.and_eq_true, beq_iff_eq]
    exact fun hsame => hother hsame.1.symm

theorem Inv.step (h : s.Inv) (hstep : s.step e = some t) : t.Inv := by
  cases e with
  | daemon e =>
      obtain ⟨daemons, hdaemons, rfl⟩ := Option.map_eq_some_iff.mp hstep
      exact h.daemon hdaemons
  | listNames names =>
      simp only [Startup.step] at hstep
      cases hphase : s.phase with
      | listContainerNames =>
          rw [hphase] at hstep
          refine h.list (by rw [hphase]; rfl) rfl (fun other hother => ?_) hstep
          rw [hphase]
          cases other with
          | container => exact absurd rfl hother
          | host => exact ⟨rfl, rfl⟩
      | listHostNames =>
          rw [hphase] at hstep
          refine h.list (by rw [hphase]; rfl) rfl (fun other hother => ?_) hstep
          rw [hphase]
          cases other with
          | container => exact ⟨rfl, rfl⟩
          | host => exact absurd rfl hother
      | _ =>
          rw [hphase] at hstep
          cases hstep
  | listActivatableNames names =>
      simp only [Startup.step] at hstep
      cases hphase : s.phase with
      | listHostActivatable =>
          rw [hphase] at hstep
          cases hstep
          refine ⟨h.daemons, fun route => (h.follows route).of_same ?_ ?_ rfl ?_
            (fun _ _ => Iff.rfl) ⟨rfl, rfl, rfl⟩⟩
          · rw [hphase]
            cases route <;> rfl
          · rw [hphase]
            cases route <;> rfl
          · cases route <;> rfl
      | _ =>
          rw [hphase] at hstep
          cases hstep
  | subscribeNameChanges =>
      simp only [Startup.step] at hstep
      cases hphase : s.phase with
      | subscribeContainer =>
          rw [hphase] at hstep
          cases hstep
          refine h.subscribe rfl (fun other => ?_) (fun other hother => ?_)
          · rw [hphase]
            cases other <;> rfl
          · rw [hphase]
            cases other with
            | container => exact absurd rfl hother
            | host => rfl
      | subscribeHost =>
          rw [hphase] at hstep
          cases hstep
          refine h.subscribe rfl (fun other => ?_) (fun other hother => ?_)
          · rw [hphase]
            cases other <;> rfl
          · rw [hphase]
            cases other with
            | container => rfl
            | host => exact absurd rfl hother
      | _ =>
          rw [hphase] at hstep
          cases hstep
  | recv route =>
      simp only [Startup.step] at hstep
      split at hstep
      · next hphase hstream =>
          cases hstep
          exact h.recv hstream (by rw [hphase]; cases route <;> rfl)
      · cases hstep

end Startup

end KapsuleDbusMux
