import KapsuleDbusMux.Library.History
import KapsuleDbusMux.Routing.RoutingTable

/-! # The routing table and the history of name changes

The table starts with the names `sync_routing_table` found on both buses and then
follows the `NameOwnerChanged` signals of both. What it says about a well-known
name is what each bus said last: container first, then host.
-/

namespace KapsuleDbusMux

/-- A `NameOwnerChanged` signal and the bus it comes from. -/
structure NameOwnerChange where
  route : Route
  name : String
  oldOwner : String
  newOwner : String
  deriving DecidableEq, Repr

namespace RoutingTable

/-- What `handle_bus_message` does with a `NameOwnerChanged` signal. -/
def onNameChange (table : RoutingTable) (change : NameOwnerChange) : RoutingTable :=
  match change.route with
  | .container => table.onContainerNameChange change.name change.oldOwner change.newOwner
  | .host => table.onHostNameChange change.name change.oldOwner change.newOwner

/-- The table that `sync_routing_table` leaves behind. -/
def synchronised (containerNames hostNames hostActivatable : List String) : RoutingTable :=
  ((new.setContainerNames containerNames).setHostNames hostNames).setHostActivatable
    hostActivatable

def namesOn (table : RoutingTable) : Route → Finset String
  | .container => table.containerNames
  | .host => table.hostNames

end RoutingTable

/-! ## Ownership by history -/

/-- The names owned when the multiplexer starts, and everything the buses have
announced since. -/
structure NameHistory where
  containerNames : List String
  hostNames : List String
  hostActivatable : List String
  changes : List NameOwnerChange

namespace NameHistory

def initially (history : NameHistory) : Route → List String
  | .container => history.containerNames
  | .host => history.hostNames

/-- The bus said so last, or has said nothing and the name was there from the start. -/
def Owned (history : NameHistory) (route : Route) (n : String) : Prop :=
  match History.last (fun c => c.route == route && c.name == n) history.changes with
  | some change => change.newOwner ≠ ""
  | none => n ∈ history.initially route

instance (history : NameHistory) (route : Route) (n : String) :
    Decidable (history.Owned route n) := by
  unfold Owned
  split <;> infer_instance

def table (history : NameHistory) : RoutingTable :=
  history.changes.foldl RoutingTable.onNameChange
    (.synchronised history.containerNames history.hostNames history.hostActivatable)

/-- What each bus announced, in its own order, whatever came in between. -/
def SameStreams (history history' : NameHistory) : Prop :=
  (∀ route, history'.initially route = history.initially route) ∧
    ∀ route, history'.changes.filter (fun c => c.route == route) =
      history.changes.filter (fun c => c.route == route)

theorem SameStreams.owned_iff {history history' : NameHistory}
    (h : history.SameStreams history') (route : Route) (n : String) :
    history'.Owned route n ↔ history.Owned route n := by
  have hcoarser : ∀ c : NameOwnerChange, (c.route == route && c.name == n) = true →
      (c.route == route) = true := by
    intro c hc
    exact (Bool.and_eq_true_iff.mp hc).1
  unfold Owned
  rw [← History.last_filter hcoarser history'.changes, h.2 route,
    History.last_filter hcoarser history.changes, h.1 route]

end NameHistory

/-! ## The table follows the history -/

namespace RoutingTable

theorem mem_namesOn_onNameChange (table : RoutingTable) (change : NameOwnerChange) (route : Route)
    (n : String) :
    n ∈ (table.onNameChange change).namesOn route ↔
      if (change.route == route && change.name == n) = true then change.newOwner ≠ ""
      else n ∈ table.namesOn route := by
  rcases change with ⟨bus, name, oldOwner, newOwner⟩
  cases bus with
  | container =>
      cases route with
      | container =>
          simp [namesOn, onNameChange, mem_containerNames_onContainerNameChange, eq_comm (a := n)]
      | host => simp [namesOn, onNameChange]
  | host =>
      cases route with
      | container => simp [namesOn, onNameChange]
      | host => simp [namesOn, onNameChange, mem_hostNames_onHostNameChange, eq_comm (a := n)]

theorem mem_namesOn_synchronised (containerNames hostNames hostActivatable changes) (route : Route)
    (n : String) :
    n ∈ (synchronised containerNames hostNames hostActivatable).namesOn route ↔
      n ∈ (⟨containerNames, hostNames, hostActivatable, changes⟩ : NameHistory).initially route := by
  cases route with
  | container => exact List.mem_toFinset
  | host => exact List.mem_toFinset

end RoutingTable

namespace NameHistory

/-- A name is in the table of a bus exactly while that bus has it owned. -/
theorem mem_table_iff (history : NameHistory) (route : Route) (n : String) :
    n ∈ history.table.namesOn route ↔ history.Owned route n := by
  have hfold := History.observe_foldl RoutingTable.onNameChange
    (fun table => n ∈ table.namesOn route)
    (p := fun c => c.route == route && c.name == n) (f := fun c => c.newOwner ≠ "")
    (fun table change =>
      propext (RoutingTable.mem_namesOn_onNameChange table change route n))
    (RoutingTable.synchronised history.containerNames history.hostNames history.hostActivatable)
    history.changes
  have hinit := RoutingTable.mem_namesOn_synchronised history.containerNames history.hostNames
    history.hostActivatable history.changes route n
  unfold table Owned
  rw [hfold]
  split
  · next change hlast =>
      rw [hlast]
      exact Iff.rfl
  · next hlast =>
      rw [hlast]
      exact hinit

section Queries

variable (history : NameHistory) {n : String}

theorem getNameOwnerRoute_eq :
    history.table.getNameOwnerRoute n =
      if history.Owned .container n then some .container
      else if history.Owned .host n then some .host else none := by
  unfold RoutingTable.getNameOwnerRoute
  simp only [← mem_table_iff]
  rfl

theorem nameHasOwner_iff :
    history.table.nameHasOwner n = true ↔
      history.Owned .container n ∨ history.Owned .host n := by
  unfold RoutingTable.nameHasOwner
  rw [Bool.or_eq_true, decide_eq_true_iff, decide_eq_true_iff, ← mem_table_iff, ← mem_table_iff]
  exact Iff.rfl

theorem mem_allNames_iff :
    n ∈ history.table.allNames ↔ history.Owned .container n ∨ history.Owned .host n := by
  unfold RoutingTable.allNames
  rw [Finset.mem_union, ← mem_table_iff, ← mem_table_iff]
  exact Iff.rfl

theorem routeFor_eq (hn : isUniqueName n = false) :
    history.table.routeFor n = if history.Owned .container n then .container else .host := by
  have hmem : n ∈ history.table.containerNames ↔ history.Owned .container n :=
    history.mem_table_iff .container n
  unfold RoutingTable.routeFor
  rw [hn, if_neg Bool.false_ne_true]
  by_cases howned : history.Owned .container n
  · rw [if_pos howned, if_pos (hmem.mpr howned)]
  · rw [if_neg howned, if_neg (mt hmem.mp howned)]
    split
    · rfl
    · split <;> rfl

end Queries

/-- Every query about a well-known name follows the history of each bus, container
first. Only the order within the stream of each bus matters. -/
theorem container_priority (history : NameHistory) {n : String} (hn : isUniqueName n = false) :
    (history.table.routeFor n = .container ↔ history.Owned .container n) ∧
      history.table.getNameOwnerRoute n =
        (if history.Owned .container n then some .container
          else if history.Owned .host n then some .host else none) ∧
      (∀ route, history.table.getNameOwnerRoute n = some route →
        history.table.routeFor n = route) ∧
      (history.table.nameHasOwner n = true ↔
        history.Owned .container n ∨ history.Owned .host n) ∧
      (∀ names : List String, names.Nodup → names.toFinset = history.table.allNames →
        names.count n = if history.Owned .container n ∨ history.Owned .host n then 1 else 0) ∧
      ∀ history' : NameHistory, history.SameStreams history' →
        history'.table.routeFor n = history.table.routeFor n ∧
        history'.table.getNameOwnerRoute n = history.table.getNameOwnerRoute n ∧
        history'.table.nameHasOwner n = history.table.nameHasOwner n ∧
        (n ∈ history'.table.allNames ↔ n ∈ history.table.allNames) := by
  refine ⟨?_, history.getNameOwnerRoute_eq, ?_, history.nameHasOwner_iff, ?_, ?_⟩
  · rw [history.routeFor_eq hn]
    by_cases howned : history.Owned .container n
    · simp [howned]
    · simp [howned]
  · intro route hroute
    rw [history.getNameOwnerRoute_eq] at hroute
    rw [history.routeFor_eq hn]
    by_cases howned : history.Owned .container n
    · rw [if_pos howned] at hroute ⊢
      exact Option.some.inj hroute
    · rw [if_neg howned] at hroute ⊢
      split at hroute
      · exact Option.some.inj hroute
      · cases hroute
  · intro names hnodup hnames
    have hmem : n ∈ names ↔ history.Owned .container n ∨ history.Owned .host n := by
      rw [← history.mem_allNames_iff, ← hnames, List.mem_toFinset]
    rw [hnodup.count]
    simp only [hmem]
  · intro history' hsame
    have hiff := fun route => hsame.owned_iff route n
    refine ⟨?_, ?_, ?_, ?_⟩
    · rw [history.routeFor_eq hn, history'.routeFor_eq hn]
      simp only [hiff]
    · rw [history.getNameOwnerRoute_eq, history'.getNameOwnerRoute_eq]
      simp only [hiff]
    · rw [Bool.eq_iff_iff, history.nameHasOwner_iff, history'.nameHasOwner_iff, hiff, hiff]
    · rw [history.mem_allNames_iff, history'.mem_allNames_iff, hiff, hiff]

def shadowing : NameHistory where
  containerNames := []
  hostNames := ["org.a"]
  hostActivatable := []
  changes := [⟨.container, "org.a", "", ":1.2"⟩, ⟨.container, "org.a", ":1.2", ""⟩]

theorem container_priority_shadowing :
    shadowing.table.getNameOwnerRoute "org.a" = some .host ∧
      shadowing.table.routeFor "org.a" = .host := by
  have hroute : shadowing.table.getNameOwnerRoute "org.a" = some .host := by decide
  exact ⟨hroute, (container_priority shadowing (n := "org.a") (by decide)).2.2.1 .host hroute⟩

end NameHistory

end KapsuleDbusMux
