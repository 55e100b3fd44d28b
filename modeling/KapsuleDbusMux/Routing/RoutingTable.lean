import KapsuleDbusMux.Library.AssocMap
import Mathlib.Data.Finset.Lattice.Lemmas
import Mathlib.Data.Finset.Insert

/-! # The routing table

`routing.rs`. The table decides whether a message goes to the container's
internal bus or to the host session bus. Hash sets are finite sets and hash
maps are `AssocMap`s; the log lines are left out.
-/

namespace KapsuleDbusMux

inductive Route where
  | container
  | host
  deriving DecidableEq, Repr

/-- Rust's `str::starts_with` on characters. -/
def startsWith (s pre : String) : Bool := pre.toList.isPrefixOf s.toList

/-- Names that start with a colon are unique names of connections. -/
def isUniqueName (name : String) : Bool := startsWith name ":"

/-- Maps unique names to their originating bus. -/
structure UniqueNameRegistry where
  names : AssocMap String Route

namespace UniqueNameRegistry

def new : UniqueNameRegistry := ⟨∅⟩

def register (reg : UniqueNameRegistry) (name : String) (route : Route) : UniqueNameRegistry :=
  ⟨reg.names.insert name route⟩

def unregister (reg : UniqueNameRegistry) (name : String) : UniqueNameRegistry :=
  ⟨reg.names.erase name⟩

def routeFor (reg : UniqueNameRegistry) (name : String) : Option Route :=
  reg.names.lookup name

end UniqueNameRegistry

/-- Routing priority: container-owned names, host-owned names, host-activatable
names, and the host by default. -/
structure RoutingTable where
  containerNames : Finset String
  hostNames : Finset String
  hostActivatable : Finset String
  uniqueNames : UniqueNameRegistry

namespace RoutingTable

def new : RoutingTable := ⟨∅, ∅, ∅, .new⟩

def routeForUniqueName (table : RoutingTable) (name : String) : Route :=
  (table.uniqueNames.routeFor name).getD .host

def routeFor (table : RoutingTable) (destination : String) : Route :=
  if isUniqueName destination then table.routeForUniqueName destination
  else if destination ∈ table.containerNames then .container
  else if destination ∈ table.hostNames then .host
  else if destination ∈ table.hostActivatable then .host
  else .host

def registerUniqueName (table : RoutingTable) (name : String) (route : Route) : RoutingTable :=
  { table with uniqueNames := table.uniqueNames.register name route }

def unregisterUniqueName (table : RoutingTable) (name : String) : RoutingTable :=
  { table with uniqueNames := table.uniqueNames.unregister name }

/-- The registry update both `NameOwnerChanged` handlers start with. -/
private def forgetOwner (table : RoutingTable) (oldOwner : String) : RoutingTable :=
  if oldOwner ≠ "" then table.unregisterUniqueName oldOwner else table

/-- A `NameOwnerChanged` signal from the container bus; an empty owner stands
for no owner. -/
def onContainerNameChange (table : RoutingTable) (name oldOwner newOwner : String) :
    RoutingTable :=
  let table := table.forgetOwner oldOwner
  if newOwner = "" then
    { table with containerNames := table.containerNames.erase name }
  else
    { table with containerNames := insert name table.containerNames }.registerUniqueName
      newOwner .container

/-- A `NameOwnerChanged` signal from the host bus. -/
def onHostNameChange (table : RoutingTable) (name oldOwner newOwner : String) : RoutingTable :=
  let table := table.forgetOwner oldOwner
  if newOwner = "" then
    { table with hostNames := table.hostNames.erase name }
  else
    { table with hostNames := insert name table.hostNames }.registerUniqueName newOwner .host

def setContainerNames (table : RoutingTable) (names : List String) : RoutingTable :=
  { table with containerNames := names.toFinset }

def setHostNames (table : RoutingTable) (names : List String) : RoutingTable :=
  { table with hostNames := names.toFinset }

def setHostActivatable (table : RoutingTable) (names : List String) : RoutingTable :=
  { table with hostActivatable := names.toFinset }

/-- The names visible to clients. The source returns them as a vector without
repetitions, in the unspecified order of the hash set. -/
def allNames (table : RoutingTable) : Finset String := table.containerNames ∪ table.hostNames

def nameHasOwner (table : RoutingTable) (name : String) : Bool :=
  decide (name ∈ table.containerNames) || decide (name ∈ table.hostNames)

def getNameOwnerRoute (table : RoutingTable) (name : String) : Option Route :=
  if name ∈ table.containerNames then some .container
  else if name ∈ table.hostNames then some .host
  else none

/-! ## What a change does -/

@[simp] theorem forgetOwner_containerNames (table : RoutingTable) (oldOwner : String) :
    (table.forgetOwner oldOwner).containerNames = table.containerNames := by
  unfold forgetOwner
  split <;> rfl

@[simp] theorem forgetOwner_hostNames (table : RoutingTable) (oldOwner : String) :
    (table.forgetOwner oldOwner).hostNames = table.hostNames := by
  unfold forgetOwner
  split <;> rfl

theorem onContainerNameChange_containerNames (table : RoutingTable)
    (name oldOwner newOwner : String) :
    (table.onContainerNameChange name oldOwner newOwner).containerNames =
      if newOwner = "" then table.containerNames.erase name
      else insert name table.containerNames := by
  unfold onContainerNameChange
  split <;> simp [registerUniqueName]

/-- A name change on the container says about its own name whether it is now
owned there, and nothing about the others. -/
theorem mem_containerNames_onContainerNameChange (table : RoutingTable)
    (name oldOwner newOwner other : String) :
    other ∈ (table.onContainerNameChange name oldOwner newOwner).containerNames ↔
      if other = name then newOwner ≠ "" else other ∈ table.containerNames := by
  rw [onContainerNameChange_containerNames]
  by_cases hn : other = name <;> by_cases ho : newOwner = "" <;> simp [hn, ho]

@[simp] theorem onContainerNameChange_hostNames (table : RoutingTable)
    (name oldOwner newOwner : String) :
    (table.onContainerNameChange name oldOwner newOwner).hostNames = table.hostNames := by
  unfold onContainerNameChange
  split <;> simp [registerUniqueName]

theorem mem_hostNames_onHostNameChange (table : RoutingTable)
    (name oldOwner newOwner other : String) :
    other ∈ (table.onHostNameChange name oldOwner newOwner).hostNames ↔
      if other = name then newOwner ≠ "" else other ∈ table.hostNames := by
  unfold onHostNameChange
  by_cases hn : other = name <;> by_cases ho : newOwner = "" <;>
    simp [registerUniqueName, hn, ho]

@[simp] theorem onHostNameChange_containerNames (table : RoutingTable)
    (name oldOwner newOwner : String) :
    (table.onHostNameChange name oldOwner newOwner).containerNames = table.containerNames := by
  unfold onHostNameChange
  split <;> simp [registerUniqueName]

theorem routeFor_forgetOwner (table : RoutingTable) {oldOwner u : String} (hu : u ≠ "") :
    (table.forgetOwner oldOwner).uniqueNames.routeFor u =
      if oldOwner = u then none else table.uniqueNames.routeFor u := by
  unfold forgetOwner
  by_cases ho : oldOwner = ""
  · rw [if_neg (not_not.mpr ho), if_neg (fun h => hu (h.symm.trans ho))]
  · rw [if_pos ho]
    show (table.uniqueNames.names.erase oldOwner).lookup u = _
    rw [AList.lookup_erase_if]
    simp only [eq_comm]
    rfl

theorem routeFor_onContainerNameChange (table : RoutingTable) (name oldOwner newOwner : String)
    {u : String} (hu : u ≠ "") :
    (table.onContainerNameChange name oldOwner newOwner).uniqueNames.routeFor u =
      if newOwner = u then some .container
      else if oldOwner = u then none else table.uniqueNames.routeFor u := by
  rw [← routeFor_forgetOwner table hu]
  unfold onContainerNameChange
  by_cases ho : newOwner = ""
  · rw [if_pos ho, if_neg (fun h => hu (h.symm.trans ho))]
  · rw [if_neg ho]
    show ((table.forgetOwner oldOwner).uniqueNames.names.insert newOwner .container).lookup u = _
    rw [AList.lookup_insert_if]
    simp only [eq_comm]
    rfl

theorem routeFor_onHostNameChange (table : RoutingTable) (name oldOwner newOwner : String)
    {u : String} (hu : u ≠ "") :
    (table.onHostNameChange name oldOwner newOwner).uniqueNames.routeFor u =
      if newOwner = u then some .host
      else if oldOwner = u then none else table.uniqueNames.routeFor u := by
  rw [← routeFor_forgetOwner table hu]
  unfold onHostNameChange
  by_cases ho : newOwner = ""
  · rw [if_pos ho, if_neg (fun h => hu (h.symm.trans ho))]
  · rw [if_neg ho]
    show ((table.forgetOwner oldOwner).uniqueNames.names.insert newOwner .host).lookup u = _
    rw [AList.lookup_insert_if]
    simp only [eq_comm]
    rfl

end RoutingTable

end KapsuleDbusMux
