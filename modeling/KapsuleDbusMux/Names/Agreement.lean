import KapsuleDbusMux.Multiplexer.NameInvariant

/-! # Queue, bus and routing table agree on a name

One name at a time. `NameView` is all that matters about the name in a state:
who has it, what the bus has announced and the main loop has not read yet, and
what the handler and the cleanups are about to do to it. Every step of the tasks
is one of a few moves on the view, and each move keeps `NameView.Agrees` unless
a release overtakes a request or the other way round.
-/

namespace KapsuleDbusMux

/-! ## The view of one name -/

/-- What the last of the signals says about a name, if one of them is about it. -/
def announced (n : String) : List (String × String × String) → Option Bool
  | [] => none
  | (name, _, newOwner) :: signals =>
      (announced n signals).or (if name = n then some (decide (newOwner ≠ "")) else none)

theorem announced_concat (n : String) (signals : List (String × String × String))
    (name oldOwner newOwner : String) :
    announced n (signals ++ [(name, oldOwner, newOwner)]) =
      if name = n then some (decide (newOwner ≠ "")) else announced n signals := by
  induction signals with
  | nil => simp [announced]
  | cons signal signals ih =>
      rcases signal with ⟨first, _, last⟩
      rw [List.cons_append]
      simp only [announced, ih]
      split
      · rfl
      · rfl

/-- `queued`: the queue has an owner; `owned`, `routed`: the bus and the routing
table have the name. `requests`, `routes`, `unroutes`, `releases`, `reverts`: what
the handler in progress does to it next. `removals` and `releasesDue` count the
cleanups that may still take it out of the routing table, and those whose next
step releases it on the bus. -/
@[ext]
structure NameView where
  queued : Bool
  owned : Bool
  routed : Bool
  announced : Option Bool
  requests : Bool
  routes : Bool
  unroutes : Bool
  releases : Bool
  reverts : Bool
  removals : Nat
  releasesDue : Nat

structure NameView.MainIdle (v : NameView) : Prop where
  requests : v.requests = false
  routes : v.routes = false
  unroutes : v.unroutes = false
  releases : v.releases = false
  reverts : v.reverts = false

/-- The view of a name on which nothing has gone wrong: a disagreement is one that
a step still to come repairs. -/
structure NameView.Agrees (v : NameView) : Prop where
  owned_of_queued : v.queued = true → v.owned = true ∨ v.requests = true
  release_ahead : v.queued = false → v.owned = true →
    v.releases = true ∨ 0 < v.removals ∨ 0 < v.releasesDue
  released : v.releases = true → v.queued = false
  last_announced : ∀ b, v.announced = some b → b = v.owned
  routes_owned : v.routes = true → v.owned = true ∨ v.announced ≠ none
  unroutes_free : v.unroutes = true → v.owned = false
  routed_of_owned : v.announced = none → v.owned = true → v.routed = true ∨ 0 < v.releasesDue
  owned_of_routed : v.announced = none → v.routed = true →
    v.owned = true ∨ v.requests = true ∨ 0 < v.removals
  no_revert : v.reverts = false

namespace NameView

def onBusRequest (v : NameView) : NameView :=
  { v with owned := true, announced := if v.owned then v.announced else some true }

def onBusRelease (v : NameView) : NameView :=
  { v with owned := false, announced := if v.owned then some false else v.announced }

def onMain (v : NameView) (requests routes unroutes releases : Bool) : NameView :=
  { v with requests := requests, routes := routes, unroutes := unroutes, releases := releases }

variable {v : NameView} (h : v.Agrees)
include h

/-- `request_name` makes the caller owner, and the handler goes to the bus. -/
theorem Agrees.enqueue :
    ({ v with queued := true }.onMain true false false false).Agrees :=
  { h with
    owned_of_queued := fun _ => Or.inr rfl
    release_ahead := fun hq => by cases hq
    released := fun hr => by cases hr
    routes_owned := fun hr => by cases hr
    unroutes_free := fun hu => by cases hu
    owned_of_routed := fun ha hr => (h.owned_of_routed ha hr).imp_right (Or.imp_left (fun _ => rfl)) }

/-- The bus grants a request while the queue still wants it, or something will
release it again. -/
theorem Agrees.grant
    (hwanted : v.queued = true ∨ 0 < v.removals ∨ 0 < v.releasesDue) :
    (v.onBusRequest.onMain false true false false).Agrees :=
  { h with
    owned_of_queued := fun _ => Or.inl rfl
    release_ahead := fun hq _ => by
      rcases hwanted with hqueued | hahead
      · cases hqueued.symm.trans hq
      · exact Or.inr hahead
    released := fun hr => by cases hr
    last_announced := fun b hb => by
      simp only [onMain, onBusRequest] at hb ⊢
      cases howned : v.owned with
      | false => simpa [howned] using hb.symm
      | true => rw [h.last_announced b (by simpa [howned] using hb), howned]
    routes_owned := fun _ => Or.inl rfl
    unroutes_free := fun hu => by cases hu
    routed_of_owned := fun ha _ => by
      simp only [onMain, onBusRequest] at ha
      cases howned : v.owned with
      | false => simp [howned] at ha
      | true => exact h.routed_of_owned (by simpa [howned] using ha) howned
    owned_of_routed := fun _ _ => Or.inl rfl }

/-- The routing table learns that the name is owned. It is, or the signal that says
otherwise is still to be read, or somebody corrects the table. -/
theorem Agrees.route (htrue : v.owned = true ∨ v.announced ≠ none ∨ v.requests = true ∨
      0 < v.removals) :
    { v with routed := true }.Agrees :=
  { h with
    routed_of_owned := fun _ _ => Or.inl rfl
    owned_of_routed := fun ha _ => by
      rcases htrue with howned | hsignal | hrest
      · exact Or.inl howned
      · exact absurd ha hsignal
      · exact Or.inr hrest }

/-- The routing table learns that the name is free, from a task whose next step
releases it on the bus. -/
theorem Agrees.unroute {removals releasesDue : Nat} (hdue : 0 < releasesDue) :
    { v with routed := false, removals := removals, releasesDue := releasesDue }.Agrees :=
  { h with
    release_ahead := fun _ _ => Or.inr (Or.inr hdue)
    routed_of_owned := fun _ _ => Or.inr hdue
    owned_of_routed := fun _ hr => by cases hr }

/-- The routing table learns that the name is free after it was released. -/
theorem Agrees.unrouteFree (hfree : v.owned = false) : { v with routed := false }.Agrees :=
  { h with
    routed_of_owned := fun _ howned => by cases hfree.symm.trans howned
    owned_of_routed := fun _ hr => by cases hr }

/-- The bus releases the name for a task that was due to do so, while the queue has
no owner or the request for the new one is still on its way. -/
theorem Agrees.release {releasesDue : Nat} (hfree : v.queued = false ∨ v.requests = true) :
    { v.onBusRelease with releasesDue := releasesDue }.Agrees :=
  { h with
    owned_of_queued := fun hq => by
      rcases hfree with hfree | hrequests
      · cases hfree.symm.trans hq
      · exact Or.inr hrequests
    release_ahead := fun _ howned => by cases howned
    last_announced := fun b hb => by
      simp only [onBusRelease] at hb ⊢
      cases howned : v.owned with
      | false => rw [h.last_announced b (by simpa [howned] using hb), howned]
      | true => simpa [howned] using hb.symm
    routes_owned := fun hr => by
      simp only [onBusRelease]
      cases howned : v.owned with
      | false => simpa [howned] using h.routes_owned hr
      | true => simp
    unroutes_free := fun _ => rfl
    routed_of_owned := fun _ howned => by cases howned
    owned_of_routed := fun ha hr => by
      simp only [onBusRelease] at ha
      cases howned : v.owned with
      | false =>
          rcases h.owned_of_routed (by simpa [howned] using ha) hr with howned' | hrest
          · cases howned.symm.trans howned'
          · exact Or.inr hrest
      | true => simp [howned] at ha }

theorem Agrees.finish (hrequests : v.requests = false) (hreleases : v.releases = false) :
    (v.onMain false false false false).Agrees :=
  { h with
    owned_of_queued := fun hq => (h.owned_of_queued hq).imp_right (fun hr => by
      cases hrequests.symm.trans hr)
    release_ahead := fun hq howned => (h.release_ahead hq howned).imp_left (fun hr => by
      cases hreleases.symm.trans hr)
    released := fun hr => by cases hr
    routes_owned := fun hr => by cases hr
    unroutes_free := fun hu => by cases hu
    owned_of_routed := fun ha hr => (h.owned_of_routed ha hr).imp_right (Or.imp_left (fun hq => by
      cases hrequests.symm.trans hq)) }

theorem Agrees.moreRemovals {removals : Nat} (hmore : v.removals ≤ removals) :
    { v with removals := removals }.Agrees :=
  { h with
    release_ahead := fun hq howned => (h.release_ahead hq howned).imp_right (Or.imp_left (fun hr =>
      Nat.lt_of_lt_of_le hr hmore))
    owned_of_routed := fun ha hr => (h.owned_of_routed ha hr).imp_right (Or.imp_right (fun hp =>
      Nat.lt_of_lt_of_le hp hmore)) }

/-- A cleanup finds the name owned again and leaves it alone. -/
theorem Agrees.skipRemoval (hqueued : v.queued = true) (removals : Nat) :
    { v with removals := removals }.Agrees :=
  { h with
    release_ahead := fun hq => by cases hqueued.symm.trans hq
    owned_of_routed := fun _ _ => (h.owned_of_queued hqueued).imp_right Or.inl }

/-- `remove_client` leaves the name without an owner, and its cleanup goes on to
release it. -/
theorem Agrees.vacate {removals : Nat} (hahead : 0 < removals) (hmore : v.removals ≤ removals) :
    { v with queued := false, removals := removals }.Agrees :=
  { h.moreRemovals hmore with
    owned_of_queued := fun hq => by cases hq
    release_ahead := fun _ _ => Or.inr (Or.inl hahead)
    released := fun _ => rfl }

theorem Agrees.read (hidle : v.MainIdle) (routed : Bool) (rest : Option Bool)
    (hmore : ∀ b, rest = some b → v.announced = some b)
    (hlast : rest = none → (v.announced = some routed ∨ v.announced = none ∧ routed = v.routed)) :
    { v with routed := routed, announced := rest }.Agrees :=
  { h with
    last_announced := fun b hb => h.last_announced b (hmore b hb)
    routes_owned := fun hr => by cases hidle.routes.symm.trans hr
    routed_of_owned := fun ha howned => by
      rcases hlast ha with hsignal | ⟨hnone, hsame⟩
      · exact Or.inl ((h.last_announced routed hsignal).trans howned)
      · rw [hsame]
        exact h.routed_of_owned hnone howned
    owned_of_routed := fun ha hr => by
      rcases hlast ha with hsignal | ⟨hnone, hsame⟩
      · exact Or.inl ((h.last_announced routed hsignal).symm.trans hr)
      · exact h.owned_of_routed hnone (hsame.symm.trans hr) }

/-- `release_name` promotes a waiter of a name that is owned, and the handler goes
to the routing table. -/
theorem Agrees.promote (hidle : v.MainIdle) (hqueued : v.queued = true) :
    (v.onMain false true false false).Agrees :=
  { h.finish hidle.requests hidle.releases with
    routes_owned := fun _ => (h.owned_of_queued hqueued).imp_right (fun hr => by
      cases hidle.requests.symm.trans hr) }

/-- `release_name` leaves the name without an owner, and the handler goes to the bus. -/
theorem Agrees.dismiss (hidle : v.MainIdle) :
    ({ v with queued := false }.onMain false false false true).Agrees :=
  { h.finish hidle.requests hidle.releases with
    owned_of_queued := fun hq => by cases hq
    release_ahead := fun _ _ => Or.inl rfl
    released := fun _ => rfl }

/-- The handler releases the name on the bus. -/
theorem Agrees.releaseMain (hreleases : v.releases = true) (hrequests : v.requests = false)
    (unroutes : Bool) : (v.onBusRelease.onMain false false unroutes false).Agrees :=
  have hfree := h.released hreleases
  have hrelease : v.onBusRelease.Agrees := h.release (Or.inl hfree)
  { hrelease with
    owned_of_queued := fun hq => by cases hfree.symm.trans hq
    release_ahead := fun _ howned => by cases howned
    released := fun _ => hfree
    routes_owned := fun hr => by cases hr
    unroutes_free := fun _ => rfl
    owned_of_routed := fun ha hr => (hrelease.owned_of_routed ha hr).imp_right (Or.imp_left
      (fun hq => by cases hrequests.symm.trans hq)) }

end NameView

/-- With nothing left to do, nothing is left to repair. -/
theorem NameView.Agrees.settled {v : NameView} (h : v.Agrees) (hidle : v.MainIdle)
    (hremovals : v.removals = 0) (hdue : v.releasesDue = 0) (hread : v.announced = none) :
    v.queued = v.owned ∧ v.routed = v.owned := by
  constructor
  · cases howned : v.owned with
    | true =>
        by_contra hqueued
        rcases h.release_ahead (by simpa using hqueued) howned with hr | hr | hr
        · cases hidle.releases.symm.trans hr
        · omega
        · omega
    | false =>
        by_contra hqueued
        rcases h.owned_of_queued (by simpa using hqueued) with hr | hr
        · cases howned.symm.trans hr
        · cases hidle.requests.symm.trans hr
  · cases howned : v.owned with
    | true =>
        rcases h.routed_of_owned hread howned with hr | hr
        · exact hr
        · omega
    | false =>
        by_contra hrouted
        rcases h.owned_of_routed hread (by simpa using hrouted) with hr | hr | hr
        · cases howned.symm.trans hr
        · cases hidle.requests.symm.trans hr
        · omega

/-! ## The view of a state -/

namespace MainTask

@[simp] def requests (n : String) : MainTask → Bool
  | .requestBus _ name _ => name == n
  | _ => false

@[simp] def routes (n : String) : MainTask → Bool
  | .requestRouting _ name _ => name == n
  | .promoteRouting _ name _ => name == n
  | _ => false

@[simp] def unroutes (n : String) : MainTask → Bool
  | .releaseRouting _ name _ => name == n
  | _ => false

@[simp] def releases (n : String) : MainTask → Bool
  | .releaseLookup _ name => name == n
  | .releaseBus _ name _ => name == n
  | _ => false

@[simp] def reverts (n : String) : MainTask → Bool
  | .requestRevert _ name => name == n
  | _ => false

end MainTask

namespace Cleanup

/-- The cleanup may still take the name out of the routing table, and release it. -/
def removes (cleanup : Cleanup) (n : String) : Bool :=
  match cleanup.phase with
  | .queue => decide (n ∈ cleanup.ownedNames)
  | .results rest => decide ((n, none) ∈ rest) || decide (n ∈ cleanup.ownedNames)
  | .promoteOwned _ _ rest => decide ((n, none) ∈ rest) || decide (n ∈ cleanup.ownedNames)
  | .releaseBus _ rest => decide ((n, none) ∈ rest) || decide (n ∈ cleanup.ownedNames)
  | .ownedNames rest => decide (n ∈ rest)
  | .ownedRouting name rest => decide (n ∈ name :: rest)
  | .ownedBus _ rest => decide (n ∈ rest)

def releasesNext (cleanup : Cleanup) (n : String) : Bool :=
  match cleanup.phase with
  | .releaseBus name _ => name == n
  | .ownedBus name _ => name == n
  | _ => false

end Cleanup

namespace NameState

def removals (s : NameState) (n : String) : Nat :=
  s.cleanups.count (fun _ cleanup => cleanup.removes n)

def releasesDue (s : NameState) (n : String) : Nat :=
  s.cleanups.count (fun _ cleanup => cleanup.releasesNext n)

def view (s : NameState) (n : String) : NameView where
  queued := s.queue.nameHasOwner n
  owned := decide (n ∈ s.bus.owned)
  routed := decide (n ∈ s.routing.containerNames)
  announced := announced n s.bus.signals
  requests := s.main.requests n
  routes := s.main.routes n
  unroutes := s.main.unroutes n
  releases := s.main.releases n
  reverts := s.main.reverts n
  removals := s.removals n
  releasesDue := s.releasesDue n

/-- While the bus answers, a call about the name succeeds. -/
def BusCooperates (n : String) (s : NameState) : NameEvent → Prop
  | .resume answered =>
      match s.main with
      | .requestBus _ name _ => name = n → answered = true
      | .releaseBus _ name _ => name = n → answered = true
      | _ => True
  | .cleanUp clientId answered =>
      (s.cleanups.lookup clientId).any (fun cleanup => cleanup.releasesNext n) = true →
        answered = true
  | _ => True

/-- No release overtakes a request for the name, no request a release, and no
promotion is written to the routing table after the name is gone for good. -/
def Undisturbed (n : String) (s : NameState) : NameEvent → Prop
  | .resume _ =>
      s.main.requests n = true →
        s.queue.nameHasOwner n = true ∨ 0 < s.removals n ∨ 0 < s.releasesDue n
  | .cleanUp clientId _ =>
      match (s.cleanups.lookup clientId).map Cleanup.phase with
      | some (.releaseBus name _) =>
          name = n → s.queue.nameHasOwner n = false ∨ s.main.requests n = true
      | some (.ownedBus name _) =>
          name = n → s.queue.nameHasOwner n = false ∨ s.main.requests n = true
      | some (.results ((name, some _) :: _)) =>
          name = n → n ∈ s.bus.owned ∨ announced n s.bus.signals ≠ none ∨
            s.main.requests n = true ∨ 0 < s.removals n
      | _ => True
  | _ => True

instance (n : String) (s : NameState) (e : NameEvent) : Decidable (BusCooperates n s e) := by
  unfold BusCooperates
  split
  · split <;> infer_instance
  · infer_instance
  · infer_instance

instance (n : String) (s : NameState) (e : NameEvent) : Decidable (Undisturbed n s e) := by
  unfold Undisturbed
  split
  · infer_instance
  · split <;> infer_instance
  · infer_instance

theorem mainIdle_of_idle {s : NameState} (h : s.main = .idle) (n : String) :
    (s.view n).MainIdle := by
  constructor <;> simp [view, h]

/-! ## Calls on the bus -/

theorem requestName_owned (bus : ContainerBus) (name n : String) :
    n ∈ (bus.requestName name).2.owned ↔ n = name ∨ n ∈ bus.owned := by
  unfold ContainerBus.requestName
  split
  · next hmem =>
      constructor
      · exact Or.inr
      · intro hn
        rcases hn with hn | hn
        · rw [hn]
          exact hmem
        · exact hn
  · simp

theorem requestName_announced (bus : ContainerBus) (name n : String) :
    announced n (bus.requestName name).2.signals =
      if name = n ∧ n ∉ bus.owned then some true else announced n bus.signals := by
  unfold ContainerBus.requestName
  by_cases hmem : name ∈ bus.owned
  · rw [if_pos hmem, if_neg]
    rintro ⟨hn, hnot⟩
    exact hnot (hn ▸ hmem)
  · rw [if_neg hmem]
    simp only [announced_concat]
    by_cases hn : name = n
    · subst hn
      simp [hmem, bus.named]
    · simp [hn]

theorem releaseName_owned (bus : ContainerBus) (name n : String) :
    n ∈ (bus.releaseName name).owned ↔ n ≠ name ∧ n ∈ bus.owned := by
  unfold ContainerBus.releaseName
  split
  · simp
  · next hmem =>
      constructor
      · intro hn
        exact ⟨fun heq => hmem (heq ▸ hn), hn⟩
      · exact And.right

theorem releaseName_announced (bus : ContainerBus) (name n : String) :
    announced n (bus.releaseName name).signals =
      if name = n ∧ n ∈ bus.owned then some false else announced n bus.signals := by
  unfold ContainerBus.releaseName
  by_cases hmem : name ∈ bus.owned
  · rw [if_pos hmem]
    simp only [announced_concat]
    by_cases hn : name = n
    · subst hn
      simp [hmem]
    · simp [hn]
  · rw [if_neg hmem, if_neg]
    rintro ⟨hn, hown⟩
    exact hmem (hn ▸ hown)

/-! ## Handlers -/

theorem muxUniqueName_ne_empty (clientId : ClientId) : muxUniqueName clientId ≠ "" := by
  intro h
  have hlist := congrArg String.toList h
  simp [muxUniqueName] at hlist

section Handlers

variable {s t : NameState} {n : String} (hwf : s.Wf) (h : (s.view n).Agrees)
include h

theorem agrees_of_view_eq (hview : t.view n = s.view n) : (t.view n).Agrees := by
  rw [hview]
  exact h

include hwf

theorem agrees_requestQueue {clientId : ClientId} {name : String} {flags : UInt32}
    {uniqueName : String} (hmain : s.main = .requestQueue clientId name flags uniqueName) :
    (view { s with
      queue := (s.queue.requestName name clientId uniqueName flags).2
      main :=
        if (s.queue.requestName name clientId uniqueName flags).1.forwardToBus then
          .requestBus clientId name uniqueName
        else .idle } n).Agrees := by
  have howner := NameQueueManager.nameHasOwner_requestName hwf.queue.wellFormed name clientId
    uniqueName flags n
  by_cases hn : name = n
  · subst hn
    cases hforward : (s.queue.requestName name clientId uniqueName flags).1.forwardToBus with
    | true =>
        have hview := h.enqueue
        convert hview using 1
        ext <;> simp [view, NameView.onMain, removals, releasesDue, howner, hmain]
    | false =>
        have hbefore := NameQueueManager.nameHasOwner_of_not_forwarded hwf.queue.wellFormed
          hforward
        apply agrees_of_view_eq h
        ext <;> simp [view, removals, releasesDue, howner, hmain, hbefore]
  · have hsame : (s.queue.requestName name clientId uniqueName flags).2.nameHasOwner n =
        s.queue.nameHasOwner n := by
      simp [howner, Ne.symm hn]
    apply agrees_of_view_eq h
    cases (s.queue.requestName name clientId uniqueName flags).1.forwardToBus with
    | true => ext <;> simp [view, removals, releasesDue, hsame, hmain, hn]
    | false => ext <;> simp [view, removals, releasesDue, hsame, hmain]

omit hwf

theorem agrees_grant {clientId : ClientId} {name uniqueName : String}
    (hmain : s.main = .requestBus clientId name uniqueName)
    (hfree : s.main.requests n = true →
      s.queue.nameHasOwner n = true ∨ 0 < s.removals n ∨ 0 < s.releasesDue n) :
    (view { s with
      bus := (s.bus.requestName name).2
      main := .requestRouting clientId name uniqueName } n).Agrees := by
  have howned := requestName_owned s.bus name n
  have hsignals := requestName_announced s.bus name n
  by_cases hn : name = n
  · subst hn
    have hview := h.grant (hfree (by simp [hmain]))
    convert hview using 1
    ext <;> simp [view, NameView.onMain, NameView.onBusRequest, removals, releasesDue, howned,
      hsignals, hmain]
  · apply agrees_of_view_eq h
    ext <;> simp [view, removals, releasesDue, howned, hsignals, hmain, hn, Ne.symm hn]

/-- Both handlers write an owner into the routing table. -/
theorem agrees_route {clientId : ClientId} {name newOwner : String} {next : MainTask}
    (hmain : (s.main = .requestRouting clientId name newOwner ∧
        next = .requestOwned clientId name) ∨
      ∃ newOwnerId, s.main = .promoteRouting clientId name (newOwnerId, newOwner) ∧
        next = .promoteOwned clientId name newOwnerId)
    (howner : newOwner ≠ "") :
    (view { s with
      routing := s.routing.onContainerNameChange name "" newOwner
      main := next } n).Agrees := by
  have hrouted := RoutingTable.mem_containerNames_onContainerNameChange s.routing name ""
    newOwner n
  have hflags : (s.view n).requests = false ∧ (s.view n).releases = false ∧
      (s.view n).unroutes = false ∧ (s.view n).reverts = false ∧
      (s.view n).routes = (name == n) := by
    rcases hmain with ⟨hmain, _⟩ | ⟨newOwnerId, hmain, _⟩ <;> simp [view, hmain]
  have hview : view { s with
      routing := s.routing.onContainerNameChange name "" newOwner
      main := next } n =
      { s.view n with routed := decide (n = name) || (s.view n).routed }.onMain false false false
        false := by
    rcases hmain with ⟨hmain, hnext⟩ | ⟨newOwnerId, hmain, hnext⟩
    all_goals
      subst hnext
      ext <;> simp [view, NameView.onMain, removals, releasesDue, hrouted, howner, hmain]
  rw [hview]
  by_cases hn : n = name
  · subst hn
    have htrue := h.routes_owned (by simpa using hflags.2.2.2.2)
    have hroute := (h.route (htrue.imp_right Or.inl)).finish hflags.1 hflags.2.1
    simpa using hroute
  · simpa [hn] using h.finish hflags.1 hflags.2.1

theorem agrees_releaseBus {clientId : ClientId} {name : String} {uniqueName : Option String}
    (hmain : s.main = .releaseBus clientId name uniqueName) {next : MainTask}
    (hnext : next = .releaseOwned clientId name ∨
      ∃ uniqueName, next = .releaseRouting clientId name uniqueName) :
    (view { s with bus := s.bus.releaseName name, main := next } n).Agrees := by
  have howned := releaseName_owned s.bus name n
  have hsignals := releaseName_announced s.bus name n
  by_cases hn : name = n
  · subst hn
    have hview := h.releaseMain (by simp [view, hmain]) (by simp [view, hmain])
      (next.unroutes name)
    convert hview using 1
    rcases hnext with hnext | ⟨_, hnext⟩
    all_goals
      subst hnext
      ext <;> simp [view, NameView.onMain, NameView.onBusRelease, removals, releasesDue, howned,
        hsignals, hmain]
  · apply agrees_of_view_eq h
    rcases hnext with hnext | ⟨_, hnext⟩
    all_goals
      subst hnext
      ext <;> simp [view, removals, releasesDue, howned, hsignals, hmain, hn, Ne.symm hn]

theorem agrees_releaseRouting {clientId : ClientId} {name uniqueName : String}
    (hmain : s.main = .releaseRouting clientId name uniqueName) :
    (view { s with
      routing := s.routing.onContainerNameChange name uniqueName ""
      main := .releaseOwned clientId name } n).Agrees := by
  have hrouted := RoutingTable.mem_containerNames_onContainerNameChange s.routing name uniqueName
    "" n
  by_cases hn : name = n
  · subst hn
    have hgone := h.unroutes_free (by simp [view, hmain])
    have hview := (h.unrouteFree hgone).finish (by simp [view, hmain]) (by simp [view, hmain])
    convert hview using 1
    ext <;> simp [view, NameView.onMain, removals, releasesDue, hrouted, hmain]
  · apply agrees_of_view_eq h
    ext <;> simp [view, removals, releasesDue, hrouted, hmain, hn, Ne.symm hn]

include hwf

theorem agrees_requestRevert {clientId : ClientId} {name : String}
    (hmain : s.main = .requestRevert clientId name) :
    (view { s with
      queue := (s.queue.releaseName name clientId).2
      main := .idle } n).Agrees := by
  have hn : n ≠ name := by
    intro heq
    have hrevert := h.no_revert
    simp [view, hmain, heq] at hrevert
  have hsame := NameQueueManager.nameHasOwner_releaseName_ne hwf.queue.wellFormed hn clientId
  apply agrees_of_view_eq h
  ext <;> simp [view, removals, releasesDue, hsame, hmain, Ne.symm hn]

theorem agrees_resume {answered : Bool} (hbus : BusCooperates n s (.resume answered))
    (hfree : Undisturbed n s (.resume answered)) (hstep : s.resume answered = some t) :
    (t.view n).Agrees := by
  have hnamed := hwf.main
  simp only [BusCooperates] at hbus
  simp only [Undisturbed] at hfree
  cases resume_stepped hstep with
  | requestQueue _ _ _ _ hmain => exact agrees_requestQueue hwf h hmain
  | granted clientId name uniqueName hmain _ _ => exact agrees_grant h hmain hfree
  | failed clientId name uniqueName hmain hanswered =>
      rw [hmain, hanswered] at hbus
      have hn : ¬ name = n := fun heq => absurd (hbus heq) Bool.false_ne_true
      apply agrees_of_view_eq h
      ext <;> simp [view, removals, releasesDue, hmain, hn]
  | requestRouting clientId name uniqueName hmain =>
      rw [hmain] at hnamed
      refine agrees_route h (Or.inl ⟨hmain, rfl⟩) ?_
      rw [show uniqueName = muxUniqueName clientId from hnamed]
      exact muxUniqueName_ne_empty clientId
  | requestRevert _ _ hmain => exact agrees_requestRevert hwf h hmain
  | promoteRouting clientId name newOwner hmain =>
      rw [hmain] at hnamed
      refine agrees_route h (Or.inr ⟨newOwner.1, hmain, rfl⟩) ?_
      rw [show newOwner.2 = muxUniqueName newOwner.1 from hnamed]
      exact muxUniqueName_ne_empty newOwner.1
  | released clientId name uniqueName hmain _ =>
      exact agrees_releaseBus h hmain (Or.inr ⟨uniqueName, rfl⟩)
  | releasedGone clientId name hmain _ => exact agrees_releaseBus h hmain (Or.inl rfl)
  | unreleased clientId name uniqueName hmain hanswered =>
      rw [hmain, hanswered] at hbus
      have hn : ¬ name = n := fun heq => absurd (hbus heq) Bool.false_ne_true
      apply agrees_of_view_eq h
      ext <;> simp [view, removals, releasesDue, hmain, hn]
  | releaseRouting _ _ _ hmain => exact agrees_releaseRouting h hmain
  | _ =>
      -- the records of the clients are not part of the view
      next hmain =>
        apply agrees_of_view_eq h
        ext <;> simp [view, removals, releasesDue, hmain]

theorem agrees_handleReleaseName (hidle : s.main = .idle) (clientId : ClientId) (name : String) :
    ((s.handleReleaseName clientId name).view n).Agrees := by
  have href := NameQueueManager.releaseName_refines hwf.queue.wellFormed name clientId
  have hmainIdle := mainIdle_of_idle hidle n
  by_cases hn : name = n
  · subst hn
    have hrel := QueueRoster.release_released
      (NameQueueManager.distinct_members hwf.queue.wellFormed name) clientId
    have hafter := NameQueueManager.nameHasOwner_iff href.2.2 name
    have hbefore := NameQueueManager.nameHasOwner_iff hwf.queue.wellFormed name
    rw [href.2.1, if_pos rfl] at hafter
    unfold handleReleaseName
    rw [href.1]
    revert hrel hafter hbefore
    generalize s.queue.members name = members
    generalize QueueRoster.releaseResult members clientId = result
    generalize Roster.leave QueueEntry.clientId clientId members = left
    intro hrel hafter hbefore
    have hstays : (members = [] ↔ left = []) →
        (s.queue.releaseName name clientId).2.nameHasOwner name = s.queue.nameHasOwner name :=
      fun hsame => Bool.eq_iff_iff.mpr (hafter.trans ((not_congr hsame.symm).trans hbefore.symm))
    cases hrel with
    | absent =>
        apply agrees_of_view_eq h
        ext <;> simp [view, removals, releasesDue, MainTask.ofRelease, hidle, hstays Iff.rfl]
    | last _ =>
        have hgone : (s.queue.releaseName name clientId).2.nameHasOwner name = false := by
          simpa using hafter
        have hview := h.dismiss hmainIdle
        convert hview using 1
        ext <;> simp [view, NameView.onMain, removals, releasesDue, MainTask.ofRelease, hidle, hgone]
    | promotes _ _ =>
        have hview := h.promote hmainIdle (hbefore.mpr (List.cons_ne_nil _ _))
        convert hview using 1
        ext <;> simp [view, NameView.onMain, removals, releasesDue, MainTask.ofRelease, hidle,
          hstays (by simp)]
    | stopsWaiting _ =>
        apply agrees_of_view_eq h
        ext <;> simp [view, removals, releasesDue, MainTask.ofRelease, hidle, hstays (by simp)]
    | stranger _ =>
        apply agrees_of_view_eq h
        ext <;> simp [view, removals, releasesDue, MainTask.ofRelease, hidle, hstays (by simp)]
  · have hsame := NameQueueManager.nameHasOwner_releaseName_ne hwf.queue.wellFormed (Ne.symm hn)
      clientId
    apply agrees_of_view_eq h
    unfold handleReleaseName MainTask.ofRelease
    split
    · ext <;> simp [view, removals, releasesDue, hsame, hidle, hn]
    · split
      · ext <;> simp [view, removals, releasesDue, hsame, hidle, hn]
      · ext <;> simp [view, removals, releasesDue, hsame, hidle]

end Handlers

/-! ## Cleanups -/

/-- How one cleanup that moves on changes the number of cleanups with some property. -/
theorem count_advance {s : NameState} {clientId : ClientId} {cleanup : Cleanup}
    (hl : s.cleanups.lookup clientId = some cleanup) (phase : CleanupPhase) (p : Cleanup → Bool) :
    (s.advance clientId cleanup phase).cleanups.count (fun _ c => p c) +
        (if p cleanup then 1 else 0) =
      s.cleanups.count (fun _ c => p c) + if p { cleanup with phase := phase } then 1 else 0 := by
  have hbefore := AList.count_erase_add (fun (_ : ClientId) (c : Cleanup) => p c) s.cleanups clientId
  have hafter := AList.count_insert (fun (_ : ClientId) (c : Cleanup) => p c) s.cleanups clientId
    { cleanup with phase := phase }
  rw [hl, Option.any_some] at hbefore
  simp only [advance]
  omega

section Cleanups

variable {s : NameState} {n : String} {clientId : ClientId} {cleanup : Cleanup}
  (hl : s.cleanups.lookup clientId = some cleanup) {phase : CleanupPhase}
include hl

theorem removals_advance
    (hsame : ({ cleanup with phase := phase } : Cleanup).removes n = cleanup.removes n) :
    (s.advance clientId cleanup phase).removals n = s.removals n := by
  have hcount := count_advance hl phase (fun c => c.removes n)
  rw [hsame] at hcount
  unfold removals
  omega

theorem removals_le_advance
    (hmore : cleanup.removes n = true →
      ({ cleanup with phase := phase } : Cleanup).removes n = true) :
    s.removals n ≤ (s.advance clientId cleanup phase).removals n := by
  have hcount := count_advance hl phase (fun c => c.removes n)
  unfold removals
  cases hremoves : cleanup.removes n with
  | true =>
      simp only [hremoves, hmore hremoves, if_true] at hcount
      omega
  | false =>
      simp only [hremoves, Bool.false_eq_true, if_false] at hcount
      omega

omit hl in
theorem removals_advance_pos
    (hremoves : ({ cleanup with phase := phase } : Cleanup).removes n = true) :
    0 < (s.advance clientId cleanup phase).removals n := by
  unfold removals
  rw [AList.count_pos_iff]
  refine ⟨clientId, { cleanup with phase := phase }, ?_, hremoves⟩
  exact AList.lookup_insert _

theorem releasesDue_advance
    (hsame : ({ cleanup with phase := phase } : Cleanup).releasesNext n =
      cleanup.releasesNext n) :
    (s.advance clientId cleanup phase).releasesDue n = s.releasesDue n := by
  have hcount := count_advance hl phase (fun c => c.releasesNext n)
  rw [hsame] at hcount
  unfold releasesDue
  omega

omit hl in
theorem releasesDue_advance_pos
    (hnext : ({ cleanup with phase := phase } : Cleanup).releasesNext n = true) :
    0 < (s.advance clientId cleanup phase).releasesDue n := by
  unfold releasesDue
  rw [AList.count_pos_iff]
  refine ⟨clientId, { cleanup with phase := phase }, ?_, hnext⟩
  exact AList.lookup_insert _

theorem view_advance
    (hremoves : ({ cleanup with phase := phase } : Cleanup).removes n = cleanup.removes n)
    (hnext : ({ cleanup with phase := phase } : Cleanup).releasesNext n =
      cleanup.releasesNext n) :
    (s.advance clientId cleanup phase).view n = s.view n := by
  simp only [view, removals_advance hl hremoves, releasesDue_advance hl hnext]
  rfl

variable (h : (s.view n).Agrees)
include h

theorem agrees_promote {name oldOwner newOwner : String} (howner : newOwner ≠ "")
    (hremoves : ({ cleanup with phase := phase } : Cleanup).removes n = cleanup.removes n)
    (hnext : ({ cleanup with phase := phase } : Cleanup).releasesNext n = cleanup.releasesNext n)
    (htrue : name = n → n ∈ s.bus.owned ∨ announced n s.bus.signals ≠ none ∨
      s.main.requests n = true ∨ 0 < s.removals n) :
    (view { s.advance clientId cleanup phase with
      routing := s.routing.onContainerNameChange name oldOwner newOwner } n).Agrees := by
  have hrouted := RoutingTable.mem_containerNames_onContainerNameChange s.routing name oldOwner
    newOwner n
  have hview : view { s.advance clientId cleanup phase with
      routing := s.routing.onContainerNameChange name oldOwner newOwner } n =
      { (s.advance clientId cleanup phase).view n with
        routed := decide (n ∈ (s.routing.onContainerNameChange name oldOwner
          newOwner).containerNames) } := rfl
  rw [hview, view_advance hl hremoves hnext]
  by_cases hn : name = n
  · subst hn
    have hyes : decide (name ∈ (s.routing.onContainerNameChange name oldOwner
        newOwner).containerNames) = true := by
      simp [hrouted, howner]
    rw [hyes]
    exact h.route ((htrue rfl).imp_left (fun howned => decide_eq_true howned))
  · have hsame : decide (n ∈ (s.routing.onContainerNameChange name oldOwner
        newOwner).containerNames) = (s.view n).routed := by
      simp [view, hrouted, Ne.symm hn]
    rw [hsame]
    exact h

theorem agrees_unroute {name oldOwner : String}
    (hnext : ∀ m, ({ cleanup with phase := phase } : Cleanup).releasesNext m = (name == m))
    (hbefore : cleanup.releasesNext n = false)
    (hremoves : name ≠ n → ({ cleanup with phase := phase } : Cleanup).removes n =
      cleanup.removes n) :
    (view { s.advance clientId cleanup phase with
      routing := s.routing.onContainerNameChange name oldOwner "" } n).Agrees := by
  have hrouted := RoutingTable.mem_containerNames_onContainerNameChange s.routing name oldOwner
    "" n
  have hview : view { s.advance clientId cleanup phase with
      routing := s.routing.onContainerNameChange name oldOwner "" } n =
      { s.view n with
        routed := decide (n ∈ (s.routing.onContainerNameChange name oldOwner "").containerNames)
        removals := (s.advance clientId cleanup phase).removals n
        releasesDue := (s.advance clientId cleanup phase).releasesDue n } := rfl
  rw [hview]
  by_cases hn : name = n
  · subst hn
    have hno : decide (name ∈ (s.routing.onContainerNameChange name oldOwner
        "").containerNames) = false := by
      simp [hrouted]
    rw [hno]
    exact h.unroute (releasesDue_advance_pos ((hnext name).trans (by simp)))
  · have hsame : decide (n ∈ (s.routing.onContainerNameChange name oldOwner
        "").containerNames) = (s.view n).routed := by
      simp [view, hrouted, Ne.symm hn]
    rw [hsame, removals_advance hl (hremoves hn),
      releasesDue_advance hl ((hnext n).trans (by simp [hn, hbefore]))]
    exact h

theorem agrees_release {name : String} {answered : Bool}
    (hnow : ∀ m, cleanup.releasesNext m = (name == m))
    (hnext : ({ cleanup with phase := phase } : Cleanup).releasesNext n = false)
    (hremoves : ({ cleanup with phase := phase } : Cleanup).removes n = cleanup.removes n)
    (hanswered : name = n → answered = true)
    (hfree : name = n → s.queue.nameHasOwner n = false ∨ s.main.requests n = true) :
    (view { s.advance clientId cleanup phase with
      bus := if answered then s.bus.releaseName name else s.bus } n).Agrees := by
  have hview : view { s.advance clientId cleanup phase with
      bus := if answered then s.bus.releaseName name else s.bus } n =
      { s.view n with
        owned := decide (n ∈ (if answered then s.bus.releaseName name else s.bus).owned)
        announced := announced n (if answered then s.bus.releaseName name else s.bus).signals
        removals := (s.advance clientId cleanup phase).removals n
        releasesDue := (s.advance clientId cleanup phase).releasesDue n } := rfl
  rw [hview, removals_advance hl hremoves]
  have howned := releaseName_owned s.bus name n
  have hsignals := releaseName_announced s.bus name n
  by_cases hn : name = n
  · subst hn
    rw [if_pos (hanswered rfl), hsignals]
    have hgone : decide (name ∈ (s.bus.releaseName name).owned) = false := by
      simp [howned]
    have hannounced : (if name = name ∧ name ∈ s.bus.owned then some false
          else announced name s.bus.signals) =
        if (s.view name).owned then some false else (s.view name).announced := by
      simp [view]
    rw [hgone, hannounced]
    exact h.release (hfree rfl)
  · have hsame : decide (n ∈ (if answered then s.bus.releaseName name else s.bus).owned) =
        (s.view n).owned := by
      cases answered <;> simp [view, howned, Ne.symm hn]
    have hquiet : announced n (if answered then s.bus.releaseName name else s.bus).signals =
        (s.view n).announced := by
      cases answered <;> simp [view, hsignals, hn]
    rw [hsame, hquiet, releasesDue_advance hl (hnext.trans ((hnow n).trans (by simp [hn])).symm)]
    exact h

theorem agrees_cleanUp (hwf : s.Wf) {t : NameState} {answered : Bool}
    (hbus : BusCooperates n s (.cleanUp clientId answered))
    (hfree : Undisturbed n s (.cleanUp clientId answered))
    (hstep : s.cleanUp clientId cleanup answered = some t) : (t.view n).Agrees := by
  have hnamed := (hwf.cleanups clientId cleanup hl).named
  simp only [BusCooperates, hl, Option.any_some] at hbus
  simp only [Undisturbed, hl, Option.map_some] at hfree
  cases cleanUp_stepped hstep with
  | resultsDone hphase =>
      exact agrees_of_view_eq h (view_advance hl (by simp [Cleanup.removes, hphase])
        (by simp [Cleanup.releasesNext, hphase]))
  | promoted name newOwner rest hphase =>
      rw [hphase] at hfree
      have hname := hnamed name newOwner (by rw [hphase]; exact List.mem_cons_self)
      refine agrees_promote hl h ?_ (by simp [Cleanup.removes, hphase])
        (by simp [Cleanup.releasesNext, hphase]) hfree
      rw [hname]
      exact muxUniqueName_ne_empty newOwner.1
  | vacated name rest hphase =>
      exact agrees_unroute hl h (fun _ => rfl) (by simp [Cleanup.releasesNext, hphase])
        (fun hne => by simp [Cleanup.removes, hphase, Ne.symm hne])
  | promoteOwned _ _ _ hphase =>
      exact agrees_of_view_eq h (view_advance hl (by simp [Cleanup.removes, hphase])
        (by simp [Cleanup.releasesNext, hphase]))
  | releaseBus name rest hphase =>
      rw [hphase] at hfree
      exact agrees_release hl h (fun _ => by simp [Cleanup.releasesNext, hphase])
        (by simp [Cleanup.releasesNext]) (by simp [Cleanup.removes, hphase])
        (fun hn => hbus (by simp [Cleanup.releasesNext, hphase, hn])) hfree
  | finished hphase =>
      apply agrees_of_view_eq h
      have h₁ := AList.count_erase_add (fun (_ : ClientId) (c : Cleanup) => c.removes n) s.cleanups
        clientId
      have h₂ := AList.count_erase_add (fun (_ : ClientId) (c : Cleanup) => c.releasesNext n)
        s.cleanups clientId
      have hnothing : cleanup.removes n = false ∧ cleanup.releasesNext n = false := by
        simp [Cleanup.removes, Cleanup.releasesNext, hphase]
      simp only [hl, Option.any_some, hnothing.1, hnothing.2, Bool.false_eq_true, if_false,
        Nat.add_zero] at h₁ h₂
      simp only [view, removals, releasesDue, h₁, h₂]
  | nextName name rest hphase =>
      cases howner : s.queue.nameHasOwner name with
      | false =>
          exact agrees_of_view_eq h (view_advance hl
            (by simp [Cleanup.removes, hphase])
            (by simp [Cleanup.releasesNext, hphase]))
      | true =>
          by_cases hn : name = n
          · subst hn
            have hview : (s.advance clientId cleanup (.ownedNames rest)).view name =
                { s.view name with
                  removals := (s.advance clientId cleanup (.ownedNames rest)).removals name
                  releasesDue :=
                    (s.advance clientId cleanup (.ownedNames rest)).releasesDue name } := rfl
            rw [if_pos rfl, hview, releasesDue_advance hl (by simp [Cleanup.releasesNext, hphase])]
            exact h.skipRemoval howner _
          · exact agrees_of_view_eq h (view_advance hl
              (by simp [Cleanup.removes, hphase, Ne.symm hn])
              (by simp [Cleanup.releasesNext, hphase]))
  | ownedRouting name rest hphase =>
      exact agrees_unroute hl h (fun _ => rfl) (by simp [Cleanup.releasesNext, hphase])
        (fun hne => by simp [Cleanup.removes, hphase, Ne.symm hne])
  | ownedBus name rest hphase =>
      rw [hphase] at hfree
      exact agrees_release hl h (fun _ => by simp [Cleanup.releasesNext, hphase])
        (by simp [Cleanup.releasesNext]) (by simp [Cleanup.removes, hphase])
        (fun hn => hbus (by simp [Cleanup.releasesNext, hphase, hn])) hfree

end Cleanups

/-! ## Runs -/

theorem agrees_disconnect {s : NameState} {n : String} (hwf : s.Wf) (h : (s.view n).Agrees)
    {clientId : ClientId} (hclient : clientId ∈ s.clients) (ownedNames : List String) :
    (view { s with
      clients := s.clients.erase clientId
      cleanups := s.cleanups.insert clientId ⟨ownedNames, .queue⟩ } n).Agrees := by
  have hnone : s.cleanups.lookup clientId = none := by
    rw [AList.lookup_eq_none]
    exact fun hc => hwf.gone clientId hc hclient
  have hbefore : ∀ p : Cleanup → Bool,
      (s.cleanups.erase clientId).count (fun _ c => p c) = s.cleanups.count (fun _ c => p c) := by
    intro p
    have hcount := AList.count_erase_add (fun (_ : ClientId) (c : Cleanup) => p c) s.cleanups
      clientId
    simpa [hnone] using hcount
  have hafter := fun p : Cleanup → Bool => AList.count_insert
    (fun (_ : ClientId) (c : Cleanup) => p c) s.cleanups clientId ⟨ownedNames, .queue⟩
  have hview : view { s with
      clients := s.clients.erase clientId
      cleanups := s.cleanups.insert clientId ⟨ownedNames, .queue⟩ } n =
      { s.view n with
        removals := (s.cleanups.insert clientId ⟨ownedNames, .queue⟩).count
          (fun _ c => c.removes n)
        releasesDue := (s.cleanups.insert clientId ⟨ownedNames, .queue⟩).count
          (fun _ c => c.releasesNext n) } := rfl
  have hdue : (s.cleanups.insert clientId ⟨ownedNames, .queue⟩).count
      (fun _ c => c.releasesNext n) = (s.view n).releasesDue := by
    rw [hafter (fun c => c.releasesNext n), hbefore (fun c => c.releasesNext n)]
    rfl
  rw [hview, hdue]
  apply h.moreRemovals
  rw [hafter (fun c => c.removes n), hbefore (fun c => c.removes n)]
  exact Nat.le_add_right _ _

theorem agrees_removeFromQueues {s : NameState} {n : String} (hwf : s.Wf)
    (h : (s.view n).Agrees) {clientId : ClientId} {cleanup : Cleanup}
    (hl : s.cleanups.lookup clientId = some cleanup) (hphase : cleanup.phase = .queue)
    {results : List (String × Option (ClientId × String))}
    (hresults : results.Perm (s.queue.removeClient clientId).1) :
    (view { s.advance clientId cleanup (.results results) with
      queue := (s.queue.removeClient clientId).2 } n).Agrees := by
  have href := NameQueueManager.removeClient_refines hwf.queue.wellFormed clientId
  have hafter := NameQueueManager.nameHasOwner_iff href.2 n
  have hbefore := NameQueueManager.nameHasOwner_iff hwf.queue.wellFormed n
  rw [href.1] at hafter
  have hview : view { s.advance clientId cleanup (.results results) with
      queue := (s.queue.removeClient clientId).2 } n =
      { s.view n with
        queued := (s.queue.removeClient clientId).2.nameHasOwner n
        removals := (s.advance clientId cleanup (.results results)).removals n
        releasesDue := (s.advance clientId cleanup (.results results)).releasesDue n } := rfl
  have hmore : s.removals n ≤ (s.advance clientId cleanup (.results results)).removals n := by
    apply removals_le_advance hl
    simp only [Cleanup.removes, hphase, Bool.or_eq_true]
    exact Or.inr
  rw [hview, releasesDue_advance hl (by simp [Cleanup.releasesNext, hphase])]
  by_cases hsame : (s.queue.removeClient clientId).2.nameHasOwner n = s.queue.nameHasOwner n
  · rw [hsame]
    exact h.moreRemovals hmore
  · -- a roster that becomes empty had only this client in it
    have hdistinct := NameQueueManager.distinct_members hwf.queue.wellFormed n
    cases hmembers : s.queue.members n with
    | nil =>
        rw [hmembers] at hafter hbefore
        exact absurd (Bool.eq_iff_iff.mpr (hafter.trans hbefore.symm)) hsame
    | cons owner waiters =>
        rw [hmembers] at hafter hbefore hdistinct
        have hqueued : s.queue.nameHasOwner n = true := hbefore.mpr (List.cons_ne_nil _ _)
        have hvacant : (s.queue.removeClient clientId).2.nameHasOwner n = false := by
          rw [hqueued] at hsame
          simpa using hsame
        have hempty : Roster.leave QueueEntry.clientId clientId (owner :: waiters) = [] := by
          by_contra hne
          cases hvacant.symm.trans (hafter.mpr hne)
        have howner : owner.clientId = clientId := by
          by_contra hne
          rw [Roster.leave_cons_ne _ hne] at hempty
          cases hempty
        have hlast : (n, none) ∈ results := by
          rw [← howner, Roster.leave_head hdistinct] at hempty
          rw [hresults.mem_iff, NameQueueManager.mem_removeClient_results hwf.queue.wellFormed]
          exact ⟨owner, waiters, hmembers, howner, by rw [hempty]; rfl⟩
        rw [hvacant]
        exact h.vacate (removals_advance_pos (by simp [Cleanup.removes, hlast])) hmore

theorem agrees_step {s t : NameState} {n : String} {e : NameEvent} (hwf : s.Wf)
    (h : (s.view n).Agrees) (hbus : BusCooperates n s e) (hfree : Undisturbed n s e)
    (hstep : s.step e = some t) : (t.view n).Agrees := by
  cases step_stepped hstep with
  | connect clientId credentials hnew => exact h
  | ignored clientId name flags => exact h
  | requestName clientId name flags info hidle hl =>
      apply agrees_of_view_eq h
      ext <;> simp [view, removals, releasesDue, hidle]
  | releaseName clientId name hidle => exact agrees_handleReleaseName hwf h hidle clientId name
  | resume answered _ hresume => exact agrees_resume hwf h hbus hfree hresume
  | nameOwnerChanged name oldOwner newOwner signals hidle hsignals =>
      have hrouted := RoutingTable.mem_containerNames_onContainerNameChange s.routing name
        oldOwner newOwner n
      apply h.read (mainIdle_of_idle hidle n)
        (decide (n ∈ (s.routing.onContainerNameChange name oldOwner newOwner).containerNames))
        (announced n signals)
      · intro b hb
        simp [view, hsignals, announced, hb]
      · intro hnone
        by_cases hn : name = n
        · subst hn
          left
          simp [view, hsignals, announced, hnone, hrouted]
        · right
          simp [view, hsignals, announced, hnone, hrouted, hn, Ne.symm hn]
  | disconnect clientId ownedNames hclient => exact agrees_disconnect hwf h hclient ownedNames
  | removeFromQueues clientId results cleanup hl hphase hresults =>
      exact agrees_removeFromQueues hwf h hl hphase hresults
  | cleanUp clientId answered cleanup _ hl hclean =>
      exact agrees_cleanUp hl h hwf hbus hfree hclean

theorem agrees_initial {routing : RoutingTable} {n : String} (hfree : n ∉ routing.containerNames)
    (bus : ContainerBus) : ((initial routing bus).view n).Agrees := by
  have hrouted : ((initial routing bus).view n).routed = false := decide_eq_false hfree
  exact {
    owned_of_queued := fun hq => by cases hq
    release_ahead := fun _ howned => by cases howned
    released := fun hr => by cases hr
    last_announced := fun b hb => by cases hb
    routes_owned := fun hr => by cases hr
    unroutes_free := fun hu => by cases hu
    routed_of_owned := fun _ howned => by cases howned
    owned_of_routed := fun _ hr => by cases hrouted.symm.trans hr
    no_revert := rfl }

/-- Whatever the handlers and cleanups do at the same time: as long as releases and
requests of a name do not overtake each other, the queue, the bus and the routing
table agree on it whenever nothing is in progress and all signals are read. -/
theorem name_ownership_agrees {routing : RoutingTable} {bus : ContainerBus}
    {events : List NameEvent} {t : NameState} {n : String} (hnew : n ∉ routing.containerNames)
    (hrun : Trace.run step (initial routing bus) events = some t)
    (hbus : Trace.Along step (BusCooperates n) (initial routing bus) events)
    (hfree : Trace.Along step (Undisturbed n) (initial routing bus) events)
    (hquiet : t.quiescent) (hread : t.bus.signals = []) :
    (t.queue.nameHasOwner n = true ↔ n ∈ t.bus.owned) ∧
      (n ∈ t.routing.containerNames ↔ n ∈ t.bus.owned) := by
  have hinv : t.Wf ∧ (t.view n).Agrees :=
    Trace.invariant_of_along (I := fun s => s.Wf ∧ (s.view n).Agrees)
      (fun s e t hs he ht => ⟨step_wf hs.1 ht, agrees_step hs.1 hs.2 he.1 he.2 ht⟩)
      ⟨wf_initial routing bus, agrees_initial hnew bus⟩ (hbus.and hfree) hrun
  have hremovals : (t.view n).removals = 0 := by
    simp [view, removals, AList.count, hquiet.2]
  have hdue : (t.view n).releasesDue = 0 := by
    simp [view, releasesDue, AList.count, hquiet.2]
  have hannounced : (t.view n).announced = none := by
    simp [view, hread, announced]
  have hsettled := hinv.2.settled (mainIdle_of_idle hquiet.1 n) hremovals hdue hannounced
  constructor
  · rw [show t.queue.nameHasOwner n = decide (n ∈ t.bus.owned) from hsettled.1]
    exact decide_eq_true_iff
  · rw [← decide_eq_true_iff (p := n ∈ t.bus.owned), ← decide_eq_true_iff
      (p := n ∈ t.routing.containerNames)]
    exact Bool.eq_iff_iff.mp hsettled.2

/-- A client waits for a name, gets it when the owner disconnects, and the signal
of the first acquisition is read only then. -/
def inheritance : List NameEvent :=
  [.connect 1 ⟨1000, none, 1000⟩, .connect 2 ⟨1000, none, 1000⟩,
    .requestName 1 "org.a" 0, .resume true, .resume true, .resume true, .resume true,
    .requestName 2 "org.a" 0, .resume true,
    .disconnect 1 ["org.a"], .removeFromQueues 1 [("org.a", some (2, ":mux.2"))],
    .cleanUp 1 true, .cleanUp 1 true, .cleanUp 1 true, .cleanUp 1 true, .cleanUp 1 true,
    .nameOwnerChanged]

theorem name_ownership_agrees_inheritance :
    ∃ t, Trace.run step (initial .new ⟨":1.5", by decide, ∅, []⟩) inheritance = some t ∧
      "org.a" ∈ t.bus.owned ∧
      (t.queue.nameHasOwner "org.a" = true ↔ "org.a" ∈ t.bus.owned) ∧
      ("org.a" ∈ t.routing.containerNames ↔ "org.a" ∈ t.bus.owned) := by
  have heval : (Trace.run step (initial .new ⟨":1.5", by decide, ∅, []⟩) inheritance).any
      (fun t => decide (t.quiescent ∧ t.bus.signals = [] ∧ "org.a" ∈ t.bus.owned)) = true := by
    decide
  rcases Trace.exists_of_eval heval with ⟨t, hrun, hquiet, hread, howned⟩
  exact ⟨t, hrun, howned, name_ownership_agrees (by decide) hrun (by decide) (by decide) hquiet
    hread⟩

/-- A client disconnects, and its cleanup takes its name out of the queue and out of
the routing table. Another client asks for the name and gets it, since the bus
still has it for the multiplexer. Then the cleanup releases the name on the bus. -/
theorem cleanup_releases_reacquired_name :
    ¬ ∀ (routing : RoutingTable) (bus : ContainerBus) (events : List NameEvent) (t : NameState)
        (n : String), n ∉ routing.containerNames →
      Trace.run step (initial routing bus) events = some t →
      Trace.Along step (BusCooperates n) (initial routing bus) events →
      t.quiescent → t.bus.signals = [] →
      (t.queue.nameHasOwner n = true ↔ n ∈ t.bus.owned) ∧
        (n ∈ t.routing.containerNames ↔ n ∈ t.bus.owned) := by
  intro hclaim
  have heval : (Trace.run step (initial .new ⟨":1.5", by decide, ∅, []⟩)
      [.connect 1 ⟨1000, none, 1000⟩, .connect 2 ⟨1000, none, 1000⟩,
        .requestName 1 "org.a" 0, .resume true, .resume true, .resume true, .resume true,
        .nameOwnerChanged,
        .disconnect 1 ["org.a"], .removeFromQueues 1 [("org.a", none)], .cleanUp 1 true,
        .requestName 2 "org.a" 0, .resume true, .resume true, .resume true, .resume true,
        .cleanUp 1 true, .cleanUp 1 true, .cleanUp 1 true, .cleanUp 1 true,
        .nameOwnerChanged]).any
      (fun t => decide (t.quiescent ∧ t.bus.signals = [] ∧
        t.queue.nameHasOwner "org.a" = true ∧ "org.a" ∉ t.bus.owned)) = true := by
    decide
  rcases Trace.exists_of_eval heval with ⟨t, hrun, hquiet, hread, hqueued, hnot⟩
  exact hnot ((hclaim _ _ _ t "org.a" (by decide) hrun (by decide) hquiet hread).1.mp hqueued)

end NameState

end KapsuleDbusMux
