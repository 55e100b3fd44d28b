import KapsuleDbusMux.Library.History
import KapsuleDbusMux.Names.Ownership

/-! # What the flags of a request promise

A client says with each request whether it may be replaced, whether it wants to
replace the owner and whether it is willing to wait. A queue keeps the first of these
from the request a client joined with and looks at the others only when a newcomer
asks. So a client that asks again, and an owner that is replaced, can be treated
against what they said last.
-/

namespace KapsuleDbusMux

open RequestNameFlags (allowReplacement replaceExisting doNotQueue)

namespace NameOperation

def asks (n : String) (c : ClientId) : NameOperation → Bool
  | .requestName name clientId _ _ => name == n && clientId == c
  | .releaseName _ _ => false
  | .removeClient _ => false

def flags : NameOperation → UInt32
  | .requestName _ _ _ flags => flags
  | .releaseName _ _ => 0
  | .removeClient _ => 0

end NameOperation

/-- What holds of the waiters holds of them after the request of a newcomer, exactly when
it holds of the owner if that one is replaced. -/
theorem QueueRoster.forall_waiters_newcomer_iff {P : QueueEntry → Prop} {owner : QueueEntry}
    {waiters : QueueRoster} {clientId : ClientId} {uniqueName : String} {flags : UInt32}
    (hnew : clientId ∉ (owner :: waiters).map QueueEntry.clientId) (hwaiters : ∀ e ∈ waiters, P e)
    (hentry : RequestNameFlags.has flags doNotQueue = false →
      P (requestEntry clientId uniqueName flags)) :
    (∀ e ∈ (request (owner :: waiters) clientId uniqueName flags).2.tail, P e) ↔
      (RequestNameFlags.has flags replaceExisting = true → owner.allowReplacement = true →
        P owner) := by
  rw [request_newcomer hnew]
  split
  · next hreplaces =>
      rw [Bool.and_eq_true] at hreplaces
      constructor
      · exact fun h _ _ => h owner List.mem_cons_self
      · intro h e he
        rcases List.mem_cons.mp he with rfl | he
        · exact h hreplaces.1 hreplaces.2
        · exact hwaiters e he
  · next hstays =>
      refine iff_of_true ?_ (fun hreplace hallow => absurd (by simp [hreplace, hallow]) hstays)
      split
      · exact hwaiters
      · next hqueues =>
          intro e he
          rcases List.mem_append.mp he with he | he
          · exact hwaiters e he
          · rw [List.mem_singleton.mp he]
            exact hentry (by simpa using hqueues)

namespace ObservedManager

def lastFlags (operations : List NameOperation) (n : String) (c : ClientId) : Option UInt32 :=
  (History.last (NameOperation.asks n c) operations).map NameOperation.flags

/-- A request of a client that is not in the queue. -/
def joins (n : String) (c : ClientId) (step : ObservedManager × NameOperation) : Bool :=
  step.2.asks n c && !(queueOf step.1.manager n).containsClient c

/-- The flags of the request with which the client last came to the queue. -/
def joinFlags (operations : List NameOperation) (n : String) (c : ClientId) : Option UInt32 :=
  (History.last (joins n c) (History.steps perform {} operations)).map (fun step => step.2.flags)

/-- Whether there was such a request and it had the flag. -/
def carries (flags : Option UInt32) (flag : UInt32) : Bool :=
  flags.any (fun flags => RequestNameFlags.has flags flag)

theorem lastFlags_concat (operations : List NameOperation) (operation : NameOperation) (n : String)
    (c : ClientId) :
    lastFlags (operations ++ [operation]) n c =
      if operation.asks n c then some operation.flags else lastFlags operations n c := by
  unfold lastFlags
  rw [History.last_concat]
  split <;> rfl

theorem joinFlags_concat (operations : List NameOperation) (operation : NameOperation) (n : String)
    (c : ClientId) :
    joinFlags (operations ++ [operation]) n c =
      if joins n c (history operations, operation) then some operation.flags
      else joinFlags operations n c := by
  unfold joinFlags
  rw [History.steps_concat, History.last_concat]
  have hstate : operations.foldl perform {} = history operations := rfl
  rw [hstate]
  split <;> rfl

theorem asks_requestName {name n : String} {clientId c : ClientId} {uniqueName : String}
    {flags : UInt32} :
    (NameOperation.requestName name clientId uniqueName flags).asks n c = true ↔
      n = name ∧ c = clientId := by
  simp only [NameOperation.asks, Bool.and_eq_true, beq_iff_eq]
  exact and_congr eq_comm eq_comm

theorem members_requestName (operations : List NameOperation) (n : String) (c : ClientId)
    (uniqueName : String) (flags : UInt32) :
    ((history operations).manager.requestName n c uniqueName flags).2.members n =
      (QueueRoster.request ((history operations).manager.members n) c uniqueName flags).2 := by
  have href := NameQueueManager.requestName_refines (history_agrees operations).wellFormed n c
    uniqueName flags
  rw [href.2.1, if_pos rfl]

/-! ## Consent -/

theorem joins_requestName {operations : List NameOperation} {name n : String}
    {clientId c : ClientId} {uniqueName : String} {flags : UInt32} :
    joins n c (history operations, .requestName name clientId uniqueName flags) = true ↔
      (n = name ∧ c = clientId) ∧
        c ∉ ((history operations).manager.members n).map QueueEntry.clientId := by
  have hcontains := containsClient_queueOf (history_agrees operations).wellFormed n c
  simp only [joins, Bool.and_eq_true, asks_requestName, Bool.not_eq_true', ← Bool.not_eq_true,
    hcontains]

/-- A queue has the consent of a member from the request it joined with. -/
theorem stored_consent (operations : List NameOperation) (n : String) :
    ∀ e ∈ (history operations).manager.members n,
      e.allowReplacement = carries (joinFlags operations n e.clientId) allowReplacement := by
  induction operations using List.reverseRecOn with
  | nil => intro e he; cases he
  | append_singleton operations operation ih =>
      have hwf := (history_agrees operations).wellFormed
      intro e he
      rw [history_concat] at he
      rw [joinFlags_concat]
      cases operation with
      | requestName name clientId uniqueName flags =>
          rcases NameQueueManager.mem_members_requestName_cases hwf he with hold | hnew
          · -- whoever is in the queue does not join it
            rw [if_neg (fun hjoins =>
              (joins_requestName.mp hjoins).2 (List.mem_map_of_mem hold))]
            exact ih e hold
          · obtain ⟨hname, hout, hentry⟩ := hnew
            have hclient : e.clientId = clientId := congrArg QueueEntry.clientId hentry
            rw [hclient, if_pos (joins_requestName.mpr ⟨⟨hname, rfl⟩, hout⟩), hentry]
            rfl
      | releaseName name clientId =>
          exact ih e (NameQueueManager.mem_members_releaseName hwf he)
      | removeClient clientId =>
          exact ih e (NameQueueManager.mem_members_removeClient hwf he).1

/-- When a request is treated as the last words of owner and caller say: it does not ask
for a replacement, or it comes from a newcomer and the owner has not changed its mind
since it joined, or it comes from a waiter and the owner does not consent. -/
def HeedsConsent (operations : List NameOperation) (n : String) (owner c : ClientId)
    (flags : UInt32) : Prop :=
  RequestNameFlags.has flags replaceExisting = true →
    if (queueOf (history operations).manager n).containsClient c then
      carries (lastFlags operations n owner) allowReplacement = false
    else carries (lastFlags operations n owner) allowReplacement =
      carries (joinFlags operations n owner) allowReplacement

theorem members_of_primaryOwner {operations : List NameOperation} {n : String} {owner : QueueEntry}
    (howner : (queueOf (history operations).manager n).primaryOwner = some owner) :
    ∃ waiters, (history operations).manager.members n = owner :: waiters := by
  rw [queueOf_eq (history_agrees operations).wellFormed] at howner
  cases hm : (history operations).manager.members n with
  | nil => rw [hm] at howner; cases howner
  | cons first waiters =>
      rw [hm] at howner
      cases howner
      exact ⟨waiters, rfl⟩

/-- After any history, a request of another client makes it the owner exactly when it
asks for that and the last request of the owner consents, if and only if the request
heeds consent. -/
theorem replacement_consented_iff (operations : List NameOperation) (n : String) (c : ClientId)
    (uniqueName : String) (flags : UInt32) (owner : QueueEntry)
    (howner : (queueOf (history operations).manager n).primaryOwner = some owner)
    (hother : owner.clientId ≠ c) :
    ((queueOf ((history operations).manager.requestName n c uniqueName flags).2
          n).isPrimaryOwner c = true ↔
        RequestNameFlags.has flags replaceExisting = true ∧
          carries (lastFlags operations n owner.clientId) allowReplacement = true) ↔
      HeedsConsent operations n owner.clientId c flags := by
  have hwf := (history_agrees operations).wellFormed
  have hwf' := (NameQueueManager.requestName_refines hwf n c uniqueName flags).2.2
  obtain ⟨waiters, hm⟩ := members_of_primaryOwner howner
  have hstored := stored_consent operations n owner (by rw [hm]; exact List.mem_cons_self)
  have hcontains := containsClient_queueOf hwf n c
  rw [isPrimaryOwner_queueOf hwf', members_requestName, hm]
  rw [hm] at hcontains
  unfold HeedsConsent
  by_cases hmem : c ∈ (owner :: waiters).map QueueEntry.clientId
  · rw [QueueRoster.request_member hmem, if_pos (hcontains.mpr hmem)]
    simp [hother]
  · rw [QueueRoster.request_newcomer hmem, if_neg (fun h => hmem (hcontains.mp h)), ← hstored]
    have hhead : (if (RequestNameFlags.has flags replaceExisting && owner.allowReplacement) = true
          then QueueRoster.requestEntry c uniqueName flags :: owner :: waiters
          else if RequestNameFlags.has flags doNotQueue = true then owner :: waiters
          else owner :: waiters ++ [QueueRoster.requestEntry c uniqueName flags]).head?.map
            QueueEntry.clientId = some c ↔
        RequestNameFlags.has flags replaceExisting = true ∧ owner.allowReplacement = true := by
      rw [← Bool.and_eq_true]
      split
      · next hreplaces => exact iff_of_true rfl hreplaces
      · next hstays =>
          refine iff_of_false ?_ hstays
          split
          · simp [hother]
          · simp [hother]
    rw [hhead, Bool.eq_iff_iff]
    constructor
    · intro h hreplace
      simpa [hreplace] using h.symm
    · intro h
      refine and_congr_right (fun hreplace => ?_)
      rw [h hreplace]

/-- An owner that allows replacement, another client behind it, and a third one. -/
def consenting : List NameOperation :=
  [.requestName "org.a" 1 (muxUniqueName 1) 1, .requestName "org.a" 2 (muxUniqueName 2) 0]

theorem replacement_consented_newcomer :
    (queueOf (history consenting).manager "org.a").primaryOwner = some ⟨1, muxUniqueName 1, true⟩ ∧
      ((queueOf ((history consenting).manager.requestName "org.a" 3 (muxUniqueName 3) 2).2
          "org.a").isPrimaryOwner 3 = true ↔
        RequestNameFlags.has 2 replaceExisting = true ∧
          carries (lastFlags consenting "org.a" 1) allowReplacement = true) :=
  ⟨by decide, (replacement_consented_iff consenting "org.a" 3 (muxUniqueName 3) 2
    ⟨1, muxUniqueName 1, true⟩ (by decide) (by decide)).mpr (by unfold HeedsConsent; decide)⟩

/-- The owner has asked again without the flag, and is replaced all the same. -/
theorem withdrawn_consent_used :
    ¬ ∀ (operations : List NameOperation) (n : String) (c : ClientId) (uniqueName : String)
        (flags : UInt32) (owner : QueueEntry),
        (queueOf (history operations).manager n).primaryOwner = some owner → owner.clientId ≠ c →
        ((queueOf ((history operations).manager.requestName n c uniqueName flags).2
            n).isPrimaryOwner c = true ↔
          RequestNameFlags.has flags replaceExisting = true ∧
            carries (lastFlags operations n owner.clientId) allowReplacement = true) := by
  intro h
  have hreplaced := h
    [.requestName "org.a" 1 (muxUniqueName 1) 1, .requestName "org.a" 1 (muxUniqueName 1) 0]
    "org.a" 2 (muxUniqueName 2) 2 ⟨1, muxUniqueName 1, true⟩ (by decide) (by decide)
  exact absurd (hreplaced.mp (by decide)).2 (by decide)

/-! ## Willingness to wait -/

def Willing (operations : List NameOperation) : Prop :=
  ∀ n, ∀ e ∈ (queueOf (history operations).manager n).waiters,
    carries (lastFlags operations n e.clientId) doNotQueue = false

/-- A waiter does not ask again with the flag, and no owner is replaced that would not
wait. -/
def Respects (operations : List NameOperation) : NameOperation → Prop
  | .requestName n c _ flags =>
      (∀ e ∈ (queueOf (history operations).manager n).waiters, e.clientId = c →
        RequestNameFlags.has flags doNotQueue = false) ∧
      ∀ owner, (queueOf (history operations).manager n).primaryOwner = some owner →
        (queueOf (history operations).manager n).containsClient c = false →
        RequestNameFlags.has flags replaceExisting = true → owner.allowReplacement = true →
        carries (lastFlags operations n owner.clientId) doNotQueue = false
  | .releaseName _ _ => True
  | .removeClient _ => True

theorem waiters_eq (operations : List NameOperation) (n : String) :
    (queueOf (history operations).manager n).waiters =
      ((history operations).manager.members n).tail := by
  rw [queueOf_eq (history_agrees operations).wellFormed]

theorem willing_of_sublist {operations : List NameOperation} {operation : NameOperation}
    (hbefore : Willing operations) (hasks : ∀ n c, operation.asks n c = false)
    (hsub : ∀ n, ((history (operations ++ [operation])).manager.members n).Sublist
      ((history operations).manager.members n)) : Willing (operations ++ [operation]) := by
  intro n e he
  rw [waiters_eq] at he
  rw [lastFlags_concat, hasks, if_neg Bool.false_ne_true]
  apply hbefore n e
  rw [waiters_eq]
  exact (hsub n).tail.subset he

/-- After a request only the queue of its name has to be looked at. -/
theorem willing_requestName_iff {operations : List NameOperation} (hbefore : Willing operations)
    (n : String) (c : ClientId) (uniqueName : String) (flags : UInt32) :
    Willing (operations ++ [.requestName n c uniqueName flags]) ↔
      ∀ e ∈ (QueueRoster.request ((history operations).manager.members n) c uniqueName
        flags).2.tail,
        if e.clientId = c then RequestNameFlags.has flags doNotQueue = false
        else carries (lastFlags operations n e.clientId) doNotQueue = false := by
  have hmembers : ∀ m, (history (operations ++ [.requestName n c uniqueName flags])).manager.members
      m = if m = n then
        (QueueRoster.request ((history operations).manager.members n) c uniqueName flags).2
        else (history operations).manager.members m := by
    intro m
    rw [history_concat]
    exact (NameQueueManager.requestName_refines (history_agrees operations).wellFormed n c
      uniqueName flags).2.1 m
  have hlast : ∀ m a, carries (lastFlags (operations ++ [.requestName n c uniqueName flags]) m a)
      doNotQueue = if m = n ∧ a = c then RequestNameFlags.has flags doNotQueue
        else carries (lastFlags operations m a) doNotQueue := by
    intro m a
    rw [lastFlags_concat, if_congr asks_requestName rfl rfl]
    split <;> rfl
  constructor
  · intro h e he
    have hcarries := h n e (by rw [waiters_eq, hmembers, if_pos rfl]; exact he)
    rw [hlast] at hcarries
    by_cases hc : e.clientId = c
    · rw [if_pos ⟨rfl, hc⟩] at hcarries
      rw [if_pos hc]
      exact hcarries
    · rw [if_neg (fun h => hc h.2)] at hcarries
      rw [if_neg hc]
      exact hcarries
  · intro h m e he
    rw [waiters_eq, hmembers] at he
    rw [hlast]
    by_cases hm : m = n
    · subst hm
      rw [if_pos rfl] at he
      have hcarries := h e he
      by_cases hc : e.clientId = c
      · rw [if_pos hc] at hcarries
        rw [if_pos ⟨rfl, hc⟩]
        exact hcarries
      · rw [if_neg hc] at hcarries
        rw [if_neg (fun h => hc h.2)]
        exact hcarries
    · rw [if_neg hm] at he
      rw [if_neg (fun h => hm h.1)]
      exact hbefore m e (by rw [waiters_eq]; exact he)

/-- While everybody in the queues is willing to wait, a request keeps it so exactly when
it respects what was said. -/
theorem willing_iff_respects_requestName {operations : List NameOperation}
    (hbefore : Willing operations) (n : String) (c : ClientId) (uniqueName : String)
    (flags : UInt32) :
    Willing (operations ++ [.requestName n c uniqueName flags]) ↔
      Respects operations (.requestName n c uniqueName flags) := by
  have hwf := (history_agrees operations).wellFormed
  have hcontains := containsClient_queueOf hwf n c
  have hwilling := hbefore n
  rw [willing_requestName_iff hbefore]
  unfold Respects
  simp only [← Bool.not_eq_true ((queueOf _ _).containsClient _), hcontains]
  simp only [queueOf_eq hwf] at hwilling ⊢
  cases hm : (history operations).manager.members n with
  | nil =>
      refine iff_of_true (fun e he => ?_) ⟨fun e he => ?_, fun owner howner => ?_⟩
      · cases he
      · cases he
      · cases howner
  | cons owner waiters =>
      rw [hm] at hwilling
      by_cases hmem : c ∈ (owner :: waiters).map QueueEntry.clientId
      · rw [QueueRoster.request_member hmem]
        constructor
        · intro h
          refine ⟨fun e he hc => ?_, fun _ _ hout => absurd hmem hout⟩
          have hentry := h e he
          rw [if_pos hc] at hentry
          exact hentry
        · rintro ⟨h, _⟩ e he
          split
          · next hc => exact h e he hc
          · exact hwilling e he
      · -- a newcomer is nobody's namesake
        have hne : ∀ e ∈ owner :: waiters, e.clientId ≠ c :=
          fun e he hc => hmem (hc ▸ List.mem_map_of_mem he)
        have hfirst : ∀ e ∈ (owner :: waiters).tail, e.clientId = c →
            RequestNameFlags.has flags doNotQueue = false :=
          fun e he hc => absurd hc (hne e (List.mem_cons_of_mem _ he))
        have hold : ∀ e ∈ waiters, if e.clientId = c
            then RequestNameFlags.has flags doNotQueue = false
            else carries (lastFlags operations n e.clientId) doNotQueue = false := by
          intro e he
          rw [if_neg (hne e (List.mem_cons_of_mem _ he))]
          exact hwilling e he
        have hself : (QueueRoster.requestEntry c uniqueName flags).clientId = c := rfl
        rw [and_iff_right hfirst, QueueRoster.forall_waiters_newcomer_iff hmem hold
          (fun hqueues => by rw [if_pos hself]; exact hqueues),
          if_neg (hne owner List.mem_cons_self)]
        constructor
        · rintro h _ ⟨⟩ _ hreplace hallow
          exact h hreplace hallow
        · exact fun h => h owner rfl hmem

theorem willing_iff_respects {operations : List NameOperation} {operation : NameOperation}
    (hbefore : Willing operations) :
    Willing (operations ++ [operation]) ↔ Respects operations operation := by
  have hwf := (history_agrees operations).wellFormed
  cases operation with
  | requestName n c uniqueName flags =>
      exact willing_iff_respects_requestName hbefore n c uniqueName flags
  | releaseName name clientId =>
      refine iff_of_true (willing_of_sublist hbefore (fun _ _ => rfl) (fun n => ?_)) trivial
      rw [history_concat]
      have hmembers := (NameQueueManager.releaseName_refines hwf name clientId).2.1 n
      simp only [perform, hmembers]
      split
      · next hn =>
          rw [hn]
          exact Roster.leave_sublist _ _
      · exact List.Sublist.refl _
  | removeClient clientId =>
      refine iff_of_true (willing_of_sublist hbefore (fun _ _ => rfl) (fun n => ?_)) trivial
      rw [history_concat]
      have hmembers := (NameQueueManager.removeClient_refines hwf clientId).1 n
      simp only [perform, hmembers]
      exact Roster.leave_sublist _ _

/-- In every state of a history nobody waits against its last request, if and only if
every operation respects what was said before it. -/
theorem never_queued_unwilling_iff (operations : List NameOperation) :
    (∀ past, past <+: operations → Willing past) ↔
      ∀ past operation, past ++ [operation] <+: operations → Respects past operation :=
  History.forall_prefix_iff (P := Willing) (C := Respects) (fun _ _ he => nomatch he)
    (fun _ _ h => willing_iff_respects h) operations

/-- An owner that would not wait is replaced and waits. -/
theorem replaced_owner_waits :
    ¬ ∀ operations : List NameOperation, Willing operations := by
  intro h
  have hwaits := h [.requestName "org.a" 1 (muxUniqueName 1) 5,
    .requestName "org.a" 2 (muxUniqueName 2) 2] "org.a" ⟨1, muxUniqueName 1, true⟩ (by decide)
  exact absurd hwaits (by decide)

end ObservedManager

end KapsuleDbusMux
