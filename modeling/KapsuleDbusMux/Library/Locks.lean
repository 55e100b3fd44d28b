import KapsuleDbusMux.Library.Trace
import Mathlib.Algebra.Order.BigOperators.Group.Finset
import Mathlib.Data.Finset.Max
import Mathlib.Data.Fintype.Basic

/-! # Tasks that hold locks

Read-write locks with guards that live as long as a block, and tasks that take turns.
A lock is given to those who ask for it in the order in which they ask, so a reader
also waits for a writer that asked before it.

Tasks that take locks in increasing order, each above all the locks they hold, cannot
block each other: of the tasks that wait for the highest lock, the one that asked first
waits for a task that does not wait itself.
-/

universe u v

namespace Locks

inductive Mode where
  | read
  | write
  deriving DecidableEq, Repr

/-- What a task does, as far as locks matter. A `pause` waits for something else than a
lock, and ends; `hold` is a block with a guard. -/
inductive Code (L : Type v) where
  | skip
  | pause
  | hold (lock : L) (mode : Mode) (body : Code L)
  | seq (first second : Code L)
  | choose (left right : Code L)
  | loop (body : Code L)
  deriving DecidableEq, Repr

namespace Code

variable {L : Type v}

def block (parts : List (Code L)) : Code L := parts.foldr seq skip

def oneOf (branches : List (Code L)) : Code L := branches.foldr choose skip

def optional (body : Code L) : Code L := choose body skip

end Code

inductive Item (L : Type v) where
  | code (c : Code L)
  | release (lock : L) (mode : Mode)
  deriving DecidableEq, Repr

/-- The guard keeps others from taking the lock in this mode. -/
def Item.Blocks {L : Type v} (lock : L) (mode : Mode) : Item L → Prop
  | .code _ => False
  | .release lock' mode' => lock' = lock ∧ (mode = .write ∨ mode' = .write)

instance {L : Type v} [DecidableEq L] (lock : L) (mode : Mode) :
    (item : Item L) → Decidable (item.Blocks lock mode)
  | .code _ => isFalse id
  | .release _ _ => inferInstanceAs (Decidable (_ ∧ (_ ∨ _)))

abbrev Task (L : Type v) := List (Item L)

namespace Task

variable {L : Type v}

def request : Task L → Option (L × Mode)
  | .code (.hold lock mode _) :: _ => some (lock, mode)
  | _ => none

def advance (again : Bool) : Task L → Option (Task L)
  | [] => none
  | .release _ _ :: rest => some rest
  | .code .skip :: rest => some rest
  | .code .pause :: rest => some rest
  | .code (.hold _ _ _) :: _ => none
  | .code (.seq first second) :: rest => some (.code first :: .code second :: rest)
  | .code (.choose left right) :: rest => some (.code (if again then left else right) :: rest)
  | .code (.loop body) :: rest =>
      some (if again then .code body :: .code (.loop body) :: rest else rest)

theorem release_mem_of_advance {task task' : Task L} {again : Bool}
    (h : task.advance again = some task') {lock : L} {mode : Mode}
    (hheld : Item.release lock mode ∈ task') : Item.release lock mode ∈ task := by
  unfold advance at h
  split at h <;> cases h
  · exact List.mem_cons_of_mem _ hheld
  · exact List.mem_cons_of_mem _ hheld
  · exact List.mem_cons_of_mem _ hheld
  · simpa using hheld
  · simpa using hheld
  · split at hheld
    · simpa using hheld
    · exact List.mem_cons_of_mem _ hheld

theorem request_of_advance {task task' : Task L} {again : Bool}
    (h : task.advance again = some task') : task.request = none := by
  unfold request
  split
  · cases h
  · rfl

end Task

/-- The tasks, and those of them that wait, in the order in which they asked. -/
structure State (ι : Type u) (L : Type v) where
  tasks : ι → Task L
  waiting : List ι := []

inductive Event (ι : Type u) where
  | advance (i : ι) (again : Bool)
  | request (i : ι)
  | grant (i : ι)
  deriving DecidableEq, Repr

namespace State

variable {ι : Type u} {L : Type v}

def Free (s : State ι L) (lock : L) (mode : Mode) : Prop :=
  ∀ j, ∀ item ∈ s.tasks j, ¬ item.Blocks lock mode

instance [DecidableEq L] [Fintype ι] (s : State ι L) (lock : L) (mode : Mode) :
    Decidable (s.Free lock mode) :=
  inferInstanceAs (Decidable (∀ j, ∀ item ∈ s.tasks j, _))

variable [DecidableEq ι]

def set (s : State ι L) (i : ι) (task : Task L) : State ι L :=
  { s with tasks := Function.update s.tasks i task }

/-- Nobody asked for the lock before. -/
def First (s : State ι L) (i : ι) (lock : L) : Prop :=
  ∀ j ∈ s.waiting.takeWhile (· ≠ i), (s.tasks j).request.map Prod.fst ≠ some lock

instance [DecidableEq L] (s : State ι L) (i : ι) (lock : L) : Decidable (s.First i lock) :=
  inferInstanceAs (Decidable (∀ j ∈ s.waiting.takeWhile _, _))

variable [DecidableEq L] [Fintype ι]

def step (s : State ι L) : Event ι → Option (State ι L)
  | .advance i again => ((s.tasks i).advance again).map (s.set i)
  | .request i =>
      if i ∈ s.waiting ∨ (s.tasks i).request = none then none
      else some { s with waiting := s.waiting ++ [i] }
  | .grant i =>
      match s.tasks i with
      | .code (.hold lock mode body) :: rest =>
          if i ∈ s.waiting ∧ s.First i lock ∧ s.Free lock mode then
            some { s.set i (.code body :: .release lock mode :: rest) with
              waiting := s.waiting.filter (· ≠ i) }
          else none
      | _ => none

end State

/-! ## The order of the locks -/

section Order

variable {L : Type v} (rank : L → Nat)

/-- Every lock the code takes has at least this rank, and a higher one than the locks it
holds then. -/
def Code.Above : Nat → Code L → Prop
  | _, .skip => True
  | _, .pause => True
  | floor, .hold lock _ body => floor ≤ rank lock ∧ body.Above (rank lock + 1)
  | floor, .seq first second => first.Above floor ∧ second.Above floor
  | floor, .choose left right => left.Above floor ∧ right.Above floor
  | floor, .loop body => body.Above floor

instance Code.decidableAbove : (floor : Nat) → (code : Code L) → Decidable (code.Above rank floor)
  | _, .skip => isTrue trivial
  | _, .pause => isTrue trivial
  | floor, .hold lock _ body =>
      have := decidableAbove (rank lock + 1) body
      inferInstanceAs (Decidable (floor ≤ rank lock ∧ body.Above rank (rank lock + 1)))
  | floor, .seq first second =>
      have := decidableAbove floor first
      have := decidableAbove floor second
      inferInstanceAs (Decidable (first.Above rank floor ∧ second.Above rank floor))
  | floor, .choose left right =>
      have := decidableAbove floor left
      have := decidableAbove floor right
      inferInstanceAs (Decidable (left.Above rank floor ∧ right.Above rank floor))
  | floor, .loop body => decidableAbove floor body

/-- A rank above all the locks a task holds. -/
def Task.floor : Task L → Nat
  | [] => 0
  | .code _ :: rest => Task.floor rest
  | .release lock _ :: _ => rank lock + 1

def Task.Ordered : Task L → Prop
  | [] => True
  | .code code :: rest => code.Above rank (Task.floor rank rest) ∧ Task.Ordered rest
  | .release lock _ :: rest => Task.floor rank rest ≤ rank lock ∧ Task.Ordered rest

variable {rank}

theorem Task.Ordered.lt_floor {task : Task L} (h : task.Ordered rank) {lock : L} {mode : Mode}
    (hheld : Item.release lock mode ∈ task) : rank lock < task.floor rank := by
  induction task with
  | nil => cases hheld
  | cons item rest ih =>
      cases item with
      | code code =>
          have hrest : Item.release lock mode ∈ rest := by simpa using hheld
          exact ih h.2 hrest
      | release lock' mode' =>
          rcases List.mem_cons.mp hheld with hhere | hrest
          · cases hhere
            exact Nat.lt_succ_self _
          · have hbelow := ih h.2 hrest
            have habove := h.1
            show rank lock < rank lock' + 1
            omega

theorem Task.Ordered.lt_request {task : Task L} (h : task.Ordered rank) {lock lock' : L}
    {mode mode' : Mode} (hheld : Item.release lock mode ∈ task)
    (hrequest : task.request = some (lock', mode')) : rank lock < rank lock' := by
  unfold Task.request at hrequest
  split at hrequest
  · next body rest =>
      cases hrequest
      have hrest : Item.release lock mode ∈ rest := by simpa using hheld
      exact Nat.lt_of_lt_of_le (h.2.lt_floor hrest) h.1.1
  · cases hrequest

theorem Task.Ordered.advance {task task' : Task L} {again : Bool} (h : task.Ordered rank)
    (hadvance : task.advance again = some task') : task'.Ordered rank := by
  unfold Task.advance at hadvance
  split at hadvance <;> cases hadvance
  · exact h.2
  · exact h.2
  · exact h.2
  · exact ⟨h.1.1, h.1.2, h.2⟩
  · refine ⟨?_, h.2⟩
    split
    · exact h.1.1
    · exact h.1.2
  · split
    · exact ⟨h.1, h.1, h.2⟩
    · exact h.2

end Order

/-! ## What is left to do -/

section Work

variable {ι : Type u} {L : Type v}

/-- The steps that are left when every loop ends: a block with a guard is asked for,
given and left. -/
def Code.weight : Code L → Nat
  | .skip => 1
  | .pause => 1
  | .hold _ _ body => body.weight + 3
  | .seq first second => first.weight + second.weight + 1
  | .choose left right => left.weight + right.weight + 1
  | .loop _ => 1

def Item.weight : Item L → Nat
  | .code c => c.weight
  | .release _ _ => 1

def Task.weight : Task L → Nat
  | [] => 0
  | item :: rest => item.weight + Task.weight rest

theorem Task.exists_advance {task : Task L} (hbusy : task ≠ []) (hfree : task.request = none) :
    ∃ task', task.advance false = some task' ∧ task'.weight < task.weight := by
  unfold Task.advance
  split
  · exact absurd rfl hbusy
  · exact ⟨_, rfl, by simp [Task.weight, Item.weight]⟩
  · exact ⟨_, rfl, by simp [Task.weight, Item.weight, Code.weight]⟩
  · exact ⟨_, rfl, by simp [Task.weight, Item.weight, Code.weight]⟩
  · cases hfree
  · next first second rest =>
      refine ⟨_, rfl, ?_⟩
      simp only [Task.weight, Item.weight, Code.weight]
      omega
  · next left right rest =>
      refine ⟨_, rfl, ?_⟩
      simp only [Task.weight, Item.weight, Code.weight]
      simp only [Bool.false_eq_true, if_false]
      omega
  · exact ⟨_, rfl, by simp [Task.weight, Item.weight, Code.weight]⟩

variable [DecidableEq ι]

/-- A task that does not wait yet has its request before it. -/
def State.load (s : State ι L) (i : ι) : Nat :=
  (s.tasks i).weight + if i ∈ s.waiting then 0 else 1

theorem State.load_set (s : State ι L) (i : ι) (task : Task L) (j : ι) :
    (s.set i task).load j =
      (if j = i then task else s.tasks j).weight + if j ∈ s.waiting then 0 else 1 := by
  show (Function.update s.tasks i task j).weight + _ = _
  rw [Function.update_apply]
  rfl

def State.work [Fintype ι] (s : State ι L) : Nat := ∑ i, s.load i

theorem State.work_lt [Fintype ι] {s t : State ι L} {i : ι}
    (hother : ∀ j, j ≠ i → t.load j = s.load j) (hless : t.load i < s.load i) :
    t.work < s.work := by
  refine Finset.sum_lt_sum (fun j _ => ?_) ⟨i, Finset.mem_univ i, hless⟩
  by_cases hj : j = i
  · rw [hj]
    exact Nat.le_of_lt hless
  · exact Nat.le_of_eq (hother j hj)

end Work

/-! ## Runs -/

namespace State

variable {ι : Type u} {L : Type v} {rank : L → Nat} {s t : State ι L}

def Exclusive (s : State ι L) : Prop :=
  ∀ i j, i ≠ j → ∀ lock mode mode', Item.release lock mode ∈ s.tasks i →
    Item.release lock mode' ∈ s.tasks j → mode = .read ∧ mode' = .read

structure Wf (rank : L → Nat) (s : State ι L) : Prop where
  ordered : ∀ i, (s.tasks i).Ordered rank
  asked : ∀ i ∈ s.waiting, (s.tasks i).request ≠ none
  exclusive : s.Exclusive

theorem wf_start {code : ι → Code L} (h : ∀ i, (code i).Above rank 0) :
    State.Wf rank ⟨fun i => [.code (code i)], []⟩ where
  ordered i := ⟨h i, trivial⟩
  asked i hmem := by cases hmem
  exclusive := by
    intro i j _ lock mode mode' hi
    simp at hi

variable [DecidableEq ι]

/-- A task moves on: what it holds then, it held before or can share with the others. -/
theorem Wf.update (h : s.Wf rank) {i : ι} {task : Task L} (hordered : task.Ordered rank)
    {waiting : List ι} (hwaiting : ∀ j ∈ waiting, j ∈ s.waiting ∧ j ≠ i)
    (hshared : ∀ j, j ≠ i → ∀ lock mode mode', Item.release lock mode ∈ task →
      Item.release lock mode' ∈ s.tasks j → mode = .read ∧ mode' = .read) :
    State.Wf rank { s.set i task with waiting := waiting } where
  ordered := by
    intro j
    by_cases hj : j = i
    · subst hj
      simpa [State.set] using hordered
    · simpa [State.set, hj] using h.ordered j
  asked := by
    intro j hmem
    obtain ⟨hmem, hj⟩ := hwaiting j hmem
    simpa [State.set, hj] using h.asked j hmem
  exclusive := by
    intro j k hne lock mode mode' hj hk
    simp only [State.set, Function.update_apply] at hj hk
    split at hj
    · next hji =>
        subst hji
        rw [if_neg (Ne.symm hne)] at hk
        exact hshared k (Ne.symm hne) lock mode mode' hj hk
    · next hji =>
        split at hk
        · exact (hshared j hji lock mode' mode hk hj).symm
        · exact h.exclusive j k hne lock mode mode' hj hk

variable [DecidableEq L] [Fintype ι]

theorem step_wf {e : Event ι} (h : s.Wf rank) (hstep : s.step e = some t) : t.Wf rank := by
  cases e with
  | advance i again =>
      obtain ⟨task, hadvance, rfl⟩ := Option.map_eq_some_iff.mp hstep
      refine h.update ((h.ordered i).advance hadvance) (fun j hmem => ⟨hmem, ?_⟩) ?_
      · rintro rfl
        exact h.asked j hmem (Task.request_of_advance hadvance)
      · intro j hj lock mode mode' hi
        exact h.exclusive i j (Ne.symm hj) lock mode mode'
          (Task.release_mem_of_advance hadvance hi)
  | request i =>
      simp only [step] at hstep
      split at hstep
      · cases hstep
      · next hmay =>
          cases hstep
          refine ⟨h.ordered, fun j hmem => ?_, h.exclusive⟩
          rcases List.mem_append.mp hmem with hmem | hmem
          · exact h.asked j hmem
          · rw [List.mem_singleton.mp hmem]
            exact fun hnone => hmay (Or.inr hnone)
  | grant i =>
      simp only [step] at hstep
      split at hstep
      · next lock mode body rest htask =>
          split at hstep
          · next hmay =>
              cases hstep
              have hordered := h.ordered i
              rw [htask] at hordered
              have hinside : Task.Ordered rank (.code body :: .release lock mode :: rest) :=
                ⟨hordered.1.2, hordered.1.1, hordered.2⟩
              refine h.update hinside (fun j hmem => by simpa using hmem) ?_
              intro j hj lock' mode' mode'' hi hheld
              rcases List.mem_cons.mp hi with hcode | hi
              · cases hcode
              rcases List.mem_cons.mp hi with hnew | hrest
              · cases hnew
                have hfree := hmay.2.2 j _ hheld
                cases mode <;> cases mode'' <;> simp_all [Item.Blocks]
              · refine h.exclusive i j (Ne.symm hj) lock' mode' mode'' ?_ hheld
                rw [htask]
                exact List.mem_cons_of_mem _ hrest
          · cases hstep
      · cases hstep

omit [Fintype ι] in
theorem exists_first {i : ι} {lock : L} (hmem : i ∈ s.waiting)
    (hrequest : (s.tasks i).request.map Prod.fst = some lock) :
    ∃ j ∈ s.waiting, (s.tasks j).request.map Prod.fst = some lock ∧ s.First j lock := by
  let wants : ι → Bool := fun j => decide ((s.tasks j).request.map Prod.fst = some lock)
  obtain ⟨j, hfind⟩ : ∃ j, s.waiting.find? wants = some j := by
    rw [← Option.isSome_iff_exists, List.find?_isSome]
    exact ⟨i, hmem, decide_eq_true hrequest⟩
  have hwants : wants j = true := List.find?_some hfind
  refine ⟨j, List.mem_of_find?_eq_some hfind, of_decide_eq_true hwants, ?_⟩
  obtain ⟨-, before, after, hsplit, hbefore⟩ := List.find?_eq_some_iff_append.mp hfind
  intro k hk
  rw [hsplit] at hk
  have hkbefore : k ∈ before := by
    clear hsplit hbefore
    induction before with
    | nil => simp at hk
    | cons first before ih =>
        rw [List.cons_append, List.takeWhile_cons] at hk
        split at hk
        · rcases List.mem_cons.mp hk with rfl | hk
          · exact List.mem_cons_self
          · exact List.mem_cons_of_mem _ (ih hk)
        · cases hk
  simpa [wants] using hbefore k hkbefore

/-- Where every task that is not done waits, the lock order leaves one that waits for
nobody: it asked first for the highest lock. -/
theorem Wf.exists_grantable (h : s.Wf rank)
    (hwaits : ∀ j, s.tasks j ≠ [] → j ∈ s.waiting) {i : ι} (hbusy : s.tasks i ≠ []) :
    ∃ j ∈ s.waiting, ∃ lock mode, (s.tasks j).request = some (lock, mode) ∧ s.First j lock ∧
      s.Free lock mode := by
  have hasks : ∀ j, s.tasks j ≠ [] → ∃ lock mode, (s.tasks j).request = some (lock, mode) := by
    intro j hj
    obtain ⟨⟨lock, mode⟩, hrequest⟩ := Option.ne_none_iff_exists'.mp (h.asked j (hwaits j hj))
    exact ⟨lock, mode, hrequest⟩
  let height : ι → Nat := fun j => ((s.tasks j).request.map (fun r => rank r.1)).getD 0
  obtain ⟨top, htop, hmax⟩ := Finset.exists_max_image
    (Finset.univ.filter (fun j => s.tasks j ≠ [])) height ⟨i, by simpa using hbusy⟩
  have htopBusy : s.tasks top ≠ [] := by simpa using htop
  obtain ⟨highest, topMode, htopRequest⟩ := hasks top htopBusy
  have htopLock : (s.tasks top).request.map Prod.fst = some highest := by
    rw [htopRequest]
    rfl
  obtain ⟨j, hmem, hlock, hfirst⟩ := exists_first (hwaits top htopBusy) htopLock
  obtain ⟨⟨lock, mode⟩, hrequest, rfl⟩ := Option.map_eq_some_iff.mp hlock
  refine ⟨j, hmem, lock, mode, hrequest, hfirst, ?_⟩
  -- a holder of the lock would wait for a higher one
  intro k item hitem hblocks
  cases item with
  | code c => exact hblocks
  | release held heldMode =>
      obtain ⟨rfl, -⟩ := hblocks
      have hk : s.tasks k ≠ [] := List.ne_nil_of_mem hitem
      obtain ⟨higher, higherMode, hkRequest⟩ := hasks k hk
      have hlt := (h.ordered k).lt_request hitem hkRequest
      have hle := hmax k (by simpa using hk)
      simp only [height, hkRequest, htopRequest, Option.map_some, Option.getD_some] at hle
      omega

theorem exists_grant {j : ι} (hmem : j ∈ s.waiting) {lock : L} {mode : Mode}
    (hrequest : (s.tasks j).request = some (lock, mode)) (hfirst : s.First j lock)
    (hfree : s.Free lock mode) : ∃ t, s.step (.grant j) = some t ∧ t.work < s.work := by
  unfold Task.request at hrequest
  split at hrequest
  · next body rest htask =>
      cases hrequest
      let inside : Task L := .code body :: .release lock mode :: rest
      refine ⟨{ s.set j inside with waiting := s.waiting.filter (· ≠ j) }, ?_, ?_⟩
      · simp only [step, htask]
        exact if_pos ⟨hmem, hfirst, hfree⟩
      · refine work_lt (i := j) (fun k hk => by simp [load, set, hk]) ?_
        have hbefore : s.load j = body.weight + 3 + Task.weight rest := by
          simp [load, hmem, htask, Task.weight, Item.weight, Code.weight]
        rw [hbefore]
        simp only [load, set, Function.update_self, List.mem_filter, ne_eq, not_true,
          decide_false, Bool.false_eq_true, and_false, if_false]
        show body.weight + (1 + Task.weight rest) + 1 < _
        omega
  · cases hrequest

/-- As long as a task is not done, some task can go on, and all have less to do then. -/
theorem Wf.progress (h : s.Wf rank) {i : ι} (hbusy : s.tasks i ≠ []) :
    ∃ e t, s.step e = some t ∧ t.work < s.work := by
  by_cases hfree : ∃ j, s.tasks j ≠ [] ∧ (s.tasks j).request = none
  · obtain ⟨j, hj, hnone⟩ := hfree
    obtain ⟨task, hadvance, hless⟩ := Task.exists_advance hj hnone
    refine ⟨.advance j false, s.set j task, by simp [step, hadvance], ?_⟩
    refine work_lt (i := j) (fun k hk => ?_) ?_
    · rw [load_set, if_neg hk]
      rfl
    · rw [load_set, if_pos rfl]
      exact Nat.add_lt_add_right hless _
  by_cases hsilent : ∃ j, (s.tasks j).request ≠ none ∧ j ∉ s.waiting
  · obtain ⟨j, hj, hnot⟩ := hsilent
    refine ⟨.request j, _, if_neg (not_or.mpr ⟨hnot, hj⟩), ?_⟩
    exact work_lt (i := j) (fun k hk => by simp [load, hk]) (by simp [load, hnot])
  have hwaits : ∀ j, s.tasks j ≠ [] → j ∈ s.waiting := by
    intro j hj
    by_contra hnot
    exact hsilent ⟨j, fun hnone => hfree ⟨j, hj, hnone⟩, hnot⟩
  obtain ⟨j, hmem, lock, mode, hrequest, hfirst, hunblocked⟩ := h.exists_grantable hwaits hbusy
  exact ⟨.grant j, exists_grant hmem hrequest hfirst hunblocked⟩

/-- However far the tasks have come, all of them can still come to their end. -/
theorem Wf.exists_finishing_run (h : s.Wf rank) :
    ∃ events t, Trace.run step s events = some t ∧ ∀ i, t.tasks i = [] := by
  induction hwork : s.work using Nat.strong_induction_on generalizing s with
  | h work ih =>
      by_cases hdone : ∀ i, s.tasks i = []
      · exact ⟨[], s, rfl, hdone⟩
      · obtain ⟨i, hbusy⟩ := not_forall.mp hdone
        obtain ⟨e, m, hstep, hless⟩ := h.progress hbusy
        obtain ⟨events, t, hrun, hend⟩ := ih m.work (by omega) (step_wf h hstep) rfl
        exact ⟨e :: events, t, Trace.run_cons_eq_some.mpr ⟨m, hstep, hrun⟩, hend⟩

theorem wf_of_order {code : ι → Code L} (horder : ∀ i, (code i).Above rank 0)
    {events : List (Event ι)}
    (hrun : Trace.run step ⟨fun i => [.code (code i)], []⟩ events = some s) : s.Wf rank :=
  Trace.invariant_of_run (fun _ _ _ h hstep => step_wf h hstep) (wf_start horder) hrun

end State

end Locks
