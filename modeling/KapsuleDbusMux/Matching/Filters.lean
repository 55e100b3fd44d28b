import KapsuleDbusMux.Matching.MatchRule

/-! # A rule as a set of filters

`MatchRule::matches` and `matches_ignoring_destination` are two copies of one text that
checks filter after filter and returns at the first that does not accept the message.
Both are shown to be conjunctions over the filters a rule has, in which no filter
depends on another: not through the order of the maps, and not through the largest
index, at which the arguments are cut off.
-/

namespace KapsuleDbusMux

namespace MatchRule

/-! ## The two matchers as they are written -/

def matchesByReturn (self : MatchRule) (msg : Message) : Bool := Id.run do
  if let some typeFilter := self.msgType then
    if typeFilter ≠ messageTypeString msg.msgType then return false
  if let some senderFilter := self.sender then
    match msg.sender with
    | some sender => if sender ≠ senderFilter then return false
    | none => return false
  if let some ifaceFilter := self.interface then
    match msg.interface with
    | some iface => if iface ≠ ifaceFilter then return false
    | none => return false
  if let some memberFilter := self.member then
    match msg.member with
    | some member => if member ≠ memberFilter then return false
    | none => return false
  if let some pathFilter := self.path then
    match msg.path with
    | some path => if path ≠ pathFilter then return false
    | none => return false
  if let some nsFilter := self.pathNamespace then
    match msg.path with
    | some path => if path ≠ nsFilter ∧ ¬startsWith path (nsFilter ++ "/") then return false
    | none => return false
  if let some destFilter := self.destination then
    match msg.destination with
    | some dest => if dest ≠ destFilter then return false
    | none => if destFilter ≠ "" then return false
  if !self.args.entries.isEmpty || !self.argPaths.entries.isEmpty ||
      self.arg0namespace.isSome then
    if let some args := self.extractStringArgs msg then
      for ⟨idx, expected⟩ in self.args.entries do
        match args[idx.toNat]? with
        | some actual => if actual ≠ expected then return false
        | none => return false
      for ⟨idx, pathFilter⟩ in self.argPaths.entries do
        match args[idx.toNat]? with
        | some actual => if ¬matchesPathFilter actual pathFilter then return false
        | none => return false
      if let some ns := self.arg0namespace then
        match args.head? with
        | some arg0 => if arg0 ≠ ns ∧ ¬startsWith arg0 (ns ++ ".") then return false
        | none => return false
    else
      return false
  return true

def matchesIgnoringDestinationByReturn (self : MatchRule) (msg : Message) : Bool := Id.run do
  if let some typeFilter := self.msgType then
    if typeFilter ≠ messageTypeString msg.msgType then return false
  if let some senderFilter := self.sender then
    match msg.sender with
    | some sender => if sender ≠ senderFilter then return false
    | none => return false
  if let some ifaceFilter := self.interface then
    match msg.interface with
    | some iface => if iface ≠ ifaceFilter then return false
    | none => return false
  if let some memberFilter := self.member then
    match msg.member with
    | some member => if member ≠ memberFilter then return false
    | none => return false
  if let some pathFilter := self.path then
    match msg.path with
    | some path => if path ≠ pathFilter then return false
    | none => return false
  if let some nsFilter := self.pathNamespace then
    match msg.path with
    | some path => if path ≠ nsFilter ∧ ¬startsWith path (nsFilter ++ "/") then return false
    | none => return false
  if !self.args.entries.isEmpty || !self.argPaths.entries.isEmpty ||
      self.arg0namespace.isSome then
    if let some args := self.extractStringArgs msg then
      for ⟨idx, expected⟩ in self.args.entries do
        match args[idx.toNat]? with
        | some actual => if actual ≠ expected then return false
        | none => return false
      for ⟨idx, pathFilter⟩ in self.argPaths.entries do
        match args[idx.toNat]? with
        | some actual => if ¬matchesPathFilter actual pathFilter then return false
        | none => return false
      if let some ns := self.arg0namespace then
        match args.head? with
        | some arg0 => if arg0 ≠ ns ∧ ¬startsWith arg0 (ns ++ ".") then return false
        | none => return false
    else
      return false
  return true

/-! ## Returning early

One lemma for each form of check: what follows it runs when the check holds, and the
result is `false` when it does not. -/

section Checks

theorem type_check (filter : Option String) (msgType : MessageType) (rest : Bool) :
    (match filter with
      | some expected => if expected ≠ messageTypeString msgType then false else rest
      | _ => rest) = (fieldMatches filter (some (messageTypeString msgType)) && rest) := by
  cases filter with
  | none => rfl
  | some expected =>
      by_cases h : expected = messageTypeString msgType
      · simp [fieldMatches, h]
      · simp [fieldMatches, h, Ne.symm h]

theorem field_check (filter field : Option String) (rest : Bool) :
    (match filter with
      | some expected =>
          match field with
          | some actual => if actual ≠ expected then false else rest
          | none => false
      | _ => rest) = (fieldMatches filter field && rest) := by
  cases filter with
  | none => rfl
  | some expected =>
      cases field with
      | none => rfl
      | some actual => by_cases h : actual = expected <;> simp [fieldMatches, h]

theorem namespace_check (filter path : Option String) (rest : Bool) :
    (match filter with
      | some ns =>
          match path with
          | some path => if path ≠ ns ∧ ¬startsWith path (ns ++ "/") then false else rest
          | none => false
      | _ => rest) = (pathNamespaceMatches filter path && rest) := by
  cases filter with
  | none => rfl
  | some ns =>
      cases path with
      | none => rfl
      | some path =>
          by_cases h : path = ns
          · simp [pathNamespaceMatches, h]
          · cases hstarts : startsWith path (ns ++ "/") <;>
              simp [pathNamespaceMatches, h, hstarts]

theorem destination_check (filter destination : Option String) (rest : Bool) :
    (match filter with
      | some expected =>
          match destination with
          | some dest => if dest ≠ expected then false else rest
          | none => if expected ≠ "" then false else rest
      | _ => rest) = (destinationMatches filter destination && rest) := by
  cases filter with
  | none => rfl
  | some expected =>
      cases destination with
      | none => by_cases h : expected = "" <;> simp [destinationMatches, h]
      | some dest => by_cases h : dest = expected <;> simp [destinationMatches, h]

/-- A loop that returns at the first entry it does not accept. -/
theorem loop_check {α : Type} (accepts : α → Bool) (entries : List α)
    {body : α → Option Bool × Unit → Id (ForInStep (Option Bool × Unit))}
    {rest : Option Bool × Unit → Id Bool}
    (hbody : ∀ e s, body e s =
      if accepts e then ForInStep.yield (none, ()) else ForInStep.done (some false, ()))
    (hreturn : rest (some false, ()) = false) :
    ((forIn entries (none, ()) body : Id (Option Bool × Unit)) >>= rest) =
      (entries.all accepts && rest (none, ())) := by
  induction entries with
  | nil => rfl
  | cons e entries ih =>
      rw [List.forIn_cons, hbody, List.all_cons]
      cases accepts e with
      | false => exact hreturn
      | true => exact ih

theorem arg0namespace_check (filter : Option String) (args : List String) :
    (match filter with
      | some ns =>
          match args.head? with
          | some arg0 => if arg0 ≠ ns ∧ ¬startsWith arg0 (ns ++ ".") then false else true
          | none => false
      | _ => true) = arg0namespaceMatches filter args := by
  cases filter with
  | none => rfl
  | some ns =>
      cases args with
      | nil => rfl
      | cons arg0 args =>
          by_cases h : arg0 = ns
          · simp [arg0namespaceMatches, h]
          · cases hstarts : startsWith arg0 (ns ++ ".") <;>
              simp [arg0namespaceMatches, h, hstarts]

end Checks

theorem matchesByReturn_eq (self : MatchRule) (msg : Message) :
    self.matchesByReturn msg = self.isMatch msg := by
  unfold matchesByReturn isMatch headersMatch
  simp only [Bool.and_assoc]
  refine (type_check _ _ _).trans (congrArg _ ?_)
  refine (field_check _ _ _).trans (congrArg _ ?_)
  refine (field_check _ _ _).trans (congrArg _ ?_)
  refine (field_check _ _ _).trans (congrArg _ ?_)
  refine (field_check _ _ _).trans (congrArg _ ?_)
  refine (namespace_check _ _ _).trans (congrArg _ ?_)
  refine (destination_check _ _ _).trans (congrArg _ ?_)
  unfold argsMatch
  by_cases hnone : (self.args.entries.isEmpty && self.argPaths.entries.isEmpty &&
      self.arg0namespace.isNone) = true
  · have hskip : ¬(!self.args.entries.isEmpty || !self.argPaths.entries.isEmpty ||
        self.arg0namespace.isSome) = true := by
      simpa [and_assoc] using hnone
    rw [if_pos hnone]
    exact if_neg hskip
  · have hrun : (!self.args.entries.isEmpty || !self.argPaths.entries.isEmpty ||
        self.arg0namespace.isSome) = true := by
      simpa [Option.isSome_iff_ne_none, Classical.or_iff_not_imp_left] using hnone
    rw [if_neg hnone]
    refine (if_pos hrun).trans ?_
    cases self.extractStringArgs msg with
    | none => rfl
    | some args =>
        dsimp only
        rw [Bool.and_assoc]
        refine (loop_check (fun e : Sigma (fun _ : UInt8 => String) =>
          args[e.1.toNat]? == some e.2) _ (fun e _ => ?_) rfl).trans (congrArg _ ?_)
        · cases args[e.1.toNat]? with
          | none => rfl
          | some actual =>
              by_cases h : actual = e.2
              · simp [h]
                rfl
              · simp [h]
                rfl
        · refine (loop_check (fun e : Sigma (fun _ : UInt8 => String) =>
            args[e.1.toNat]?.any (fun actual => matchesPathFilter actual e.2)) _ (fun e _ => ?_)
              rfl).trans (congrArg _ (arg0namespace_check _ _))
          cases args[e.1.toNat]? with
          | none => rfl
          | some actual =>
              cases h : matchesPathFilter actual e.2 with
              | false =>
                  simp [h]
                  rfl
              | true =>
                  simp [h]
                  rfl

theorem matchesIgnoringDestinationByReturn_eq (self : MatchRule) (msg : Message) :
    self.matchesIgnoringDestinationByReturn msg = self.matchesIgnoringDestination msg := by
  have hstrict : self.matchesIgnoringDestinationByReturn msg =
      matchesByReturn { self with destination := none } msg := rfl
  rw [hstrict, matchesByReturn_eq]
  simp [isMatch, matchesIgnoringDestination, headersMatch, destinationMatches]
  rfl

/-! ## The text of an argument -/

def argTexts (msg : Message) : Option (List String) :=
  match msg.body.deserializeStructure with
  | some fields => some (fields.map argString)
  | none =>
      match msg.body.deserializeString with
      | some s => some [s]
      | none =>
          match msg.body.deserializeStringTriple with
          | some (s₁, s₂, s₃) => some [s₁, s₂, s₃]
          | none => msg.body.deserializeStringPair.map (fun (s₁, s₂) => [s₁, s₂])

def argText (msg : Message) (i : Nat) : Option String :=
  (argTexts msg).bind (fun texts => texts[i]?)

theorem le_foldl_max (keys : List UInt8) (n : Nat) :
    n ≤ keys.foldl (fun acc idx => max acc idx.toNat) n ∧
      ∀ i ∈ keys, i.toNat ≤ keys.foldl (fun acc idx => max acc idx.toNat) n := by
  induction keys generalizing n with
  | nil => exact ⟨Nat.le_refl n, fun _ h => nomatch h⟩
  | cons k keys ih =>
      obtain ⟨hstart, hkeys⟩ := ih (max n k.toNat)
      rw [List.foldl_cons]
      refine ⟨by omega, fun i hi => ?_⟩
      rcases List.mem_cons.mp hi with rfl | hi
      · omega
      · exact hkeys i hi

theorem le_maxArgIndex_of_arg {rule : MatchRule} {i : UInt8} {v : String}
    (h : rule.args.lookup i = some v) : i.toNat ≤ rule.maxArgIndex :=
  (le_foldl_max _ 0).2 i (List.mem_append_left _ (AList.lookup_isSome.mp (by rw [h]; rfl)))

theorem le_maxArgIndex_of_argPath {rule : MatchRule} {i : UInt8} {v : String}
    (h : rule.argPaths.lookup i = some v) : i.toNat ≤ rule.maxArgIndex :=
  (le_foldl_max _ 0).2 i (List.mem_append_right _ (AList.lookup_isSome.mp (by rw [h]; rfl)))

theorem getElem?_takeWhile {α : Type} {p : α → Bool} {l : List α} {i : Nat}
    (h : ∀ j ≤ i, ∀ a, l[j]? = some a → p a = true) : (l.takeWhile p)[i]? = l[i]? := by
  induction l generalizing i with
  | nil => rfl
  | cons a l ih =>
      rw [List.takeWhile_cons, if_pos (h 0 (Nat.zero_le i) a rfl)]
      cases i with
      | zero => rfl
      | succ i =>
          rw [List.getElem?_cons_succ, List.getElem?_cons_succ]
          exact ih (fun j hj b hb => h (j + 1) (by omega) b (by rw [List.getElem?_cons_succ, hb]))

/-- Up to the largest index of the rule nothing is cut off. -/
theorem extractStringArgs_getElem? (rule : MatchRule) (msg : Message) {i : Nat}
    (hi : i ≤ rule.maxArgIndex) :
    (rule.extractStringArgs msg).bind (fun texts => texts[i]?) = argText msg i := by
  unfold extractStringArgs argText argTexts
  cases hfields : msg.body.deserializeStructure with
  | none => rfl
  | some fields =>
      have hkept : (fields.zipIdx.takeWhile
          (fun field => field.2 % 256 ≤ rule.maxArgIndex))[i]? = fields.zipIdx[i]? := by
        refine getElem?_takeWhile (fun j hj a ha => ?_)
        rw [List.getElem?_zipIdx, Option.map_eq_some_iff] at ha
        obtain ⟨field, _, rfl⟩ := ha
        have hmod := Nat.mod_le (0 + j) 256
        simp only [decide_eq_true_eq]
        omega
      simp only [Option.bind_some]
      rw [List.getElem?_map, hkept, List.getElem?_zipIdx, List.getElem?_map, Option.map_map]
      rfl

end MatchRule

/-! ## Filters -/

/-- One filter of a rule. `eavesdrop` is none: no matcher looks at it. -/
inductive Filter where
  | type (value : String)
  | sender (value : String)
  | interface (value : String)
  | member (value : String)
  | path (value : String)
  | pathNamespace (value : String)
  | destination (value : String)
  | arg (n : UInt8) (value : String)
  | argPath (n : UInt8) (value : String)
  | arg0namespace (value : String)
  deriving DecidableEq, Repr

namespace Filter

open MatchRule (messageTypeString argText matchesPathFilter)

def accepts (msg : Message) : Filter → Bool
  | type value => messageTypeString msg.msgType == value
  | sender value => msg.sender == some value
  | interface value => msg.interface == some value
  | member value => msg.member == some value
  | path value => msg.path == some value
  | pathNamespace value =>
      msg.path.any (fun path => path == value || startsWith path (value ++ "/"))
  | destination value => msg.destination == some value || (value == "" && msg.destination.isNone)
  | arg n value => argText msg n.toNat == some value
  | argPath n value => (argText msg n.toNat).any (fun actual => matchesPathFilter actual value)
  | arg0namespace value =>
      (argText msg 0).any (fun arg0 => arg0 == value || startsWith arg0 (value ++ "."))

def isDestination : Filter → Bool
  | destination _ => true
  | _ => false

theorem forall_iff {P : Filter → Prop} :
    (∀ filter, P filter) ↔
      (∀ v, P (type v)) ∧ (∀ v, P (sender v)) ∧ (∀ v, P (interface v)) ∧ (∀ v, P (member v)) ∧
        (∀ v, P (path v)) ∧ (∀ v, P (pathNamespace v)) ∧ (∀ v, P (destination v)) ∧
        (∀ n v, P (arg n v)) ∧ (∀ n v, P (argPath n v)) ∧ (∀ v, P (arg0namespace v)) := by
  constructor
  · intro h
    exact ⟨fun v => h _, fun v => h _, fun v => h _, fun v => h _, fun v => h _, fun v => h _,
      fun v => h _, fun n v => h _, fun n v => h _, fun v => h _⟩
  · rintro ⟨h₁, h₂, h₃, h₄, h₅, h₆, h₇, h₈, h₉, h₁₀⟩ filter
    cases filter with
    | type v => exact h₁ v
    | sender v => exact h₂ v
    | interface v => exact h₃ v
    | member v => exact h₄ v
    | path v => exact h₅ v
    | pathNamespace v => exact h₆ v
    | destination v => exact h₇ v
    | arg n v => exact h₈ n v
    | argPath n v => exact h₉ n v
    | arg0namespace v => exact h₁₀ v

end Filter

namespace MatchRule

def Has (rule : MatchRule) : Filter → Prop
  | .type value => rule.msgType = some value
  | .sender value => rule.sender = some value
  | .interface value => rule.interface = some value
  | .member value => rule.member = some value
  | .path value => rule.path = some value
  | .pathNamespace value => rule.pathNamespace = some value
  | .destination value => rule.destination = some value
  | .arg n value => rule.args.lookup n = some value
  | .argPath n value => rule.argPaths.lookup n = some value
  | .arg0namespace value => rule.arg0namespace = some value

/-- The rule has no filter in the place of this one. -/
def Lacks (rule : MatchRule) : Filter → Prop
  | .type _ => rule.msgType = none
  | .sender _ => rule.sender = none
  | .interface _ => rule.interface = none
  | .member _ => rule.member = none
  | .path _ => rule.path = none
  | .pathNamespace _ => rule.pathNamespace = none
  | .destination _ => rule.destination = none
  | .arg n _ => rule.args.lookup n = none
  | .argPath n _ => rule.argPaths.lookup n = none
  | .arg0namespace _ => rule.arg0namespace = none

def set (rule : MatchRule) : Filter → MatchRule
  | .type value => { rule with msgType := some value }
  | .sender value => { rule with sender := some value }
  | .interface value => { rule with interface := some value }
  | .member value => { rule with member := some value }
  | .path value => { rule with path := some value }
  | .pathNamespace value => { rule with pathNamespace := some value }
  | .destination value => { rule with destination := some value }
  | .arg n value => { rule with args := rule.args.insert n value }
  | .argPath n value => { rule with argPaths := rule.argPaths.insert n value }
  | .arg0namespace value => { rule with arg0namespace := some value }

theorem has_set_of_has {rule : MatchRule} {filter other : Filter} (hlacks : rule.Lacks filter)
    (h : rule.Has other) : (rule.set filter).Has other := by
  have hne : ∀ {m : AssocMap UInt8 String} {n n' : UInt8} {v v' : String},
      m.lookup n = none → m.lookup n' = some v' → (m.insert n v).lookup n' = some v' := by
    intro m n n' v v' hnone hsome
    have hdiff : n' ≠ n := by
      rintro rfl
      rw [hnone] at hsome
      cases hsome
    rw [AList.lookup_insert_ne hdiff, hsome]
  cases filter with
  | arg n v =>
      cases other with
      | arg n' v' => exact hne hlacks h
      | _ => exact h
  | argPath n v =>
      cases other with
      | argPath n' v' => exact hne hlacks h
      | _ => exact h
  | _ =>
      cases other <;> first | exact h | exact absurd (hlacks.symm.trans h) nofun

/-! ## Filter by filter -/

theorem fieldMatches_iff {filter field : Option String} :
    fieldMatches filter field = true ↔ ∀ v, filter = some v → (field == some v) = true := by
  cases filter with
  | none => exact iff_of_true rfl nofun
  | some v => exact ⟨fun h _ heq => Option.some.inj heq ▸ h, fun h => h v rfl⟩

theorem pathNamespaceMatches_iff {filter path : Option String} :
    pathNamespaceMatches filter path = true ↔ ∀ v, filter = some v →
      path.any (fun path => path == v || startsWith path (v ++ "/")) = true := by
  cases filter with
  | none => exact iff_of_true rfl nofun
  | some ns =>
      cases path with
      | none => exact iff_of_false nofun (fun h => nomatch h ns rfl)
      | some path => exact ⟨fun h _ heq => Option.some.inj heq ▸ h, fun h => h ns rfl⟩

theorem destinationMatches_iff {filter destination : Option String} :
    destinationMatches filter destination = true ↔ ∀ v, filter = some v →
      (destination == some v || (v == "" && destination.isNone)) = true := by
  cases filter with
  | none => exact iff_of_true rfl nofun
  | some v =>
      cases destination with
      | none => simp [destinationMatches]
      | some dest => simp [destinationMatches]

theorem arg0namespaceMatches_iff {filter : Option String} {args : List String} :
    arg0namespaceMatches filter args = true ↔ ∀ v, filter = some v →
      args[0]?.any (fun arg0 => arg0 == v || startsWith arg0 (v ++ ".")) = true := by
  cases filter with
  | none => exact iff_of_true rfl nofun
  | some ns =>
      cases args with
      | nil => exact iff_of_false nofun (fun h => nomatch h ns rfl)
      | cons arg0 args => exact ⟨fun h _ heq => Option.some.inj heq ▸ h, fun h => h ns rfl⟩

theorem entries_eq_nil {m : AssocMap UInt8 String} (h : ∀ n v, m.lookup n ≠ some v) :
    m.entries = [] :=
  List.eq_nil_iff_forall_not_mem.mpr
    (fun e he => h e.1 e.2 (AList.lookup_eq_some_iff.mpr he))

theorem all_entries_iff {m : AssocMap UInt8 String} (p : UInt8 → String → Bool) :
    m.entries.all (fun e => p e.1 e.2) = true ↔
      ∀ n v, m.lookup n = some v → p n v = true := by
  rw [List.all_eq_true]
  constructor
  · intro h n v hv
    exact h ⟨n, v⟩ (AList.lookup_eq_some_iff.mp hv)
  · rintro h ⟨n, v⟩ he
    exact h n v (AList.lookup_eq_some_iff.mpr he)

theorem no_argument_filters_iff {rule : MatchRule} :
    (rule.args.entries.isEmpty && rule.argPaths.entries.isEmpty && rule.arg0namespace.isNone) =
        true ↔
      (∀ n v, rule.args.lookup n ≠ some v) ∧ (∀ n v, rule.argPaths.lookup n ≠ some v) ∧
        ∀ v, rule.arg0namespace ≠ some v := by
  have hempty : ∀ {m : AssocMap UInt8 String}, m.entries = [] ↔ ∀ n v, m.lookup n ≠ some v := by
    intro m
    refine ⟨fun h n v => ?_, entries_eq_nil⟩
    rw [AList.lookup_of_entries_nil h]
    exact Option.some_ne_none v |>.symm
  rw [Bool.and_eq_true, Bool.and_eq_true, List.isEmpty_iff, List.isEmpty_iff,
    Option.isNone_iff_eq_none, hempty, hempty, Option.eq_none_iff_forall_ne_some, and_assoc]

theorem argsMatch_iff {rule : MatchRule} {msg : Message} :
    rule.argsMatch msg = true ↔
      (∀ n v, rule.args.lookup n = some v → (argText msg n.toNat == some v) = true) ∧
      (∀ n v, rule.argPaths.lookup n = some v →
        (argText msg n.toNat).any (fun actual => matchesPathFilter actual v) = true) ∧
      (∀ v, rule.arg0namespace = some v →
        (argText msg 0).any (fun arg0 => arg0 == v || startsWith arg0 (v ++ ".")) = true) := by
  have hargs : ∀ {n v}, rule.args.lookup n = some v →
      argText msg n.toNat = (rule.extractStringArgs msg).bind (fun texts => texts[n.toNat]?) :=
    fun h => (extractStringArgs_getElem? rule msg (le_maxArgIndex_of_arg h)).symm
  have hpaths : ∀ {n v}, rule.argPaths.lookup n = some v →
      argText msg n.toNat = (rule.extractStringArgs msg).bind (fun texts => texts[n.toNat]?) :=
    fun h => (extractStringArgs_getElem? rule msg (le_maxArgIndex_of_argPath h)).symm
  have hfirst : argText msg 0 = (rule.extractStringArgs msg).bind (fun texts => texts[0]?) :=
    (extractStringArgs_getElem? rule msg (Nat.zero_le _)).symm
  unfold argsMatch
  split
  · next hnone =>
      obtain ⟨h₁, h₂, h₃⟩ := no_argument_filters_iff.mp hnone
      exact iff_of_true rfl ⟨fun n v h => absurd h (h₁ n v), fun n v h => absurd h (h₂ n v),
        fun v h => absurd h (h₃ v)⟩
  · next hsome =>
      cases hextract : rule.extractStringArgs msg with
      | none =>
          rw [hextract] at hargs hpaths hfirst
          refine iff_of_false nofun ?_
          rintro ⟨h₁, h₂, h₃⟩
          refine hsome (no_argument_filters_iff.mpr
            ⟨fun n v h => ?_, fun n v h => ?_, fun v h => ?_⟩)
          · have hfound := h₁ n v h
            rw [hargs h] at hfound
            cases hfound
          · have hfound := h₂ n v h
            rw [hpaths h] at hfound
            cases hfound
          · have hfound := h₃ v h
            rw [hfirst] at hfound
            cases hfound
      | some args =>
          rw [hextract] at hargs hpaths hfirst
          dsimp only
          rw [Bool.and_eq_true, Bool.and_eq_true, and_assoc, arg0namespaceMatches_iff, hfirst]
          refine and_congr ((all_entries_iff (fun n v => args[n.toNat]? == some v)).trans ?_)
            (and_congr ((all_entries_iff (fun n v =>
              args[n.toNat]?.any (fun actual => matchesPathFilter actual v))).trans ?_) Iff.rfl)
          · refine forall₃_congr (fun n v h => ?_)
            rw [hargs h]
            rfl
          · refine forall₃_congr (fun n v h => ?_)
            rw [hpaths h]
            rfl

/-- A rule matches when all its filters accept the message. -/
theorem isMatch_iff {rule : MatchRule} {msg : Message} :
    rule.isMatch msg = true ↔ ∀ filter, rule.Has filter → filter.accepts msg = true := by
  rw [Filter.forall_iff]
  simp only [isMatch, headersMatch, Bool.and_eq_true, and_assoc, fieldMatches_iff,
    pathNamespaceMatches_iff, destinationMatches_iff, argsMatch_iff]
  simp only [Has, Filter.accepts, Option.some_beq_some]

theorem matchesIgnoringDestination_iff {rule : MatchRule} {msg : Message} :
    rule.matchesIgnoringDestination msg = true ↔
      ∀ filter, rule.Has filter → filter.isDestination = false → filter.accepts msg = true := by
  rw [Filter.forall_iff]
  simp only [matchesIgnoringDestination, headersMatch, Bool.and_eq_true, and_assoc,
    fieldMatches_iff, pathNamespaceMatches_iff, argsMatch_iff]
  simp [Has, Filter.accepts, Filter.isDestination]

theorem matchers_congr {rule rule' : MatchRule} (h : ∀ filter, rule.Has filter ↔ rule'.Has filter)
    (msg : Message) :
    rule.matchesByReturn msg = rule'.matchesByReturn msg ∧
      rule.matchesIgnoringDestinationByReturn msg =
        rule'.matchesIgnoringDestinationByReturn msg := by
  constructor
  · rw [matchesByReturn_eq, matchesByReturn_eq, Bool.eq_iff_iff, isMatch_iff, isMatch_iff]
    simp only [h]
  · rw [matchesIgnoringDestinationByReturn_eq, matchesIgnoringDestinationByReturn_eq,
      Bool.eq_iff_iff, matchesIgnoringDestination_iff, matchesIgnoringDestination_iff]
    simp only [h]

theorem has_perm {rule : MatchRule} {args argPaths : AssocMap UInt8 String}
    (hargs : args.entries.Perm rule.args.entries)
    (hpaths : argPaths.entries.Perm rule.argPaths.entries) (filter : Filter) :
    MatchRule.Has { rule with args := args, argPaths := argPaths } filter ↔ rule.Has filter := by
  cases filter with
  | arg n v => exact Eq.congr_left (AList.perm_lookup hargs)
  | argPath n v => exact Eq.congr_left (AList.perm_lookup hpaths)
  | _ => exact Iff.rfl

/-- The relaxed matcher is the strict one for the rule without a destination, and the
strict one is the relaxed one with the check of the destination. The order of the maps
does not matter to either, and a further filter never makes a rule match that did not. -/
theorem relaxed_matcher_refines :
    (∀ (rule : MatchRule) (msg : Message), rule.matchesIgnoringDestinationByReturn msg =
      matchesByReturn { rule with destination := none } msg) ∧
    (∀ (rule : MatchRule) (msg : Message), rule.matchesByReturn msg = true ↔
      rule.matchesIgnoringDestinationByReturn msg = true ∧
        (rule.destination = none ∨
          (∃ d, rule.destination = some d ∧ msg.destination = some d) ∨
          rule.destination = some "" ∧ msg.destination = none)) ∧
    (∀ (rule : MatchRule) (args argPaths : AssocMap UInt8 String) (msg : Message),
      args.entries.Perm rule.args.entries → argPaths.entries.Perm rule.argPaths.entries →
      matchesByReturn { rule with args := args, argPaths := argPaths } msg =
          rule.matchesByReturn msg ∧
        matchesIgnoringDestinationByReturn { rule with args := args, argPaths := argPaths } msg =
          rule.matchesIgnoringDestinationByReturn msg) ∧
    (∀ (rule : MatchRule) (filter : Filter) (msg : Message), rule.Lacks filter →
      ((rule.set filter).matchesByReturn msg = true → rule.matchesByReturn msg = true) ∧
        ((rule.set filter).matchesIgnoringDestinationByReturn msg = true →
          rule.matchesIgnoringDestinationByReturn msg = true)) := by
  refine ⟨fun rule msg => rfl, fun rule msg => ?_, fun rule args argPaths msg hargs hpaths => ?_,
    fun rule filter msg hlacks => ?_⟩
  · have hdest : destinationMatches rule.destination msg.destination = true ↔
        rule.destination = none ∨ (∃ d, rule.destination = some d ∧ msg.destination = some d) ∨
          rule.destination = some "" ∧ msg.destination = none := by
      cases rule.destination with
      | none => exact iff_of_true rfl (Or.inl rfl)
      | some expected =>
          cases msg.destination with
          | none => simp [destinationMatches]
          | some dest =>
              rw [destinationMatches, beq_iff_eq]
              simp
    rw [matchesByReturn_eq, matchesIgnoringDestinationByReturn_eq, ← hdest, isMatch,
      matchesIgnoringDestination]
    simp only [Bool.and_eq_true]
    tauto
  · exact matchers_congr (has_perm hargs hpaths) msg
  · rw [matchesByReturn_eq, matchesByReturn_eq, matchesIgnoringDestinationByReturn_eq,
      matchesIgnoringDestinationByReturn_eq, isMatch_iff, isMatch_iff,
      matchesIgnoringDestination_iff, matchesIgnoringDestination_iff]
    exact ⟨fun h other hhas => h other (has_set_of_has hlacks hhas),
      fun h other hhas => h other (has_set_of_has hlacks hhas)⟩

end MatchRule

end KapsuleDbusMux
