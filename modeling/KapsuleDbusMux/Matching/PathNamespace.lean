import KapsuleDbusMux.Matching.Filters
import KapsuleDbusMux.Portal.ResponsePath

/-! # Path namespaces and the object tree

`path_namespace` compares texts: a path is in a namespace when it is the namespace, or
begins with it and a slash. For namespaces below the root that is the order of the
object tree. The root itself is a slash already, no path begins with two of them, and
so a rule for everything below the root matches nothing but the root.
-/

namespace KapsuleDbusMux

/-! ## Elements of a path -/

/-- The elements of an object path, from the root on; the root has none. -/
def pathElements (path : String) : List (List Char) :=
  match path.toList with
  | ['/'] => []
  | '/' :: rest => rest.splitOn '/'
  | _ => []

theorem pathElements_of_below {path : String} {c : Char} {rest : List Char}
    (h : path.toList = '/' :: c :: rest) : pathElements path = (c :: rest).splitOn '/' := by
  unfold pathElements
  rw [h]
  rfl

theorem intercalate_append_cons {ls : List (List Char)} (hls : ls ≠ []) (sep m : List Char)
    (ms : List (List Char)) :
    sep.intercalate (ls ++ m :: ms) = sep.intercalate ls ++ (sep ++ sep.intercalate (m :: ms)) := by
  induction ls with
  | nil => exact absurd rfl hls
  | cons l ls ih =>
      cases ls with
      | nil => simp
      | cons l' ls =>
          have hrest := ih (List.cons_ne_nil l' ls)
          rw [List.cons_append] at hrest
          rw [List.cons_append, List.cons_append, List.intercalate_cons_cons, hrest,
            List.intercalate_cons_cons]
          simp only [List.append_assoc]

/-- Cutting at a separator turns "begins with, up to a separator" into a prefix. -/
theorem splitOn_prefix_iff {l m : List Char} {sep : Char} :
    l.splitOn sep <+: m.splitOn sep ↔ m = l ∨ l ++ [sep] <+: m := by
  constructor
  · rintro ⟨rest, hrest⟩
    have hm : [sep].intercalate (l.splitOn sep ++ rest) = m := by
      rw [hrest, List.intercalate_splitOn]
    cases rest with
    | nil =>
        rw [List.append_nil, List.intercalate_splitOn] at hm
        exact Or.inl hm.symm
    | cons part rest =>
        refine Or.inr ⟨[sep].intercalate (part :: rest), ?_⟩
        rw [← hm, intercalate_append_cons (List.splitOn_ne_nil sep l), List.intercalate_splitOn,
          List.append_assoc]
  · rintro (rfl | ⟨rest, rfl⟩)
    · exact List.prefix_rfl
    · rw [List.append_assoc, List.singleton_append, List.splitOn_append_cons_self]
      exact List.prefix_append _ _

theorem isValidObjectPath_cases {path : String} (h : isValidObjectPath path = true) :
    path = "/" ∨ ∃ c rest, path.toList = '/' :: c :: rest ∧ c ≠ '/' := by
  unfold isValidObjectPath at h
  split at h
  · next hroot => exact Or.inl (String.toList_inj.mp hroot)
  · next rest _ hpath =>
      cases rest with
      | nil => cases h
      | cons c rest =>
          refine Or.inr ⟨c, rest, hpath, ?_⟩
          rintro rfl
          rw [isElements, if_pos rfl] at h
          cases h
  · cases h

/-- What the code compares is the order of the tree, except below the root. -/
theorem inNamespace_iff {ns path : String} (hns : isValidObjectPath ns = true)
    (hpath : isValidObjectPath path = true) :
    ((path = ns ∨ startsWith path (ns ++ "/") = true) ↔ pathElements ns <+: pathElements path) ↔
      ns ≠ "/" ∨ path = "/" := by
  have htext : startsWith path (ns ++ "/") = true ↔ ns.toList ++ ['/'] <+: path.toList := by
    rw [startsWith, List.isPrefixOf_iff_prefix, String.toList_append]
    rfl
  have heq : path = ns ↔ path.toList = ns.toList := String.toList_inj.symm
  rcases isValidObjectPath_cases hns with rfl | ⟨c, rest, hnsText, hc⟩
  · -- the root has no elements, so every path is below it
    have hbelow : pathElements "/" <+: pathElements path := List.nil_prefix
    have hnever : ¬ startsWith path ("/" ++ "/") = true := by
      rw [htext]
      rintro ⟨more, hmore⟩
      rcases isValidObjectPath_cases hpath with rfl | ⟨c, rest, hpathText, hc⟩
      · cases hmore
      · rw [hpathText] at hmore
        exact hc (List.cons.inj (List.cons.inj hmore).2).1.symm
    rw [iff_true_right hbelow, or_iff_left hnever]
    exact (or_iff_right (not_not.mpr rfl)).symm
  · have hroot : ns ≠ "/" := by
      rintro rfl
      cases hnsText
    refine iff_of_true ?_ (Or.inl hroot)
    rw [heq, htext, pathElements_of_below hnsText, hnsText]
    rcases isValidObjectPath_cases hpath with rfl | ⟨c', rest', hpathText, hc'⟩
    · refine iff_of_false ?_ ?_
      · rintro (h | ⟨more, hmore⟩)
        · cases h
        · cases hmore
      · intro h
        exact List.splitOn_ne_nil '/' (c :: rest) (List.prefix_nil.mp h)
    · rw [pathElements_of_below hpathText, splitOn_prefix_iff, hpathText, List.cons.injEq,
        and_iff_right rfl, List.cons_append, List.cons_prefix_cons, and_iff_right rfl]

/-! ## Rules with a namespace and nothing else -/

namespace MatchRule

def HasOnly (rule : MatchRule) (filter : Filter) : Prop :=
  ∀ other, rule.Has other ↔ other = filter

theorem isMatch_of_hasOnly {rule : MatchRule} {filter : Filter} (honly : rule.HasOnly filter)
    (msg : Message) : rule.isMatch msg = true ↔ filter.accepts msg = true := by
  rw [isMatch_iff]
  simp only [honly _, forall_eq]

theorem matchesIgnoringDestination_of_hasOnly {rule : MatchRule} {filter : Filter}
    (honly : rule.HasOnly filter) (hdest : filter.isDestination = false) (msg : Message) :
    rule.matchesIgnoringDestination msg = true ↔ filter.accepts msg = true := by
  rw [matchesIgnoringDestination_iff]
  simp only [honly _, forall_eq, hdest, true_implies]

theorem hasOnly_pathNamespace (ruleString ns : String) :
    MatchRule.HasOnly { ruleString := ruleString, pathNamespace := some ns }
      (.pathNamespace ns) := by
  intro other
  cases other with
  | pathNamespace v => simp [Has, eq_comm]
  | _ => simp [Has]

end MatchRule

theorem accepts_pathNamespace {msg : Message} {ns path : String} (hpath : msg.path = some path) :
    Filter.accepts msg (.pathNamespace ns) = true ↔
      path = ns ∨ startsWith path (ns ++ "/") = true := by
  rw [Filter.accepts, hpath, Option.any_some, Bool.or_eq_true, beq_iff_eq]

/-- Every signal with this path passes every rule that only has this namespace. -/
def Covers (ns path : String) : Prop :=
  ∀ (rule : MatchRule) (msg : Message), rule.HasOnly (.pathNamespace ns) → msg.isSignal = true →
    msg.path = some path →
    rule.isMatch msg = true ∧ rule.matchesIgnoringDestination msg = true

def signalFrom (path : String) : Message where
  msgType := .signal
  serial := 1
  replySerial := none
  path := some path
  interface := some "org.example.Changes"
  member := some "Changed"
  destination := none
  sender := some ":1.7"
  body := ⟨[], false⟩
  fds := []

theorem covers_iff {ns path : String} :
    Covers ns path ↔ path = ns ∨ startsWith path (ns ++ "/") = true := by
  constructor
  · intro h
    have honly := MatchRule.hasOnly_pathNamespace "" ns
    have hmatch := (h _ (signalFrom path) honly rfl rfl).1
    rw [MatchRule.isMatch_of_hasOnly honly] at hmatch
    exact (accepts_pathNamespace rfl).mp hmatch
  · intro h rule msg honly _ hpath
    rw [MatchRule.isMatch_of_hasOnly honly,
      MatchRule.matchesIgnoringDestination_of_hasOnly honly rfl, and_self]
    exact (accepts_pathNamespace hpath).mpr h

theorem Covers.refl (path : String) : Covers path path := covers_iff.mpr (Or.inl rfl)

theorem Covers.trans {ns path below : String} (h : Covers ns path) (hbelow : Covers path below) :
    Covers ns below := by
  rw [covers_iff] at h hbelow ⊢
  rcases h with rfl | h
  · exact hbelow
  · refine Or.inr ?_
    rcases hbelow with rfl | hbelow
    · exact h
    · rw [startsWith, List.isPrefixOf_iff_prefix] at h hbelow ⊢
      rw [String.toList_append] at hbelow
      exact h.trans ((List.prefix_append _ _).trans hbelow)

/-- A rule that only has a namespace follows the object tree exactly when the namespace
is not the root, or the signal is from the root itself. In any case the namespaces a
path is in are a reflexive and transitive relation. -/
theorem path_namespace_follows_tree_iff {ns path : String} (hns : isValidObjectPath ns = true)
    (hvalid : isValidObjectPath path = true) {rule : MatchRule} {msg : Message}
    (honly : rule.HasOnly (.pathNamespace ns)) (_hsignal : msg.isSignal = true)
    (hpath : msg.path = some path) :
    (((rule.isMatch msg = true ↔ pathElements ns <+: pathElements path) ∧
        (rule.matchesIgnoringDestination msg = true ↔
          pathElements ns <+: pathElements path)) ↔
      ns ≠ "/" ∨ path = "/") ∧
    Covers path path ∧ ∀ below, Covers ns path → Covers path below → Covers ns below := by
  refine ⟨?_, Covers.refl path, fun below => Covers.trans⟩
  rw [MatchRule.isMatch_of_hasOnly honly,
    MatchRule.matchesIgnoringDestination_of_hasOnly honly rfl, and_self,
    accepts_pathNamespace hpath]
  exact inNamespace_iff hns hvalid

theorem path_namespace_follows_tree_below :
    MatchRule.isMatch { ruleString := "", pathNamespace := some "/org/a" }
        (signalFrom "/org/a/b") = true ↔
      pathElements "/org/a" <+: pathElements "/org/a/b" :=
  ((path_namespace_follows_tree_iff (by decide) (by decide)
    (MatchRule.hasOnly_pathNamespace "" "/org/a") (rfl : (signalFrom "/org/a/b").isSignal = true)
    rfl).1.mpr
      (Or.inl (by decide))).1

/-- A rule for everything below the root does not match a signal from below the root. -/
theorem root_namespace_misses :
    ¬ ∀ (ns path : String), isValidObjectPath ns = true → isValidObjectPath path = true →
        ∀ (rule : MatchRule) (msg : Message), rule.HasOnly (.pathNamespace ns) →
        msg.isSignal = true → msg.path = some path →
        (rule.isMatch msg = true ↔ pathElements ns <+: pathElements path) ∧
          (rule.matchesIgnoringDestination msg = true ↔
            pathElements ns <+: pathElements path) := by
  intro h
  have hroot := h "/" "/a" (by decide) (by decide) _ (signalFrom "/a")
    (MatchRule.hasOnly_pathNamespace "path_namespace='/'" "/") rfl rfl
  exact absurd (hroot.1.mpr List.nil_prefix) (by decide)

end KapsuleDbusMux
