import KapsuleDbusMux.Library.Occurrence
import KapsuleDbusMux.Portal.PortalRequest
import Mathlib.Data.Bool.AllAny

/-! # The path of a rewritten response

The path of a portal request is a fixed prefix, the unique name of the caller as a
path element, and a token of the caller. `clone_portal_response_signal` replaces the
name of the multiplexer by the name of the client wherever it occurs in the path. It
cannot occur in the fixed prefix and not across a slash, but in the token it can.
-/

namespace KapsuleDbusMux

open Occurrence (NoneBegins)

/-! ## Replacing in a text -/

section Replace

variable {pattern : List Char} (replacement : List Char)

theorem replaceFrom_skip (pattern replacement : List Char) (skip : Nat) (s : List Char) :
    replaceFrom pattern replacement skip s = replaceFrom pattern replacement 0 (s.drop skip) := by
  induction s generalizing skip with
  | nil => cases skip <;> simp [replaceFrom]
  | cons c s ih =>
      cases skip with
      | zero => rfl
      | succ skip => exact ih skip

theorem replaceFrom_pattern (hpattern : pattern ≠ []) (s : List Char) :
    replaceFrom pattern replacement 0 (pattern ++ s) =
      replacement ++ replaceFrom pattern replacement 0 s := by
  cases hp : pattern with
  | nil => exact absurd hp hpattern
  | cons c rest =>
      have hstarts : (c :: rest).isPrefixOf (c :: (rest ++ s)) = true :=
        List.isPrefixOf_iff_prefix.mpr (List.prefix_append (c :: rest) s)
      rw [List.cons_append, replaceFrom, if_pos hstarts, replaceFrom_skip]
      simp

theorem replaceFrom_append {u s : List Char} (h : NoneBegins pattern u s) :
    replaceFrom pattern replacement 0 (u ++ s) = u ++ replaceFrom pattern replacement 0 s := by
  induction u with
  | nil => rfl
  | cons c u ih =>
      rw [Occurrence.noneBegins_cons] at h
      have hno : ¬ pattern.isPrefixOf (c :: (u ++ s)) = true :=
        fun hstarts => h.1 (List.isPrefixOf_iff_prefix.mp hstarts)
      rw [List.cons_append, replaceFrom, if_neg hno, ih h.2, List.cons_append]

theorem replaceFrom_of_absent {s : List Char} (h : ¬ pattern <:+: s) :
    replaceFrom pattern replacement 0 s = s := by
  have hkept := replaceFrom_append replacement (Occurrence.noneBegins_of_absent h)
  rw [List.append_nil] at hkept
  rw [hkept]
  exact List.append_nil s

theorem replaceFrom_first_match (hpattern : pattern ≠ []) {u v : List Char}
    (hfirst : NoneBegins pattern u (pattern ++ v)) :
    replaceFrom pattern replacement 0 (u ++ (pattern ++ v)) =
      u ++ (replacement ++ replaceFrom pattern replacement 0 v) := by
  rw [replaceFrom_append replacement hfirst, replaceFrom_pattern replacement hpattern]

/-- Every match makes the text longer by the same amount, or shorter. -/
theorem length_replaceFrom (hpattern : pattern ≠ []) (s : List Char) :
    ∃ n, (replaceFrom pattern replacement 0 s).length + n * pattern.length =
      s.length + n * replacement.length := by
  induction s using Occurrence.match_induction hpattern with
  | hnone s hno =>
      refine ⟨0, ?_⟩
      rw [replaceFrom_of_absent replacement hno, Nat.zero_mul, Nat.zero_mul]
  | hmatch u v hfirst ih =>
      obtain ⟨n, hn⟩ := ih
      refine ⟨n + 1, ?_⟩
      rw [replaceFrom_first_match replacement hpattern hfirst]
      simp only [List.length_append, Nat.add_mul, Nat.one_mul]
      omega

theorem replaceFrom_self (hpattern : pattern ≠ []) (s : List Char) :
    replaceFrom pattern pattern 0 s = s := by
  induction s using Occurrence.match_induction hpattern with
  | hnone s hno => exact replaceFrom_of_absent pattern hno
  | hmatch u v hfirst ih => rw [replaceFrom_first_match pattern hpattern hfirst, ih]

/-- Replacing changes nothing exactly when there is nothing to replace or nothing else
to put in its place. -/
theorem replaceFrom_eq_self_iff (hpattern : pattern ≠ []) (s : List Char) :
    replaceFrom pattern replacement 0 s = s ↔ pattern = replacement ∨ ¬ pattern <:+: s := by
  by_cases hmatch : pattern <:+: s
  · rw [or_iff_left (not_not.mpr hmatch)]
    constructor
    · intro h
      obtain ⟨u, v, hs, hfirst⟩ := Occurrence.exists_first_match hmatch
      rw [hs, replaceFrom_first_match replacement hpattern hfirst, List.append_cancel_left_eq] at h
      obtain ⟨n, hn⟩ := length_replaceFrom replacement hpattern v
      have hlength := congrArg List.length h
      simp only [List.length_append] at hlength
      -- with `n + 1` matches the length stays the same only for texts of one length
      have hsame : (n + 1) * pattern.length = (n + 1) * replacement.length := by
        rw [Nat.add_mul, Nat.add_mul, Nat.one_mul, Nat.one_mul]
        omega
      exact (List.append_inj_left h (Nat.eq_of_mul_eq_mul_left n.succ_pos hsame).symm).symm
    · intro heq
      rw [← heq]
      exact replaceFrom_self hpattern s
  · exact iff_of_true (replaceFrom_of_absent replacement hmatch) (Or.inr hmatch)

end Replace

/-! ## Names and paths -/

def isPathChar (c : Char) : Bool := c.isAlphanum || c == '_'

def isNameChar (c : Char) : Bool := isPathChar c || c == '-'

/-- A unique name by the D-Bus specification: a colon, and then two or more elements
that are separated by dots and not empty, with at most 255 characters. -/
structure UniqueName where
  text : String
  elements : List Char
  text_eq : text.toList = ':' :: elements
  short : elements.length < 255
  chars : ∀ c ∈ elements, c = '.' ∨ isNameChar c = true
  dotted : '.' ∈ elements
  noEmpty : ¬ ['.', '.'] <:+: elements ∧ elements.head? ≠ some '.' ∧ elements.getLast? ≠ some '.'

structure PathElement where
  text : String
  nonempty : text.toList ≠ []
  chars : ∀ c ∈ text.toList, isPathChar c = true

/-- Elements that are not empty, with a slash between any two; `started` says whether
the first one has begun before. -/
def isElements : Bool → List Char → Bool
  | started, [] => started
  | started, c :: s =>
      if c = '/' then started && isElements false s else isPathChar c && isElements true s

/-- What `ObjectPath::try_from` accepts: the root, or elements with a slash before each. -/
def isValidObjectPath (path : String) : Bool :=
  match path.toList with
  | ['/'] => true
  | '/' :: rest => isElements false rest
  | _ => false

theorem isElements_append {element : List Char} (hslash : '/' ∉ element) (started : Bool)
    (s : List Char) :
    isElements started (element ++ s) =
      (element.all isPathChar && isElements (started || !element.isEmpty) s) := by
  induction element generalizing started with
  | nil => simp
  | cons c element ih =>
      rw [List.mem_cons, not_or] at hslash
      rw [List.cons_append, isElements, if_neg (Ne.symm hslash.1), ih hslash.2]
      simp [Bool.and_assoc]

theorem PathElement.slash_notMem (element : PathElement) : '/' ∉ element.text.toList :=
  fun h => absurd (element.chars '/' h) (by decide)

namespace UniqueName

/-- The name as an element of a path. -/
def component (name : UniqueName) : List Char :=
  name.elements.map (fun c => if c = '.' then '_' else c)

theorem uniqueNameToPathComponent_text (name : UniqueName) :
    uniqueNameToPathComponent name.text = String.ofList name.component := by
  have hcolon : name.elements.dropWhile (· == ':') = name.elements := by
    cases helements : name.elements with
    | nil => rfl
    | cons c rest =>
        have hc := name.chars c (by rw [helements]; exact List.mem_cons_self)
        have hne : (c == ':') = false := by
          rw [← Bool.not_eq_true, beq_iff_eq]
          rintro rfl
          rcases hc with hc | hc
          · exact absurd hc (by decide)
          · exact absurd hc (by decide)
        rw [List.dropWhile_cons, hne, if_neg Bool.false_ne_true]
  unfold uniqueNameToPathComponent component
  rw [name.text_eq, List.dropWhile_cons, if_pos (by rfl), hcolon]

theorem underscore_mem_component (name : UniqueName) : '_' ∈ name.component :=
  List.mem_map.mpr ⟨'.', name.dotted, rfl⟩

theorem component_ne_nil (name : UniqueName) : name.component ≠ [] :=
  List.ne_nil_of_mem name.underscore_mem_component

theorem isNameChar_component (name : UniqueName) :
    ∀ c ∈ name.component, isNameChar c = true := by
  intro c hc
  rcases List.mem_map.mp hc with ⟨c', hc', rfl⟩
  split
  · rfl
  · next hdot => exact (name.chars c' hc').resolve_left hdot

theorem slash_notMem_component (name : UniqueName) : '/' ∉ name.component :=
  fun h => absurd (name.isNameChar_component '/' h) (by decide)

end UniqueName

def requestRoot : List Char := "/org/freedesktop/portal/desktop/request/".toList

/-- The path of a request with this token, for the caller with this name. -/
def requestPath (name : UniqueName) (token : PathElement) : String :=
  String.ofList (requestRoot ++ (name.component ++ '/' :: token.text.toList))

/-- A hyphen is allowed in names and not in paths. -/
theorem isValidObjectPath_requestPath (name : UniqueName) (token : PathElement) :
    isValidObjectPath (requestPath name token) = true ↔ '-' ∉ name.component := by
  have hroot : isValidObjectPath (requestPath name token) =
      isElements false (name.component ++ '/' :: token.text.toList) := by
    unfold isValidObjectPath requestPath
    rw [String.toList_ofList]
    rfl
  have htoken : isElements false token.text.toList = true := by
    have hparts := isElements_append token.slash_notMem false []
    rw [List.append_nil] at hparts
    rw [hparts, List.all_eq_true.mpr token.chars]
    simp [isElements, token.nonempty]
  have hname : isElements false (name.component ++ '/' :: token.text.toList) =
      name.component.all isPathChar := by
    rw [isElements_append name.slash_notMem_component]
    simp [isElements, htoken, name.component_ne_nil]
  rw [hroot, hname, List.all_eq_true]
  constructor
  · exact fun h hmem => absurd (h '-' hmem) (by decide)
  · intro h c hc
    have hchar := name.isNameChar_component c hc
    rw [isNameChar, Bool.or_eq_true, beq_iff_eq] at hchar
    rcases hchar with hchar | hchar
    · exact hchar
    · exact absurd (hchar ▸ hc) h

/-- A name occurs neither in the fixed part of a path nor across its end. -/
theorem noneBegins_requestRoot (name : UniqueName) (s : List Char) :
    NoneBegins name.component requestRoot s := by
  intro v w hroot hw hstarts
  -- the fixed part ends in a slash, and before it there is no underscore
  obtain ⟨w', c, rfl⟩ : ∃ w' c, w = w' ++ [c] :=
    ⟨w.dropLast, w.getLast hw, (List.dropLast_append_getLast hw).symm⟩
  have hlast : c = '/' := by
    have hend := congrArg List.getLast? hroot
    rw [← List.append_assoc, List.getLast?_concat] at hend
    exact (Option.some.inj (hend.symm.trans (by decide : requestRoot.getLast? = some '/')))
  subst hlast
  rw [List.append_assoc] at hstarts
  have hbefore := Occurrence.prefix_of_notMem name.slash_notMem_component hstarts
  have hmem : '_' ∈ requestRoot := by
    rw [hroot]
    exact List.mem_append_right _ (List.mem_append_left _
      (hbefore.subset name.underscore_mem_component))
  exact absurd hmem (by decide)

/-- The rewritten path: only the token is searched for more occurrences. -/
theorem replaceAll_requestPath (m c : UniqueName) (token : PathElement) :
    replaceAll (requestPath m token) (uniqueNameToPathComponent m.text)
        (uniqueNameToPathComponent c.text) =
      String.ofList (requestRoot ++ (c.component ++
        '/' :: replaceFrom m.component c.component 0 token.text.toList)) := by
  have hslash : NoneBegins m.component ['/'] token.text.toList := by
    rw [Occurrence.noneBegins_cons]
    refine ⟨fun hstarts => ?_, Occurrence.noneBegins_nil _ _⟩
    have hnil : m.component <+: [] :=
      Occurrence.prefix_of_notMem m.slash_notMem_component hstarts
    exact m.component_ne_nil (List.prefix_nil.mp hnil)
  have hrest : replaceFrom m.component c.component 0 ('/' :: token.text.toList) =
      '/' :: replaceFrom m.component c.component 0 token.text.toList :=
    replaceFrom_append c.component hslash
  have hne : ¬ m.component.isEmpty = true := by
    rw [List.isEmpty_iff]
    exact m.component_ne_nil
  unfold replaceAll requestPath
  rw [m.uniqueNameToPathComponent_text, c.uniqueNameToPathComponent_text, String.toList_ofList,
    String.toList_ofList, String.toList_ofList, if_neg hne,
    replaceFrom_append c.component (noneBegins_requestRoot m _),
    replaceFrom_pattern c.component m.component_ne_nil, hrest]

/-! ## Rewriting the signal -/

/-- zbus checks paths and names as the D-Bus specification says, the descriptors of the
message can be duplicated, and it can be built with another path and destination. -/
structure MessageBuilder.Accepts (builder : MessageBuilder) (msg : Message) : Prop where
  paths : ∀ path, builder.isObjectPath path = isValidObjectPath path
  names : ∀ name : UniqueName, builder.isBusName name.text = true
  fds : (builder.cloneFds msg.fds).isSome = true
  builds : ∀ path destination, builder.buildsRawBody
    { msg with path := some path, destination := some destination } = true

/-- A response on the path of the multiplexer is rewritten to the path of the client
with the token unchanged, exactly when the multiplexer's name does not occur in the
token, or is the client's, and the client's name has no hyphen. -/
theorem response_path_rewritten_iff {builder : MessageBuilder} {msg : Message}
    (haccepts : builder.Accepts msg) (m c : UniqueName) (token : PathElement)
    (hpath : msg.path = some (requestPath m token)) :
    (∃ copy, builder.clonePortalResponseSignal msg m.text c.text = .ok copy ∧
        copy.path = some (requestPath c token)) ↔
      (m.component = c.component ∨ ¬ m.component <:+: token.text.toList) ∧
        '-' ∉ c.component := by
  obtain ⟨fds, hfds⟩ := Option.isSome_iff_exists.mp haccepts.fds
  have hrewritten : replaceAll (requestPath m token) (uniqueNameToPathComponent m.text)
        (uniqueNameToPathComponent c.text) = requestPath c token ↔
      m.component = c.component ∨ ¬ m.component <:+: token.text.toList := by
    rw [replaceAll_requestPath, requestPath, String.ofList_inj, List.append_cancel_left_eq,
      List.append_cancel_left_eq, List.cons.injEq, and_iff_right rfl,
      replaceFrom_eq_self_iff c.component m.component_ne_nil]
  unfold MessageBuilder.clonePortalResponseSignal
  simp only [hpath, Option.getD_some, haccepts.paths, haccepts.names, Bool.and_true, hfds,
    haccepts.builds, if_true]
  rw [← hrewritten, ← isValidObjectPath_requestPath c token]
  constructor
  · rintro ⟨copy, hcopy, hnew⟩
    split at hcopy
    · next hvalid =>
        cases hcopy
        have heq := Option.some.inj hnew
        exact ⟨heq, heq ▸ hvalid⟩
    · cases hcopy
  · rintro ⟨heq, hvalid⟩
    rw [heq, if_pos hvalid]
    exact ⟨_, rfl, rfl⟩

/-- A builder that checks as zbus does. -/
def checkingBuilder : MessageBuilder := ⟨isValidObjectPath, fun _ => true, some, fun _ => true⟩

def muxName : UniqueName :=
  ⟨":1.8", "1.8".toList, rfl, by decide, List.all_iff_forall_prop.mp (by decide), by decide,
    by decide⟩

def clientName : UniqueName :=
  ⟨":mux.3", "mux.3".toList, rfl, by decide, List.all_iff_forall_prop.mp (by decide), by decide,
    by decide⟩

def plainToken : PathElement := ⟨"t1", by decide, List.all_eq_true.mp (by decide)⟩

def overlappingToken : PathElement := ⟨"req1_8", by decide, List.all_eq_true.mp (by decide)⟩

def responseOn (path : String) : Message where
  msgType := .signal
  serial := 9
  replySerial := none
  path := some path
  interface := some "org.freedesktop.portal.Request"
  member := some "Response"
  destination := some ":1.8"
  sender := some ":1.20"
  body := ⟨[.uint32 0], true⟩
  fds := []

theorem accepts_checkingBuilder (path : String) : checkingBuilder.Accepts (responseOn path) :=
  ⟨fun _ => rfl, fun _ => rfl, rfl, fun _ _ => rfl⟩

theorem response_path_rewritten_plain :
    ∃ copy, checkingBuilder.clonePortalResponseSignal
        (responseOn (requestPath muxName plainToken)) ":1.8" ":mux.3" = .ok copy ∧
      copy.path = some (requestPath clientName plainToken) :=
  (response_path_rewritten_iff (accepts_checkingBuilder _) muxName clientName plainToken
    rfl).mpr ⟨Or.inr (by decide), by decide⟩

/-- The token has the name of the multiplexer in it, and is rewritten with the path. -/
theorem token_rewritten :
    ¬ ∀ (builder : MessageBuilder) (msg : Message), builder.Accepts msg →
        ∀ (m c : UniqueName) (token : PathElement), msg.path = some (requestPath m token) →
        ∃ copy, builder.clonePortalResponseSignal msg m.text c.text = .ok copy ∧
          copy.path = some (requestPath c token) := by
  intro h
  obtain ⟨copy, hcopy, hpath⟩ := h checkingBuilder
    (responseOn (requestPath muxName overlappingToken)) (accepts_checkingBuilder _) muxName
    clientName overlappingToken rfl
  have hrewritten : checkingBuilder.clonePortalResponseSignal
      (responseOn (requestPath muxName overlappingToken)) ":1.8" ":mux.3" =
      .ok { responseOn "/org/freedesktop/portal/desktop/request/mux_3/reqmux_3" with
        destination := some ":mux.3" } := by decide
  rw [← Except.ok.inj (hrewritten.symm.trans hcopy)] at hpath
  exact absurd hpath (by decide)

end KapsuleDbusMux
