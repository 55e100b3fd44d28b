import KapsuleDbusMux.Message

/-! # Match rules

`match_rules.rs`. A rule is parsed from comma-separated `key='value'` items and
filters messages by their header fields and arguments. Text is handled as a list
of characters; what the source slices by byte offsets is always cut at a
character it has just found.
-/

namespace KapsuleDbusMux

/-! ## Text -/

namespace Text

/-- The Unicode `White_Space` property, as `str::trim` uses it. -/
def isWhitespace (c : Char) : Bool :=
  let n := c.toNat
  (0x9 ≤ n && n ≤ 0xD) || n == 0x20 || n == 0x85 || n == 0xA0 || n == 0x1680 ||
    (0x2000 ≤ n && n ≤ 0x200A) || n == 0x2028 || n == 0x2029 || n == 0x202F || n == 0x205F ||
    n == 0x3000

def trimStart (s : List Char) : List Char := s.dropWhile isWhitespace

def trimEnd (s : List Char) : List Char := (s.reverse.dropWhile isWhitespace).reverse

def trim (s : List Char) : List Char := trimEnd (trimStart s)

/-- The text before the first `c` and the text after it. -/
def splitFirst (c : Char) : List Char → Option (List Char × List Char)
  | [] => none
  | a :: s =>
      if a = c then some ([], s)
      else (splitFirst c s).map (fun (before, after) => (a :: before, after))

def endsWith (s suffix : List Char) : Bool := suffix.reverse.isPrefixOf s.reverse

/-- `u8::from_str`: an optional plus sign, then decimal digits. -/
def parseU8 (s : List Char) : Option UInt8 :=
  let digits := match s with
    | '+' :: rest => rest
    | _ => s
  if digits.isEmpty || !digits.all (fun c => '0' ≤ c && c ≤ '9') then none
  else
    let value := digits.foldl (fun acc c => 10 * acc + (c.toNat - '0'.toNat)) 0
    if value < 256 then some (UInt8.ofNat value) else none

theorem length_trimStart_le (s : List Char) : (trimStart s).length ≤ s.length :=
  (List.dropWhile_sublist isWhitespace).length_le

theorem length_of_splitFirst {c : Char} {s before after : List Char}
    (h : splitFirst c s = some (before, after)) :
    s.length = before.length + after.length + 1 := by
  induction s generalizing before with
  | nil => cases h
  | cons a s ih =>
      unfold splitFirst at h
      split at h
      · cases h
        simp
      · cases hs : splitFirst c s with
        | none => simp [hs] at h
        | some parts =>
            rcases parts with ⟨inner, rest⟩
            simp only [hs, Option.map_some, Option.some.injEq, Prod.mk.injEq] at h
            rcases h with ⟨hbefore, hafter⟩
            subst hbefore hafter
            have hlen := ih hs
            simp only [List.length_cons]
            omega

end Text

/-! ## Parsing -/

structure MatchRule where
  ruleString : String
  msgType : Option String := none
  sender : Option String := none
  interface : Option String := none
  member : Option String := none
  path : Option String := none
  pathNamespace : Option String := none
  destination : Option String := none
  args : AssocMap UInt8 String := ∅
  argPaths : AssocMap UInt8 String := ∅
  arg0namespace : Option String := none
  eavesdrop : Bool := false
  deriving DecidableEq

inductive MatchRuleError where
  | invalidFormat (msg : String)
  | invalidArgIndex (key : String)
  deriving DecidableEq, Repr

namespace MatchRuleError

def display : MatchRuleError → String
  | invalidFormat msg => "Invalid match rule format: " ++ msg
  | invalidArgIndex key => "Invalid argument index: " ++ key

end MatchRuleError

inductive RuleKey where
  | type
  | sender
  | interface
  | member
  | path
  | pathNamespace
  | destination
  | eavesdrop
  | arg0namespace
  | argPath (num : List Char)
  | arg (num : List Char)
  | unknown
  deriving DecidableEq, Repr

def RuleKey.ofText (key : List Char) : RuleKey :=
  if key = "type".toList then .type
  else if key = "sender".toList then .sender
  else if key = "interface".toList then .interface
  else if key = "member".toList then .member
  else if key = "path".toList then .path
  else if key = "path_namespace".toList then .pathNamespace
  else if key = "destination".toList then .destination
  else if key = "eavesdrop".toList then .eavesdrop
  else if key = "arg0namespace".toList then .arg0namespace
  else if "arg".toList.isPrefixOf key && Text.endsWith key "path".toList then
    .argPath ((key.drop 3).take (key.length - 7))
  else if "arg".toList.isPrefixOf key then .arg (key.drop 3)
  else .unknown

namespace MatchRule

/-- The number in the key of an argument filter; `text` is the part of `key`
that should spell it. -/
def parseArgIndex (key text : List Char) : Except MatchRuleError UInt8 :=
  match Text.parseU8 text with
  | none => .error (.invalidArgIndex (String.ofList key))
  | some num => if num > 63 then .error (.invalidArgIndex (String.ofList key)) else .ok num

def setKey (result : MatchRule) (key : List Char) (value : String) :
    Except MatchRuleError MatchRule :=
  match RuleKey.ofText key with
  | .type => .ok { result with msgType := some value }
  | .sender => .ok { result with sender := some value }
  | .interface => .ok { result with interface := some value }
  | .member => .ok { result with member := some value }
  | .path => .ok { result with path := some value }
  | .pathNamespace => .ok { result with pathNamespace := some value }
  | .destination => .ok { result with destination := some value }
  | .eavesdrop => .ok { result with eavesdrop := value == "true" }
  | .arg0namespace => .ok { result with arg0namespace := some value }
  | .argPath num =>
      (parseArgIndex key num).map (fun num =>
        { result with argPaths := result.argPaths.insert num value })
  | .arg num =>
      (parseArgIndex key num).map (fun num =>
        { result with args := result.args.insert num value })
  | .unknown => .ok result

/-- A value at the head of the text, and what follows it. -/
def parseValue (remaining : List Char) : Except MatchRuleError (String × List Char) :=
  match remaining with
  | '\'' :: quoted =>
      match Text.splitFirst '\'' quoted with
      | none => .error (.invalidFormat "Unclosed quote")
      | some (value, rest) => .ok (String.ofList value, rest)
  | _ =>
      .ok (String.ofList (Text.trim (remaining.takeWhile (· ≠ ','))),
        remaining.dropWhile (· ≠ ','))

/-- White space and one comma before an item. -/
def skipSeparator (remaining : List Char) : List Char :=
  match Text.trimStart remaining with
  | ',' :: rest => Text.trimStart rest
  | rest => rest

/-- The loop of `parse`. Every round takes at least an equals sign away, so fuel
for the length of the text is enough. -/
def parseItems : Nat → List Char → MatchRule → Except MatchRuleError MatchRule
  | 0, _, result => .ok result
  | fuel + 1, remaining, result =>
      let remaining := skipSeparator remaining
      if remaining.isEmpty then .ok result
      else
        match Text.splitFirst '=' remaining with
        | none => .error (.invalidFormat ("Missing '=' in: " ++ String.ofList remaining))
        | some (key, rest) => do
            let (value, rest) ← parseValue (Text.trimStart rest)
            let result ← result.setKey (Text.trim key) value
            parseItems fuel rest result

def parse (rule : String) : Except MatchRuleError MatchRule :=
  let text := Text.trim rule.toList
  parseItems text.length text { ruleString := rule }

theorem length_of_parseValue {remaining rest : List Char} {value : String}
    (h : parseValue remaining = .ok (value, rest)) : rest.length ≤ remaining.length := by
  unfold parseValue at h
  split at h
  · next quoted =>
      cases hq : Text.splitFirst '\'' quoted with
      | none => simp [hq] at h
      | some parts =>
          have hlen := Text.length_of_splitFirst hq
          simp only [hq, Except.ok.injEq, Prod.mk.injEq] at h
          rw [← h.2]
          simp only [List.length_cons]
          omega
  · simp only [Except.ok.injEq, Prod.mk.injEq] at h
    rw [← h.2]
    exact (List.dropWhile_sublist _).length_le

theorem length_skipSeparator_le (remaining : List Char) :
    (skipSeparator remaining).length ≤ remaining.length := by
  have htrim := Text.length_trimStart_le remaining
  unfold skipSeparator
  split
  · next rest heq =>
      have hrest := Text.length_trimStart_le rest
      rw [heq] at htrim
      simp only [List.length_cons] at htrim
      omega
  · exact htrim

theorem parseItems_fuel {fuel more : Nat} {remaining : List Char} (result : MatchRule)
    (hfuel : remaining.length ≤ fuel) (hmore : remaining.length ≤ more) :
    parseItems fuel remaining result = parseItems more remaining result := by
  induction fuel generalizing more remaining result with
  | zero =>
      have hnil : remaining = [] := List.eq_nil_of_length_eq_zero (Nat.le_zero.mp hfuel)
      subst hnil
      cases more with
      | zero => rfl
      | succ more => rfl
  | succ fuel ih =>
      cases more with
      | zero =>
          have hnil : remaining = [] := List.eq_nil_of_length_eq_zero (Nat.le_zero.mp hmore)
          subst hnil
          rfl
      | succ more =>
          simp only [parseItems]
          have hskip := length_skipSeparator_le remaining
          split
          · rfl
          · cases hsplit : Text.splitFirst '=' (skipSeparator remaining) with
            | none => rfl
            | some parts =>
                rcases parts with ⟨key, rest⟩
                have hlen := Text.length_of_splitFirst hsplit
                have htrim := Text.length_trimStart_le rest
                dsimp only
                cases hvalue : parseValue (Text.trimStart rest) with
                | error e => rfl
                | ok pair =>
                    rcases pair with ⟨value, after⟩
                    have hafter := length_of_parseValue hvalue
                    cases hset : result.setKey (Text.trim key) value with
                    | error e => simp [hset, bind, Except.bind]
                    | ok result =>
                        simp only [hset, bind, Except.bind]
                        exact ih result (by omega) (by omega)

theorem ruleString_of_setKey {result result' : MatchRule} {key : List Char} {value : String}
    (h : result.setKey key value = .ok result') : result'.ruleString = result.ruleString := by
  unfold setKey at h
  cases hkey : RuleKey.ofText key with
  | argPath num =>
      simp only [hkey] at h
      cases hnum : parseArgIndex key num with
      | error e => simp [hnum, Except.map] at h
      | ok num =>
          simp only [hnum, Except.map, Except.ok.injEq] at h
          rw [← h]
  | arg num =>
      simp only [hkey] at h
      cases hnum : parseArgIndex key num with
      | error e => simp [hnum, Except.map] at h
      | ok num =>
          simp only [hnum, Except.map, Except.ok.injEq] at h
          rw [← h]
  | _ =>
      simp only [hkey, Except.ok.injEq] at h
      rw [← h]

theorem ruleString_of_parseItems {fuel : Nat} {remaining : List Char} {result result' : MatchRule}
    (h : parseItems fuel remaining result = .ok result') :
    result'.ruleString = result.ruleString := by
  induction fuel generalizing remaining result with
  | zero =>
      cases h
      rfl
  | succ fuel ih =>
      simp only [parseItems] at h
      split at h
      · cases h
        rfl
      · cases hsplit : Text.splitFirst '=' (skipSeparator remaining) with
        | none => simp [hsplit] at h
        | some parts =>
            rcases parts with ⟨key, rest⟩
            simp only [hsplit] at h
            cases hvalue : parseValue (Text.trimStart rest) with
            | error e => simp [hvalue, bind, Except.bind] at h
            | ok pair =>
                rcases pair with ⟨value, after⟩
                cases hset : result.setKey (Text.trim key) value with
                | error e => simp [hvalue, hset, bind, Except.bind] at h
                | ok next =>
                    simp only [hvalue, hset, bind, Except.bind] at h
                    rw [ih h, ruleString_of_setKey hset]

theorem ruleString_of_parse {rule : String} {result : MatchRule}
    (h : parse rule = .ok result) : result.ruleString = rule :=
  ruleString_of_parseItems h

/-! ## Matching -/

def messageTypeString : MessageType → String
  | .methodCall => "method_call"
  | .methodReturn => "method_return"
  | .error => "error"
  | .signal => "signal"

/-- A filter on a header field: the field has to be there and to be equal. -/
def fieldMatches (filter field : Option String) : Bool :=
  match filter with
  | none => true
  | some expected => field == some expected

def pathNamespaceMatches (filter path : Option String) : Bool :=
  match filter, path with
  | none, _ => true
  | some _, none => false
  | some ns, some path => path == ns || startsWith path (ns ++ "/")

def destinationMatches (filter destination : Option String) : Bool :=
  match filter, destination with
  | none, _ => true
  | some expected, some dest => dest == expected
  | some expected, none => expected == ""

def matchesPathFilter (argValue filter : String) : Bool :=
  argValue == filter ||
    (Text.endsWith filter.toList ['/'] && startsWith argValue filter) ||
    (Text.endsWith argValue.toList ['/'] && startsWith filter argValue)

/-- The largest argument index a rule looks at, and zero without any. -/
def maxArgIndex (rule : MatchRule) : Nat :=
  (rule.args.keys ++ rule.argPaths.keys).foldl (fun acc idx => max acc idx.toNat) 0

/-- The text of an argument; an argument of another type counts as empty. -/
def argString : Value → String
  | .str s => s
  | .objectPath p => p
  | .uint32 _ => ""
  | .other _ _ => ""

/-- The index is compared as a byte: `idx as u8 > max_idx` ends the loop. -/
def extractStringArgs (rule : MatchRule) (msg : Message) : Option (List String) :=
  match msg.body.deserializeStructure with
  | some fields =>
      some ((fields.zipIdx.takeWhile (fun (_, idx) => idx % 256 ≤ rule.maxArgIndex)).map
        (fun (field, _) => argString field))
  | none =>
      match msg.body.deserializeString with
      | some s => some [s]
      | none =>
          match msg.body.deserializeStringTriple with
          | some (s₁, s₂, s₃) => some [s₁, s₂, s₃]
          | none => msg.body.deserializeStringPair.map (fun (s₁, s₂) => [s₁, s₂])

def arg0namespaceMatches (filter : Option String) (args : List String) : Bool :=
  match filter, args with
  | none, _ => true
  | some _, [] => false
  | some ns, arg0 :: _ => arg0 == ns || startsWith arg0 (ns ++ ".")

def argsMatch (rule : MatchRule) (msg : Message) : Bool :=
  if rule.args.entries.isEmpty && rule.argPaths.entries.isEmpty && rule.arg0namespace.isNone then
    true
  else
    match rule.extractStringArgs msg with
    | none => false
    | some args =>
        rule.args.entries.all (fun e => args[e.1.toNat]? == some e.2) &&
          rule.argPaths.entries.all (fun e =>
            args[e.1.toNat]?.any (fun actual => matchesPathFilter actual e.2)) &&
          arg0namespaceMatches rule.arg0namespace args

/-- The filters both matchers check before the destination. -/
def headersMatch (rule : MatchRule) (msg : Message) : Bool :=
  fieldMatches rule.msgType (some (messageTypeString msg.msgType)) &&
    fieldMatches rule.sender msg.sender &&
    fieldMatches rule.interface msg.interface &&
    fieldMatches rule.member msg.member &&
    fieldMatches rule.path msg.path &&
    pathNamespaceMatches rule.pathNamespace msg.path

/-- `MatchRule::matches`. -/
def isMatch (rule : MatchRule) (msg : Message) : Bool :=
  rule.headersMatch msg && destinationMatches rule.destination msg.destination &&
    rule.argsMatch msg

def matchesIgnoringDestination (rule : MatchRule) (msg : Message) : Bool :=
  rule.headersMatch msg && rule.argsMatch msg

end MatchRule

end KapsuleDbusMux
