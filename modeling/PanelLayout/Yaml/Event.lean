import PanelLayout.Yaml.Token

/-!
# Events of a YAML text

The grammar of YAML read over the tokens.  An `Event` is a scalar, an alias, or one end of a
collection or document; absent keys and values become empty plain scalars.  The events of a text
are those that its tokens determine before the first token that the grammar refuses.

The grammar is a pushdown machine: the stack of `Expectation`s says what may come, the innermost
first, and each step gives one event.
-/

namespace PanelLayout.Yaml

/-- A scalar, an alias, or one end of a collection or document.  `Anchor` is how anchors are
named: by their texts first, by numbers once they are resolved. -/
inductive Event (Anchor : Type) where
  | documentStart
  | documentEnd
  | streamEnd
  | scalar (anchor : Option Anchor) (tag : Option Tag) (style : Style) (text : String)
  | sequenceStart (anchor : Option Anchor) (tag : Option Tag)
  | mappingStart (anchor : Option Anchor) (tag : Option Tag)
  | collectionEnd
  | aliasOf (anchor : Anchor)
  deriving Repr

namespace Event

/-! ## §1 The state of the grammar -/

/-- What may come next.  The `Bool`s tell the first entry of a collection, whose opening token is
still to be taken, from the later ones. -/
inductive Expectation where
  | documentStart (first : Bool)
  | documentContent
  | documentEnd
  | blockNode
  | blockSequenceEntry (first : Bool)
  | indentlessEntry
  | blockMappingKey (first : Bool)
  | blockMappingValue
  | flowSequenceEntry (first : Bool)
  | flowPairKey
  | flowPairValue
  | flowPairEnd
  | flowMappingKey (first : Bool)
  | flowMappingValue
  | flowMappingNoValue
  | nothing
  deriving DecidableEq, Repr

/-- The tokens that remain, what may come, and what the tag handles of the document stand for. -/
structure Grammar where
  tokens : List Token
  stack : List Expectation
  handles : List (String × Tag)

/-- One step of the grammar: an event and the state behind it. -/
abbrev Step := Option (Event String × Grammar)

/-- The empty plain scalar, for what the text leaves out. -/
def absent : Event String := .scalar none none .plain ""

/-- The state with other tokens and another stack. -/
def Grammar.to (g : Grammar) (tokens : List Token) (stack : List Expectation) : Grammar :=
  { g with tokens := tokens, stack := stack }

/-! ## §2 Documents -/

/-- What tag handles stand for without a directive. -/
def defaultHandles : List (String × Tag) := [("!", .lone), ("!!", .coreLead)]

/-- Reads the directives before a document; each handle may be declared once, and the version
once. -/
def directives? (version : Bool) (handles : List (String × Tag)) :
    List Token → Option (List (String × Tag) × List Token)
  | .versionDirective major minor :: rest =>
    if version || major ≠ 1 || (minor ≠ 1 && minor ≠ 2) then none
    else directives? true handles rest
  | .tagDirective handle lead :: rest =>
    if handles.any (·.1 = handle) then none
    else directives? version (handles ++ [(handle, lead)]) rest
  | tokens => some (handles ++ defaultHandles, tokens)

/-- The beginning of a document, or the end of the stream.  Only the first document may begin
without a marker. -/
def documentStart? (first : Bool) (g : Grammar) (below : List Expectation) : Step :=
  -- Before a later document any number of end markers may stand.
  let tokens := if first then g.tokens else g.tokens.dropWhile (· = .documentEnd)
  match tokens with
  | [] => none
  | .streamEnd :: rest => some (.streamEnd, g.to rest (.nothing :: below))
  | .versionDirective .. :: _ | .tagDirective .. :: _ | .documentStart :: _ =>
    match directives? false [] tokens with
    | some (handles, .documentStart :: rest) =>
      some (.documentStart, ⟨rest, .documentContent :: .documentEnd :: below, handles⟩)
    | _ => none
  | _ =>
    if first then
      some (.documentStart, ⟨tokens, .blockNode :: .documentEnd :: below, defaultHandles⟩)
    else none

/-- The end of a document, with or without its marker. -/
def documentEnd? (g : Grammar) (below : List Expectation) : Step :=
  match g.tokens with
  | [] => none
  | .documentEnd :: rest => some (.documentEnd, g.to rest (.documentStart false :: below))
  | tokens => some (.documentEnd, g.to tokens (.documentStart false :: below))

/-! ## §3 Nodes -/

/-- The anchor and the tag before a node, in either order. -/
structure Properties where
  anchor : Option String
  tag : Option (String × Tag)

def properties : List Token → Properties × List Token
  | .anchor name :: .tag handle suffix :: rest => (⟨some name, some (handle, suffix)⟩, rest)
  | .anchor name :: rest => (⟨some name, none⟩, rest)
  | .tag handle suffix :: .anchor name :: rest => (⟨some name, some (handle, suffix)⟩, rest)
  | .tag handle suffix :: rest => (⟨none, some (handle, suffix)⟩, rest)
  | tokens => (⟨none, none⟩, tokens)

/-- The full text of a tag; an undeclared handle has none. -/
def resolveTag? (handles : List (String × Tag)) :
    Option (String × Tag) → Option (Option Tag)
  | none => some none
  | some ("", suffix) => some (some suffix)
  | some (handle, suffix) => (handles.lookup handle).map fun lead => some (lead.append suffix)

/-- A node.  `block` lets block collections begin here, `indentless` also a sequence whose dashes
are not indented.  A node that has only properties is an empty scalar. -/
def node? (block indentless : Bool) (g : Grammar) (below : List Expectation) : Step :=
  match g.tokens with
  | .aliasOf name :: rest => some (.aliasOf name, g.to rest below)
  | tokens =>
    let (props, tokens) := properties tokens
    match resolveTag? g.handles props.tag with
    | none => none
    | some tag =>
      let anchor := props.anchor
      match tokens with
      | [] => none
      | .scalar style text :: rest =>
        some (.scalar anchor tag style text, g.to rest below)
      | .flowSequenceStart :: _ =>
        some (.sequenceStart anchor tag, g.to tokens (.flowSequenceEntry true :: below))
      | .flowMappingStart :: _ =>
        some (.mappingStart anchor tag, g.to tokens (.flowMappingKey true :: below))
      | token :: _ =>
        if indentless && token = .blockEntry then
          some (.sequenceStart anchor tag, g.to tokens (.indentlessEntry :: below))
        else if block && token = .blockSequenceStart then
          some (.sequenceStart anchor tag, g.to tokens (.blockSequenceEntry true :: below))
        else if block && token = .blockMappingStart then
          some (.mappingStart anchor tag, g.to tokens (.blockMappingKey true :: below))
        else if anchor.isSome || tag.isSome then
          some (.scalar anchor tag .plain "", g.to tokens below)
        else none

/-- A node, unless the next token is one of `stops`: then it is absent. -/
def nodeUnless? (stops : List Token) (block indentless : Bool) (g : Grammar)
    (below : List Expectation) : Step :=
  match g.tokens with
  | [] => none
  | token :: _ =>
    if token ∈ stops then some (absent, g.to g.tokens below) else node? block indentless g below

/-- A document's content, which may be absent. -/
def documentContent? (g : Grammar) (below : List Expectation) : Step :=
  match g.tokens with
  | .versionDirective .. :: _ | .tagDirective .. :: _ | .documentStart :: _ | .documentEnd :: _
  | .streamEnd :: _ => some (absent, g.to g.tokens below)
  | _ => node? true false g below

/-! ## §4 Block collections -/

def blockSequenceEntry? (first : Bool) (g : Grammar) (below : List Expectation) : Step :=
  match if first then g.tokens.drop 1 else g.tokens with
  | .blockEntry :: rest =>
    nodeUnless? [.blockEntry, .blockEnd] true false (g.to rest [])
      (.blockSequenceEntry false :: below)
  | .blockEnd :: rest => some (.collectionEnd, g.to rest below)
  | _ => none

/-- The entry of a sequence whose dashes are not indented, or its end. -/
def indentlessEntry? (g : Grammar) (below : List Expectation) : Step :=
  match g.tokens with
  | [] => none
  | .blockEntry :: rest =>
    nodeUnless? [.blockEntry, .key, .value, .blockEnd] true false (g.to rest [])
      (.indentlessEntry :: below)
  | tokens => some (.collectionEnd, g.to tokens below)

def blockMappingKey? (first : Bool) (g : Grammar) (below : List Expectation) : Step :=
  match if first then g.tokens.drop 1 else g.tokens with
  | .key :: rest =>
    nodeUnless? [.key, .value, .blockEnd] true true (g.to rest []) (.blockMappingValue :: below)
  | .blockEnd :: rest => some (.collectionEnd, g.to rest below)
  | _ => none

/-- The value of a block mapping, which may be absent. -/
def blockMappingValue? (g : Grammar) (below : List Expectation) : Step :=
  let below := .blockMappingKey false :: below
  match g.tokens with
  | [] => none
  | .value :: rest => nodeUnless? [.key, .value, .blockEnd] true true (g.to rest []) below
  | tokens => some (absent, g.to tokens below)

/-! ## §5 Flow collections -/

/-- Goes past the opening token of a flow collection before its first entry, and past a comma
before a later one. -/
def flowSeparator? (first : Bool) (close : Token) : List Token → Option (List Token)
  | token :: rest =>
    if first then some rest
    else if token = close then some (token :: rest)
    else if token = .flowEntry then some rest
    else none
  | [] => none

/-- The entry of a flow sequence, or its end.  An entry that begins with a key is a mapping of
one pair. -/
def flowSequenceEntry? (first : Bool) (g : Grammar) (below : List Expectation) : Step :=
  match flowSeparator? first .flowSequenceEnd g.tokens with
  | none => none
  | some (.flowSequenceEnd :: rest) => some (.collectionEnd, g.to rest below)
  | some (.key :: rest) =>
    some (.mappingStart none none,
      g.to rest (.flowPairKey :: .flowSequenceEntry false :: below))
  | some tokens => node? false false (g.to tokens []) (.flowSequenceEntry false :: below)

/-- The key of a pair in a flow sequence.  Where it is absent, the token that shows so is taken
with it. -/
def flowPairKey? (g : Grammar) (below : List Expectation) : Step :=
  let below := .flowPairValue :: below
  match g.tokens with
  | [] => none
  | .value :: rest | .flowEntry :: rest | .flowSequenceEnd :: rest =>
    some (absent, g.to rest below)
  | _ => node? false false g below

def flowPairValue? (g : Grammar) (below : List Expectation) : Step :=
  let below := .flowPairEnd :: below
  match g.tokens with
  | [] => none
  | .value :: rest => nodeUnless? [.flowEntry, .flowSequenceEnd] false false (g.to rest []) below
  | tokens => some (absent, g.to tokens below)

/-- The key of a flow mapping, or its end.  A key without an indicator has no value. -/
def flowMappingKey? (first : Bool) (g : Grammar) (below : List Expectation) : Step :=
  match flowSeparator? first .flowMappingEnd g.tokens with
  | none => none
  | some (.flowMappingEnd :: rest) => some (.collectionEnd, g.to rest below)
  | some (.key :: rest) =>
    nodeUnless? [.value, .flowEntry, .flowMappingEnd] false false (g.to rest [])
      (.flowMappingValue :: below)
  | some tokens => node? false false (g.to tokens []) (.flowMappingNoValue :: below)

def flowMappingValue? (g : Grammar) (below : List Expectation) : Step :=
  let below := .flowMappingKey false :: below
  match g.tokens with
  | [] => none
  | .value :: rest => nodeUnless? [.flowEntry, .flowMappingEnd] false false (g.to rest []) below
  | tokens => some (absent, g.to tokens below)

/-! ## §6 The stream -/

/-- The next event, if the tokens determine one. -/
def step? (g : Grammar) : Step :=
  match g.stack with
  | [] => none
  | expected :: below =>
    match expected with
    | .documentStart first => documentStart? first g below
    | .documentContent => documentContent? g below
    | .documentEnd => documentEnd? g below
    | .blockNode => node? true false g below
    | .blockSequenceEntry first => blockSequenceEntry? first g below
    | .indentlessEntry => indentlessEntry? g below
    | .blockMappingKey first => blockMappingKey? first g below
    | .blockMappingValue => blockMappingValue? g below
    | .flowSequenceEntry first => flowSequenceEntry? first g below
    | .flowPairKey => flowPairKey? g below
    | .flowPairValue => flowPairValue? g below
    | .flowPairEnd => some (.collectionEnd, g.to g.tokens below)
    | .flowMappingKey first => flowMappingKey? first g below
    | .flowMappingValue => flowMappingValue? g below
    | .flowMappingNoValue => some (absent, g.to g.tokens (.flowMappingKey false :: below))
    | .nothing => none

/-- The events from this state on, newest first.  No token gives rise to more than four events of
its own and of what it closes, so `fuel` is never used up. -/
def run : Nat → Grammar → List (Event String) → List (Event String)
  | 0, _, events => events
  | fuel + 1, g, events =>
    match step? g with
    | none => events
    | some (event, g) => run fuel g (event :: events)

/-- The events that the tokens determine.  They end with `streamEnd` when the grammar accepts all
of the tokens. -/
def ofTokens (tokens : List Token) : List (Event String) :=
  (run (8 * (tokens.length + 2)) ⟨tokens, [.documentStart true], []⟩ []).reverse

end Event

end PanelLayout.Yaml
