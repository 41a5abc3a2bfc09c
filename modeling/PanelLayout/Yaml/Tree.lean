import PanelLayout.Yaml.Event
import PanelLayout.Yaml.Token.Lexer

/-!
# Trees of a YAML document

A `Tree` is a document as it is written: scalars keep their text, style and tag, and an alias
stands for a copy of what its anchor names.  Where reading has to stop, the tree holds
`unreadable` with the cause, and everything before that place is there.

Two limits keep copies finite: collections nest at most `maxNesting` deep, also through aliases,
and a document of `n` events may follow at most `100 · n` aliases.
-/

namespace PanelLayout.Yaml

/-- Why a text cannot be read as one YAML document. -/
inductive Rejection where
  | malformed
  | unknownAlias
  | tooDeep
  | tooManyAliases
  | severalDocuments
  | duplicateKey
  | unfitScalar
  deriving DecidableEq, Repr

def Rejection.message : Rejection → String
  | malformed => "the text is malformed"
  | unknownAlias => "an alias names no anchor"
  | tooDeep => "the collections are nested too deeply"
  | tooManyAliases => "the aliases are followed too often"
  | severalDocuments => "the text holds more than one document"
  | duplicateKey => "a mapping repeats a key"
  | unfitScalar => "a scalar does not fit its type"

/-- A document as it is written, with its aliases replaced by what they name. -/
inductive Tree where
  | scalar (tag : Option Tag) (style : Style) (text : String)
  | sequence (tag : Option Tag) (items : List Tree)
  | mapping (tag : Option Tag) (entries : List (Tree × Tree))
  | unreadable (cause : Rejection)
  deriving Repr

namespace Tree

/-! ## §1 One document's events -/

/-- The events of one document with its anchors numbered.  `failure` tells why they are
incomplete; `later` are the events behind the document. -/
structure Excerpt where
  events : List (Event Nat)
  failure : Option Rejection
  later : List (Event String)

/-- The names of the anchors met so far, with their numbers. -/
abbrev AnchorNumbers := List (String × Nat)

/-- Numbers an anchor: it gets the count of the names known before it, and a name that is used
again is renumbered. -/
def numberAnchor (known : AnchorNumbers) : Option String → Option Nat × AnchorNumbers
  | none => (none, known)
  | some name => (some known.length, (known.filter (·.1 ≠ name)) ++ [(name, known.length)])

/-- The first document's events, newest first in `events`. -/
def excerptFrom (known : AnchorNumbers) (events : List (Event Nat)) :
    List (Event String) → Excerpt
  | [] => ⟨events.reverse, some .malformed, []⟩
  | .documentStart :: rest => excerptFrom known events rest
  | .documentEnd :: rest => ⟨events.reverse, none, rest⟩
  | .streamEnd :: _ => ⟨events.reverse, none, [.streamEnd]⟩
  | .scalar anchor tag style text :: rest =>
    let (number, known) := numberAnchor known anchor
    excerptFrom known (.scalar number tag style text :: events) rest
  | .sequenceStart anchor tag :: rest =>
    let (number, known) := numberAnchor known anchor
    excerptFrom known (.sequenceStart number tag :: events) rest
  | .mappingStart anchor tag :: rest =>
    let (number, known) := numberAnchor known anchor
    excerptFrom known (.mappingStart number tag :: events) rest
  | .collectionEnd :: rest => excerptFrom known (.collectionEnd :: events) rest
  | .aliasOf name :: rest =>
    match known.lookup name with
    | some number => excerptFrom known (.aliasOf number :: events) rest
    | none => ⟨events.reverse, some .unknownAlias, []⟩

/-! ## §2 From events to a tree -/

def anchorOf : Event Nat → Option Nat
  | .scalar anchor .. | .sequenceStart anchor _ | .mappingStart anchor _ => anchor
  | _ => none

/-- The events from the node on that an anchor's number names: the last that has it. -/
def locate? (number : Nat) : List (Event Nat) → Option (List (Event Nat))
  | [] => none
  | event :: rest =>
    match locate? number rest with
    | some found => some found
    | none => if anchorOf event = some number then some (event :: rest) else none

def maxNesting : Nat := 128

/-- What building needs to know of the document: all its events, and why they may be
incomplete. -/
structure Source where
  events : List (Event Nat)
  failure : Rejection

/-- The state of building: the events that remain, and how many aliases may still be followed. -/
structure Progress where
  events : List (Event Nat)
  aliases : Nat

mutual

/-- The next node, `depth` being the levels of nesting that are left.  Every call either takes an
event or follows an alias, and only collections lead deeper, so `fuel` is never used up. -/
def node (src : Source) (fuel depth : Nat) (here : Progress) : Tree × Progress :=
  match fuel with
  | 0 => (.unreadable .tooDeep, here)
  | fuel + 1 =>
    match here.events with
    | .scalar _ tag style text :: rest => (.scalar tag style text, ⟨rest, here.aliases⟩)
    | .aliasOf number :: rest =>
      match here.aliases, locate? number src.events with
      | aliases + 1, some target =>
        -- The copy is read from where the anchor stands; reading goes on behind the alias.
        let (tree, after) := node src fuel depth ⟨target, aliases⟩
        (tree, ⟨rest, after.aliases⟩)
      | _, _ => (.unreadable .tooManyAliases, ⟨[], 0⟩)
    | .sequenceStart _ tag :: rest =>
      match depth with
      | 0 => (.unreadable .tooDeep, ⟨[], 0⟩)
      | depth + 1 =>
        let (items, after) := nodes src fuel depth ⟨rest, here.aliases⟩
        (.sequence tag items, after)
    | .mappingStart _ tag :: rest =>
      match depth with
      | 0 => (.unreadable .tooDeep, ⟨[], 0⟩)
      | depth + 1 =>
        let (entries, after) := pairs src fuel depth ⟨rest, here.aliases⟩
        (.mapping tag entries, after)
    | _ => (.unreadable src.failure, ⟨[], here.aliases⟩)

def nodes (src : Source) (fuel depth : Nat) (here : Progress) : List Tree × Progress :=
  match fuel with
  | 0 => ([.unreadable .tooDeep], here)
  | fuel + 1 =>
    match here.events with
    | .collectionEnd :: rest => ([], ⟨rest, here.aliases⟩)
    | [] => ([.unreadable src.failure], here)
    | _ =>
      let (item, after) := node src fuel depth here
      let (items, after) := nodes src fuel depth after
      (item :: items, after)

def pairs (src : Source) (fuel depth : Nat) (here : Progress) : List (Tree × Tree) × Progress :=
  match fuel with
  | 0 => ([(.unreadable .tooDeep, .unreadable .tooDeep)], here)
  | fuel + 1 =>
    match here.events with
    | .collectionEnd :: rest => ([], ⟨rest, here.aliases⟩)
    | [] => ([(.unreadable src.failure, .unreadable src.failure)], here)
    | _ =>
      let (key, after) := node src fuel depth here
      let (value, after) := node src fuel depth after
      let (entries, after) := pairs src fuel depth after
      ((key, value) :: entries, after)

end

/-! ## §3 Documents -/

/-- A text read as one document: its root, and what is wrong behind the root. -/
structure Document where
  root : Tree
  trailing : Option Rejection

/-- The root of an excerpt.  A text without any document has an empty root. -/
def ofExcerpt (excerpt : Excerpt) : Tree :=
  if excerpt.events.isEmpty && excerpt.failure.isNone then .scalar none .plain ""
  else
    let count := excerpt.events.length
    let src : Source := ⟨excerpt.events, excerpt.failure.getD .malformed⟩
    (node src ((maxNesting + 2) * (2 * count + 2)) maxNesting ⟨excerpt.events, 100 * count⟩).1

/-- Reads the events of a text as one document. -/
def Document.ofEvents (events : List (Event String)) : Document :=
  let excerpt := excerptFrom [] [] events
  let trailing := match excerpt.failure, excerpt.later with
    | some cause, _ => some cause
    | none, [.streamEnd] => none
    | none, _ => some .severalDocuments
  ⟨ofExcerpt excerpt, trailing⟩

def Document.ofText (text : String) : Document :=
  .ofEvents (Event.ofTokens (Token.scan text.toList))

end Tree

end PanelLayout.Yaml
